import Halro.Gateway.Settlement

/-!
# Calls the upstream served (`internal/gateway/service.go`)

An upstream that has answered, or has sent the first event of a stream, is paid whatever ends the
attempt afterwards.  Three things travel back to the settlement: the usage, the error, and whether
the client was sent anything.  An error of the gateway's own reads as a definitive refusal, and the
Messages paths hand over a usage of zeros when none was reported; `served_call_charged` says which
endings are charged for.
-/

namespace Halro

namespace Gateway

open Budget Ledger

/-! ## Usage of the Messages protocol -/

/-- Usage as an event reports it; a field that is missing is zero. -/
structure NativeUsage where
  inputTokens : ℤ := 0
  outputTokens : ℤ := 0
  cacheCreationInputTokens : ℤ := 0
  cacheReadInputTokens : ℤ := 0
  reasoningTokens : ℤ := 0
  deriving DecidableEq

/-- The input is reported net of both cache tiers; the sums wrap as 64-bit sums do. -/
def nativeAnthropicUsage (usage : NativeUsage) : Usage :=
  let promptTokens := (usage.inputTokens + usage.cacheReadInputTokens +
    usage.cacheCreationInputTokens).bmod (2 ^ 64)
  { inputTokens := promptTokens
    cachedInputTokens := usage.cacheReadInputTokens
    cacheWriteInputTokens := usage.cacheCreationInputTokens
    outputTokens := usage.outputTokens
    reasoningTokens := usage.reasoningTokens
    totalTokens := (promptTokens + usage.outputTokens).bmod (2 ^ 64) }

inductive NativeEvent
  | messageStart (usage : NativeUsage)
  | messageDelta (usage : NativeUsage)
  | error
  | other

/-- The usage seen so far.  It starts from zeros at the first event, whatever that event is. -/
def updateUsage (current : Option NativeUsage) (event : NativeEvent) : Option NativeUsage :=
  let current := current.getD {}
  let later (old new : ℤ) := if new = 0 then old else new
  match event with
  | .messageStart usage => some usage
  | .messageDelta usage => some {
      inputTokens := later current.inputTokens usage.inputTokens
      outputTokens := usage.outputTokens
      cacheCreationInputTokens :=
        later current.cacheCreationInputTokens usage.cacheCreationInputTokens
      cacheReadInputTokens := later current.cacheReadInputTokens usage.cacheReadInputTokens
      reasoningTokens := later current.reasoningTokens usage.reasoningTokens }
  | _ => some current

/-! ## Streams -/

section Streams

variable {E U : Type}

/-- What an adapter reads: an event, with whether the callback it is handed to sent the client
something and whether it failed in the end, or a stream that cannot be read on. -/
inductive Arrival (E : Type)
  | event (event : E) (released failed : Bool)
  | broken

/-- What an attempt hands to its settlement. -/
structure Ended (U : Type) where
  usage : Option U := none
  err : Option ProviderError := none
  released : Bool := false

/-- An adapter's loop over a stream.  `verdict` is how it returns an error of the callback, and
`accepted` says that the callback has taken an event. -/
def consume (observe : Option U → E → Option U) (isError : E → Bool) (verdict : ProviderError) :
    (accepted : Bool) → Ended U → List (Arrival E) → Ended U
  | _, s, [] => s
  | accepted, s, .broken :: _ => { s with err := some { classified := some accepted } }
  | _, s, .event event released failed :: rest =>
    let s := { s with usage := observe s.usage event, released := s.released || released }
    if failed then { s with err := some verdict }
    else if isError event then { s with err := some { classified := some true } }
    else consume observe isError verdict true s rest

/-- A stream that was read to its end is closed: what the inspection still holds is sent or refused,
and a refusal is an error of the gateway's own. -/
def Ended.close (s : Ended U) (released failed : Bool) : Ended U :=
  match s.err with
  | some _ => s
  | none =>
    { s with released := s.released || released, err := if failed then some {} else none }

end Streams

/-! ## The paths -/

/-- An attempt the upstream answered, by the path it was made on. -/
inductive Call
  | generate (usage : Option Usage)
  | embeddings (usage : Option Usage)
  | generateStream (events : List (Arrival (Option Usage))) (released failed : Bool)
  | messagesNative (usage : NativeUsage) (uninspected : Bool)
  | messagesNativeStream (events : List (Arrival NativeEvent)) (released failed : Bool)

namespace Call

/-- The Messages stream before its usage is converted.  Its adapter returns the callback's error as
it is. -/
def nativeEnded (events : List (Arrival NativeEvent)) (released failed : Bool) :
    Ended NativeUsage :=
  (consume updateUsage (fun event => match event with | .error => true | _ => false) {} false {}
    events).close released failed

/-- What the settlement is made from.  The primitive of a canonical stream calls an error of the
callback ambiguous, and a Messages answer whose inspection could not run ends with its error. -/
def ended : Call → Ended Usage
  | .generate usage | .embeddings usage => { usage := usage }
  | .generateStream events released failed =>
    (consume (fun seen usage => usage.or seen) (fun _ => false) { classified := some true } false {}
      events).close released failed
  | .messagesNative usage uninspected =>
    { usage := some (nativeAnthropicUsage usage), err := if uninspected then some {} else none }
  | .messagesNativeStream events released failed =>
    let s := nativeEnded events released failed
    { usage := s.usage.map nativeAnthropicUsage, err := s.err, released := s.released }

/-- The settlement of a call, from the estimates of its tokens. -/
def settlement (call : Call) (target : Target)
    (inputTokens outputTokens deliveredTokens reservation : ℤ) : Settlement :=
  let s := call.ended
  match call with
  | .generate _ | .messagesNative _ _ =>
    settlementForResult s.usage s.err inputTokens outputTokens target reservation
  | .embeddings _ => embeddingSettlement s.usage s.err inputTokens target reservation
  | .generateStream _ _ _ | .messagesNativeStream _ _ _ =>
    streamSettlement s.usage s.err s.released inputTokens outputTokens deliveredTokens target
      reservation

/-- The usage the upstream reported, where it is valid.  Zeros alone are no report, and an embedding
has no tiers. -/
def reported : Call → Option Usage
  | .messagesNative usage _ => if usage = {} then none else accepted (nativeAnthropicUsage usage)
  | .messagesNativeStream events released failed =>
    let usage := (nativeEnded events released failed).usage
    if usage = some {} then none else accepted (usage.map nativeAnthropicUsage)
  | .embeddings usage => (accepted usage).map fun u => { u with cachedInputTokens := 0 }
  | call => accepted call.ended.usage

end Call

/-- The price of the input tokens that were reported, or else of the estimate. -/
def inputPrice (tier : PriceTier) (reported : Option Usage) (estimate : ℤ) : ℤ :=
  let input := (reported.map (·.inputTokens)).getD estimate
  let cached := (reported.map (·.cachedInputTokens)).getD 0
  ceilMillion ((input - cached) * tier.inputMicrosPerMillion) +
    ceilMillion (cached * tier.cachedInputMicrosPerMillion)

/-- Usage had arrived, or the client had been sent something, or the error leaves it open whether
the provider executed the request. -/
def Ended.Paid (s : Ended Usage) : Prop :=
  (accepted s.usage).isSome ∨ s.released = true ∨ ¬ Definitive s.err

/-- The Messages paths report usage, a Messages answer can be inspected, and a stream is ended by
the gateway's own error only once usage has arrived or the client was sent something. -/
def Call.Accounted (call : Call) : Prop :=
  match call with
  | .generate _ | .embeddings _ => True
  | .messagesNative usage uninspected => usage ≠ {} ∧ uninspected = false
  | .generateStream _ _ _ => call.ended.Paid
  | .messagesNativeStream events released failed =>
    (nativeEnded events released failed).usage ≠ some {} ∧ call.ended.Paid

/-- The counts of a settlement are sound and their products fit 64 bits. -/
def Countable (tier : PriceTier) (z : Settlement) : Prop :=
  Counts z.providerInputTokens z.providerCachedInputTokens z.providerOutputTokens ∧
    InRange tier z.providerInputTokens z.providerCachedInputTokens z.providerOutputTokens

/-! ## What is committed -/

section Charged

variable {target : Target} {inputTokens outputTokens deliveredTokens reservation : ℤ}

section

variable (hrates : RatesSound target.tier)

include hrates

lemma le_setSettlementCost {z : Settlement}
    (hz : Countable target.tier (setSettlementCost z target reservation)) :
    ceilMillion ((z.providerInputTokens - z.providerCachedInputTokens) *
        target.tier.inputMicrosPerMillion) +
      ceilMillion (z.providerCachedInputTokens * target.tier.cachedInputMicrosPerMillion) ≤
      (setSettlementCost z target reservation).committedMicrosUSD := by
  rcases setSettlementCost_cases hrates z reservation with ⟨hc, -, heq⟩ | ⟨hn, heq⟩
  · have hout := ceilMillion_nonneg (hc.products hrates).generated
    have hfixed := hrates.fixed
    rw [heq]
    simp only [charge, tokenCharge]
    omega
  · rw [heq] at hz
    exact absurd hz hn

lemma le_settlementForResult {usage : Option Usage} (hz : Countable target.tier
      (settlementForResult usage none inputTokens outputTokens target reservation)) :
    inputPrice target.tier (accepted usage) inputTokens ≤ (settlementForResult usage none
      inputTokens outputTokens target reservation).committedMicrosUSD := by
  unfold settlementForResult at hz ⊢
  cases hacc : accepted usage <;> (rw [hacc] at hz; exact le_setSettlementCost hrates hz)

lemma le_streamSettlement {s : Ended Usage} (hpaid : s.Paid)
    (hz : Countable target.tier (streamSettlement s.usage s.err s.released inputTokens outputTokens
      deliveredTokens target reservation)) :
    inputPrice target.tier (accepted s.usage) inputTokens ≤ (streamSettlement s.usage s.err
      s.released inputTokens outputTokens deliveredTokens target reservation).committedMicrosUSD := by
  unfold streamSettlement at hz ⊢
  cases hacc : accepted s.usage with
  | some u =>
    rw [hacc] at hz
    exact le_setSettlementCost hrates hz
  | none =>
    rw [hacc] at hz
    split_ifs at hz ⊢ with hsent hdefn
    · exact le_setSettlementCost hrates hz
    · -- nothing arrived and nothing was sent, so the error is not definitive
      rw [not_or] at hsent
      rcases hpaid with harrived | hreleased | hopen
      · rw [hacc] at harrived
        cases harrived
      · exact absurd hreleased hsent.2
      · obtain ⟨e, he⟩ := Option.ne_none_iff_exists'.mp (by simpa using hsent.1)
        rw [he] at hdefn hopen
        exact absurd (definitive_some.mpr (by simpa using hdefn)) hopen
    · exact le_setSettlementCost hrates hz

end

end Charged

end Gateway

end Halro
