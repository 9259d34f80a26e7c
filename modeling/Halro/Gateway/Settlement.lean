import Halro.Budget.Cost

/-!
# Settlements of the gateway (`internal/gateway/service.go`)

When an attempt ends, the gateway makes the settlement it hands to the budget manager from what the
provider reported and from the price that was pinned at reservation.  Three producers do so, for a
whole answer, a stream and an embedding.  The manager then checks the settlement's signs, that the
cache tiers stay within the input, and that the amount is the one the pinned price asks.  A
settlement it refuses leaves the reservation open.

`validSemanticUsage` looks at the input, the output and their total.  It does not look at the tiers,
which the producers copy, and the amount is computed with 64-bit products where the check uses
unbounded ones.  `settlement_accepted_iff` says exactly which reported usages come through.
-/

namespace Halro

open Framework

namespace Gateway

open Budget Ledger

/-! ## What a provider reports -/

structure Usage where
  inputTokens : ℤ
  cachedInputTokens : ℤ := 0
  cacheWriteInputTokens : ℤ := 0
  outputTokens : ℤ
  reasoningTokens : ℤ := 0
  totalTokens : ℤ

def maxAccountableTokens : ℤ := 1000000000000

def addTokens (left right : ℤ) : Option ℤ :=
  if left < 0 ∨ right < 0 ∨ maxInt64 - right < left then none else some (left + right)

def validSemanticUsage : Option Usage → Bool
  | none => false
  | some usage =>
    if usage.inputTokens < 0 ∨ usage.outputTokens < 0 ∨ usage.totalTokens < 0 then false
    else if maxAccountableTokens < usage.inputTokens ∨ maxAccountableTokens < usage.outputTokens ∨
        maxAccountableTokens < usage.totalTokens then false
    else
      match addTokens usage.inputTokens usage.outputTokens with
      | none => false
      | some total => decide (total ≤ usage.totalTokens)

/-- How a failure is described in the ledger and the log. -/
structure FailureDescriptor where
  phase : String := "provider"
  errorClass : String := ""
  providerStatus : ℤ := 0
  providerCode : String := ""
  providerFailureReason : String := ""
  providerRequestID : String := ""
  retryable : Bool := false
  ambiguous : Bool := false
  failureSemanticsRecorded : Bool := false

/-- An error that ended an attempt: the ambiguity its adapter gave it, if it classified it at all,
and how `describeProviderFailure` describes it. -/
structure ProviderError where
  classified : Option Bool := none
  descriptor : FailureDescriptor := {}

/-- The provider may still have executed the request. -/
def ambiguousProviderFailure (err : ProviderError) : Bool := err.classified.getD false

/-- The rates an attempt is settled at. -/
structure Target where
  inputMicrosPerMillion : ℤ
  cachedInputMicrosPerMillion : ℤ
  outputMicrosPerMillion : ℤ
  fixedRequestMicrosUSD : ℤ

/-- The rates as a price has them. -/
def Target.tier (t : Target) : PriceTier where
  inputMicrosPerMillion := t.inputMicrosPerMillion
  cachedInputMicrosPerMillion := t.cachedInputMicrosPerMillion
  outputMicrosPerMillion := t.outputMicrosPerMillion
  fixedRequestMicrosUSD := t.fixedRequestMicrosUSD

/-! ## The producers -/

def recordUsageTiers (result : Settlement) (usage : Usage) : Settlement :=
  { result with
    providerCachedInputTokens := usage.cachedInputTokens,
    providerCacheWriteInputTokens := usage.cacheWriteInputTokens,
    providerReasoningTokens := usage.reasoningTokens,
    costEstimated := decide (0 < usage.cacheWriteInputTokens) || result.costEstimated }

/-- The amount of a settlement; the reservation stands in for one that cannot be computed. -/
def setSettlementCost (result : Settlement) (target : Target) (reservationMicrosUSD : ℤ) :
    Settlement :=
  match estimateCostMicros {
      inputTokens := result.providerInputTokens,
      cachedInputTokens := result.providerCachedInputTokens,
      outputTokens := result.providerOutputTokens,
      inputMicrosPerMillion := target.inputMicrosPerMillion,
      cachedInputMicrosPerMillion := target.cachedInputMicrosPerMillion,
      outputMicrosPerMillion := target.outputMicrosPerMillion } with
  | .error _ => { result with committedMicrosUSD := reservationMicrosUSD, costEstimated := true }
  | .ok cost =>
    if maxInt64 - cost < target.fixedRequestMicrosUSD then
      { result with committedMicrosUSD := reservationMicrosUSD, costEstimated := true }
    else { result with committedMicrosUSD := cost + target.fixedRequestMicrosUSD }

/-- The usage the producers go by: a reported one that is valid. -/
def accepted (usage : Option Usage) : Option Usage :=
  if validSemanticUsage usage then usage else none

/-- A settlement with the tokens a provider reported. -/
def withUsage (result : Settlement) (usage : Usage) : Settlement :=
  recordUsageTiers { result with
    providerInputTokens := usage.inputTokens,
    providerOutputTokens := usage.outputTokens } usage

/-- A settlement with estimated tokens. -/
def withEstimate (result : Settlement) (inputTokens outputTokens : ℤ) : Settlement :=
  { result with
    providerInputTokens := inputTokens, providerOutputTokens := outputTokens,
    preparedOutputTokens := outputTokens, tokenEstimated := true, costEstimated := true }

def settlementForResult (usage : Option Usage) (providerErr : Option ProviderError)
    (estimatedInputTokens estimatedOutputTokens : ℤ) (target : Target)
    (reservationMicrosUSD : ℤ) : Settlement :=
  match providerErr with
  | some err =>
    if !ambiguousProviderFailure err then { outcome := "provider_error" }
    else
      match accepted usage with
      | some usage =>
        setSettlementCost (withUsage { outcome := "provider_error" } usage) target
          reservationMicrosUSD
      | none =>
        setSettlementCost (withEstimate { outcome := "provider_error" } estimatedInputTokens
          estimatedOutputTokens) target reservationMicrosUSD
  | none =>
    match accepted usage with
    | some usage =>
      setSettlementCost (withUsage { outcome := "success" } usage) target reservationMicrosUSD
    | none =>
      setSettlementCost (withEstimate { outcome := "success" } estimatedInputTokens
        estimatedOutputTokens) target reservationMicrosUSD

def cappedOutputEstimate (estimated delivered : ℤ) : ℤ :=
  if 0 < delivered ∧ delivered < estimated then delivered else estimated

/-- The outcome of an attempt that ended with an error or without one. -/
def outcomeOf (providerErr : Option ProviderError) : String :=
  if providerErr.isSome then "provider_error" else "success"

def streamSettlement (usage : Option Usage) (providerErr : Option ProviderError) (emitted : Bool)
    (estimatedInputTokens estimatedOutputTokens deliveredOutputTokens : ℤ) (target : Target)
    (reservationMicrosUSD : ℤ) : Settlement :=
  let result : Settlement := { outcome := outcomeOf providerErr }
  match accepted usage with
  | some usage => setSettlementCost (withUsage result usage) target reservationMicrosUSD
  | none =>
    if providerErr.isNone ∨ emitted then
      setSettlementCost (withEstimate result estimatedInputTokens
        (cappedOutputEstimate estimatedOutputTokens deliveredOutputTokens)) target
        reservationMicrosUSD
    else if !(providerErr.map ambiguousProviderFailure).getD false then result
    else
      setSettlementCost (withEstimate result estimatedInputTokens estimatedOutputTokens) target
        reservationMicrosUSD

/-- An embedding has input alone, and its tiers are not recorded. -/
def embeddingSettlement (usage : Option Usage) (providerErr : Option ProviderError)
    (estimatedInputTokens : ℤ) (target : Target) (reservationMicrosUSD : ℤ) : Settlement :=
  let result : Settlement := { outcome := outcomeOf providerErr }
  if (providerErr.map fun err => !ambiguousProviderFailure err).getD false then result
  else
    match accepted usage with
    | some usage =>
      setSettlementCost { result with providerInputTokens := usage.inputTokens } target
        reservationMicrosUSD
    | none =>
      setSettlementCost { result with
        providerInputTokens := estimatedInputTokens, tokenEstimated := true,
        costEstimated := true } target reservationMicrosUSD

/-- What the failure was, added to a settlement.  Times are in nanoseconds. -/
def enrichSettlement (result : Settlement) (providerErr : Option ProviderError)
    (startedAt completedAt : ℤ) : Settlement :=
  let result := if startedAt < completedAt then
      { result with latencyMillis := (completedAt - startedAt).tdiv 1000000 }
    else result
  match providerErr with
  | none =>
    if result.outcome = "success" then { result with httpStatus := 200 }
    else { result with failurePhase := "response_render" }
  | some err =>
    { result with
      errorClass := err.descriptor.errorClass, httpStatus := err.descriptor.providerStatus,
      providerCode := err.descriptor.providerCode,
      providerFailureReason := err.descriptor.providerFailureReason,
      providerRequestID := err.descriptor.providerRequestID,
      failurePhase := err.descriptor.phase, retryable := err.descriptor.retryable,
      ambiguous := err.descriptor.ambiguous,
      failureSemanticsRecorded := err.descriptor.failureSemanticsRecorded }

/-- `finish` up to the call of the manager: an attempt of unknown price commits nothing. -/
def finish (mode : LeaseMode) (providerErr : Option ProviderError) (settlement : Settlement)
    (startedAt completedAt : ℤ) : Settlement :=
  enrichSettlement (if mode = .unknownAllowed then
      { settlement with committedMicrosUSD := 0, costEstimated := false }
    else settlement) providerErr startedAt completedAt

/-! ## What the manager looks at -/

/-- The numbers and the outcome of a settlement, which is all the manager's checks read. -/
structure SameFigures (z w : Settlement) : Prop where
  committed : w.committedMicrosUSD = z.committedMicrosUSD
  input : w.providerInputTokens = z.providerInputTokens
  output : w.providerOutputTokens = z.providerOutputTokens
  cached : w.providerCachedInputTokens = z.providerCachedInputTokens
  written : w.providerCacheWriteInputTokens = z.providerCacheWriteInputTokens
  reasoning : w.providerReasoningTokens = z.providerReasoningTokens
  prepared : w.preparedOutputTokens = z.preparedOutputTokens
  outcome : w.outcome = z.outcome

lemma sameFigures_finish {mode : LeaseMode} (hmode : mode ≠ .unknownAllowed)
    (err : Option ProviderError) (z : Settlement) (startedAt completedAt : ℤ) :
    SameFigures z (finish mode err z startedAt completedAt) := by
  unfold finish enrichSettlement
  simp only
  cases err <;> split_ifs <;> constructor <;> rfl

section Checks

variable {D : Type} {cat : Catalogue D} {a : Attempt} {price : PriceSnapshot}

/-- The manager takes the settlement. -/
def Settles (cat : Catalogue D) (a : Attempt) (z : Settlement) : Prop :=
  ∀ eventID now, ∃ e, settle cat eventID now a z = .ok e

variable {z : Settlement}

lemma settles_iff : Settles cat a z ↔
    checkSettlementNumbers z = .ok () ∧ ∃ cost, settlementCost cat a z = .ok cost := by
  unfold Settles settle
  constructor
  · intro h
    obtain ⟨e, he⟩ := h "" 0
    split at he
    · cases he
    · rename_i hnums
      split at he
      · cases he
      · rename_i cost hcost
        exact ⟨hnums, cost, hcost⟩
  · rintro ⟨hnums, cost, hcost⟩ eventID now
    exact ⟨settledEvent eventID now a z cost, by rw [hnums, hcost]⟩

lemma SameFigures.settles_iff {z w : Settlement} (h : SameFigures z w) :
    Settles cat a w ↔ Settles cat a z := by
  have hnums : checkSettlementNumbers w = checkSettlementNumbers z := by
    unfold checkSettlementNumbers
    rw [h.committed, h.input, h.output, h.cached, h.written, h.reasoning, h.prepared]
  have hunsv : unservedSettlement w = unservedSettlement z := by
    unfold unservedSettlement
    rw [h.committed, h.input, h.output, h.cached, h.written, h.outcome]
  have hcost : settlementCost cat a w = settlementCost cat a z := by
    unfold settlementCost
    rw [hunsv, h.committed, h.input, h.output, h.cached]
  rw [Gateway.settles_iff, Gateway.settles_iff, hnums, hcost]

/-! ## Signs and tiers -/

/-- What the manager asks of a settlement's token counts; the sum of the tiers wraps as a 64-bit sum
does. -/
structure TiersSound (z : Settlement) : Prop where
  counts : Counts z.providerInputTokens z.providerCachedInputTokens z.providerOutputTokens
  written : 0 ≤ z.providerCacheWriteInputTokens
  reasoning : 0 ≤ z.providerReasoningTokens
  prepared : 0 ≤ z.preparedOutputTokens
  within : (z.providerCachedInputTokens + z.providerCacheWriteInputTokens).bmod (2 ^ 64) ≤
    z.providerInputTokens

lemma checkSettlementNumbers_eq_ok : checkSettlementNumbers z = .ok () ↔
    (0 ≤ z.committedMicrosUSD ∧ 0 ≤ z.providerInputTokens ∧ 0 ≤ z.providerOutputTokens ∧
      0 ≤ z.providerCachedInputTokens ∧ 0 ≤ z.providerCacheWriteInputTokens ∧
      0 ≤ z.providerReasoningTokens ∧ 0 ≤ z.preparedOutputTokens) ∧
    (z.providerCachedInputTokens + z.providerCacheWriteInputTokens).bmod (2 ^ 64) ≤
      z.providerInputTokens := by
  unfold checkSettlementNumbers
  rw [guard_eq_ok, guard_eq_ok]
  push Not
  simp only [and_true]

/-- A pinned price, as an attempt carries it. -/
structure Pinned (cat : Catalogue D) (a : Attempt) (price : PriceSnapshot) : Prop where
  pinned : a.priceSnapshot = some price
  valid : price.validate cat.knownZone = .ok ()
  known : price.costValueStatus = .known
  /-- The fixed fee is a 64-bit number. -/
  fixed : price.tier.fixedRequestMicrosUSD ≤ maxInt64

/-- The cost check of an attempt with a pinned price. -/
lemma Pinned.settlementCost_ok (hp : Pinned cat a price) :
    (∃ cost, settlementCost cat a z = .ok cost) ↔ unservedSettlement z = true ∨
        ∃ cost, price.calculate cat.knownZone z.providerInputTokens z.providerCachedInputTokens
          z.providerOutputTokens = .ok cost ∧ cost.totalCostMicrosUSD = z.committedMicrosUSD := by
  unfold settlementCost
  rw [hp.pinned]
  simp only [hp.known, true_and]
  cases hunsv : unservedSettlement z with
  | true => simp
  | false =>
    cases hcost : price.calculate cat.knownZone z.providerInputTokens z.providerCachedInputTokens
        z.providerOutputTokens with
    | error err => simp
    | ok cost =>
      by_cases hsame : cost.totalCostMicrosUSD = z.committedMicrosUSD
      · simp [hsame]
      · simp [hsame]

/-! ## The amount -/

/-- What `setSettlementCost` does: it sets the amount both arithmetics come to, or the reservation
when the counts or the 64-bit products do not allow it. -/
lemma setSettlementCost_cases {target : Target} (hrates : RatesSound target.tier) (z : Settlement)
    (reservation : ℤ) :
    (Counts z.providerInputTokens z.providerCachedInputTokens z.providerOutputTokens ∧
      InRange target.tier z.providerInputTokens z.providerCachedInputTokens z.providerOutputTokens ∧
      setSettlementCost z target reservation = { z with
        committedMicrosUSD := charge target.tier z.providerInputTokens
          z.providerCachedInputTokens z.providerOutputTokens }) ∨
    (¬ (Counts z.providerInputTokens z.providerCachedInputTokens z.providerOutputTokens ∧
        InRange target.tier z.providerInputTokens z.providerCachedInputTokens
          z.providerOutputTokens) ∧
      setSettlementCost z target reservation = { z with
        committedMicrosUSD := reservation, costEstimated := true }) := by
  have hfixed := hrates.fixed
  change 0 ≤ target.fixedRequestMicrosUSD at hfixed
  unfold setSettlementCost
  split
  · rename_i err herr
    refine Or.inr ⟨fun ⟨hc, hi, hca, ho, hsum⟩ => ?_, rfl⟩
    change _ + target.fixedRequestMicrosUSD ≤ maxInt64 at hsum
    cases herr.symm.trans ((estimateCostMicros_ok hrates).mpr ⟨hc, ⟨hi, hca, ho, by omega⟩, rfl⟩)
  · rename_i cost hcost
    obtain ⟨hc, ⟨hi, hca, ho, -⟩, rfl⟩ := (estimateCostMicros_ok hrates).mp hcost
    have hcharge : charge target.tier z.providerInputTokens z.providerCachedInputTokens
        z.providerOutputTokens = tokenCharge target.tier z.providerInputTokens
          z.providerCachedInputTokens z.providerOutputTokens + target.fixedRequestMicrosUSD := rfl
    split_ifs with hover
    · refine Or.inr ⟨fun ⟨_, _, _, _, hsum⟩ => ?_, rfl⟩
      omega
    · exact Or.inl ⟨hc, ⟨hi, hca, ho, by omega⟩, rfl⟩

/-- The amount of a settlement with these counts is one the pinned price agrees with: the products
fit 64 bits, or the price asks just what was reserved. -/
def Chargeable (cat : Catalogue D) (price : PriceSnapshot) (input cached output reservation : ℤ) :
    Prop :=
  InRange price.tier input cached output ∨
    ∃ cost, price.calculate cat.knownZone input cached output = .ok cost ∧
      cost.totalCostMicrosUSD = reservation

/-- Counts of zero are in range. -/
lemma Pinned.inRange_zero (hp : Pinned cat a price) : InRange price.tier 0 0 0 := by
  have hfixed := hp.fixed
  have hmax : (0 : ℤ) ≤ maxInt64 := by decide
  refine ⟨by simpa using hmax, by simpa using hmax, by simpa using hmax, ?_⟩
  simpa [charge, tokenCharge, ceilMillion] using hfixed

/-- **When a priced settlement is taken.** -/
theorem settles_setSettlementCost_iff (hp : Pinned cat a price) {target : Target}
    (hrates : target.tier = price.tier) (z : Settlement) (reservation : ℤ) :
    Settles cat a (setSettlementCost z target reservation) ↔
      TiersSound z ∧ Chargeable cat price z.providerInputTokens z.providerCachedInputTokens
        z.providerOutputTokens reservation := by
  have hsound := (tier_of_validate hp.valid hp.known).1
  rw [settles_iff, checkSettlementNumbers_eq_ok, hp.settlementCost_ok]
  rcases setSettlementCost_cases (by rw [hrates]; exact hsound) z reservation with
    ⟨hc, hr, heq⟩ | ⟨hn, heq⟩
  · rw [hrates] at hr heq
    rw [heq]
    have hprods := hc.products hsound
    have h₁ := ceilMillion_nonneg hprods.uncached
    have h₂ := ceilMillion_nonneg hprods.fromCache
    have h₃ := ceilMillion_nonneg hprods.generated
    have h₄ := hsound.fixed
    have hcharge : 0 ≤ charge price.tier z.providerInputTokens z.providerCachedInputTokens
        z.providerOutputTokens := by
      unfold charge tokenCharge
      omega
    constructor
    · rintro ⟨⟨⟨-, -, -, -, hwrit, hrsng, hpred⟩, hwithin⟩, -⟩
      exact ⟨⟨hc, hwrit, hrsng, hpred, hwithin⟩, Or.inl hr⟩
    · rintro ⟨ht, -⟩
      have hinput : 0 ≤ z.providerInputTokens := hc.fromCache.trans hc.within
      exact ⟨⟨⟨hcharge, hinput, hc.generated, hc.fromCache, ht.written, ht.reasoning, ht.prepared⟩,
        ht.within⟩, Or.inr ((calculate_total_iff hp.valid hp.known hc).mpr ⟨hr.2.2.2, rfl⟩)⟩
  · rw [hrates] at hn
    rw [heq]
    constructor
    · rintro ⟨⟨⟨-, hinput, hout, hcached, hwrit, hrsng, hpred⟩, hwithin⟩, hcost⟩
      rcases hcost with hunsv | ⟨cost, hcost, htotal⟩
      · -- an unserved settlement has no tokens, and those are in range
        simp only [unservedSettlement, Bool.and_eq_true, decide_eq_true_eq] at hunsv
        obtain ⟨⟨⟨⟨⟨-, hi⟩, ho⟩, hca⟩, -⟩, -⟩ := hunsv
        refine absurd ⟨?_, ?_⟩ hn
        · rw [hi, ho, hca]
          exact ⟨le_refl 0, le_refl 0, le_refl 0⟩
        · rw [hi, ho, hca]
          exact hp.inRange_zero
      · have hle := (calculate_ok hp.valid hp.known hcost).1
        exact ⟨⟨⟨hcached, hle, hout⟩, hwrit, hrsng, hpred, hwithin⟩, Or.inr ⟨cost, hcost, htotal⟩⟩
    · rintro ⟨ht, hr | ⟨cost, hcost, htotal⟩⟩
      · exact absurd ⟨ht.counts, hr⟩ hn
      · have hnn := (calculate_ok hp.valid hp.known hcost).2
        have hinput : 0 ≤ z.providerInputTokens := ht.counts.fromCache.trans ht.counts.within
        exact ⟨⟨⟨by rw [← htotal]; exact hnn, hinput, ht.counts.generated, ht.counts.fromCache,
          ht.written, ht.reasoning, ht.prepared⟩, ht.within⟩, Or.inr ⟨cost, hcost, htotal⟩⟩

/-! ## Two formulas -/

/-- The gateway comes to the amount the pinned price asks, or takes the reservation where the price
has none. -/
def SameCost (knownZone : String → Bool) (price : PriceSnapshot) (target : Target)
    (z : Settlement) : Prop :=
  ∀ reservation, setSettlementCost z target reservation =
    match price.calculate knownZone z.providerInputTokens z.providerCachedInputTokens
        z.providerOutputTokens with
    | .ok cost => { z with committedMicrosUSD := cost.totalCostMicrosUSD }
    | .error _ => { z with committedMicrosUSD := reservation, costEstimated := true }

/-- Every 64-bit product of the gateway's formula fits. -/
def ProductsFit (t : PriceTier) (input cached output : ℤ) : Prop :=
  (input - cached) * t.inputMicrosPerMillion ≤ maxInt64 ∧
    cached * t.cachedInputMicrosPerMillion ≤ maxInt64 ∧
    output * t.outputMicrosPerMillion ≤ maxInt64

/-- The numbers of a settlement are not negative and fit 64 bits. -/
structure Figures (z : Settlement) : Prop where
  nonneg : 0 ≤ z.committedMicrosUSD ∧ 0 ≤ z.providerInputTokens ∧ 0 ≤ z.providerOutputTokens ∧
    0 ≤ z.providerCachedInputTokens ∧ 0 ≤ z.providerCacheWriteInputTokens ∧
    0 ≤ z.providerReasoningTokens ∧ 0 ≤ z.preparedOutputTokens
  input : z.providerInputTokens ≤ maxInt64
  cached : z.providerCachedInputTokens ≤ maxInt64
  written : z.providerCacheWriteInputTokens ≤ maxInt64

/-- The check of the tiers decides as over the integers exactly when their sum does not wrap. -/
lemma checkSettlementNumbers_exact_iff (hz : Figures z) : (checkSettlementNumbers z = .ok () ↔
      z.providerCachedInputTokens + z.providerCacheWriteInputTokens ≤ z.providerInputTokens) ↔
      z.providerCachedInputTokens + z.providerCacheWriteInputTokens ≤ maxInt64 := by
  obtain ⟨hnn, hinput, hcached, hwrit⟩ := hz
  rw [checkSettlementNumbers_eq_ok, and_iff_right hnn]
  unfold maxInt64 at *
  rcases le_or_gt (z.providerCachedInputTokens + z.providerCacheWriteInputTokens)
    9223372036854775807 with hle | hgt
  · rw [Int.bmod_eq_of_le (by omega) (by omega)]
    simpa using hle
  · have hwrapped : (z.providerCachedInputTokens + z.providerCacheWriteInputTokens).bmod (2 ^ 64) =
        z.providerCachedInputTokens + z.providerCacheWriteInputTokens - 2 ^ 64 := by
      rw [← Int.sub_bmod_right, Int.bmod_eq_of_le (by omega) (by omega)]
      omega
    omega

/-- **Two cost formulas.**  For every pinned price, settled at its rates, and every settlement with
64-bit numbers and the cached tokens among the input: an amount either formula comes to is the sum of
the components, each rounded up, and the fee.  They come to it together exactly when the amount does
not fit or every product of the gateway's does, and the check of the tiers is exact as long as their
sum does not wrap. -/
theorem cost_formulas_agree_iff {knownZone : String → Bool} {price : PriceSnapshot}
    (hvalid : price.validate knownZone = .ok ()) (hknown : price.costValueStatus = .known)
    {target : Target} (hrates : target.tier = price.tier) {z : Settlement} (hz : Figures z)
    (hwithin : z.providerCachedInputTokens ≤ z.providerInputTokens) :
    let input := z.providerInputTokens
    let cached := z.providerCachedInputTokens
    let output := z.providerOutputTokens
    let amount := charge price.tier input cached output
    (SameCost knownZone price target z ↔
      (amount ≤ maxInt64 → ProductsFit price.tier input cached output)) ∧
    (∀ cost, price.calculate knownZone input cached output = .ok cost →
      cost.totalCostMicrosUSD = amount) ∧
    (∀ reservation, setSettlementCost z target reservation = { z with committedMicrosUSD := amount } ∨
      setSettlementCost z target reservation =
        { z with committedMicrosUSD := reservation, costEstimated := true }) ∧
    ((checkSettlementNumbers z = .ok () ↔ cached + z.providerCacheWriteInputTokens ≤ input) ↔
      cached + z.providerCacheWriteInputTokens ≤ maxInt64) := by
  intro input cached output amount
  have hc : Counts input cached output := ⟨hz.nonneg.2.2.2.1, hwithin, hz.nonneg.2.2.1⟩
  have hprice := fun total => (calculate_total_iff hvalid hknown hc : _ ↔ _ ∧ _ = total)
  have hgw := setSettlementCost_cases (by rw [hrates]; exact (tier_of_validate hvalid hknown).1) z
  rw [hrates] at hgw
  refine ⟨?_, fun cost hcost => ((hprice _).mp ⟨cost, hcost, rfl⟩).2.symm, fun reservation => ?_,
    checkSettlementNumbers_exact_iff hz⟩
  · constructor
    · intro hsame hle
      obtain ⟨cost, hcost, htotal⟩ := (hprice amount).mpr ⟨hle, rfl⟩
      -- Another reservation than the amount tells the two apart.
      rcases hgw (amount + 1) with ⟨-, hr, -⟩ | ⟨-, heq⟩
      · exact ⟨hr.1, hr.2.1, hr.2.2.1⟩
      · have hcmtd := congrArg (·.committedMicrosUSD) (heq.symm.trans (hsame (amount + 1)))
        simp only [input, cached, output, hcost, htotal] at hcmtd
        omega
    · intro hfit reservation
      split
      · rename_i cost hcost
        obtain ⟨hle, htotal⟩ := (hprice _).mp ⟨cost, hcost, rfl⟩
        obtain ⟨hi, hca, ho⟩ := hfit hle
        rcases hgw reservation with ⟨-, -, heq⟩ | ⟨hn, -⟩
        · rw [heq, ← htotal]
        · exact absurd ⟨hc, hi, hca, ho, hle⟩ hn
      · rename_i err herr
        rcases hgw reservation with ⟨-, hr, -⟩ | ⟨-, heq⟩
        · obtain ⟨cost, hcost, -⟩ := (hprice amount).mpr ⟨hr.2.2.2, rfl⟩
          cases herr.symm.trans hcost
        · exact heq
  · exact (hgw reservation).imp (·.2.2) (·.2)

/-- A settlement of nothing, for an attempt that did not succeed, is always taken. -/
lemma Pinned.settles_unserved (hp : Pinned cat a price) :
    Settles cat a { outcome := "provider_error" } := by
  rw [settles_iff, hp.settlementCost_ok, checkSettlementNumbers_eq_ok]
  exact ⟨by decide, Or.inl (by decide)⟩

/-! ## Reported usage -/

/-- The tiers a provider reported are a breakdown of its input; their sum wraps as a 64-bit sum
does. -/
structure Usage.Tiered (u : Usage) : Prop where
  cached : 0 ≤ u.cachedInputTokens
  written : 0 ≤ u.cacheWriteInputTokens
  reasoning : 0 ≤ u.reasoningTokens
  fromInput : u.cachedInputTokens ≤ u.inputTokens
  within : (u.cachedInputTokens + u.cacheWriteInputTokens).bmod (2 ^ 64) ≤ u.inputTokens

/-- The attempt ended with an error after which the provider cannot have executed the request. -/
def Definitive (err : Option ProviderError) : Prop :=
  ∃ e, err = some e ∧ ambiguousProviderFailure e = false

@[simp] lemma not_definitive_none : ¬ Definitive none := fun ⟨e, he, _⟩ => by cases he

@[simp] lemma definitive_some {e : ProviderError} :
    Definitive (some e) ↔ ambiguousProviderFailure e = false := by
  simp [Definitive]

variable {u : Usage}

section

variable (hu : validSemanticUsage (some u) = true)

include hu

lemma accepted_of_valid : accepted (some u) = some u := by
  rw [accepted, if_pos hu]

lemma nonneg_of_valid : 0 ≤ u.inputTokens ∧ 0 ≤ u.outputTokens := by
  unfold validSemanticUsage at hu
  simp only at hu
  split_ifs at hu with hsigns
  omega

/-- A settlement with reported tokens is sound exactly when the reported tiers are. -/
lemma tiersSound_withUsage
    (outcome : String) : TiersSound (withUsage { outcome := outcome } u) ↔ u.Tiered := by
  constructor
  · rintro ⟨hc, hwrit, hrsng, -, hwithin⟩
    exact ⟨hc.fromCache, hwrit, hrsng, hc.within, hwithin⟩
  · rintro ⟨hcached, hwrit, hrsng, hfrom, hwithin⟩
    exact ⟨⟨hcached, hfrom, (nonneg_of_valid hu).2⟩, hwrit, hrsng, le_refl 0, hwithin⟩

/-- A settlement with input alone is sound. -/
lemma tiersSound_input (outcome : String) :
    TiersSound { outcome := outcome, providerInputTokens := u.inputTokens } := by
  have hinput := (nonneg_of_valid hu).1
  exact ⟨⟨le_refl 0, hinput, le_refl 0⟩, le_refl 0, le_refl 0, le_refl 0, by simpa using hinput⟩

end

section Producers

variable {target : Target} {u : Usage}

/-- Reported usage at the pinned rates. -/
lemma settles_withUsage_iff (hp : Pinned cat a price) (hrates : target.tier = price.tier)
    (hu : validSemanticUsage (some u) = true) (outcome : String) (reservation : ℤ) :
    Settles cat a (setSettlementCost (withUsage { outcome := outcome } u) target reservation) ↔
      u.Tiered ∧ Chargeable cat price u.inputTokens u.cachedInputTokens u.outputTokens
        reservation := by
  rw [settles_setSettlementCost_iff hp hrates, tiersSound_withUsage hu]
  rfl

lemma settlementForResult_settles_iff (hp : Pinned cat a price) (hrates : target.tier = price.tier)
    (hu : validSemanticUsage (some u) = true) (err : Option ProviderError)
    (inputTokens outputTokens reservation : ℤ) :
    Settles cat a (settlementForResult (some u) err inputTokens outputTokens target reservation) ↔
      Definitive err ∨ u.Tiered ∧ Chargeable cat price u.inputTokens u.cachedInputTokens
        u.outputTokens reservation := by
  unfold settlementForResult
  rw [accepted_of_valid hu]
  cases err with
  | none =>
    simp only [not_definitive_none, false_or]
    exact settles_withUsage_iff hp hrates hu "success" reservation
  | some e =>
    cases hamb : ambiguousProviderFailure e with
    | false => simpa [hamb] using hp.settles_unserved
    | true =>
      simp only [definitive_some, hamb, Bool.not_true, Bool.false_eq_true, if_false,
        Bool.true_eq_false, false_or]
      exact settles_withUsage_iff hp hrates hu "provider_error" reservation

lemma embeddingSettlement_settles_iff (hp : Pinned cat a price) (hrates : target.tier = price.tier)
    (hu : validSemanticUsage (some u) = true) (err : Option ProviderError)
    (inputTokens reservation : ℤ) :
    Settles cat a (embeddingSettlement (some u) err inputTokens target reservation) ↔
      Definitive err ∨ Chargeable cat price u.inputTokens 0 0 reservation := by
  have priced : ∀ outcome, Settles cat a (setSettlementCost
      { outcome := outcome, providerInputTokens := u.inputTokens } target reservation) ↔
        Chargeable cat price u.inputTokens 0 0 reservation := by
    intro outcome
    rw [settles_setSettlementCost_iff hp hrates]
    exact and_iff_right (tiersSound_input hu outcome)
  unfold embeddingSettlement
  rw [accepted_of_valid hu]
  cases err with
  | none =>
    simp only [not_definitive_none, false_or]
    exact priced _
  | some e =>
    cases hamb : ambiguousProviderFailure e with
    | false => simpa [hamb, outcomeOf] using hp.settles_unserved
    | true =>
      simp only [definitive_some, hamb, Option.map_some, Option.getD_some, Bool.not_true,
        Bool.false_eq_true, if_false, Bool.true_eq_false, false_or]
      exact priced _

/-- **Which settlements are taken.**  For every usage `validSemanticUsage` accepts, every error, and
an attempt settled at the rates of its pinned price: the settlement of a whole answer or a stream
passes the manager's checks exactly when the reported tiers are a breakdown of the input and the
amount can be charged; a definitive failure of a whole answer or an embedding always does; and an
embedding, which has no tiers, needs its amount to be chargeable alone. -/
theorem settlement_accepted_iff (cat : Catalogue D) {a : Attempt} {price : PriceSnapshot}
    (hp : Pinned cat a price) (hmode : a.leaseMode ≠ .unknownAllowed) {target : Target}
    (hrates : target.tier = price.tier) {u : Usage} (hu : validSemanticUsage (some u) = true)
    (err : Option ProviderError) (emitted : Bool)
    (inputTokens outputTokens delivered reservation startedAt completedAt : ℤ) :
    (Settles cat a (finish a.leaseMode err (settlementForResult (some u) err inputTokens
        outputTokens target reservation) startedAt completedAt) ↔
      Definitive err ∨ u.Tiered ∧
        Chargeable cat price u.inputTokens u.cachedInputTokens u.outputTokens reservation) ∧
    (Settles cat a (finish a.leaseMode err (streamSettlement (some u) err emitted inputTokens
        outputTokens delivered target reservation) startedAt completedAt) ↔
      u.Tiered ∧
        Chargeable cat price u.inputTokens u.cachedInputTokens u.outputTokens reservation) ∧
    (Settles cat a (finish a.leaseMode err (embeddingSettlement (some u) err inputTokens target
        reservation) startedAt completedAt) ↔
      Definitive err ∨ Chargeable cat price u.inputTokens 0 0 reservation) := by
  refine ⟨?_, ?_, ?_⟩ <;> rw [(sameFigures_finish hmode _ _ _ _).settles_iff]
  · exact settlementForResult_settles_iff hp hrates hu err inputTokens outputTokens reservation
  · unfold streamSettlement
    rw [accepted_of_valid hu]
    exact settles_withUsage_iff hp hrates hu _ reservation
  · exact embeddingSettlement_settles_iff hp hrates hu err inputTokens reservation

end Producers

end Checks

/-! ## A stream that breaks off -/

section Sample

/-- A metered price an operator entered by hand. -/
def Sample.price : PriceSnapshot where
  pricingSelectedAt := ⟨2, 0⟩
  priceEvidenceStatus := .versioned
  costValueStatus := .known
  priceVersionID := "price_1"
  priceVersion := some 1
  billingMode := .metered
  currency := "USD"
  formulaVersion := "usd_token_v1"
  inputMicrosPerMillion := some 3000000
  cachedInputMicrosPerMillion := some 300000
  outputMicrosPerMillion := some 15000000
  fixedRequestMicrosUSD := some 0
  effectiveFrom := some ⟨1, 0⟩
  sourceType := .manual
  sourceAssurance := .asserted
  sourceReference := "price list"
  sourceWithoutArchive := true

/-- The target at the rates of that price. -/
def Sample.target : Target where
  inputMicrosPerMillion := 3000000
  cachedInputMicrosPerMillion := 300000
  outputMicrosPerMillion := 15000000
  fixedRequestMicrosUSD := 0

def Sample.attempt : Attempt where
  requestID := "req_1"
  attemptID := "att_1"
  projectID := "prj_1"
  period := { id := "2026-05-01" }
  leaseMode := .metered
  priceSnapshot := some Sample.price

lemma Sample.pinned : Pinned Catalogue.bare Sample.attempt Sample.price :=
  ⟨rfl, by decide +kernel, rfl, by decide⟩

/-- An answer whose prompt was served from the cache for the most part is settled. -/
theorem settlement_accepted_cached :
    Settles Catalogue.bare Sample.attempt (finish .metered none (settlementForResult
      (some { inputTokens := 4108, cachedInputTokens := 4096, outputTokens := 40,
              totalTokens := 4148 }) none 5000 1000 Sample.target 30000) 0 0) :=
  (settlement_accepted_iff Catalogue.bare Sample.pinned (by decide) rfl (by decide) none false 5000
    1000 0 30000 0 0).1.mpr (Or.inr ⟨⟨by decide, by decide, by decide, by decide, by decide⟩,
      Or.inl (by decide)⟩)

theorem cost_formulas_agree_cached : SameCost Catalogue.bare.knownZone Sample.price Sample.target
      { outcome := "success", providerInputTokens := 4108, providerCachedInputTokens := 4096,
        providerOutputTokens := 40 } :=
  (cost_formulas_agree_iff (by decide +kernel) rfl rfl ⟨by decide, by decide, by decide, by decide⟩
    (by decide)).1.mpr fun _ => ⟨by decide, by decide, by decide⟩

/-- A million million tokens at fifteen dollars a million: the price asks fifteen million dollars, and
the gateway commits what was reserved.  Tiers whose sum wraps are taken for a part of the input. -/
theorem cost_formulas_differ :
    (Sample.price.calculate Catalogue.bare.knownZone 0 0 1000000000000).toOption =
        some ⟨0, 15000000000000, 0, 15000000000000⟩ ∧
      (setSettlementCost { outcome := "success", providerOutputTokens := 1000000000000 }
        Sample.target 30000).committedMicrosUSD = 30000 ∧
      checkSettlementNumbers
        { outcome := "success", providerInputTokens := 1, providerCachedInputTokens := 1,
          providerCacheWriteInputTokens := maxInt64 } = .ok () := by
  decide +kernel

/-- Usage that counts the input without the cached span, and the cached span beside it. -/
def Sample.usage : Usage where
  inputTokens := 12
  cachedInputTokens := 4096
  outputTokens := 40
  totalTokens := 52

/-- The settlement of a stream that broke off after an event with that usage. -/
def Sample.broken : Settlement :=
  finish .metered (some { classified := some true }) (streamSettlement (some Sample.usage)
    (some { classified := some true }) true 5000 1000 300 Sample.target 30000) 0 0

/-- The usage is valid, and the settlement is refused. -/
theorem uncounted_cache_refused : validSemanticUsage (some Sample.usage) = true ∧
      settle Catalogue.bare "evt_9" 7 Sample.attempt Sample.broken = .error .invalidAmount := by
  refine ⟨by decide, ?_⟩
  have hnums : checkSettlementNumbers Sample.broken = .error .invalidAmount := by decide
  rw [settle, hnums]

end Sample

end Gateway

end Halro
