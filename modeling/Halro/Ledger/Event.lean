import Halro.Framework.Outcome
import Halro.Domain.Pricing

/-!
# Ledger events and their checks (`internal/ledger/event.go`)

An event is one accounting fact.  `Event.validate` is the check a record passes before it is
applied, at write time and at every replay; `Event.validateForAppend` is the stricter one a
newly written event passes before it becomes durable.

What the checks read from tables the repository carries as data (the provider catalogue) or
from its environment (the zone database, JSON and SHA-256) is collected in `Catalogue`, and all
results hold for every such catalogue.
-/

namespace Halro

open Framework

namespace Ledger

/-! ## Kinds and enumerations -/

/-- The event kinds; `invalid` is a byte that names none of them. -/
inductive EventKind
  | requestAccepted
  | reservationCreated
  | attemptStarted
  | attemptSettled
  | requestFinalized
  | workUnitCreated
  | workUnitClosed
  | runCreated
  | runClosed
  | invalid (code : ℕ)
  deriving DecidableEq

/-- The byte a kind is written as. -/
def EventKind.code : EventKind → ℕ
  | .requestAccepted => 1
  | .reservationCreated => 2
  | .attemptStarted => 3
  | .attemptSettled => 4
  | .requestFinalized => 5
  | .workUnitCreated => 6
  | .workUnitClosed => 7
  | .runCreated => 8
  | .runClosed => 9
  | .invalid code => code

def EventKind.valid : EventKind → Bool
  | .invalid _ => false
  | _ => true

/-- `Kind <= EventRequestFinalized`: the kinds that belong to a request. -/
def EventKind.isRequest (k : EventKind) : Bool := decide (k.code ≤ 5)

/-- `Kind >= EventWorkUnitCreated`: the kinds that change a Work Unit or a Run. -/
def EventKind.isLifecycle (k : EventKind) : Bool := decide (6 ≤ k.code)

inductive LeaseMode
  /-- No mode: a reservation written before modes existed. -/
  | legacy
  | metered
  | free
  | unknownAllowed
  | other (label : String)
  deriving DecidableEq

inductive TokenUsageSource
  | unset
  | provider
  | estimate
  | none
  | other (label : String)
  deriving DecidableEq

/-- The settlement outcome that keeps its lease. -/
def outcomePinCommitFailed : String := "pin_commit_failed"

/-! ## Events -/

structure Event where
  eventID : String
  kind : EventKind
  requestID : String := ""
  workUnitID : String := ""
  runID : String := ""
  runBudgetMicrosUSD : ℤ := 0
  runExpiresAt : ℤ := 0
  outcomeDefinitions : List OutcomeDefinitionRef := []
  closeReason : String := ""
  operation : String := ""
  idempotencyKeyHash : String := ""
  requestFingerprint : String := ""
  attemptID : String := ""
  projectID : String
  keyID : String := ""
  routeID : String := ""
  deploymentID : String := ""
  providerID : String := ""
  offeringID : String := ""
  profileID : String := ""
  accountRegionID : String := ""
  requestedModel : String := ""
  providerModel : String := ""
  providerPrimitive : String := ""
  attemptNumber : ℤ := 0
  retryCount : ℤ := 0
  fallbackCount : ℤ := 0
  periodID : String
  periodTimezone : String := ""
  periodTimezoneVersion : ℕ := 0
  periodStartMicros : ℤ := 0
  periodEndMicros : ℤ := 0
  occurredAt : ℤ
  reservationMicrosUSD : Option ℤ := none
  committedMicrosUSD : Option ℤ := none
  leaseMode : LeaseMode := .legacy
  priceSnapshot : Option PriceSnapshot := none
  preparedInputTokens : ℤ := 0
  preparedOutputTokens : ℤ := 0
  inputCostMicrosUSD : ℤ := 0
  outputCostMicrosUSD : ℤ := 0
  fixedCostMicrosUSD : ℤ := 0
  recoveryKey : String := ""
  unknownPolicyEvidence : Option UnknownPricePolicyEvidence := none
  tokenGuardPricingViewDigest : String := ""
  providerInputTokens : ℤ := 0
  providerOutputTokens : ℤ := 0
  providerCachedInputTokens : ℤ := 0
  providerCacheWriteInputTokens : ℤ := 0
  providerReasoningTokens : ℤ := 0
  costEstimated : Bool := false
  tokenEstimated : Bool := false
  tokenUsageSource : TokenUsageSource := .unset
  outcome : String := ""
  errorClass : String := ""
  httpStatus : ℤ := 0
  providerCode : String := ""
  providerFailureReason : String := ""
  providerRequestID : String := ""
  failurePhase : String := ""
  retryable : Bool := false
  ambiguous : Bool := false
  failureSemanticsRecorded : Bool := false
  latencyMillis : ℤ := 0
  deriving DecidableEq

/-- What the catalogue says about the access surface behind a provider profile. -/
structure SurfaceIdentity where
  surface : String
  offering : String
  fixedRegion : Bool

/-- The tables and environment functions the ledger's checks consult.  `eventDigest` is the
SHA-256 of an event's JSON, absent when the event has no JSON encoding. -/
structure Catalogue (D : Type) where
  eventDigest : Event → Option D
  identityForProfile : String → Option SurfaceIdentity
  accountRegionBelongsToSurface : String → String → Bool
  profileBindsPrimitive : String → String → Bool
  knownZone : String → Bool

/-- A catalogue that knows no surface and no zone, with the event itself as its digest: enough
for records without a provider or a price. -/
def Catalogue.bare : Catalogue Event where
  eventDigest := some
  identityForProfile _ := none
  accountRegionBelongsToSurface _ _ := false
  profileBindsPrimitive _ _ := false
  knownZone _ := false

/-! ## Provider identifiers -/

def maxProviderIdentifierLength : ℕ := 128

def boundedIdentifierChar (c : Char) : Bool :=
  c.isLower || c.isUpper || c.isDigit || c == '.' || c == '_' || c == '-' || c == '[' || c == ']'

/-- The trimmed text when it is a bounded identifier, and the empty text otherwise. -/
def boundedIdentifier (value : List Char) : List Char :=
  let value := Text.trimSpaceChars value
  if value = [] || maxProviderIdentifierLength < Text.byteLength (String.ofList value) then []
  else if value.all boundedIdentifierChar then value else []

def safeProviderIdentifier (value : String) : String :=
  let (code, parameter, joined) := Text.cut (Text.trimSpaceChars value.toList) ':'
  let code := boundedIdentifier code
  if code = [] || !joined then String.ofList code
  else
    let parameter := boundedIdentifier parameter
    if parameter = [] then String.ofList code else String.ofList (code ++ ':' :: parameter)

def failureReasonValid (reason : String) : Bool :=
  reason ∈ ["", "invalid_credential", "entitlement_verification_unavailable",
    "subscription_inactive", "subscription_quota_exhausted", "rate_limited"]

/-! ## `Validate` -/

/-- What `Event.validate` can object to. -/
inductive EventProblem
  | eventID
  | kind
  | requestID
  | projectID
  | periodID
  | occurredAt
  | attribution
  | lifecycleWorkUnit
  | workUnitRunFields
  | workUnitCloseDefinitions
  | runCreation
  | runClose
  | lifecycleEvidence
  | negativeAmounts
  | negativeTokens
  | negativeCounters
  | providerIdentifiers
  | failureReason
  | offeringProfile
  | accountRegionSurface
  | accountRegionProfile
  | priceSnapshot (error : PriceError)
  | attemptID
  | legacyReservation
  | meteredLease
  | freeLease
  | unknownLease
  | unknownPolicy
  | unknownPolicyEvidence
  | leaseMode
  | pricingViewDigest
  | knownPricePolicy
  | unknownSettlementCost
  | knownSettlementCost
  | providerUsageEstimated
  | estimatedUsageUnmarked
  | noneUsageTokens
  | tokenUsageSource
  deriving DecidableEq

def EventProblem.message : EventProblem → String
  | .eventID => "event id is required"
  | .kind => "event kind is invalid"
  | .requestID => "request id is required"
  | .projectID => "project id is required"
  | .periodID => "period id is required"
  | .occurredAt => "occurred_at is required"
  | .attribution => "request attribution requires both work unit and run ids"
  | .lifecycleWorkUnit => "work unit id is required for lifecycle events"
  | .workUnitRunFields => "work unit event cannot carry run fields"
  | .workUnitCloseDefinitions => "work unit close cannot carry outcome definitions"
  | .runCreation => "run creation fields are invalid"
  | .runClose => "run close fields are invalid"
  | .lifecycleEvidence => "lifecycle event requires operation and idempotency evidence"
  | .negativeAmounts => "amounts cannot be negative"
  | .negativeTokens => "tokens cannot be negative"
  | .negativeCounters => "attempt counters, HTTP status, and latency cannot be negative"
  | .providerIdentifiers => "provider identifiers must be bounded identifiers"
  | .failureReason => "provider failure reason is invalid"
  | .offeringProfile => "provider offering and profile attribution must match"
  | .accountRegionSurface => "provider account region does not belong to the profile surface"
  | .accountRegionProfile => "provider account region requires provider profile attribution"
  | .priceSnapshot _ => "price snapshot is invalid"
  | .attemptID => "attempt id is required for attempt events"
  | .legacyReservation => "legacy reservation amount must be positive"
  | .meteredLease => "metered lease requires a positive reservation and metered price snapshot"
  | .freeLease => "free lease requires a zero reservation and free price snapshot"
  | .unknownLease => "unknown lease requires an unknown price snapshot"
  | .unknownPolicy => "unknown lease requires matching policy evidence"
  | .unknownPolicyEvidence => "unknown price policy evidence is incomplete or does not " ++
      "explicitly disable cost governance"
  | .leaseMode => "lease mode is invalid"
  | .pricingViewDigest => "tagged lease requires token guard pricing view digest"
  | .knownPricePolicy => "known-price lease cannot contain unknown-price policy evidence"
  | .unknownSettlementCost => "unknown settlement cost must be null"
  | .knownSettlementCost => "known settlement cost is required"
  | .providerUsageEstimated => "provider-reported usage cannot be estimated"
  | .estimatedUsageUnmarked => "gateway-estimated usage must be marked estimated"
  | .noneUsageTokens => "none token source cannot contain tokens"
  | .tokenUsageSource => "token usage source is invalid"

variable {D : Type} (cat : Catalogue D)

namespace Event

/-- The problem, when the condition holds. -/
def problemIf (condition : Prop) [Decidable condition] (problem : EventProblem) :
    List EventProblem :=
  if condition then [problem] else []

@[simp] lemma problemIf_eq_nil {condition : Prop} [Decidable condition] {p : EventProblem} :
    problemIf condition p = [] ↔ ¬ condition := by
  unfold problemIf
  split_ifs with h <;> simp [h]

/-- The reserved amount, zero when the event carries none. -/
def reservationAmount (e : Event) : ℤ := e.reservationMicrosUSD.getD 0

/-- Identity, period and time. -/
def validateIdentity (e : Event) : List EventProblem :=
  problemIf (e.eventID = "") .eventID ++
  problemIf (e.kind.valid = false) .kind ++
  problemIf (e.kind.isRequest ∧ e.requestID = "") .requestID ++
  problemIf (e.projectID = "") .projectID ++
  problemIf (e.periodID = "") .periodID ++
  problemIf (e.occurredAt = 0) .occurredAt

/-- Attribution of request events, and the fields of lifecycle events. -/
def validateAttribution (e : Event) : List EventProblem :=
  if e.kind.isRequest then
    problemIf (decide (e.workUnitID = "") ≠ decide (e.runID = "")) .attribution
  else
    problemIf (e.workUnitID = "") .lifecycleWorkUnit ++
    (match e.kind with
    | .workUnitCreated =>
      problemIf (e.runID ≠ "" ∨ e.runBudgetMicrosUSD ≠ 0 ∨ e.runExpiresAt ≠ 0) .workUnitRunFields
    | .workUnitClosed =>
      problemIf (e.runID ≠ "" ∨ e.runBudgetMicrosUSD ≠ 0 ∨ e.runExpiresAt ≠ 0)
        .workUnitRunFields ++
      problemIf (e.outcomeDefinitions.length ≠ 0) .workUnitCloseDefinitions
    | .runCreated =>
      problemIf (e.runID = "" ∨ e.runBudgetMicrosUSD ≤ 0 ∨ e.runExpiresAt = 0 ∨
        e.runExpiresAt ≤ e.occurredAt) .runCreation
    | .runClosed =>
      problemIf (e.runID = "" ∨ Text.trimSpace e.closeReason = "" ∨
        64 < Text.byteLength e.closeReason) .runClose
    | _ => []) ++
    problemIf (e.operation = "" ∨ validSHA256Label e.idempotencyKeyHash = false ∨
      validSHA256Label e.requestFingerprint = false) .lifecycleEvidence

/-- Signs of amounts, tokens and counters. -/
def validateAmounts (e : Event) : List EventProblem :=
  problemIf (e.reservationMicrosUSD.getD 0 < 0 ∨ e.committedMicrosUSD.getD 0 < 0)
    .negativeAmounts ++
  problemIf (e.providerInputTokens < 0 ∨ e.providerOutputTokens < 0 ∨
    e.preparedOutputTokens < 0 ∨ e.preparedInputTokens < 0 ∨ e.inputCostMicrosUSD < 0 ∨
    e.outputCostMicrosUSD < 0 ∨ e.fixedCostMicrosUSD < 0) .negativeTokens ++
  problemIf (e.attemptNumber < 0 ∨ e.retryCount < 0 ∨ e.fallbackCount < 0 ∨ e.httpStatus < 0 ∨
    e.latencyMillis < 0) .negativeCounters

/-- Provider evidence: identifiers, failure reason, offering, profile, region, price. -/
def validateProvider (e : Event) : List EventProblem :=
  problemIf (e.providerCode ≠ safeProviderIdentifier e.providerCode ∨
    e.providerRequestID ≠ safeProviderIdentifier e.providerRequestID) .providerIdentifiers ++
  problemIf (failureReasonValid e.providerFailureReason = false) .failureReason ++
  (if e.offeringID ≠ "" ∨ e.profileID ≠ "" then
    match cat.identityForProfile e.profileID with
    | none => [.offeringProfile]
    | some identity =>
      if e.offeringID = "" ∨ identity.offering ≠ e.offeringID then [.offeringProfile]
      else problemIf (e.accountRegionID ≠ "" ∧
        cat.accountRegionBelongsToSurface identity.surface e.accountRegionID = false)
        .accountRegionSurface
  else problemIf (e.accountRegionID ≠ "") .accountRegionProfile) ++
  (match e.priceSnapshot with
  | none => []
  | some snapshot =>
    match snapshot.validate cat.knownZone with
    | .ok _ => []
    | .error error => [.priceSnapshot error])

/-- The lease a reservation carries. -/
def validateLease (e : Event) : List EventProblem :=
  (match e.leaseMode with
  | .legacy =>
    problemIf (e.reservationMicrosUSD = none ∨ e.reservationAmount ≤ 0) .legacyReservation
  | .metered =>
    problemIf (e.reservationMicrosUSD = none ∨ e.reservationAmount ≤ 0 ∨
      e.priceSnapshot.map (·.billingMode) ≠ some .metered) .meteredLease
  | .free =>
    problemIf (e.reservationMicrosUSD = none ∨ e.reservationAmount ≠ 0 ∨
      e.priceSnapshot.map (·.billingMode) ≠ some .free) .freeLease
  | .unknownAllowed =>
    problemIf (e.reservationMicrosUSD ≠ none ∨
      e.priceSnapshot.map (·.costValueStatus) ≠ some .unknown) .unknownLease ++
    (match e.unknownPolicyEvidence with
    | none => [.unknownPolicy]
    | some evidence =>
      if evidence.projectID ≠ e.projectID then [.unknownPolicy]
      else problemIf (evidence.valid = false) .unknownPolicyEvidence)
  | .other _ => [.leaseMode]) ++
  problemIf (e.leaseMode ≠ .legacy ∧ validSHA256Label e.tokenGuardPricingViewDigest = false)
    .pricingViewDigest ++
  problemIf (e.leaseMode ≠ .unknownAllowed ∧ e.unknownPolicyEvidence ≠ none) .knownPricePolicy

/-- The cost and the usage source of a settlement. -/
def validateSettlement (e : Event) : List EventProblem :=
  (if e.leaseMode = .unknownAllowed then
    problemIf (e.committedMicrosUSD ≠ none) .unknownSettlementCost
  else problemIf (e.committedMicrosUSD = none) .knownSettlementCost) ++
  (match e.tokenUsageSource with
  | .unset => []
  | .provider => problemIf (e.tokenEstimated = true) .providerUsageEstimated
  | .estimate => problemIf (e.tokenEstimated = false) .estimatedUsageUnmarked
  | .none =>
    problemIf (e.providerInputTokens ≠ 0 ∨ e.providerOutputTokens ≠ 0) .noneUsageTokens
  | .other _ => [.tokenUsageSource])

/-- The problems of an event, in the order the source joins them. -/
def validate (e : Event) : List EventProblem :=
  e.validateIdentity ++ e.validateAttribution ++ e.validateAmounts ++ e.validateProvider cat ++
  (match e.kind with
  | .reservationCreated => problemIf (e.attemptID = "") .attemptID ++ e.validateLease
  | .attemptStarted => problemIf (e.attemptID = "") .attemptID
  | .attemptSettled => problemIf (e.attemptID = "") .attemptID ++ e.validateSettlement
  | _ => [])

/-! ## `validateForAppend` -/

/-- Why an event may not be written. -/
inductive AppendProblem
  | invalid (problems : List EventProblem)
  | unboundPrimitive
  | accountRegionRequired
  | outcomeRequired
  | successWithFailure
  | successStatus
  | failurePhase
  | errorClass
  | errorClassPhase
  | providerWithoutClass
  | statusPhase
  | evidenceSemantics
  deriving DecidableEq

def AppendProblem.message : AppendProblem → String
  | .invalid problems => "\n".intercalate (problems.map EventProblem.message)
  | .unboundPrimitive => "attempt event requires a primitive bound by its provider profile"
  | .accountRegionRequired => "fixed provider surface requires account region attribution"
  | .outcomeRequired => "settlement outcome is required"
  | .successWithFailure => "successful settlement cannot carry failure semantics"
  | .successStatus => "successful settlement HTTP status must be 2xx"
  | .failurePhase => "failed settlement requires a valid failure phase"
  | .errorClass => "failed settlement error class is invalid"
  | .errorClassPhase => "provider error class requires provider or client phase"
  | .providerWithoutClass => "provider failure requires an error class"
  | .statusPhase => "provider HTTP status requires provider phase"
  | .evidenceSemantics => "provider failure evidence requires recorded provider semantics"

def validPhase (phase : String) : Bool :=
  phase ∈ ["pre_provider", "provider", "response_render", "accounting", "client"]

def validClass (errorClass : String) : Bool :=
  errorClass ∈ ["authentication", "rate_limit", "timeout", "provider_5xx", "bad_request",
    "connect", "malformed_response", "unknown", "canceled"]

/-- Upstream-specific evidence is attached. -/
def providerDetails (e : Event) : Bool :=
  decide (e.providerCode ≠ "") || decide (e.providerFailureReason ≠ "") ||
    decide (e.providerRequestID ≠ "")

def validateSettlementSemanticsForAppend (e : Event) : Except AppendProblem Unit :=
  if e.outcome = "" then .error .outcomeRequired
  else if e.outcome = "success" then
    if e.failurePhase ≠ "" ∨ e.errorClass ≠ "" ∨ e.providerDetails ∨ e.retryable ∨ e.ambiguous ∨
        e.failureSemanticsRecorded then
      .error .successWithFailure
    else if e.httpStatus ≠ 0 ∧ (e.httpStatus < 200 ∨ 300 ≤ e.httpStatus) then
      .error .successStatus
    else .ok ()
  else if validPhase e.failurePhase = false then .error .failurePhase
  else if e.errorClass ≠ "" ∧ validClass e.errorClass = false then .error .errorClass
  else if e.errorClass ≠ "" ∧ e.failurePhase ≠ "provider" ∧ e.failurePhase ≠ "client" then
    .error .errorClassPhase
  else if e.failurePhase = "provider" ∧ e.errorClass = "" then .error .providerWithoutClass
  else if e.httpStatus ≠ 0 ∧
      (e.failurePhase ≠ "provider" ∨ e.httpStatus < 100 ∨ 599 < e.httpStatus) then
    .error .statusPhase
  else if (e.providerDetails ∨ e.retryable ∨ e.failureSemanticsRecorded) ∧
      (e.failurePhase ≠ "provider" ∨ e.failureSemanticsRecorded = false) then
    .error .evidenceSemantics
  else .ok ()

def validateForAppend (e : Event) : Except AppendProblem Unit :=
  if e.validate cat ≠ [] then .error (.invalid (e.validate cat))
  else if e.providerPrimitive ≠ "" ∧
      cat.profileBindsPrimitive e.profileID e.providerPrimitive = false then
    .error .unboundPrimitive
  else if (e.kind = .reservationCreated ∨ e.kind = .attemptStarted) ∧ e.profileID ≠ "" ∧
      e.providerPrimitive = "" then
    .error .unboundPrimitive
  else if e.profileID ≠ "" ∧ ((cat.identityForProfile e.profileID).map (·.fixedRegion)) = some true ∧
      e.accountRegionID = "" then
    .error .accountRegionRequired
  else if e.kind ≠ .attemptSettled then .ok ()
  else e.validateSettlementSemanticsForAppend

/-! ## What an accepted event guarantees -/

variable {cat}

variable {e : Event}

/-- Nothing that passes the append check fails the check a replay makes. -/
lemma validate_of_validateForAppend (h : e.validateForAppend cat = .ok ()) :
    e.validate cat = [] := by
  by_contra hne
  simp [validateForAppend, hne] at h

/-- The groups of checks of a valid event, one field each. -/
structure Valid (cat : Catalogue D) (e : Event) : Prop where
  identity : e.validateIdentity = []
  attribution : e.validateAttribution = []
  amounts : e.validateAmounts = []
  provider : e.validateProvider cat = []

lemma valid_of_validate (h : e.validate cat = []) : Valid cat e := by
  simp only [validate, List.append_eq_nil_iff] at h
  exact ⟨h.1.1.1.1, h.1.1.1.2, h.1.1.2, h.1.2⟩

namespace Valid

variable {e : Event}

section

variable (h : Valid cat e)

include h

lemma kind_valid : e.kind.valid = true := by
  have := h.identity
  simp only [validateIdentity, List.append_eq_nil_iff, problemIf_eq_nil] at this
  simpa using this.1.1.1.1.2

lemma reservationAmount_nonneg : 0 ≤ e.reservationAmount := by
  have := h.amounts
  simp only [validateAmounts, List.append_eq_nil_iff, problemIf_eq_nil] at this
  unfold reservationAmount
  omega

lemma committed_nonneg : 0 ≤ e.committedMicrosUSD.getD 0 := by
  have := h.amounts
  simp only [validateAmounts, List.append_eq_nil_iff, problemIf_eq_nil] at this
  omega

/-- A request event names a Work Unit exactly when it names a Run. -/
lemma workUnit_iff_run (hk : e.kind.isRequest = true) : e.workUnitID = "" ↔ e.runID = "" := by
  have := h.attribution
  simp only [validateAttribution, hk, if_true, problemIf_eq_nil, ne_eq, not_not] at this
  simpa using this

/-- A lifecycle event names a Work Unit. -/
lemma lifecycle_workUnit (hk : e.kind.isRequest = false) : e.workUnitID ≠ "" := by
  have := h.attribution
  simp only [validateAttribution, hk, Bool.false_eq_true, if_false, List.append_eq_nil_iff,
    problemIf_eq_nil] at this
  exact this.1.1

end

end Valid

/-- A Run creation names its Run and bounds it. -/
lemma runCreated_fields (h : e.validate cat = []) (hk : e.kind = .runCreated) :
    e.runID ≠ "" ∧ 0 < e.runBudgetMicrosUSD ∧ e.occurredAt < e.runExpiresAt := by
  have := (valid_of_validate h).attribution
  have hreq : EventKind.isRequest .runCreated = false := rfl
  simp only [validateAttribution, hk, hreq, Bool.false_eq_true, if_false,
    List.append_eq_nil_iff, problemIf_eq_nil] at this
  have hc := this.1.2
  push Not at hc
  obtain ⟨hrun, hbud, -, hexpiry⟩ := hc
  exact ⟨hrun, by omega, by omega⟩

/-- An unknown-price lease reserves nothing. -/
lemma unknown_reserves_nothing (h : e.validate cat = [])
    (hk : e.kind = .reservationCreated) (hm : e.leaseMode = .unknownAllowed) :
    e.reservationAmount = 0 := by
  simp only [validate, hk, List.append_eq_nil_iff, validateLease, hm, problemIf_eq_nil] at h
  have hnone : e.reservationMicrosUSD = none := by
    by_contra hn
    exact h.2.2.1.1.1 (Or.inl hn)
  simp [reservationAmount, hnone]

end Event

end Ledger

end Halro
