import Halro.Domain.Governance

/-!
# Price snapshots (`internal/domain/pricing_snapshot.go`, `pricing_cost.go`)

A price snapshot is the immutable pricing evidence of one provider attempt.  `validate` is the
check every event that carries one passes, and `calculate` is the one place the token formula
lives: a settlement is accepted by the accounting manager only if its amount is the one
`calculate` gives for the tokens it reports.

The enumerations keep a constructor for every other text, since a decoded record may carry one;
`validate` refuses it.  A zone database lookup is the parameter `knownZone`.
-/

namespace Halro

open Framework

/-- An instant with the UTC offset it is written in, in seconds. -/
structure ZonedTime where
  instant : ℤ
  offset : ℤ := 0
  deriving DecidableEq

def isUTC (value : ZonedTime) : Bool := value.offset == 0

inductive BillingMode
  | unset
  | metered
  | free
  | other (label : String)
  deriving DecidableEq

inductive PriceEvidenceStatus
  | versioned
  | unknown
  | other (label : String)
  deriving DecidableEq

inductive CostValueStatus
  | unset
  | known
  | unknown
  | other (label : String)
  deriving DecidableEq

inductive PriceSourceType
  | unset
  | manual
  | officialURL
  | providerAPI
  | import
  | migration
  | other (label : String)
  deriving DecidableEq

inductive PriceSourceAssurance
  | unset
  | asserted
  | verifiedAPI
  | signedImport
  | other (label : String)
  deriving DecidableEq

inductive PriceTierSource
  | base
  | window
  | zoneUnavailable
  | other (label : String)
  deriving DecidableEq

/-- Why a price snapshot or a price calculation is refused. -/
inductive PriceError
  | scheduleTimezone
  | windowWithoutBounds
  | windowBoundsRange
  | windowLocalMinute
  | baseTierFields
  | zoneUnavailableFields
  | tierSource (label : String)
  | localMinuteRange
  | selectedAt
  | versionedIncomplete
  | effectiveFrom
  | negativeAmounts
  | currencyFormulaEvidence
  | meteredWithoutComponent
  | freeWithComponent
  | billingMode
  | unknownWithTerms
  | evidenceStatus (label : String)
  | unavailable
  | tokenCountsInvalid
  | tokenCountsNegative
  | cachedExceedsInput
  | componentOverflow
  | totalOverflow
  deriving DecidableEq

/-- The rung of a price schedule a snapshot was priced at. -/
structure PriceScheduleTier where
  timezone : String
  source : PriceTierSource
  startMinute : Option ℤ := none
  endMinute : Option ℤ := none
  localMinute : Option ℤ := none
  deriving DecidableEq

def minutesPerDay : ℤ := 24 * 60

def validWindowBounds (start stop : ℤ) : Bool :=
  decide (0 ≤ start) && decide (start < stop) && decide (stop ≤ minutesPerDay)

/-- `validate` of a tier; `knownZone` is the zone-name check with its database lookup. -/
def PriceScheduleTier.validate (knownZone : String → Bool) (t : PriceScheduleTier) :
    Except PriceError Unit := do
  if !knownZone t.timezone then throw .scheduleTimezone
  let hasWindowBound := t.startMinute.isSome || t.endMinute.isSome
  match t.source with
  | .window =>
    match t.startMinute, t.endMinute with
    | some start, some stop =>
      if !validWindowBounds start stop then throw .windowBoundsRange
      match t.localMinute with
      | none => throw .windowLocalMinute
      | some minute => if minute < start || stop ≤ minute then throw .windowLocalMinute
    | _, _ => throw .windowWithoutBounds
  | .base => if hasWindowBound || t.localMinute.isNone then throw .baseTierFields
  | .zoneUnavailable =>
    if hasWindowBound || t.localMinute.isSome then throw .zoneUnavailableFields
  | .other label => throw (.tierSource label)
  match t.localMinute with
  | some minute => if minute < 0 || minutesPerDay ≤ minute then throw .localMinuteRange
  | none => pure ()

structure PriceSnapshot where
  pricingSelectedAt : ZonedTime
  priceEvidenceStatus : PriceEvidenceStatus
  costValueStatus : CostValueStatus
  priceVersionID : String := ""
  priceVersion : Option ℕ := none
  billingMode : BillingMode := .unset
  currency : String := ""
  formulaVersion : String := ""
  inputMicrosPerMillion : Option ℤ := none
  cachedInputMicrosPerMillion : Option ℤ := none
  outputMicrosPerMillion : Option ℤ := none
  fixedRequestMicrosUSD : Option ℤ := none
  scheduleTier : Option PriceScheduleTier := none
  effectiveFrom : Option ZonedTime := none
  sourceType : PriceSourceType := .unset
  sourceAssurance : PriceSourceAssurance := .unset
  sourceContentSHA256 : String := ""
  sourceReference : String := ""
  sourceWithoutArchive : Bool := false
  deriving DecidableEq

def priceFormulaUSDTokensV1 : String := "usd_token_v1"

/-- The source type and assurance pairs a versioned snapshot may carry. -/
def validSourceIdentity (type : PriceSourceType) (assurance : PriceSourceAssurance) : Bool :=
  match type, assurance with
  | .manual, .asserted => true
  | .officialURL, .asserted => true
  | .providerAPI, .verifiedAPI => true
  | .import, .signedImport => true
  | .migration, .asserted => true
  | _, _ => false

/-- A manual price the operator asserts without an archived source. -/
def PriceSnapshot.manualWithoutArchive (s : PriceSnapshot) : Bool :=
  decide (s.sourceType = .manual) && decide (s.sourceAssurance = .asserted) &&
    s.sourceWithoutArchive && decide (s.sourceContentSHA256 = "") &&
    decide (Text.trimSpace s.sourceReference ≠ "")

/-- The checks of a versioned snapshot, once its terms are known to be present. -/
def PriceSnapshot.validateVersioned (knownZone : String → Bool) (s : PriceSnapshot)
    (effective : ZonedTime) (input cached output fixed : ℤ) : Except PriceError Unit := do
  if effective.instant = 0 || !isUTC effective ||
      s.pricingSelectedAt.instant < effective.instant then
    throw .effectiveFrom
  match s.scheduleTier with
  | some tier => tier.validate knownZone
  | none => pure ()
  if input < 0 || cached < 0 || output < 0 || fixed < 0 then throw .negativeAmounts
  if s.currency ≠ "USD" || s.formulaVersion ≠ priceFormulaUSDTokensV1 ||
      !validSourceIdentity s.sourceType s.sourceAssurance ||
      256 < Text.byteLength s.sourceReference ||
      ((s.sourceType = .manual || s.sourceType = .officialURL) &&
        Text.trimSpace s.sourceReference = "") ||
      (!s.manualWithoutArchive && !validSHA256Label s.sourceContentSHA256) then
    throw .currencyFormulaEvidence
  match s.billingMode with
  | .metered =>
    if input = 0 && cached = 0 && output = 0 && fixed = 0 then throw .meteredWithoutComponent
  | .free =>
    if input ≠ 0 || cached ≠ 0 || output ≠ 0 || fixed ≠ 0 then throw .freeWithComponent
  | _ => throw .billingMode

def PriceSnapshot.validate (knownZone : String → Bool) (s : PriceSnapshot) :
    Except PriceError Unit := do
  if s.pricingSelectedAt.instant = 0 || !isUTC s.pricingSelectedAt then throw .selectedAt
  match s.priceEvidenceStatus with
  | .versioned =>
    match s.priceVersion, s.effectiveFrom, s.inputMicrosPerMillion,
        s.cachedInputMicrosPerMillion, s.outputMicrosPerMillion, s.fixedRequestMicrosUSD with
    | some version, some effective, some input, some cached, some output, some fixed =>
      if s.costValueStatus ≠ .known || s.priceVersionID = "" || version = 0 then
        throw .versionedIncomplete
      s.validateVersioned knownZone effective input cached output fixed
    | _, _, _, _, _, _ => throw .versionedIncomplete
  | .unknown =>
    if s.costValueStatus ≠ .unknown || s.priceVersion.isSome || s.priceVersionID ≠ "" ||
        s.inputMicrosPerMillion.isSome || s.cachedInputMicrosPerMillion.isSome ||
        s.outputMicrosPerMillion.isSome || s.fixedRequestMicrosUSD.isSome ||
        s.scheduleTier.isSome || s.sourceType ≠ .unset || s.sourceAssurance ≠ .unset ||
        s.sourceContentSHA256 ≠ "" || s.sourceReference ≠ "" || s.sourceWithoutArchive then
      throw .unknownWithTerms
  | .other label => throw (.evidenceStatus label)

/-! ## The token formula -/

structure PriceCostBreakdown where
  inputCostMicrosUSD : ℤ := 0
  outputCostMicrosUSD : ℤ := 0
  fixedCostMicrosUSD : ℤ := 0
  totalCostMicrosUSD : ℤ := 0
  deriving DecidableEq

/-- The value is representable in 64 bits. -/
def isInt64 (value : ℤ) : Bool := decide (minInt64 ≤ value) && decide (value ≤ maxInt64)

/-- `QuoRem` truncates toward zero; a nonzero remainder rounds up by one. -/
def ceilTokenComponent (tokens microsPerMillion : ℤ) : Except PriceError ℤ :=
  if tokens = 0 || microsPerMillion = 0 then .ok 0
  else
    let product := tokens * microsPerMillion
    let quotient := if product.tmod 1000000 ≠ 0 then product.tdiv 1000000 + 1
      else product.tdiv 1000000
    if isInt64 quotient then .ok quotient else .error .componentOverflow

def ceilInputComponents (inputTokens cachedInputTokens microsPerMillion
    cachedMicrosPerMillion : ℤ) : Except PriceError ℤ := do
  let uncached ← ceilTokenComponent (inputTokens - cachedInputTokens) microsPerMillion
  let cached ← ceilTokenComponent cachedInputTokens cachedMicrosPerMillion
  if isInt64 (uncached + cached) then pure (uncached + cached) else throw .componentOverflow

/-- The four rates of a price, fixed at one instant. -/
structure PriceTier where
  inputMicrosPerMillion : ℤ
  cachedInputMicrosPerMillion : ℤ
  outputMicrosPerMillion : ℤ
  fixedRequestMicrosUSD : ℤ

def PriceTier.calculate (t : PriceTier) (inputTokens cachedInputTokens outputTokens : ℤ) :
    Except PriceError PriceCostBreakdown := do
  if inputTokens < 0 || cachedInputTokens < 0 || outputTokens < 0 then
    throw .tokenCountsNegative
  if inputTokens < cachedInputTokens then throw .cachedExceedsInput
  let input ← ceilInputComponents inputTokens cachedInputTokens t.inputMicrosPerMillion
    t.cachedInputMicrosPerMillion
  let output ← ceilTokenComponent outputTokens t.outputMicrosPerMillion
  let total := input + output + t.fixedRequestMicrosUSD
  if !isInt64 total || total < 0 then throw .totalOverflow
  pure { inputCostMicrosUSD := input, outputCostMicrosUSD := output,
         fixedCostMicrosUSD := t.fixedRequestMicrosUSD, totalCostMicrosUSD := total }

/-- The four terms; a snapshot that passes `validate` with a known cost has them all. -/
def PriceSnapshot.tier (s : PriceSnapshot) : PriceTier where
  inputMicrosPerMillion := s.inputMicrosPerMillion.getD 0
  cachedInputMicrosPerMillion := s.cachedInputMicrosPerMillion.getD 0
  outputMicrosPerMillion := s.outputMicrosPerMillion.getD 0
  fixedRequestMicrosUSD := s.fixedRequestMicrosUSD.getD 0

def PriceSnapshot.calculate (knownZone : String → Bool) (s : PriceSnapshot)
    (inputTokens cachedInputTokens outputTokens : ℤ) : Except PriceError PriceCostBreakdown := do
  s.validate knownZone
  if s.costValueStatus ≠ .known then throw .unavailable
  if s.billingMode = .free then
    if inputTokens < 0 || cachedInputTokens < 0 || outputTokens < 0 ||
        inputTokens < cachedInputTokens then
      throw .tokenCountsInvalid
    return {}
  s.tier.calculate inputTokens cachedInputTokens outputTokens

/-! ## Unknown-price policy -/

structure UnknownPricePolicyEvidence where
  policyVersion : String
  projectID : String
  tokenGuardStatus : String
  reasonCode : String
  instanceExplicitOptIn : Bool
  costGovernanceDisabled : Bool
  deriving DecidableEq

/-- The evidence is complete and explicitly disables cost governance. -/
def UnknownPricePolicyEvidence.valid (e : UnknownPricePolicyEvidence) : Bool :=
  decide (e.policyVersion ≠ "") && decide (e.projectID ≠ "") &&
    decide (e.tokenGuardStatus ≠ "") && decide (e.reasonCode = "cost_governance_disabled") &&
    e.instanceExplicitOptIn && e.costGovernanceDisabled

end Halro
