import Halro.Domain.Pricing
import Halro.Framework.Bucket
import Halro.Framework.FinMap
import Halro.Framework.Outcome

/-!
# Price versions (`internal/domain/pricing.go`, `pricing_schedule.go`)

A price version says from when on a deployment is billed at which rates; the versions of one
deployment are its price timeline.  `auditPriceTimeline` looks for the faults that would make a
selection from a timeline meaningless, and `selectAuditedPriceVersion` picks the version in force at
an instant.

`PricingRules` holds what lies outside of this development: the zone database, the two text patterns
the evidence of a price is checked with, and the digest of a snapshot.
-/

namespace Halro

open Framework

structure PricingRules where
  /-- The zone-name check with its database lookup. -/
  knownZone : String → Bool
  /-- The minute of the day in a zone, if the zone can be loaded. -/
  localMinute : String → ℤ → Option ℤ
  /-- The text looks like a credential. -/
  secretLike : String → Bool
  /-- HTTPS without user information, query or fragment. -/
  evidenceURL : String → Bool
  /-- The digest label of a snapshot's encoding. -/
  sha256 : PriceSnapshot → String

/-! ## Times -/

/-- `time.Time.IsZero`. -/
def ZonedTime.isZero (t : ZonedTime) : Bool := decide (t.instant = 0)

def nanosPerSecond : ℤ := 1000000000

/-- The seconds of a time count from the first of January of the year 1 and fit 64 bits. -/
def ZonedTime.representable (t : ZonedTime) : Bool := isInt64 (t.instant / nanosPerSecond)

/-- A time is encoded only if its year has four digits. -/
def encodableTime (instant : ℤ) : Bool :=
  decide (-31622400 * nanosPerSecond ≤ instant) &&
    decide (instant < 315537897600 * nanosPerSecond)

/-- Seconds from the first of January 1970, in 64 bits. -/
def unixSeconds (instant : ℤ) : ℤ := (instant / nanosPerSecond - 62135596800).bmod (2 ^ 64)

/-- Twelve bytes that are ordered as the times are: the seconds with the sign bit inverted, then
the nanoseconds, both big-endian. -/
def priceTimeKey (instant : ℤ) : Bytes :=
  bigEndian 8 ((unixSeconds instant + 2 ^ 63).toNat) ++
    bigEndian 4 ((instant % nanosPerSecond).toNat)

def canonicalPriceTime (t : ZonedTime) : Bytes := priceTimeKey t.instant

@[simp] lemma length_priceTimeKey (instant : ℤ) : (priceTimeKey instant).length = 12 := by
  simp [priceTimeKey]

lemma uint_priceTimeKey (instant : ℤ) : (uint (priceTimeKey instant) : ℤ) =
    (unixSeconds instant + 2 ^ 63) * 2 ^ 32 + instant % nanosPerSecond := by
  have hlow : -(2 ^ 63 : ℤ) ≤ unixSeconds instant := by
    have := Int.le_bmod (x := instant / nanosPerSecond - 62135596800) (m := 2 ^ 64) (by decide)
    unfold unixSeconds
    omega
  have hhigh : unixSeconds instant < 2 ^ 63 := by
    have := Int.bmod_lt (x := instant / nanosPerSecond - 62135596800) (m := 2 ^ 64) (by decide)
    unfold unixSeconds
    omega
  have hnanos : 0 ≤ instant % nanosPerSecond ∧ instant % nanosPerSecond < 1000000000 :=
    ⟨Int.emod_nonneg _ (by decide), Int.emod_lt_of_pos _ (by decide)⟩
  have hsec : (unixSeconds instant + 2 ^ 63).toNat < 256 ^ 8 := by omega
  have hsub : (instant % nanosPerSecond).toNat < 256 ^ 4 := by omega
  rw [priceTimeKey, uint_append, uint_bigEndian hsec, uint_bigEndian hsub, length_bigEndian]
  omega

/-- No wrap-around: a time from the year 0 on that fits its 64 bits. -/
lemma unixSeconds_of_le {instant : ℤ} (hlow : -31622400 * nanosPerSecond ≤ instant)
    (hhigh : instant / nanosPerSecond ≤ maxInt64) :
    unixSeconds instant = instant / nanosPerSecond - 62135596800 := by
  have hdiv : -31622400 ≤ instant / nanosPerSecond := Int.le_ediv_of_mul_le (by decide) hlow
  unfold maxInt64 at hhigh
  unfold unixSeconds
  rw [Int.bmod_eq_of_le] <;> omega

/-- Keys are ordered as the times are, from the year 0 on. -/
lemma priceTimeKey_lt_iff {a b : ℤ} (ha : -31622400 * nanosPerSecond ≤ a)
    (hb : -31622400 * nanosPerSecond ≤ b) (ha' : a / nanosPerSecond ≤ maxInt64)
    (hb' : b / nanosPerSecond ≤ maxInt64) : priceTimeKey a < priceTimeKey b ↔ a < b := by
  rw [lt_iff_uint_lt (by rw [length_priceTimeKey, length_priceTimeKey]), ← Nat.cast_lt (α := ℤ),
    uint_priceTimeKey, uint_priceTimeKey, unixSeconds_of_le ha ha', unixSeconds_of_le hb hb']
  unfold nanosPerSecond at *
  omega

/-! ## Evidence -/

structure PriceSource where
  type : PriceSourceType
  assurance : PriceSourceAssurance
  uri : String := ""
  publishedAt : Option ZonedTime := none
  retrievedAt : Option ZonedTime := none
  receivedAt : ZonedTime
  contentSHA256 : String := ""
  reference : String := ""
  note : String := ""
  externalEvidenceID : String := ""
  custodyOwner : String := ""
  assertedWithoutArchive : Bool := false
  adapter : String := ""
  providerRequestID : String := ""
  manifestID : String := ""
  manifestSchemaVersion : ℕ := 0
  signer : String := ""
  signatureSHA256 : String := ""
  migrationVersion : ℕ := 0
  originalResourceID : String := ""
  originalRevision : ℕ := 0
  deriving DecidableEq

/-- What a price version can be refused for. -/
inductive PriceProblem
  | sourceReceivedAtRequired
  | sourceReceivedAtUTC
  | sourceContentSHA256
  | sourceTextLength (label : String) (max : ℕ)
  | sourceTextSecret (label : String)
  | manualAssurance
  | manualEvidence
  | officialURLAssurance
  | officialURLEvidence
  | officialURLAddress
  | providerAPIEvidence
  | importEvidence
  | migrationEvidence
  | sourceType
  | sourceTime (label : String)
  | scheduleTimezone
  | scheduleWithoutWindow
  | scheduleWindowCount
  | windowBounds (index : ℕ)
  | windowOrder (index : ℕ)
  | windowNegative (index : ℕ)
  | windowZero (index : ℕ)
  | identity
  | versionOrRevision
  | currency
  | formulaVersion
  | negativeAmount
  | meteredWithoutComponent
  | freeWithComponent
  | freeWithSchedule
  | billingMode
  | effectiveFrom
  | creation
  | cancellationPair
  | cancellationTime
  deriving DecidableEq

/-- A blank text, as `strings.TrimSpace` leaves it. -/
def blank (s : String) : Bool := decide (Text.trimSpace s = "")

def problemIf (c : Bool) (problem : PriceProblem) : List PriceProblem :=
  if c then [problem] else []

namespace PriceSource

/-- The free texts of the evidence with the length each may have. -/
def texts (s : PriceSource) : List (String × String × ℕ) :=
  [("uri", s.uri, 2048), ("reference", s.reference, 256), ("note", s.note, 1024),
    ("external evidence id", s.externalEvidenceID, 256), ("custody owner", s.custodyOwner, 256),
    ("adapter", s.adapter, 128), ("provider request id", s.providerRequestID, 256),
    ("manifest id", s.manifestID, 256), ("signer", s.signer, 256),
    ("original resource id", s.originalResourceID, 256)]

def typeProblems (rules : PricingRules) (s : PriceSource) : List PriceProblem :=
  match s.type with
  | .manual =>
    problemIf (s.assurance != .asserted) .manualAssurance ++
      problemIf (blank s.reference || (blank s.note && blank s.externalEvidenceID &&
        !s.assertedWithoutArchive)) .manualEvidence
  | .officialURL =>
    problemIf (s.assurance != .asserted) .officialURLAssurance ++
      problemIf (blank s.reference || s.retrievedAt.isNone) .officialURLEvidence ++
      problemIf (!rules.evidenceURL s.uri) .officialURLAddress
  | .providerAPI =>
    problemIf (s.assurance != .verifiedAPI || blank s.adapter || blank s.providerRequestID)
      .providerAPIEvidence
  | .import =>
    problemIf (s.assurance != .signedImport || blank s.manifestID ||
      s.manifestSchemaVersion == 0 || blank s.signer || !validSHA256Label s.signatureSHA256)
      .importEvidence
  | .migration =>
    problemIf (s.assurance != .asserted || s.migrationVersion == 0 ||
      blank s.originalResourceID || s.originalRevision == 0) .migrationEvidence
  | _ => [.sourceType]

/-- An optional time, if it is set, is a nonzero time in UTC. -/
def timeProblems (label : String) (value : Option ZonedTime) : List PriceProblem :=
  match value with
  | some t => problemIf (!isUTC t || t.isZero) (.sourceTime label)
  | none => []

def problems (rules : PricingRules) (s : PriceSource) : List PriceProblem :=
  (if s.receivedAt.isZero then [.sourceReceivedAtRequired]
    else problemIf (!isUTC s.receivedAt) .sourceReceivedAtUTC) ++
  problemIf (!(s.type == .manual && s.assertedWithoutArchive && s.contentSHA256 == "") &&
    !validSHA256Label s.contentSHA256) .sourceContentSHA256 ++
  s.texts.flatMap (fun (label, value, max) =>
    problemIf (decide (max < Text.byteLength value)) (.sourceTextLength label max) ++
      problemIf (rules.secretLike value) (.sourceTextSecret label)) ++
  s.typeProblems rules ++
  timeProblems "published_at" s.publishedAt ++ timeProblems "retrieved_at" s.retrievedAt

/-- The times of the evidence can be encoded. -/
def encodable (s : PriceSource) : Bool :=
  encodableTime s.receivedAt.instant &&
    (s.publishedAt.all fun t => encodableTime t.instant) &&
    s.retrievedAt.all fun t => encodableTime t.instant

end PriceSource

/-! ## Schedules -/

structure PriceWindow where
  startMinute : ℤ
  endMinute : ℤ
  inputMicrosPerMillion : ℤ
  cachedInputMicrosPerMillion : ℤ
  outputMicrosPerMillion : ℤ
  fixedRequestMicrosUSD : ℤ
  deriving DecidableEq

structure PriceSchedule where
  timezone : String
  windows : List PriceWindow
  deriving DecidableEq

def maxPriceWindows : ℕ := 24

/-- The windows are bounded, sorted and disjoint, and none is priced below zero or, on a metered
price, at nothing. -/
def windowsProblem (mode : BillingMode) : ℕ → ℤ → List PriceWindow → Option PriceProblem
  | _, _, [] => none
  | index, previousEnd, window :: rest =>
    if !validWindowBounds window.startMinute window.endMinute then some (.windowBounds index)
    else if window.startMinute < previousEnd then some (.windowOrder index)
    else if window.inputMicrosPerMillion < 0 || window.cachedInputMicrosPerMillion < 0 ||
        window.outputMicrosPerMillion < 0 || window.fixedRequestMicrosUSD < 0 then
      some (.windowNegative index)
    else if mode = .metered && window.inputMicrosPerMillion = 0 &&
        window.cachedInputMicrosPerMillion = 0 && window.outputMicrosPerMillion = 0 &&
        window.fixedRequestMicrosUSD = 0 then
      some (.windowZero index)
    else windowsProblem mode (index + 1) window.endMinute rest

def PriceSchedule.problem (rules : PricingRules) (s : PriceSchedule) (mode : BillingMode) :
    Option PriceProblem :=
  if !rules.knownZone s.timezone then some .scheduleTimezone
  else if s.windows.isEmpty then some .scheduleWithoutWindow
  else if maxPriceWindows < s.windows.length then some .scheduleWindowCount
  else windowsProblem mode 0 0 s.windows

/-! ## Versions -/

structure DeploymentPriceVersion where
  id : String
  deploymentID : String
  version : ℕ := 0
  billingMode : BillingMode
  currency : String := "USD"
  formulaVersion : String := priceFormulaUSDTokensV1
  inputMicrosPerMillion : ℤ
  cachedInputMicrosPerMillion : ℤ
  outputMicrosPerMillion : ℤ
  fixedRequestMicrosUSD : ℤ
  schedule : Option PriceSchedule := none
  effectiveFrom : ZonedTime
  source : PriceSource
  createdBy : String
  createdAt : ZonedTime
  cancelledBy : String := ""
  cancelledAt : Option ZonedTime := none
  revision : ℕ := 0
  deriving DecidableEq

namespace DeploymentPriceVersion

def modeProblems (p : DeploymentPriceVersion) : List PriceProblem :=
  match p.billingMode with
  | .metered =>
    problemIf (p.inputMicrosPerMillion == 0 && p.cachedInputMicrosPerMillion == 0 &&
      p.outputMicrosPerMillion == 0 && p.fixedRequestMicrosUSD == 0) .meteredWithoutComponent
  | .free =>
    problemIf (p.inputMicrosPerMillion != 0 || p.cachedInputMicrosPerMillion != 0 ||
      p.outputMicrosPerMillion != 0 || p.fixedRequestMicrosUSD != 0) .freeWithComponent ++
      problemIf p.schedule.isSome .freeWithSchedule
  | _ => [.billingMode]

def cancellationProblems (p : DeploymentPriceVersion) : List PriceProblem :=
  match p.cancelledAt with
  | some t => problemIf (t.isZero || !isUTC t || !decide (t.instant < p.effectiveFrom.instant))
      .cancellationTime
  | none => []

def problems (rules : PricingRules) (p : DeploymentPriceVersion) : List PriceProblem :=
  problemIf (blank p.id || blank p.deploymentID) .identity ++
  problemIf (p.version == 0 || p.revision == 0) .versionOrRevision ++
  problemIf (p.currency != "USD") .currency ++
  problemIf (p.formulaVersion != priceFormulaUSDTokensV1) .formulaVersion ++
  problemIf (decide (p.inputMicrosPerMillion < 0) || decide (p.cachedInputMicrosPerMillion < 0) ||
    decide (p.outputMicrosPerMillion < 0) || decide (p.fixedRequestMicrosUSD < 0))
    .negativeAmount ++
  p.modeProblems ++
  ((p.schedule.bind fun s => s.problem rules p.billingMode).toList) ++
  problemIf (p.effectiveFrom.isZero || !isUTC p.effectiveFrom) .effectiveFrom ++
  problemIf (blank p.createdBy || p.createdAt.isZero || !isUTC p.createdAt) .creation ++
  problemIf (p.cancelledAt.isNone != blank p.cancelledBy) .cancellationPair ++
  p.cancellationProblems ++
  p.source.problems rules

/-- `Validate` finds nothing to refuse. -/
def valid (rules : PricingRules) (p : DeploymentPriceVersion) : Bool := (p.problems rules).isEmpty

/-- The times of the version can be encoded. -/
def encodable (p : DeploymentPriceVersion) : Bool :=
  encodableTime p.effectiveFrom.instant && encodableTime p.createdAt.instant &&
    (p.cancelledAt.all fun t => encodableTime t.instant) && p.source.encodable

/-- Not cancelled, and effective by then. -/
def effectiveBy (p : DeploymentPriceVersion) (instant : ℤ) : Bool :=
  p.cancelledAt.isNone && decide (p.effectiveFrom.instant ≤ instant)

/-! ### Rates -/

def baseTier (p : DeploymentPriceVersion) : PriceTier where
  inputMicrosPerMillion := p.inputMicrosPerMillion
  cachedInputMicrosPerMillion := p.cachedInputMicrosPerMillion
  outputMicrosPerMillion := p.outputMicrosPerMillion
  fixedRequestMicrosUSD := p.fixedRequestMicrosUSD

/-- The maximum of each term over the base rates and every window. -/
def highestTier (p : DeploymentPriceVersion) : PriceTier :=
  match p.schedule with
  | none => p.baseTier
  | some s => s.windows.foldl (fun highest window =>
      { inputMicrosPerMillion := max highest.inputMicrosPerMillion window.inputMicrosPerMillion
        cachedInputMicrosPerMillion :=
          max highest.cachedInputMicrosPerMillion window.cachedInputMicrosPerMillion
        outputMicrosPerMillion := max highest.outputMicrosPerMillion window.outputMicrosPerMillion
        fixedRequestMicrosUSD := max highest.fixedRequestMicrosUSD window.fixedRequestMicrosUSD })
      p.baseTier

/-- The rates of an attempt pinned at an instant, with the rung they come from. -/
def tierAt (rules : PricingRules) (p : DeploymentPriceVersion) (instant : ℤ) :
    PriceTier × Option PriceScheduleTier :=
  match p.schedule with
  | none => (p.baseTier, none)
  | some s =>
    match rules.localMinute s.timezone instant with
    | none => (p.highestTier, some { timezone := s.timezone, source := .zoneUnavailable })
    | some minute =>
      match s.windows.find? fun w => w.startMinute ≤ minute && minute < w.endMinute with
      | some w =>
        ({ inputMicrosPerMillion := w.inputMicrosPerMillion
           cachedInputMicrosPerMillion := w.cachedInputMicrosPerMillion
           outputMicrosPerMillion := w.outputMicrosPerMillion
           fixedRequestMicrosUSD := w.fixedRequestMicrosUSD },
          some { timezone := s.timezone, source := .window, startMinute := some w.startMinute,
                 endMinute := some w.endMinute, localMinute := some minute })
      | none =>
        (p.baseTier, some { timezone := s.timezone, source := .base, localMinute := some minute })

end DeploymentPriceVersion

/-! ## Selection -/

/-- Why a pricing operation of the store fails. -/
inductive PricingError
  | invalidArgument
  | invalidVersion (problems : List PriceProblem)
  | snapshot (reason : PriceError)
  | notEncodable
  | priceUnavailable
  | timelineConflict
  | versionUnavailable
  | anotherDeployment (priceID : String)
  | missingRecord
  | notFound
  | alreadyExists
  | versionOverflow
  | retentionCapacity
  | idempotencyCapacity
  | idempotencyMissingState
  | idempotencyConflict
  | revisionConflict
  | invalidHighWater
  | invalidPin
  | quarantined
  | pinWithoutLease (attemptID : String)
  | leaseWithoutSnapshot (attemptID : String)
  | digestMismatch (attemptID : String)
  | sequenceMismatch (attemptID : String)
  deriving DecidableEq

/-- `Validate`, as the callers see it. -/
def DeploymentPriceVersion.validate (rules : PricingRules) (p : DeploymentPriceVersion) :
    Except PricingError Unit :=
  if p.valid rules then .ok () else .error (.invalidVersion (p.problems rules))

lemma DeploymentPriceVersion.validate_eq_ok {rules : PricingRules} {p : DeploymentPriceVersion}
    {u : Unit} : p.validate rules = .ok u ↔ p.valid rules = true := by
  unfold DeploymentPriceVersion.validate
  by_cases h : p.valid rules = true <;> simp [h]

/-- The snapshot of a version at an instant. -/
def newVersionedPriceSnapshot (rules : PricingRules) (price : DeploymentPriceVersion)
    (selectedAt : ℤ) : Except PricingError PriceSnapshot := do
  price.validate rules
  let (tier, provenance) := price.tierAt rules selectedAt
  let snapshot : PriceSnapshot :=
    { pricingSelectedAt := { instant := selectedAt }
      priceEvidenceStatus := .versioned
      costValueStatus := .known
      priceVersionID := price.id
      priceVersion := some price.version
      billingMode := price.billingMode
      currency := price.currency
      formulaVersion := price.formulaVersion
      inputMicrosPerMillion := some tier.inputMicrosPerMillion
      cachedInputMicrosPerMillion := some tier.cachedInputMicrosPerMillion
      outputMicrosPerMillion := some tier.outputMicrosPerMillion
      fixedRequestMicrosUSD := some tier.fixedRequestMicrosUSD
      scheduleTier := provenance
      effectiveFrom := some price.effectiveFrom
      sourceType := price.source.type
      sourceAssurance := price.source.assurance
      sourceContentSHA256 := price.source.contentSHA256
      sourceReference := price.source.reference
      sourceWithoutArchive := price.source.assertedWithoutArchive }
  match snapshot.validate rules.knownZone with
  | .ok () => .ok snapshot
  | .error reason => .error (.snapshot reason)

/-- `Digest`: the snapshot is checked and encoded, and the encoding hashed. -/
def PriceSnapshot.digest (rules : PricingRules) (s : PriceSnapshot) : Except PricingError String :=
  match s.validate rules.knownZone with
  | .error reason => .error (.snapshot reason)
  | .ok () =>
    if encodableTime s.pricingSelectedAt.instant &&
        s.effectiveFrom.all fun t => encodableTime t.instant then
      .ok (rules.sha256 s)
    else .error .notEncodable

/-- The rest of a timeline is sound, given which effective times and which version numbers the
versions before it claimed. -/
def auditFrom (rules : PricingRules) (deploymentID : String) :
    FinMap Bytes String → FinMap ℕ String → List DeploymentPriceVersion →
    Except PricingError Unit
  | _, _, [] => .ok ()
  | seenEffective, seenVersion, candidate :: rest =>
    if !candidate.valid rules then .error (.invalidVersion (candidate.problems rules))
    else if candidate.deploymentID ≠ deploymentID then .error (.anotherDeployment candidate.id)
    else
      let timeKey := canonicalPriceTime candidate.effectiveFrom
      if (seenEffective.lookup timeKey).any fun previous => decide (previous ≠ candidate.id) then
        .error .timelineConflict
      else if (seenVersion.lookup candidate.version).any fun previous =>
          decide (previous ≠ candidate.id) then
        .error .timelineConflict
      else auditFrom rules deploymentID (seenEffective.insert timeKey candidate.id)
        (seenVersion.insert candidate.version candidate.id) rest

def auditPriceTimeline (rules : PricingRules) (versions : List DeploymentPriceVersion)
    (deploymentID : String) : Except PricingError Unit :=
  if blank deploymentID then .error .invalidArgument
  else auditFrom rules deploymentID ∅ ∅ versions

/-- One candidate against the best one so far. -/
def better (selectedAt : ℤ) (selected : Option DeploymentPriceVersion)
    (candidate : DeploymentPriceVersion) : Option DeploymentPriceVersion :=
  if !candidate.effectiveBy selectedAt then selected
  else
    match selected with
    | none => some candidate
    | some best =>
      if best.effectiveFrom.instant < candidate.effectiveFrom.instant ||
          (candidate.effectiveFrom.instant = best.effectiveFrom.instant &&
            (best.version < candidate.version ||
              (candidate.version = best.version && best.id < candidate.id))) then
        some candidate
      else selected

def selectAuditedPriceVersion (versions : List DeploymentPriceVersion) (selectedAt : ZonedTime) :
    Except PricingError DeploymentPriceVersion :=
  if selectedAt.isZero || !isUTC selectedAt then .error .invalidArgument
  else
    match versions.foldl (better selectedAt.instant) none with
    | none => .error .priceUnavailable
    | some price => .ok price

/-! ## Sound timelines -/

/-- On a timeline in order of effective time the scan ends with the last version effective by
then. -/
theorem foldl_better {versions : List DeploymentPriceVersion} {selectedAt : ℤ}
    (hsorted : versions.Pairwise fun p q => p.effectiveFrom.instant < q.effectiveFrom.instant) :
    versions.foldl (better selectedAt) none =
      (versions.filter fun p => p.effectiveBy selectedAt).getLast? := by
  induction versions using List.reverseRecOn with
  | nil => rfl
  | append_singleton l p ih =>
    obtain ⟨hl, -, hlast⟩ := List.pairwise_append.mp hsorted
    rw [List.foldl_append, List.foldl_cons, List.foldl_nil, ih hl, List.filter_append]
    unfold better
    by_cases hp : p.effectiveBy selectedAt = true
    · have hone : [p].filter (fun p => p.effectiveBy selectedAt) = [p] := by simp [hp]
      rw [hone, List.getLast?_concat, hp]
      cases hbest : (l.filter fun p => p.effectiveBy selectedAt).getLast? with
      | none => rfl
      | some best =>
        -- the best so far lies before the candidate
        have hmem : best ∈ l := List.mem_of_mem_filter (List.mem_of_getLast? hbest)
        have hlt := hlast best hmem p List.mem_cons_self
        simp [hlt]
    · have hp' : p.effectiveBy selectedAt = false := by simpa using hp
      have hnone : [p].filter (fun p => p.effectiveBy selectedAt) = [] := by simp [hp']
      rw [hnone, List.append_nil, hp']
      rfl

/-- A timeline of sound versions of one deployment, no two of which share a time key or a version
number, passes the audit. -/
lemma auditFrom_eq_ok {rules : PricingRules} {deploymentID : String}
    {versions : List DeploymentPriceVersion} {seenEffective : FinMap Bytes String}
    {seenVersion : FinMap ℕ String} (hvalid : ∀ p ∈ versions, p.valid rules = true)
    (hsame : ∀ p ∈ versions, p.deploymentID = deploymentID)
    (hkeys : versions.Pairwise fun p q =>
      canonicalPriceTime p.effectiveFrom ≠ canonicalPriceTime q.effectiveFrom)
    (hvers : versions.Pairwise fun p q => p.version ≠ q.version)
    (hfreshKey : ∀ p ∈ versions, seenEffective.lookup (canonicalPriceTime p.effectiveFrom) = none)
    (hfreshVersion : ∀ p ∈ versions, seenVersion.lookup p.version = none) :
    auditFrom rules deploymentID seenEffective seenVersion versions = .ok () := by
  induction versions generalizing seenEffective seenVersion with
  | nil => rfl
  | cons p rest ih =>
    obtain ⟨hkey, hkeys⟩ := List.pairwise_cons.mp hkeys
    obtain ⟨hver, hvers⟩ := List.pairwise_cons.mp hvers
    have hp : p ∈ p :: rest := List.mem_cons_self
    rw [auditFrom]
    dsimp only
    rw [hvalid p hp, hsame p hp, hfreshKey p hp, hfreshVersion p hp]
    simp only [Bool.not_true, Bool.false_eq_true, if_false, ne_eq, not_true_eq_false,
      Option.any_none]
    refine ih (fun q hq => hvalid q (List.mem_cons_of_mem p hq))
      (fun q hq => hsame q (List.mem_cons_of_mem p hq)) hkeys hvers (fun q hq => ?_)
      fun q hq => ?_
    · rw [FinMap.lookup_insert_ite, if_neg (hkey q hq).symm]
      exact hfreshKey q (List.mem_cons_of_mem p hq)
    · rw [FinMap.lookup_insert_ite, if_neg (hver q hq).symm]
      exact hfreshVersion q (List.mem_cons_of_mem p hq)

end Halro
