import Halro.Ledger.State
import Halro.Pricing.Store

/-!
# Price pins and the pricing clock (`internal/store/bolt/store_pricing.go`,
`pricing_clock_recovery.go`, `internal/domain/pricing_pin.go`)

Before an attempt starts, `PrepareDeploymentPricePin` selects the price in force and records it as
the attempt's pin.  The deployment's high-water mark keeps selections from going back in time: a
selection behind the mark is made at the mark, and a wall clock that drifted away from the monotonic
one puts the deployment into quarantine, which only an operator's confirmation lifts.

Preparing and committing a pin are callbacks of a batched transaction.  They report what is expected
(no price, a quarantine, a conflicting pin) as an outcome beside the transaction, and only a fault as
an error, since an error drops the caller from its batch.
-/

namespace Halro

open Framework

/-! ## Validity -/

def DeploymentPricingHighWater.valid (h : DeploymentPricingHighWater) : Bool :=
  !blank h.deploymentID && !blank h.latestObservedPriceVersionID &&
    decide (h.latestSelectedAt ≠ 0) && decide (h.latestObservedEffectiveFrom ≠ 0) &&
    decide (h.revision ≠ 0) && decide (h.latestObservedEffectiveFrom ≤ h.latestSelectedAt)

def DeploymentPricingHighWater.encodable (h : DeploymentPricingHighWater) : Bool :=
  encodableTime h.latestSelectedAt && encodableTime h.latestObservedEffectiveFrom

def DeploymentPricingHighWater.quarantineFor (mark : DeploymentPricingHighWater)
    (reason : QuarantineReason) : DeploymentPricingHighWater :=
  { mark with quarantine := some reason, revision := increment mark.revision }

namespace PricePinIntent

/-- A prepared pin carries no commit metadata, a committed one all of it. -/
def stateValid (p : PricePinIntent) : Bool :=
  match p.state with
  | .prepared => decide (p.ledgerSequence = 0) && p.committedAt.isNone
  | .committed => decide (p.ledgerSequence ≠ 0) && p.committedAt.any fun t => decide (t ≠ 0)

def valid (p : PricePinIntent) : Bool :=
  decide (0 ≤ p.clockForwardGapNanos) && !blank p.attemptID && !blank p.deploymentID &&
    !blank p.priceVersionID && decide (p.priceVersion ≠ 0) && validSHA256Label p.snapshotSHA256 &&
    decide (p.pricingSelectedAt ≠ 0) && decide (p.metadataRevision ≠ 0) &&
    decide (p.createdAt ≠ 0) && p.stateValid

def encodable (p : PricePinIntent) : Bool :=
  encodableTime p.pricingSelectedAt && encodableTime p.createdAt &&
    p.committedAt.all fun t => encodableTime t

/-- The pin, committed with its lease. -/
def commit (p : PricePinIntent) (sequence : ℕ) (committedAt : ℤ) : PricePinIntent :=
  { p with state := .committed, ledgerSequence := sequence, committedAt := some committedAt }

end PricePinIntent

/-! ## The clock -/

/-- A reading of the wall clock and one of the monotonic clock, taken together. -/
structure PricingClockObservation where
  selectedAt : ℤ
  observedAt : ℤ
  deriving DecidableEq

/-- `time.Time.Sub`: a difference out of range is cut to the nearest duration. -/
def durationBetween (a b : ℤ) : ℤ := max minInt64 (min maxInt64 (a - b))

/-- A call of `PrepareDeploymentPricePin`. -/
structure PinRequest where
  deploymentID : String
  attemptID : String
  selectedAt : ℤ
  observedAt : ℤ
  rollbackTolerance : ℤ
  forwardTolerance : ℤ
  deriving DecidableEq

namespace PinRequest

/-- The arguments the call accepts. -/
def admissible (r : PinRequest) : Bool :=
  decide (r.deploymentID ≠ "") && decide (r.attemptID ≠ "") && decide (r.selectedAt ≠ 0) &&
    decide (r.observedAt ≠ 0) && decide (0 ≤ r.rollbackTolerance) && decide (0 < r.forwardTolerance)

/-- How far the wall clock moved since the anchor, less how far the monotonic clock moved. -/
def drift (r : PinRequest) (anchor : PricingClockObservation) : ℤ :=
  (durationBetween r.selectedAt anchor.selectedAt -
    durationBetween r.observedAt anchor.observedAt).bmod (2 ^ 64)

def observation (r : PinRequest) : PricingClockObservation where
  selectedAt := r.selectedAt
  observedAt := r.observedAt

end PinRequest

/-- `mergeClockAnchor`: the anchor only ever moves to a newer selection. -/
def mergeClockAnchor (anchor : Option PricingClockObservation)
    (candidate : PricingClockObservation) : Option PricingClockObservation :=
  match anchor with
  | none => some candidate
  | some current => if current.selectedAt < candidate.selectedAt then some candidate else anchor

/-- What the clock checks decide about a selection. -/
inductive ClockDecision
  | select (selectedAt gap : ℤ)
  | quarantine (mark : DeploymentPricingHighWater) (reason : QuarantineReason)
  | quarantined
  deriving DecidableEq

namespace PricingStore

/-- The version in force is the free one the mark was last moved by: no rate can have changed over
the gap. -/
def sameFreePrice (rules : PricingRules) (tx : PricingStore) (mark : DeploymentPricingHighWater)
    (r : PinRequest) : Bool :=
  match tx.selectDeploymentPriceVersionTx rules r.deploymentID r.selectedAt with
  | .ok current => decide (current.id = mark.latestObservedPriceVersionID) &&
      decide (current.billingMode = .free)
  | .error _ => false

/-- The selection goes on at the wall clock's reading or, behind the mark, at the mark. -/
def decideClock (rules : PricingRules) (tx : PricingStore)
    (anchor : Option PricingClockObservation) (r : PinRequest) :
    Except PricingError ClockDecision :=
  match tx.highWater.lookup r.deploymentID with
  | none => .ok (.select r.selectedAt 0)
  | some mark =>
    if !mark.valid then .error .invalidHighWater
    else if mark.quarantine.isSome then .ok .quarantined
    else
      let drift := anchor.map r.drift
      let jumped := drift.any fun d => decide (r.forwardTolerance < d)
      let accepted := jumped && tx.sameFreePrice rules mark r
      let gap := if accepted then drift.getD 0 else 0
      if jumped && !accepted then .ok (.quarantine mark .wallClockForwardJump)
      else if r.selectedAt < mark.latestSelectedAt then
        -- with an anchor the drift has decided; without one the mark is the only witness
        if drift.any (fun d => decide (d < -r.rollbackTolerance)) ||
            (drift.isNone &&
              decide (r.rollbackTolerance < durationBetween mark.latestSelectedAt r.selectedAt)) then
          .ok (.quarantine mark .wallClockRollback)
        else .ok (.select mark.latestSelectedAt gap)
      else .ok (.select r.selectedAt gap)

/-! ## Preparing a pin -/

/-- What a prepared pin's caller gets besides an error. -/
inductive PrepareOutcome
  | pinned (price : DeploymentPriceVersion) (snapshot : PriceSnapshot) (pin : PricePinIntent)
  | refused (reason : PricingError)
  deriving DecidableEq

/-- The mark after a selection. -/
def movedMark (mark : Option DeploymentPricingHighWater) (deploymentID : String)
    (price : DeploymentPriceVersion) (selectedAt : ℤ) : DeploymentPricingHighWater :=
  match mark with
  | none =>
    { deploymentID := deploymentID, latestObservedPriceVersionID := price.id
      latestSelectedAt := selectedAt
      latestObservedEffectiveFrom := price.effectiveFrom.instant, revision := 1 }
  | some mark =>
    let later := mark.latestObservedEffectiveFrom < price.effectiveFrom.instant
    { mark with
      latestSelectedAt := selectedAt
      latestObservedEffectiveFrom :=
        if later then price.effectiveFrom.instant else mark.latestObservedEffectiveFrom
      latestObservedPriceVersionID :=
        if later then price.id else mark.latestObservedPriceVersionID
      revision := increment mark.revision }

/-- A new pin and the mark it moves. -/
def storePin (tx : PricingStore) (pin : PricePinIntent) (price : DeploymentPriceVersion) :
    Except PricingError PricingStore :=
  let mark := movedMark (tx.highWater.lookup pin.deploymentID) pin.deploymentID price
    pin.pricingSelectedAt
  if !pin.valid then .error .invalidPin
  else if !pin.encodable then .error .notEncodable
  else if !mark.valid then .error .invalidHighWater
  else if !mark.encodable then .error .notEncodable
  else .ok { tx with
    pins := tx.pins.insert pin.attemptID pin
    highWater := tx.highWater.insert pin.deploymentID mark }

/-- The pin of a selection: the one the attempt already has, if it agrees, or a new one. -/
def pinSelection (rules : PricingRules) (tx : PricingStore) (now : ℤ) (r : PinRequest)
    (selectedAt gap : ℤ) (price : DeploymentPriceVersion) :
    Except PricingError (PrepareOutcome × PricingStore) := do
  let snapshot ← newVersionedPriceSnapshot rules price selectedAt
  let digest ← snapshot.digest rules
  match tx.deployments.lookup r.deploymentID with
  | none => return (.refused .notFound, tx)
  | some deployment =>
    match tx.pins.lookup r.attemptID with
    | some pin =>
      if pin.deploymentID ≠ r.deploymentID || pin.priceVersionID ≠ price.id ||
          pin.snapshotSHA256 ≠ digest then
        return (.refused .idempotencyConflict, tx)
      else return (.pinned price snapshot pin, tx)
    | none =>
      let pin : PricePinIntent :=
        { clockForwardGapNanos := gap, attemptID := r.attemptID, deploymentID := r.deploymentID
          priceVersionID := price.id, priceVersion := price.version, snapshotSHA256 := digest
          pricingSelectedAt := selectedAt, metadataRevision := deployment.revision
          createdAt := now }
      let tx ← tx.storePin pin price
      return (.pinned price snapshot pin, tx)

/-- One run of the body of `PrepareDeploymentPricePin`, with the anchor and the time it reads. -/
def prepareDeploymentPricePin (rules : PricingRules) (tx : PricingStore)
    (anchor : Option PricingClockObservation) (now : ℤ) (r : PinRequest) :
    Except PricingError (PrepareOutcome × PricingStore) :=
  match tx.decideClock rules anchor r with
  | .error e => .error e
  | .ok .quarantined => .ok (.refused .quarantined, tx)
  | .ok (.quarantine mark reason) =>
    .ok (.refused .quarantined, { tx with
      highWater := tx.highWater.insert r.deploymentID (mark.quarantineFor reason) })
  | .ok (.select selectedAt gap) =>
    match tx.selectDeploymentPriceVersionTx rules r.deploymentID selectedAt with
    | .error .priceUnavailable => .ok (.refused .priceUnavailable, tx)
    | .error e => .error e
    | .ok price => tx.pinSelection rules now r selectedAt gap price

/-! ## Committing and deleting a pin -/

/-- The body of `CommitDeploymentPricePin`; an expected refusal travels beside the store. -/
def commitDeploymentPricePin (tx : PricingStore) (attemptID snapshotSHA256 : String)
    (ledgerSequence : ℕ) (committedAt : ℤ) :
    Except PricingError (Except PricingError PricePinIntent × PricingStore) :=
  match tx.pins.lookup attemptID with
  | none => .ok (.error .notFound, tx)
  | some pin =>
    if pin.snapshotSHA256 ≠ snapshotSHA256 then .ok (.error .idempotencyConflict, tx)
    else
      match pin.state with
      | .committed =>
        if pin.ledgerSequence ≠ ledgerSequence then .ok (.error .idempotencyConflict, tx)
        else .ok (.ok pin, tx)
      | .prepared =>
        let committed := pin.commit ledgerSequence committedAt
        if !committed.valid then .error .invalidPin
        else if !committed.encodable then .error .notEncodable
        else .ok (.ok committed, { tx with pins := tx.pins.insert attemptID committed })

def deletePreparedDeploymentPricePin (tx : PricingStore) (attemptID : String) :
    Except PricingError PricingStore :=
  match tx.pins.lookup attemptID with
  | none => .ok tx
  | some pin =>
    match pin.state with
    | .prepared => .ok { tx with pins := tx.pins.erase attemptID }
    | .committed => .error .versionUnavailable

/-! ## Quarantines -/

/-- The version a mark was last moved by is missing, or is not the one the mark describes. -/
def incoherent (tx : PricingStore) (mark : DeploymentPricingHighWater) : Bool :=
  match tx.prices.lookup mark.latestObservedPriceVersionID with
  | none => true
  | some price => decide (price.deploymentID ≠ mark.deploymentID) ||
      decide (price.effectiveFrom.instant ≠ mark.latestObservedEffectiveFrom)

/-- The marks of a restored database that its versions do not bear out. -/
def quarantineIncoherentPricingHighWatersTx (tx : PricingStore) :
    Except PricingError PricingStore :=
  let marks := tx.highWater.entriesSorted (· ≤ ·)
  if marks.any fun e => !e.2.valid then .error .invalidHighWater
  else
    let updates := (marks.filter fun e => e.2.quarantine.isNone && tx.incoherent e.2).map
      fun e => (e.1, e.2.quarantineFor .restoredHighWaterIncoherent)
    .ok { tx with highWater := tx.highWater.insertAll updates }

/-- The version became due between a backup and its restoration. -/
def dueBetween (backupCreatedAt restoredAt : ℤ) (p : DeploymentPriceVersion) : Bool :=
  decide (backupCreatedAt < p.effectiveFrom.instant) &&
    decide (p.effectiveFrom.instant ≤ restoredAt) &&
    p.cancelledAt.all fun t => decide (backupCreatedAt < t.instant)

/-- The last version of each deployment that became due. -/
def dueVersions (backupCreatedAt restoredAt : ℤ) (prices : List DeploymentPriceVersion) :
    FinMap String DeploymentPriceVersion :=
  prices.foldl (fun due p =>
    if dueBetween backupCreatedAt restoredAt p && (due.lookup p.deploymentID).all
        (fun c => decide (c.effectiveFrom.instant < p.effectiveFrom.instant)) then
      due.insert p.deploymentID p
    else due) ∅

/-- The mark of a deployment one of whose versions became due; a quarantined one stays. -/
def restoredMark (mark : Option DeploymentPricingHighWater) (deploymentID : String)
    (price : DeploymentPriceVersion) (restoredAt : ℤ) : Option DeploymentPricingHighWater :=
  match mark with
  | some mark => if mark.quarantine.isSome then none
      else some (mark.quarantineFor .restoredScheduledPrice)
  | none => some
      { deploymentID := deploymentID, latestObservedPriceVersionID := price.id
        latestSelectedAt := restoredAt
        latestObservedEffectiveFrom := price.effectiveFrom.instant
        quarantine := some .restoredScheduledPrice, revision := 1 }

def quarantineRestoredScheduledPrices (tx : PricingStore) (backupCreatedAt restoredAt : ℤ) :
    Except PricingError PricingStore :=
  if backupCreatedAt = 0 || restoredAt ≤ backupCreatedAt then .ok tx
  else
    let prices := (tx.prices.entriesSorted (· ≤ ·)).map Prod.snd
    let due := (dueVersions backupCreatedAt restoredAt prices).entriesSorted (· ≤ ·)
    let updates := due.filterMap fun e =>
      (restoredMark (tx.highWater.lookup e.1) e.1 e.2 restoredAt).map fun mark => (e.1, mark)
    if updates.any fun e => !e.2.valid then .error .invalidHighWater
    else if updates.any fun e => !e.2.encodable then .error .notEncodable
    else .ok { tx with highWater := tx.highWater.insertAll updates }

/-- `IsClockPricingQuarantine`. -/
def isClockPricingQuarantine : QuarantineReason → Bool
  | .wallClockForwardJump | .wallClockRollback => true
  | _ => false

/-- An operator confirms the pricing of a restored deployment. -/
def confirmRestoredPricing (tx : PricingStore) (deploymentID : String) :
    Except PricingError PricingStore :=
  match tx.highWater.lookup deploymentID with
  | none => .error .notFound
  | some mark =>
    if mark.quarantine.all isClockPricingQuarantine then .error .revisionConflict
    else
      let confirmed := { mark with quarantine := none, revision := increment mark.revision }
      if !confirmed.valid then .error .invalidHighWater
      else .ok { tx with highWater := tx.highWater.insert deploymentID confirmed }

/-- What an operator confirms of a clock quarantine: the mark's revision and reason and the price
they reviewed. -/
structure PricingClockConfirmation where
  revision : ℕ
  reason : QuarantineReason
  priceID : String
  reviewedAt : ℤ
  deriving DecidableEq

/-- The quarantined mark of a deployment and the version in force at the time of the review. -/
def clockPricingReviewTx (rules : PricingRules) (tx : PricingStore) (deploymentID : String)
    (now : ℤ) :
    Except PricingError (DeploymentPricingHighWater × QuarantineReason × DeploymentPriceVersion) :=
  do
  match tx.deployments.lookup deploymentID with
  | none => throw .notFound
  | some deployment => if deployment.deleted then throw .notFound
  match tx.highWater.lookup deploymentID with
  | none => throw .notFound
  | some mark =>
    if !mark.valid then throw .invalidHighWater
    match mark.quarantine with
    | none => throw .revisionConflict
    | some reason =>
      if !isClockPricingQuarantine reason then throw .revisionConflict
      match tx.timeline.lookup deploymentID with
      | none => throw .priceUnavailable
      | some timeline =>
        let prices ← tx.records timeline.entries
        auditPriceTimeline rules prices deploymentID
        let price ← selectAuditedPriceVersion prices { instant := now }
        return (mark, reason, price)

def fiveMinutes : ℤ := 5 * 60 * nanosPerSecond

/-- An operator confirms a clock quarantine: the mark starts anew at the current reading. -/
def recoverClockPricing (rules : PricingRules) (tx : PricingStore) (deploymentID : String)
    (expected : PricingClockConfirmation) (now : ℤ) : Except PricingError PricingStore := do
  if now = 0 || expected.reviewedAt = 0 || now < expected.reviewedAt ||
      fiveMinutes < durationBetween now expected.reviewedAt then
    throw .revisionConflict
  let (mark, reason, price) ← tx.clockPricingReviewTx rules deploymentID now
  if expected.revision ≠ mark.revision || expected.reason ≠ reason ||
      expected.priceID ≠ price.id then
    throw .revisionConflict
  let renewed : DeploymentPricingHighWater :=
    { deploymentID := deploymentID, latestObservedPriceVersionID := price.id
      latestObservedEffectiveFrom := price.effectiveFrom.instant, latestSelectedAt := now
      revision := increment expected.revision }
  if !renewed.valid then throw .invalidHighWater
  if !renewed.encodable then throw .notEncodable
  return { tx with highWater := tx.highWater.insert deploymentID renewed }

/-! ## Recovery -/

/-- What the startup does with a pin. -/
inductive PinResolution
  | keep
  | delete
  | commit (pin : PricePinIntent)
  deriving DecidableEq

/-- A pin against the lease of its attempt, if the Ledger still knows one. -/
def resolvePin (rules : PricingRules) (lease : Option Ledger.Record) (checkedThrough : ℕ)
    (now : ℤ) (pin : PricePinIntent) : Except PricingError PinResolution :=
  if !pin.valid then .error .invalidPin
  else
    match lease with
    | none =>
      match pin.state with
      | .prepared => .ok .delete
      | .committed =>
        if checkedThrough < pin.ledgerSequence then .error (.pinWithoutLease pin.attemptID)
        else .ok .keep
    | some record =>
      match record.event.priceSnapshot with
      | none => .error (.leaseWithoutSnapshot pin.attemptID)
      | some snapshot =>
        match snapshot.digest rules with
        | .error _ => .error (.digestMismatch pin.attemptID)
        | .ok digest =>
          if digest ≠ pin.snapshotSHA256 then .error (.digestMismatch pin.attemptID)
          else
            match pin.state with
            | .prepared => .ok (.commit (pin.commit record.sequence now))
            | .committed =>
              if pin.ledgerSequence ≠ record.sequence then
                .error (.sequenceMismatch pin.attemptID)
              else .ok .keep

def resolvePins (rules : PricingRules) (lease : String → Option Ledger.Record)
    (checkedThrough : ℕ) (now : ℤ) :
    List (String × PricePinIntent) → Except PricingError (List (String × PinResolution))
  | [] => .ok []
  | (key, pin) :: rest => do
    let resolution ← resolvePin rules (lease pin.attemptID) checkedThrough now pin
    let resolutions ← resolvePins rules lease checkedThrough now rest
    return (key, resolution) :: resolutions

/-- The keys of the pins to delete. -/
def deletions (resolutions : List (String × PinResolution)) : List String :=
  resolutions.filterMap fun e => if e.2 = .delete then some e.1 else none

/-- The pins to write. -/
def commitments (resolutions : List (String × PinResolution)) : List (String × PricePinIntent) :=
  resolutions.filterMap fun e =>
    match e.2 with
    | .commit pin => some (e.1, pin)
    | _ => none

/-- `RecoverDeploymentPricePins`: the pins a stop left prepared are resolved against the leases of
the Ledger, and the committed ones are checked. -/
def recoverDeploymentPricePins (rules : PricingRules) (tx : PricingStore)
    (lease : String → Option Ledger.Record) (checkedThrough : ℕ) (now : ℤ) :
    Except PricingError PricingStore := do
  let tx ← tx.quarantineIncoherentPricingHighWatersTx
  let resolutions ← resolvePins rules lease checkedThrough now (tx.pins.entriesSorted (· ≤ ·))
  if (commitments resolutions).any fun e => !e.2.valid then throw .invalidPin
  if (commitments resolutions).any fun e => !e.2.encodable then throw .notEncodable
  return { tx with
    pins := (tx.pins.eraseAll (deletions resolutions)).insertAll (commitments resolutions) }

end PricingStore

end Halro
