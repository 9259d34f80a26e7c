import Halro.Domain.PriceVersion
import Halro.Framework.Entries

/-!
# The price versions of the metadata store (`internal/store/bolt/store_pricing.go`)

The store keeps the price versions by their id, and for each deployment a timeline: a bucket that
files the ids of its versions under the byte key of their effective time.  A version is created by
an operator, by the adoption of a proposal or by the bootstrap of an installation, and cancelled
before it takes effect; it is never removed.  The request path selects from the timeline with a
cursor (`selectDeploymentPriceVersionTx`).

Each operation here is the body of one transaction: an error leaves the store as it was.
-/

namespace Halro

open Framework

/-! ## Records -/

/-- What the pricing operations read of a deployment; a deleted one keeps its record. -/
structure Deployment where
  revision : ℕ
  deleted : Bool := false
  deriving DecidableEq

structure PricingIdempotencyRecord where
  requestSHA256 : String
  priceID : String
  deriving DecidableEq

inductive QuarantineReason
  | wallClockForwardJump
  | wallClockRollback
  | restoredScheduledPrice
  | restoredHighWaterIncoherent
  deriving DecidableEq

/-- The latest selection of a deployment.  The quarantine flag and its reason are set together, so
they are one field. -/
structure DeploymentPricingHighWater where
  deploymentID : String
  latestObservedPriceVersionID : String
  latestSelectedAt : ℤ
  latestObservedEffectiveFrom : ℤ
  quarantine : Option QuarantineReason := none
  revision : ℕ
  deriving DecidableEq

inductive PricePinState
  | prepared
  | committed
  deriving DecidableEq

/-- The price an attempt was promised. -/
structure PricePinIntent where
  clockForwardGapNanos : ℤ := 0
  attemptID : String
  deploymentID : String
  priceVersionID : String
  priceVersion : ℕ
  snapshotSHA256 : String
  pricingSelectedAt : ℤ
  metadataRevision : ℕ
  state : PricePinState := .prepared
  ledgerSequence : ℕ := 0
  createdAt : ℤ
  committedAt : Option ℤ := none
  deriving DecidableEq

structure PricingStore where
  deployments : FinMap String Deployment := ∅
  prices : FinMap String DeploymentPriceVersion := ∅
  timeline : FinMap String (Bucket Bytes String) := ∅
  nextVersion : FinMap String ℕ := ∅
  idempotency : FinMap String PricingIdempotencyRecord := ∅
  highWater : FinMap String DeploymentPricingHighWater := ∅
  pins : FinMap String PricePinIntent := ∅

def maxPriceVersionsPerDeployment : ℕ := 10000

def maxScheduledPricesPerDeployment : ℕ := 1000

def maxPricingIdempotencyRecords : ℕ := 100000

def maxUint64 : ℕ := 18446744073709551615

/-- One more, in 64 bits. -/
def increment (n : ℕ) : ℕ := (n + 1) % 2 ^ 64

def deploymentPriceTimelineKey (effectiveFrom : ZonedTime) : Bytes :=
  priceTimeKey effectiveFrom.instant

def DeploymentPriceVersion.timeKey (p : DeploymentPriceVersion) : Bytes :=
  deploymentPriceTimelineKey p.effectiveFrom

namespace PricingStore

/-! ## Reading a timeline -/

/-- The timeline of a deployment; one that was never written is empty. -/
def timelineOf (tx : PricingStore) (deploymentID : String) : Bucket Bytes String :=
  (tx.timeline.lookup deploymentID).getD Bucket.empty

/-- The records a part of a timeline refers to. -/
def records (tx : PricingStore) :
    List (Bytes × String) → Except PricingError (List DeploymentPriceVersion)
  | [] => .ok []
  | (_, priceID) :: rest =>
    match tx.prices.lookup priceID with
    | none => .error .missingRecord
    | some price => (tx.records rest).map (price :: ·)

/-- The non-cancelled record that takes effect last. -/
def latestNonCancelled (existing : List DeploymentPriceVersion) : Option DeploymentPriceVersion :=
  existing.foldl (fun latest price =>
    if price.cancelledAt.isNone &&
        latest.all (fun l => decide (l.effectiveFrom.instant < price.effectiveFrom.instant)) then
      some price
    else latest) none

/-- The records of a timeline, each checked. -/
def listFrom (rules : PricingRules) (tx : PricingStore) (deploymentID : String) :
    List (Bytes × String) → Except PricingError (List DeploymentPriceVersion)
  | [] => .ok []
  | (_, priceID) :: rest =>
    match tx.prices.lookup priceID with
    | none => .error .missingRecord
    | some price =>
      if price.deploymentID ≠ deploymentID then .error (.anotherDeployment price.id)
      else if !price.valid rules then .error (.invalidVersion (price.problems rules))
      else (listFrom rules tx deploymentID rest).map (price :: ·)

def listDeploymentPriceVersions (rules : PricingRules) (tx : PricingStore)
    (deploymentID : String) : Except PricingError (List DeploymentPriceVersion) :=
  match tx.timeline.lookup deploymentID with
  | none => if (tx.deployments.lookup deploymentID).isNone then .error .notFound else .ok []
  | some timeline => listFrom rules tx deploymentID timeline.entries

/-- The first version on a cursor's way back that is in force. -/
def selectFrom (rules : PricingRules) (tx : PricingStore) (selectedAt : ℤ) :
    List (Bytes × String) → Except PricingError DeploymentPriceVersion
  | [] => .error .priceUnavailable
  | (_, priceID) :: rest =>
    match tx.prices.lookup priceID with
    | none => .error .missingRecord
    | some price =>
      if price.effectiveBy selectedAt then (price.validate rules).map fun _ => price
      else selectFrom rules tx selectedAt rest

def selectDeploymentPriceVersionTx (rules : PricingRules) (tx : PricingStore)
    (deploymentID : String) (selectedAt : ℤ) : Except PricingError DeploymentPriceVersion :=
  match tx.timeline.lookup deploymentID with
  | none => .error .priceUnavailable
  | some timeline =>
    selectFrom rules tx selectedAt
      (timeline.walkBack (deploymentPriceTimelineKey { instant := selectedAt }))

/-! ## Writing a version -/

def putDeploymentPriceVersionTx (rules : PricingRules) (tx : PricingStore)
    (price : DeploymentPriceVersion) : Except PricingError PricingStore := do
  price.validate rules
  if (tx.prices.lookup price.id).isSome then throw .alreadyExists
  let timeline := tx.timelineOf price.deploymentID
  if (timeline.get price.timeKey).isSome then throw .timelineConflict
  if !price.encodable then throw .notEncodable
  return { tx with
    prices := tx.prices.insert price.id price
    timeline := tx.timeline.insert price.deploymentID (timeline.put price.timeKey price.id) }

/-- The record and the deployment's next version number, written together. -/
def appendVersion (rules : PricingRules) (tx : PricingStore) (price : DeploymentPriceVersion) :
    Except PricingError PricingStore := do
  let tx ← tx.putDeploymentPriceVersionTx rules price
  return { tx with nextVersion := tx.nextVersion.insert price.deploymentID price.version }

/-- The key of an idempotent request and the digest of what it asks for. -/
structure IdempotentRequest where
  keySHA256 : String
  requestSHA256 : String

/-- A request whose key is recorded is answered with the version it created. -/
def replayRequest (tx : PricingStore) (request : IdempotentRequest)
    (previous : PricingIdempotencyRecord) : Except PricingError DeploymentPriceVersion :=
  if previous.requestSHA256 ≠ request.requestSHA256 then .error .idempotencyConflict
  else
    match tx.prices.lookup previous.priceID with
    | none => .error .idempotencyMissingState
    | some stored => .ok stored

/-- The request's key is recorded beside what it created. -/
def recordRequest (tx : PricingStore) (request : Option IdempotentRequest)
    (price : DeploymentPriceVersion) : Except PricingError PricingStore :=
  match request with
  | none => .ok tx
  | some r =>
    if maxPricingIdempotencyRecords ≤ tx.idempotency.size then .error .idempotencyCapacity
    else
      let record := { requestSHA256 := r.requestSHA256, priceID := price.id }
      .ok { tx with idempotency := tx.idempotency.insert r.keySHA256 record }

/-- The version is not effective before the end of the timeline, and there is room for it. -/
def admitVersion (tx : PricingStore) (price : DeploymentPriceVersion) :
    Except PricingError Unit := do
  let existing ← tx.records (tx.timelineOf price.deploymentID).entries
  if (latestNonCancelled existing).any
      (fun l => decide (price.effectiveFrom.instant ≤ l.effectiveFrom.instant)) then
    throw .timelineConflict
  let scheduled := existing.countP fun p =>
    p.cancelledAt.isNone && decide (price.createdAt.instant < p.effectiveFrom.instant)
  if maxPriceVersionsPerDeployment ≤ existing.length ||
      (price.createdAt.instant < price.effectiveFrom.instant &&
        maxScheduledPricesPerDeployment ≤ scheduled) then
    throw .retentionCapacity

def createDeploymentPriceVersion (rules : PricingRules) (tx : PricingStore)
    (price : DeploymentPriceVersion) (request : Option IdempotentRequest) :
    Except PricingError (DeploymentPriceVersion × PricingStore) :=
  if blank price.id || blank price.deploymentID then .error .invalidArgument
  else if price.version ≠ 0 || price.revision ≠ 0 || price.cancelledAt.isSome ||
      price.cancelledBy ≠ "" then
    .error .invalidArgument
  else
    match request.bind fun r => (tx.idempotency.lookup r.keySHA256).map fun p => (r, p) with
    | some (r, previous) => (tx.replayRequest r previous).map fun stored => (stored, tx)
    | none => do
      if (tx.deployments.lookup price.deploymentID).isNone then throw .notFound
      if (tx.prices.lookup price.id).isSome then throw .alreadyExists
      let current := tx.nextVersion.getD price.deploymentID 0
      if current = maxUint64 then throw .versionOverflow
      let price := { price with version := current + 1, revision := 1 }
      price.validate rules
      if ((tx.timelineOf price.deploymentID).get price.timeKey).isSome then
        throw .timelineConflict
      tx.admitVersion price
      let tx ← tx.appendVersion rules price
      let tx ← tx.recordRequest request price
      return (price, tx)

/-- The version an adopted proposal becomes.  `price` holds the proposal's terms under the new id,
with the operator and the times of the adoption. -/
def adoptDeploymentPriceProposal (rules : PricingRules) (tx : PricingStore)
    (price : DeploymentPriceVersion) : Except PricingError (DeploymentPriceVersion × PricingStore) :=
  do
  if (tx.deployments.lookup price.deploymentID).isNone then throw .notFound
  let price := { price with
    version := increment (tx.nextVersion.getD price.deploymentID 0)
    revision := 1, cancelledAt := none, cancelledBy := "" }
  let existing ← tx.records (tx.timelineOf price.deploymentID).entries
  if (latestNonCancelled existing).any
      (fun l => decide (price.effectiveFrom.instant ≤ l.effectiveFrom.instant)) then
    throw .timelineConflict
  let tx ← tx.appendVersion rules price
  return (price, tx)

/-- The first version of a deployment, written with the deployment. -/
def bootstrap (rules : PricingRules) (tx : PricingStore) (price : DeploymentPriceVersion) :
    Except PricingError PricingStore := do
  price.validate rules
  if price.version ≠ 1 || price.revision ≠ 1 then throw .invalidArgument
  if (tx.deployments.lookup price.deploymentID).isSome then throw .alreadyExists
  ({ tx with deployments := tx.deployments.insert price.deploymentID { revision := 1 } } :
    PricingStore).appendVersion rules price

/-- `putVersioned`: the revision a record gets that is written over the expected one. -/
def putVersioned (existing : Option ℕ) (expectedRevision : ℕ) : Except PricingError ℕ :=
  match existing with
  | none => if expectedRevision ≠ 0 then .error .notFound else .ok 1
  | some revision =>
    if expectedRevision = 0 then .error .alreadyExists
    else if revision ≠ expectedRevision then .error .revisionConflict
    else .ok (increment expectedRevision)

/-- `PutDeployment`: a deployment is created, changed or marked as deleted. -/
def putDeployment (tx : PricingStore) (deploymentID : String) (expectedRevision : ℕ)
    (deleted : Bool) : Except PricingError PricingStore := do
  if deploymentID = "" then throw .invalidArgument
  let existing := (tx.deployments.lookup deploymentID).map Deployment.revision
  let revision ← putVersioned existing expectedRevision
  return { tx with
    deployments := tx.deployments.insert deploymentID { revision := revision, deleted := deleted } }

/-! ## Cancelling a version -/

/-- No pin names the version. -/
abbrev Unpinned (tx : PricingStore) (deploymentID priceID : String) : Prop :=
  tx.pins.Every fun pin => ¬ (pin.deploymentID = deploymentID ∧ pin.priceVersionID = priceID)

def cancelDeploymentPriceVersion (rules : PricingRules) (tx : PricingStore)
    (deploymentID priceID actor : String) (cancelledAt : ZonedTime) (expectedRevision : ℕ) :
    Except PricingError (DeploymentPriceVersion × PricingStore) :=
  match tx.prices.lookup priceID with
  | none => .error .notFound
  | some price => do
    if price.deploymentID ≠ deploymentID then throw .notFound
    if price.revision ≠ expectedRevision then throw .revisionConflict
    if price.cancelledAt.isSome || price.effectiveFrom.instant ≤ cancelledAt.instant then
      throw .versionUnavailable
    if ¬ tx.Unpinned deploymentID priceID then throw .versionUnavailable
    let price := { price with
      cancelledAt := some cancelledAt
      cancelledBy := Text.trimSpace actor
      revision := increment price.revision }
    price.validate rules
    if !price.encodable then throw .notEncodable
    return (price, { tx with prices := tx.prices.insert price.id price })

end PricingStore

end Halro
