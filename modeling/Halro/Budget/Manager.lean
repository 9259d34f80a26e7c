import Halro.Ledger.Conservation

/-!
# The budget manager (`internal/budget/manager.go`)

The manager turns the requests of the gateway and of the control plane into ledger events.  This
module holds its data and the parts of its operations that run without interruption: the decision
under a project's lock (`admitForRun`), its counterpart (`releaseAdmittedForRun`), the checks made
against the accounting state, and the events each operation writes.  `Machine.lean` puts them
together into operations that interleave.

What an operation takes from its environment, the clock, new identifiers, the accounting period of
an instant and whether the accounting state is below its memory limit, is its `Reading`.
-/

namespace Halro

open Framework

namespace Budget

open Ledger

/-! ## Errors -/

inductive BudgetError
  | exceeded
  | runExceeded
  | runPriceUnavailable
  | invalidAmount
  | runNotFound
  | runNotActive
  | workUnitClosed
  | workUnitNotFound
  | resourceLimit
  | idempotencyConflict
  | identifiersRequired
  | requestLease
  | intent
  | pricingViewDigest
  | price (error : PriceError)
  | policyEvidence
  | costMismatch (calculated committed : ℤ)
  | integerRange
  | hotStateFull
  deriving DecidableEq

def BudgetError.message : BudgetError → String
  | .exceeded => "daily budget exceeded"
  | .runExceeded => "run budget exceeded"
  | .runPriceUnavailable => "run budget requires a known price"
  | .invalidAmount => "invalid accounting amount"
  | .runNotFound => "run was not found"
  | .runNotActive => "run is not active"
  | .workUnitClosed => "work unit is closed"
  | .workUnitNotFound => "work unit was not found"
  | .resourceLimit => "run governance resource limit exceeded"
  | .idempotencyConflict => "idempotency key conflicts with another request"
  | .identifiersRequired => "project and request IDs are required"
  | .requestLease => "request lease is invalid"
  | .intent => "governance idempotency evidence is invalid"
  | .pricingViewDigest => "token guard pricing view digest is required for a tagged lease"
  | .price _ => "price snapshot is invalid"
  | .policyEvidence => "unknown price policy evidence is incomplete or does not explicitly " ++
      "disable cost governance"
  | .costMismatch calculated committed => "settlement cost does not match immutable price " ++
      "snapshot: calculated=" ++ toString calculated ++ " committed=" ++ toString committed
  | .integerRange => "accounting integer overflow"
  | .hotStateFull => "accounting state is at its memory limit"

/-! ## Data -/

/-- An accounting period: the local date and the interval it stands for. -/
structure Period where
  id : String
  timezone : String := ""
  timezoneVersion : ℕ := 0
  startMicros : ℤ := 0
  endMicros : ℤ := 0

def Period.stamp (p : Period) (e : Event) : Event :=
  { e with
    periodID := p.id, periodTimezone := p.timezone, periodTimezoneVersion := p.timezoneVersion,
    periodStartMicros := p.startMicros, periodEndMicros := p.endMicros }

/-- The microseconds of the zero time, which an event without an interval is read back as. -/
def zeroTimeMicros : ℤ := -62135596800000000

def periodFromEvent (e : Event) : Period where
  id := e.periodID
  timezone := e.periodTimezone
  timezoneVersion := e.periodTimezoneVersion
  startMicros := if e.periodStartMicros ≠ 0 then e.periodStartMicros else zeroTimeMicros
  endMicros := if e.periodEndMicros ≠ 0 then e.periodEndMicros else zeroTimeMicros

structure Request where
  requestID : String
  projectID : String
  workUnitID : String := ""
  runID : String := ""
  period : Period
  keyID : String := ""
  requestedModel : String := ""

/-- The balance a request is charged to. -/
def Request.balanceKey (q : Request) : BalanceKey where
  projectID := q.projectID
  periodID := q.period.id
  timezoneVersion := q.period.timezoneVersion

structure AttemptMetadata where
  routeID : String := ""
  deploymentID : String := ""
  providerID : String := ""
  offeringID : String := ""
  profileID : String := ""
  accountRegionID : String := ""
  providerModel : String := ""
  providerPrimitive : String := ""
  attemptNumber : ℤ := 0
  retryCount : ℤ := 0
  fallbackCount : ℤ := 0

structure LeaseSpec where
  attemptID : String := ""
  mode : LeaseMode := .legacy
  reservationMicrosUSD : ℤ
  priceSnapshot : Option PriceSnapshot := none
  preparedInputTokens : ℤ := 0
  preparedOutputTokens : ℤ := 0
  recoveryKey : String := ""
  unknownPolicyEvidence : Option UnknownPricePolicyEvidence := none
  tokenGuardPricingViewDigest : String := ""

/-- A reserved attempt, as later operations on it carry it. -/
structure Attempt where
  requestID : String
  attemptID : String
  projectID : String
  workUnitID : String := ""
  runID : String := ""
  period : Period
  keyID : String := ""
  requestedModel : String := ""
  metadata : AttemptMetadata := {}
  leaseMode : LeaseMode := .legacy
  priceSnapshot : Option PriceSnapshot := none

structure Settlement where
  committedMicrosUSD : ℤ := 0
  providerInputTokens : ℤ := 0
  providerOutputTokens : ℤ := 0
  providerCachedInputTokens : ℤ := 0
  providerCacheWriteInputTokens : ℤ := 0
  providerReasoningTokens : ℤ := 0
  preparedOutputTokens : ℤ := 0
  costEstimated : Bool := false
  tokenEstimated : Bool := false
  outcome : String := ""
  errorClass : String := ""
  httpStatus : ℤ := 0
  providerCode : String := ""
  providerFailureReason : String := ""
  retryable : Bool := false
  ambiguous : Bool := false
  failureSemanticsRecorded : Bool := false
  providerRequestID : String := ""
  failurePhase : String := ""
  latencyMillis : ℤ := 0
  /-- Zero for an ordinary settlement, which takes the manager's clock. -/
  occurredAt : ℤ := 0

structure GovernanceIntent where
  operation : String
  idempotencyKeyHash : String
  requestFingerprint : String

def GovernanceIntent.valid (i : GovernanceIntent) : Bool :=
  decide (i.operation ≠ "") && validSHA256Label i.idempotencyKeyHash &&
    validSHA256Label i.requestFingerprint

/-- What an operation takes from its environment. -/
structure Reading where
  eventID : String
  /-- A new Work Unit, Run or attempt identifier. -/
  newID : String := ""
  now : ℤ
  /-- The clock read again for the event of a reservation, after its admission. -/
  later : ℤ := now
  period : Period
  /-- Whether the accounting state is below its memory limit. -/
  room : Bool := true

/-! ## Lookups that reach the archive -/

section Lookups

variable {D : Type}

/-- `State.Run`: a Run in the state, in the queue of archived Work Units, or in the archive. -/
def findRun (archive : List ArchivedWorkUnit) (s : State D) (id : String) : Option Run :=
  s.runs.lookup id <|>
  ((s.indexes.queuedRuns.lookup id).bind fun unit => (s.indexes.queue.lookup unit).bind fun item =>
    item.runs.find? fun run => run.id = id) <|>
  archive.findSome? fun item => item.runs.find? fun run => run.id = id

/-- `State.WorkUnit`. -/
def findWorkUnit (archive : List ArchivedWorkUnit) (s : State D) (id : String) : Option WorkUnit :=
  s.workUnits.lookup id <|>
  (s.indexes.queue.lookup id).map (·.workUnit) <|>
  (archive.find? fun item => item.workUnit.id = id).map (·.workUnit)

/-- `State.GovernanceIdempotency`. -/
def findIdempotency (archive : List ArchivedWorkUnit) (s : State D) (key : String) :
    Option GovernanceIdempotency :=
  s.governanceIdempotency.lookup key <|>
  ((s.indexes.queuedIdem.lookup key).bind fun unit => (s.indexes.queue.lookup unit).bind fun item =>
    item.idempotency.find? fun g => g.mapKey = key) <|>
  archive.findSome? fun item => item.idempotency.find? fun g => g.mapKey = key

end Lookups

/-! ## Admission -/

/-- `checkedAdd` of the manager, which guards the upper end only. -/
def checkedAdd (left right : ℤ) : Option ℤ :=
  if 0 < right ∧ maxInt64 - right < left then none else some (left + right)

lemma checkedAdd_eq_some {left right sum : ℤ} (h : checkedAdd left right = some sum) :
    sum = left + right ∧ (0 < right → sum ≤ maxInt64) := by
  unfold checkedAdd at h
  split_ifs at h with hc
  have hsum := (Option.some.inj h).symm
  exact ⟨hsum, fun hr => by omega⟩

/-- `projectAdmission`: what a project has admitted and the ledger does not show yet. -/
structure Admission where
  pending : FinMap BalanceKey ℤ := ∅
  runPending : FinMap String ℤ := ∅
  runAdmissions : FinMap String ℕ := ∅
  closingRuns : Finset String := ∅

/-- Spend with one more amount, if it is counted: settled, reserved and pending. -/
def spendWith (committed reserved pending amount : ℤ) (counted : Bool) : Option ℤ :=
  (checkedAdd committed reserved).bind fun total => (checkedAdd total pending).bind fun total =>
    if counted then checkedAdd total amount else some total

lemma spendWith_eq_some {committed reserved pending amount total : ℤ} {counted : Bool}
    (h : spendWith committed reserved pending amount counted = some total) :
    total = committed + reserved + pending + (if counted then amount else 0) := by
  obtain ⟨t₁, h₁, h⟩ := Option.bind_eq_some_iff.mp h
  obtain ⟨t₂, h₂, h⟩ := Option.bind_eq_some_iff.mp h
  have e₁ := (checkedAdd_eq_some h₁).1
  have e₂ := (checkedAdd_eq_some h₂).1
  cases counted with
  | true =>
    have e₃ := (checkedAdd_eq_some h).1
    simp only [if_true]
    omega
  | false =>
    have e₃ := Option.some.inj h
    simp only [Bool.false_eq_true, if_false]
    omega

section Admit

variable {D : Type}

/-- Whether one more reservation fits the project's daily budget. -/
def checkDaily (s : State D) (a : Admission) (key : BalanceKey) (dailyBudget amount : ℤ)
    (counted : Bool) : Except BudgetError Unit :=
  let b := s.balance key
  match spendWith b.committedMicrosUSD b.reservedMicrosUSD (a.pending.getD key 0) amount counted with
  | none => .error .integerRange
  | some total => if 0 < dailyBudget ∧ dailyBudget < total then .error .exceeded else .ok ()

/-- Whether one more reservation fits the budget of its Run. -/
def checkRun (archive : List ArchivedWorkUnit) (s : State D) (a : Admission) (projectID : String)
    (amount : ℤ) (counted : Bool) (workUnitID runID : String) (now : ℤ) : Except BudgetError Unit :=
  match findRun archive s runID with
  | none => .error .runNotFound
  | some run =>
    if run.projectID ≠ projectID ∨ run.workUnitID ≠ workUnitID then .error .runNotFound
    else if runID ∈ a.closingRuns ∨ run.status ≠ .active ∨ run.expiresAt ≤ now then
      .error .runNotActive
    else
      match spendWith run.committedMicrosUSD run.reservedMicrosUSD (a.runPending.getD runID 0) amount
        counted with
      | none => .error .integerRange
      | some total => if run.budgetMicrosUSD < total then .error .runExceeded else .ok ()

/-- The counters after an admission. -/
def Admission.admitted (a : Admission) (key : BalanceKey) (amount : ℤ) (counted : Bool)
    (runID : String) : Admission :=
  { a with
    pending := if counted then a.pending.insert key (a.pending.getD key 0 + amount) else a.pending,
    runPending := if counted ∧ runID ≠ "" then
        a.runPending.insert runID (a.runPending.getD runID 0 + amount)
      else a.runPending,
    runAdmissions := if runID ≠ "" then
        a.runAdmissions.insert runID (a.runAdmissions.getD runID 0 + 1)
      else a.runAdmissions }

/-- Decide whether one more reservation fits, and count it as spent until the ledger does. -/
def admitForRun (archive : List ArchivedWorkUnit) (s : State D) (a : Admission) (key : BalanceKey)
    (dailyBudget amount : ℤ) (counted : Bool) (workUnitID runID : String) (now : ℤ) :
    Except BudgetError Admission :=
  match checkDaily s a key dailyBudget amount counted with
  | .error error => .error error
  | .ok _ =>
    if runID = "" then .ok (a.admitted key amount counted runID)
    else
      match checkRun archive s a key.projectID amount counted workUnitID runID now with
      | .error error => .error error
      | .ok _ => .ok (a.admitted key amount counted runID)

end Admit

/-- What is left of a counter, which is deleted when nothing is. -/
def lower {K : Type} [DecidableEq K] (m : FinMap K ℤ) (k : K) (amount : ℤ) : FinMap K ℤ :=
  if 0 < m.getD k 0 - amount then m.insert k (m.getD k 0 - amount) else m.erase k

/-- Hand an admitted amount over to the ledger's own accounting. -/
def releaseAdmittedForRun (a : Admission) (key : BalanceKey) (amount : ℤ) (runID : String) :
    Admission :=
  { a with
    pending := lower a.pending key amount,
    runPending := if runID ≠ "" then lower a.runPending runID amount else a.runPending,
    runAdmissions := if runID ≠ "" then
        if 1 < a.runAdmissions.getD runID 0 then
          a.runAdmissions.insert runID (a.runAdmissions.getD runID 0 - 1)
        else a.runAdmissions.erase runID
      else a.runAdmissions }

/-! ## Work Units and Runs -/

def maxOpenWorkUnits : ℤ := 1000

def maxActiveRuns : ℤ := 1000

/-- Thirty days, in nanoseconds. -/
def maxRunTTL : ℤ := 30 * 24 * 3600 * 1000000000

/-- What every lifecycle event carries. -/
def lifecycleEvent (x : Reading) (kind : EventKind) (projectID keyID workUnitID : String)
    (intent : GovernanceIntent) : Event :=
  x.period.stamp { eventID := x.eventID, kind := kind, projectID := projectID, keyID := keyID,
                   workUnitID := workUnitID, occurredAt := x.now, periodID := "",
                   operation := intent.operation, idempotencyKeyHash := intent.idempotencyKeyHash,
                   requestFingerprint := intent.requestFingerprint }

section Governance

variable {D : Type} (archive : List ArchivedWorkUnit) (s : State D)

/-- The common start of the lifecycle operations: an intent seen before is answered from the state,
with no event (`none`), unless its fingerprint differs. -/
def checkIntent (projectID : String) (intent : GovernanceIntent)
    (proceed : Except BudgetError (Option Event)) : Except BudgetError (Option Event) :=
  if !intent.valid then .error .intent
  else
    match findIdempotency archive s (governanceIdempotencyMapKey projectID intent.operation
      intent.idempotencyKeyHash) with
    | some previous =>
      if previous.requestFingerprint ≠ intent.requestFingerprint then .error .idempotencyConflict
      else .ok none
    | none => proceed

def createWorkUnit (x : Reading) (projectID keyID : String) (maxOpen : ℤ)
    (definitions : List OutcomeDefinitionRef) (intent : GovernanceIntent) :
    Except BudgetError (Option Event) :=
  if projectID = "" ∨ keyID = "" ∨ maxOpen ≤ 0 ∨ maxOpenWorkUnits < maxOpen then
    .error .resourceLimit
  else checkIntent archive s projectID intent <|
    if !x.room then .error .hotStateFull
    else if maxOpen ≤ (s.indexes.openByProject.members projectID).card then .error .resourceLimit
    else .ok (some { lifecycleEvent x .workUnitCreated projectID keyID x.newID intent with
      outcomeDefinitions := definitions })

def closeWorkUnit (x : Reading) (projectID keyID workUnitID : String) (intent : GovernanceIntent) :
    Except BudgetError (Option Event) :=
  if projectID = "" ∨ keyID = "" ∨ workUnitID = "" then .error .workUnitNotFound
  else checkIntent archive s projectID intent <|
    match findWorkUnit archive s workUnitID with
    | none => .error .workUnitNotFound
    | some workUnit =>
      if workUnit.projectID ≠ projectID then .error .workUnitNotFound
      else if workUnit.status = .closed then .ok none
      else .ok (some (lifecycleEvent x .workUnitClosed projectID keyID workUnitID intent))

def createRun (x : Reading) (projectID keyID workUnitID : String) (budget ttl maxActive : ℤ)
    (intent : GovernanceIntent) : Except BudgetError (Option Event) :=
  if projectID = "" ∨ keyID = "" ∨ workUnitID = "" ∨ budget ≤ 0 ∨ ttl ≤ 0 ∨ maxRunTTL < ttl ∨
      maxActive ≤ 0 ∨ maxActiveRuns < maxActive then
    .error .resourceLimit
  else checkIntent archive s projectID intent <|
    if !x.room then .error .hotStateFull
    else
      match findWorkUnit archive s workUnitID with
      | none => .error .workUnitClosed
      | some workUnit =>
        if workUnit.projectID ≠ projectID ∨ workUnit.status ≠ .open then .error .workUnitClosed
        else if maxActive ≤ ((s.indexes.liveRuns.members projectID).filter fun id =>
              x.now < (s.run id).expiresAt).card ∨
            maxRunsPerWorkUnit ≤ (s.runsOf workUnitID).length then
          .error .resourceLimit
        else .ok (some { lifecycleEvent x .runCreated projectID keyID workUnitID intent with
          runID := x.newID, runBudgetMicrosUSD := budget, runExpiresAt := x.now + ttl })

/-- The checks of `CloseRun` before it orders itself after the Run's admissions.  A Run that is
closed or archived is answered as it is. -/
def closeRun (projectID keyID workUnitID runID reason : String) (intent : GovernanceIntent) :
    Except BudgetError Bool :=
  if projectID = "" ∨ keyID = "" ∨ workUnitID = "" ∨ runID = "" ∨ Text.byteLength reason = 0 ∨
      64 < Text.byteLength reason then
    .error .runNotFound
  else if !intent.valid then .error .intent
  else
    match findIdempotency archive s (governanceIdempotencyMapKey projectID intent.operation
      intent.idempotencyKeyHash) with
    | some previous =>
      if previous.requestFingerprint ≠ intent.requestFingerprint then .error .idempotencyConflict
      else .ok false
    | none =>
      match findRun archive s runID with
      | none => .error .runNotFound
      | some run =>
        if run.projectID ≠ projectID ∨ run.workUnitID ≠ workUnitID then .error .runNotFound
        else .ok (decide (run.status ≠ .closed ∧ (s.runs.lookup runID).isSome))

/-- The event of `CloseRun`, written once the Run's admissions have drained. -/
def runClosedEvent (x : Reading) (projectID keyID workUnitID runID reason : String)
    (intent : GovernanceIntent) : Event :=
  { lifecycleEvent x .runClosed projectID keyID workUnitID intent with
    runID := runID, closeReason := reason }

end Governance

/-! ## Requests and attempts -/

section Requests

variable {D : Type} (archive : List ArchivedWorkUnit) (s : State D)

/-- The request `BeginRequestAttributed` accepts. -/
def newRequest (x : Reading) (projectID keyID requestID requestedModel workUnitID runID : String) :
    Request where
  requestID := requestID
  projectID := projectID
  period := x.period
  keyID := keyID
  requestedModel := requestedModel
  workUnitID := workUnitID
  runID := runID

def acceptedEvent (x : Reading) (q : Request) : Event :=
  q.period.stamp { eventID := x.eventID, kind := .requestAccepted, requestID := q.requestID,
                   projectID := q.projectID, keyID := q.keyID, requestedModel := q.requestedModel,
                   workUnitID := q.workUnitID, runID := q.runID, occurredAt := x.now,
                   periodID := "" }

def beginRequestAttributed (x : Reading)
    (projectID keyID requestID requestedModel workUnitID runID : String) :
    Except BudgetError Event :=
  if projectID = "" ∨ requestID = "" then .error .identifiersRequired
  else
    let event := acceptedEvent x
      (newRequest x projectID keyID requestID requestedModel workUnitID runID)
    if runID = "" ∧ workUnitID = "" then if !x.room then .error .hotStateFull else .ok event
    else if runID = "" ∨ workUnitID = "" then .error .runNotFound
    else
      match findRun archive s runID with
      | none => .error .runNotFound
      | some run =>
        if run.projectID ≠ projectID ∨ run.workUnitID ≠ workUnitID then .error .runNotFound
        else if run.status ≠ .active ∨ run.expiresAt ≤ x.now then .error .runNotActive
        else if !x.room then .error .hotStateFull
        else .ok event

/-- The checks of `ReserveLeaseDetailed`; `ReserveAttemptDetailed` makes none and leaves the mode
unset. -/
def checkLeaseSpec {D : Type} (cat : Catalogue D) (q : Request) (dailyBudget : ℤ)
    (spec : LeaseSpec) : Except BudgetError Unit :=
  if spec.mode = .legacy then
    if spec.priceSnapshot = none ∧ spec.unknownPolicyEvidence = none then .ok ()
    else .error .invalidAmount
  else
    match spec.priceSnapshot with
    | none => .error .invalidAmount
    | some price =>
      if spec.preparedInputTokens < 0 ∨ spec.preparedOutputTokens < 0 then .error .invalidAmount
      else if !validSHA256Label spec.tokenGuardPricingViewDigest then .error .pricingViewDigest
      else
        match price.validate cat.knownZone with
        | .error error => .error (.price error)
        | .ok _ =>
          if spec.mode ≠ .unknownAllowed then .ok ()
          else if q.runID ≠ "" then .error .runPriceUnavailable
          else
            match spec.unknownPolicyEvidence with
            | none => .error .invalidAmount
            | some evidence =>
              if dailyBudget ≠ 0 ∨ evidence.projectID ≠ q.projectID then .error .invalidAmount
              else if !evidence.valid then .error .policyEvidence
              else .ok ()

/-- The checks of `reserveAttemptDetailed` before admission. -/
def checkReserve (q : Request) (dailyBudget : ℤ) (spec : LeaseSpec) : Except BudgetError Unit :=
  if q.requestID = "" ∨ q.projectID = "" ∨ q.period.id = "" then .error .requestLease
  else if dailyBudget < 0 ∨ spec.reservationMicrosUSD < 0 ∨
      (spec.mode = .legacy ∧ spec.reservationMicrosUSD ≤ 0) then
    .error .invalidAmount
  else .ok ()

/-- Whether a lease of this mode counts against budgets. -/
def LeaseSpec.counted (spec : LeaseSpec) : Bool := decide (spec.mode ≠ .unknownAllowed)

/-- The attempt a reservation opens. -/
def newAttempt (x : Reading) (q : Request) (spec : LeaseSpec) (metadata : AttemptMetadata) :
    Attempt where
  requestID := q.requestID
  attemptID := if spec.attemptID = "" then x.newID else spec.attemptID
  projectID := q.projectID
  period := q.period
  keyID := q.keyID
  requestedModel := q.requestedModel
  workUnitID := q.workUnitID
  runID := q.runID
  metadata := metadata
  leaseMode := spec.mode
  priceSnapshot := spec.priceSnapshot

/-- What every event of an attempt carries. -/
def attemptEvent (eventID : String) (kind : EventKind) (occurredAt : ℤ) (a : Attempt) : Event :=
  a.period.stamp { eventID := eventID, kind := kind, requestID := a.requestID,
                   attemptID := a.attemptID, projectID := a.projectID, workUnitID := a.workUnitID,
                   runID := a.runID, keyID := a.keyID, routeID := a.metadata.routeID,
                   deploymentID := a.metadata.deploymentID, providerID := a.metadata.providerID,
                   offeringID := a.metadata.offeringID, profileID := a.metadata.profileID,
                   accountRegionID := a.metadata.accountRegionID,
                   requestedModel := a.requestedModel, providerModel := a.metadata.providerModel,
                   providerPrimitive := a.metadata.providerPrimitive,
                   attemptNumber := a.metadata.attemptNumber, retryCount := a.metadata.retryCount,
                   fallbackCount := a.metadata.fallbackCount, occurredAt := occurredAt,
                   periodID := "" }

def reservedEvent (x : Reading) (q : Request) (spec : LeaseSpec) (metadata : AttemptMetadata) :
    Event :=
  { attemptEvent x.eventID .reservationCreated x.later (newAttempt x q spec metadata) with
    reservationMicrosUSD := if spec.counted then some spec.reservationMicrosUSD else none,
    leaseMode := spec.mode, priceSnapshot := spec.priceSnapshot,
    preparedInputTokens := spec.preparedInputTokens,
    preparedOutputTokens := spec.preparedOutputTokens, recoveryKey := spec.recoveryKey,
    unknownPolicyEvidence := spec.unknownPolicyEvidence,
    tokenGuardPricingViewDigest := spec.tokenGuardPricingViewDigest }

def startedEvent (x : Reading) (a : Attempt) : Event :=
  attemptEvent x.eventID .attemptStarted x.now a

def finalizedEvent (x : Reading) (q : Request) (outcome : String) : Event :=
  q.period.stamp { eventID := x.eventID, kind := .requestFinalized, requestID := q.requestID,
                   projectID := q.projectID, workUnitID := q.workUnitID, runID := q.runID,
                   keyID := q.keyID, requestedModel := q.requestedModel, occurredAt := x.now,
                   outcome := outcome, periodID := "" }

end Requests

/-! ## Settlement -/

/-- An attempt that produced nothing and did not succeed owes nothing, the fixed fee included. -/
def unservedSettlement (z : Settlement) : Bool :=
  decide (z.committedMicrosUSD = 0) && decide (z.providerInputTokens = 0) &&
    decide (z.providerOutputTokens = 0) && decide (z.providerCachedInputTokens = 0) &&
    decide (z.providerCacheWriteInputTokens = 0) && decide (z.outcome ≠ "success")

/-- The signs of a settlement's numbers, and that the cache tiers stay within the input; their sum
wraps as a 64-bit sum does. -/
def checkSettlementNumbers (z : Settlement) : Except BudgetError Unit :=
  if z.committedMicrosUSD < 0 ∨ z.providerInputTokens < 0 ∨ z.providerOutputTokens < 0 ∨
      z.providerCachedInputTokens < 0 ∨ z.providerCacheWriteInputTokens < 0 ∨
      z.providerReasoningTokens < 0 ∨ z.preparedOutputTokens < 0 then
    .error .invalidAmount
  else if z.providerInputTokens <
      (z.providerCachedInputTokens + z.providerCacheWriteInputTokens).bmod (2 ^ 64) then
    .error .invalidAmount
  else .ok ()

/-- The cost a settlement is held to: the one of the frozen price, when it is known and the attempt
was served. -/
def settlementCost {D : Type} (cat : Catalogue D) (a : Attempt) (z : Settlement) :
    Except BudgetError PriceCostBreakdown :=
  match a.priceSnapshot with
  | none => .ok {}
  | some price =>
    if price.costValueStatus = .known ∧ unservedSettlement z = false then
      match price.calculate cat.knownZone z.providerInputTokens z.providerCachedInputTokens
        z.providerOutputTokens with
      | .error error => .error (.price error)
      | .ok cost =>
        if cost.totalCostMicrosUSD ≠ z.committedMicrosUSD then
          .error (.costMismatch cost.totalCostMicrosUSD z.committedMicrosUSD)
        else .ok cost
    else .ok {}

def settlementTokenSource (z : Settlement) : TokenUsageSource :=
  if z.providerInputTokens ≠ 0 ∨ z.providerOutputTokens ≠ 0 then
    if z.tokenEstimated then .estimate else .provider
  else .none

/-- The event of a settlement whose cost breakdown is known. -/
def settledEvent (eventID : String) (now : ℤ) (a : Attempt) (z : Settlement)
    (cost : PriceCostBreakdown) : Event :=
  { attemptEvent eventID .attemptSettled (if z.occurredAt = 0 then now else z.occurredAt) a with
    committedMicrosUSD := if a.leaseMode = .unknownAllowed then none
      else some z.committedMicrosUSD,
    leaseMode := a.leaseMode, priceSnapshot := a.priceSnapshot,
    inputCostMicrosUSD := cost.inputCostMicrosUSD, outputCostMicrosUSD := cost.outputCostMicrosUSD,
    fixedCostMicrosUSD := cost.fixedCostMicrosUSD,
    providerInputTokens := z.providerInputTokens, providerOutputTokens := z.providerOutputTokens,
    providerCachedInputTokens := z.providerCachedInputTokens,
    providerCacheWriteInputTokens := z.providerCacheWriteInputTokens,
    providerReasoningTokens := z.providerReasoningTokens,
    preparedOutputTokens := z.preparedOutputTokens, costEstimated := z.costEstimated,
    tokenEstimated := z.tokenEstimated, tokenUsageSource := settlementTokenSource z,
    outcome := z.outcome, errorClass := z.errorClass, httpStatus := z.httpStatus,
    providerCode := z.providerCode, providerFailureReason := z.providerFailureReason,
    retryable := z.retryable, ambiguous := z.ambiguous,
    failureSemanticsRecorded := z.failureSemanticsRecorded,
    providerRequestID := z.providerRequestID, failurePhase := z.failurePhase,
    latencyMillis := z.latencyMillis }

def settle {D : Type} (cat : Catalogue D) (eventID : String) (now : ℤ) (a : Attempt)
    (z : Settlement) : Except BudgetError Event :=
  match checkSettlementNumbers z with
  | .error error => .error error
  | .ok _ =>
    match settlementCost cat a z with
    | .error error => .error error
    | .ok cost => .ok (settledEvent eventID now a z cost)

end Budget

end Halro
