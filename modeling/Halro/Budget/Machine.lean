import Halro.Ledger.Snapshot
import Halro.Budget.Manager

/-!
# Interleaved operations (`appendApplyRecord` in `internal/budget/manager.go`)

Any number of operations are under way at once.  Each is a call that has made its checks and carries
the event it is going to write; what happens to it from there are the steps of `appendApplyRecord`:
it passes the check for an earlier failed apply, its event becomes a record of the log, the record
is applied in log order, the caller waits for confirmation, and the call returns what it held.  A
step of the machine is one of these, or the start of a call, or the writing of the archive queue;
between any two steps of one call any steps of others may happen.

The locks of the source are kept as what they exclude.  A project's admission lock covers one step.
Its lifecycle lock is held by a call from its start to its return, exclusively for a lifecycle event
and shared for a request under a Run, so that a call starts only when no call that excludes it is
under way.  New identifiers are unused ones.
-/

namespace Halro

open Framework

namespace Budget

open Ledger

/-! ## Calls -/

/-- What a reservation has admitted, to be released when its call returns. -/
structure Hold where
  key : BalanceKey
  amount : ℤ
  runID : String

inductive Stage
  /-- `beginRunClose` waits for the admissions that won the order. -/
  | draining
  /-- The checks are made; `appendApplyRecord` has not begun. -/
  | ready
  /-- No earlier apply had failed. -/
  | cleared
  /-- The event is a record of the log. -/
  | durable (record : Record)
  /-- The record is applied; the caller waits for confirmation. -/
  | applied
  /-- The call has its result, whether or not its record was applied, and returns what it holds. -/
  | done (isApplied : Bool)

/-- The record of the call, if it has one, is in the accounting state. -/
def Stage.isApplied : Stage → Bool
  | .applied => true
  | .done isApplied => isApplied
  | _ => false

structure Call where
  event : Event
  hold : Option Hold := none
  stage : Stage := .ready

/-- The lifecycle lock of a project, on its exclusive or its shared side. -/
structure LifecycleLock where
  projectID : String
  exclusive : Bool

/-- The lifecycle lock under which an event is written. -/
def lockOf (e : Event) : Option LifecycleLock :=
  if e.kind.isLifecycle then some ⟨e.projectID, true⟩
  else if e.kind = .requestAccepted ∧ e.runID ≠ "" then some ⟨e.projectID, false⟩
  else none

/-- Two calls that cannot be under way at once. -/
def Excludes (e f : Event) : Prop :=
  ∃ l ∈ lockOf e, ∃ k ∈ lockOf f, l.projectID = k.projectID ∧ (l.exclusive || k.exclusive)

instance (e f : Event) : Decidable (Excludes e f) :=
  inferInstanceAs (Decidable (∃ l ∈ lockOf e, ∃ k ∈ lockOf f, _ ∧ _))

/-! ## The machine -/

structure Manager (D : Type) where
  /-- The accounting state, with the history of what took effect on it. -/
  ledger : State D × List Effect
  archive : List ArchivedWorkUnit := []
  /-- The durable records. -/
  log : List Record := []
  /-- Whether the log accepts appends. -/
  available : Bool := true
  applyErr : Option ApplyError := none
  projects : FinMap String Admission := ∅
  calls : FinMap ℕ Call := ∅

inductive Operation
  | createWorkUnit (projectID keyID : String) (maxOpen : ℤ)
      (definitions : List OutcomeDefinitionRef) (intent : GovernanceIntent)
  | closeWorkUnit (projectID keyID workUnitID : String) (intent : GovernanceIntent)
  | createRun (projectID keyID workUnitID : String) (budget ttl maxActive : ℤ)
      (intent : GovernanceIntent)
  | closeRun (projectID keyID workUnitID runID reason : String) (intent : GovernanceIntent)
  | beginRequest (projectID keyID requestID requestedModel workUnitID runID : String)
  | reserve (q : Request) (dailyBudget : ℤ) (spec : LeaseSpec) (metadata : AttemptMetadata)
  | markStarted (a : Attempt)
  | settle (a : Attempt) (z : Settlement)
  | finalize (q : Request) (outcome : String)

/-- The operation draws a new identifier besides that of its event. -/
def Operation.drawsID : Operation → Bool
  | .createWorkUnit .. | .createRun .. => true
  | .reserve _ _ spec _ => decide (spec.attemptID = "")
  | _ => false

inductive AppendResult
  /-- Nothing is written: the context is done, the event too large or the log not healthy. -/
  | refused
  | written
  /-- The record is durable and the append reports a failure, after which the log takes no more. -/
  | lost
  deriving DecidableEq

inductive Action
  | call (id : ℕ) (op : Operation) (x : Reading)
  | drained (id : ℕ) (now : ℤ) (period : Period)
  | clear (id : ℕ)
  | append (id : ℕ) (result : AppendResult)
  | apply (id : ℕ)
  | confirm (id : ℕ)
  | release (id : ℕ)
  | flush

namespace Manager

variable {D : Type}

def new (D : Type) (archiving : Bool) : Manager D where
  ledger := (State.new D archiving, [])

/-- The accounting state. -/
def state (m : Manager D) : State D := m.ledger.1

/-- The history of what took effect on the accounting state. -/
def history (m : Manager D) : List Effect := m.ledger.2

/-- A project's admission state. -/
def admission (m : Manager D) (projectID : String) : Admission := m.projects.getD projectID {}

def setAdmission (m : Manager D) (projectID : String) (a : Admission) : Manager D :=
  { m with projects := m.projects.insert projectID a }

/-- The identifiers an event carries. -/
def identifiers (e : Event) : List String :=
  [e.eventID, e.workUnitID, e.runID, e.requestID, e.attemptID]

/-- A new identifier: no record and no call under way carries it. -/
def Unused (m : Manager D) (id : String) : Prop :=
  (∀ r ∈ m.log, id ∉ identifiers r.event) ∧ m.calls.Every fun c => id ∉ identifiers c.event

instance (m : Manager D) (id : String) : Decidable (m.Unused id) :=
  inferInstanceAs (Decidable (_ ∧ _))

/-- The lock an event is written under is free. -/
def LockFree (m : Manager D) (e : Event) : Prop := m.calls.Every fun c => ¬ Excludes e c.event

instance (m : Manager D) (e : Event) : Decidable (m.LockFree e) :=
  inferInstanceAs (Decidable (FinMap.Every _ _))

/-- Put a call under way. -/
def enter (m : Manager D) (id : ℕ) (c : Call) : Manager D :=
  { m with calls := m.calls.insert id c }

/-! ## Starting a call -/

/-- Put a call under way for an event, if the operation comes to one and its lock is free. -/
def start (m : Manager D) (id : ℕ) (result : Except BudgetError (Option Event)) : Manager D :=
  match result with
  | .ok (some event) => if m.LockFree event then m.enter id { event := event } else m
  | _ => m

/-- `CloseRun` up to the point where it waits for the Run's admissions. -/
def startClose (m : Manager D) (id : ℕ) (event : Event) (result : Except BudgetError Bool) :
    Manager D :=
  match result with
  | .ok true =>
    if m.LockFree event then
      let a := m.admission event.projectID
      (m.setAdmission event.projectID { a with closingRuns := insert event.runID a.closingRuns }).enter
        id { event := event, stage := .draining }
    else m
  | _ => m

/-- `reserveAttemptDetailed` up to the point where its admission is made. -/
def startReserve (m : Manager D) (cat : Catalogue D) (id : ℕ) (x : Reading) (q : Request)
    (dailyBudget : ℤ) (spec : LeaseSpec) (metadata : AttemptMetadata) : Manager D :=
  match checkLeaseSpec cat q dailyBudget spec, checkReserve q dailyBudget spec with
  | .ok _, .ok _ =>
    match admitForRun m.archive m.state (m.admission q.projectID) q.balanceKey dailyBudget
      spec.reservationMicrosUSD spec.counted q.workUnitID q.runID x.now with
    | .ok a =>
      (m.setAdmission q.projectID a).enter id
        { event := reservedEvent x q spec metadata,
          hold := if spec.counted ∨ q.runID ≠ "" then
              some ⟨q.balanceKey, spec.reservationMicrosUSD, q.runID⟩
            else none }
    | .error _ => m
  | _, _ => m

/-- What the checks of an operation come to, for the operations that make no admission. -/
def outcome (m : Manager D) (cat : Catalogue D) (x : Reading) :
    Operation → Except BudgetError (Option Event)
  | .createWorkUnit projectID keyID maxOpen definitions intent =>
    createWorkUnit m.archive m.state x projectID keyID maxOpen definitions intent
  | .closeWorkUnit projectID keyID workUnitID intent =>
    closeWorkUnit m.archive m.state x projectID keyID workUnitID intent
  | .createRun projectID keyID workUnitID budget ttl maxActive intent =>
    createRun m.archive m.state x projectID keyID workUnitID budget ttl maxActive intent
  | .beginRequest projectID keyID requestID requestedModel workUnitID runID =>
    (beginRequestAttributed m.archive m.state x projectID keyID requestID requestedModel workUnitID
      runID).map some
  | .markStarted a => .ok (some (startedEvent x a))
  | .settle a z => (Budget.settle cat x.eventID x.now a z).map some
  | .finalize q outcome => .ok (some (finalizedEvent x q outcome))
  | .closeRun .. | .reserve .. => .ok none

def startOperation (m : Manager D) (cat : Catalogue D) (id : ℕ) (x : Reading) :
    Operation → Manager D
  | .closeRun projectID keyID workUnitID runID reason intent =>
    m.startClose id (runClosedEvent x projectID keyID workUnitID runID reason intent)
      (closeRun m.archive m.state projectID keyID workUnitID runID reason intent)
  | .reserve q dailyBudget spec metadata => m.startReserve cat id x q dailyBudget spec metadata
  | op => m.start id (m.outcome cat x op)

/-- What a call may begin with: a name no other call has and identifiers that are new. -/
def MayStart (m : Manager D) (id : ℕ) (op : Operation) (x : Reading) : Prop :=
  m.calls.lookup id = none ∧ m.Unused x.eventID ∧ (op.drawsID → m.Unused x.newID)

instance (m : Manager D) (id : ℕ) (op : Operation) (x : Reading) : Decidable (m.MayStart id op x) :=
  @instDecidableAnd _ _ (decidable_of_iff ((m.calls.lookup id).isNone = true) (by simp))
    inferInstance

/-! ## The steps of a call -/

/-- The call has moved to another stage. -/
def move (m : Manager D) (id : ℕ) (c : Call) (stage : Stage) : Manager D :=
  m.enter id { c with stage := stage }

/-- The Run's admissions have drained; the clock is read now. -/
def drain (m : Manager D) (id : ℕ) (c : Call) (now : ℤ) (period : Period) : Manager D :=
  if (m.admission c.event.projectID).runAdmissions.getD c.event.runID 0 = 0 then
    m.enter id { c with event := period.stamp { c.event with occurredAt := now }, stage := .ready }
  else m

/-- What the log writes. -/
def Appendable (m : Manager D) (cat : Catalogue D) (e : Event) : Prop :=
  m.available = true ∧ e.validateForAppend cat = .ok () ∧ (cat.eventDigest e).isSome = true

instance (m : Manager D) (cat : Catalogue D) (e : Event) : Decidable (m.Appendable cat e) :=
  inferInstanceAs (Decidable (_ ∧ _))

/-- The record an event becomes at the end of the log. -/
def nextRecord (m : Manager D) (e : Event) : Record where
  sequence := m.log.length + 1
  event := e

def appendCall (m : Manager D) (cat : Catalogue D) (id : ℕ) (c : Call) (result : AppendResult) :
    Manager D :=
  if result = .refused ∨ ¬ m.Appendable cat c.event then m.move id c (.done false)
  else
    let record := m.nextRecord c.event
    { m.move id c (if result = .lost then .done false else .durable record) with
      log := m.log ++ [record],
      available := decide (result ≠ .lost) }

/-- Apply a record once those before it are applied, unless an apply has failed. -/
def applyCall [DecidableEq D] (m : Manager D) (cat : Catalogue D) (id : ℕ) (c : Call)
    (record : Record) : Manager D :=
  if m.applyErr.isSome then m.move id c (.done false)
  else if m.state.watermark.sequence + 1 < record.sequence then m
  else
    match State.refusal (m.state.apply cat record) with
    | none => { m.move id c .applied with ledger := play cat m.ledger record }
    | some error =>
      { m.move id c (.done false) with
        ledger := play cat m.ledger record,
        applyErr := some error,
        available := false }

/-- What a returning call gives back. -/
def releaseHold (m : Manager D) (c : Call) : Manager D :=
  match c.hold with
  | none => m
  | some hold =>
    m.setAdmission hold.key.projectID
      (releaseAdmittedForRun (m.admission hold.key.projectID) hold.key hold.amount hold.runID)

/-- A returning `CloseRun` no longer holds off admissions. -/
def finishClose (m : Manager D) (c : Call) : Manager D :=
  if c.event.kind = .runClosed then
    let a := m.admission c.event.projectID
    m.setAdmission c.event.projectID { a with closingRuns := a.closingRuns.erase c.event.runID }
  else m

def releaseCall (m : Manager D) (id : ℕ) (c : Call) : Manager D :=
  let n := (m.releaseHold c).finishClose c
  { n with calls := n.calls.erase id }

/-- The shelf of archived Work Units arranged otherwise. -/
def shelve (m : Manager D) (archive : List ArchivedWorkUnit)
    (queue : FinMap String ArchivedWorkUnit) (queuedRuns queuedIdem : FinMap String String) :
    Manager D :=
  { m with
    archive := archive,
    ledger := ({ m.state with indexes := { m.state.indexes with
      queue := queue, queuedRuns := queuedRuns, queuedIdem := queuedIdem } }, m.history) }

/-- `FlushArchive`.  An item is in the queue and in the archive until it is forgotten, so that no
lookup falls between the two steps. -/
def flush (m : Manager D) : Manager D :=
  let items := (m.state.indexes.queue.entriesSorted idLE).map Prod.snd
  let indexes := { m.state.indexes with
    queue := m.state.indexes.queue.eraseAll (items.map (·.workUnit.id)),
    queuedRuns := m.state.indexes.queuedRuns.eraseAll (items.flatMap (·.runs.map (·.id))),
    queuedIdem := m.state.indexes.queuedIdem.eraseAll
      (items.flatMap (·.idempotency.map (·.mapKey))) }
  { m with
    archive := m.archive ++ items,
    ledger := ({ m.state with indexes := indexes }, m.history) }

/-- One step.  An action that is not enabled changes nothing. -/
def step [DecidableEq D] (cat : Catalogue D) (m : Manager D) : Action → Manager D
  | .call id op x => if m.MayStart id op x then m.startOperation cat id x op else m
  | .drained id now period =>
    match m.calls.lookup id with
    | some c => match c.stage with
      | .draining => m.drain id c now period
      | _ => m
    | none => m
  | .clear id =>
    match m.calls.lookup id with
    | some c => match c.stage with
      | .ready => m.move id c (if m.applyErr.isSome then .done false else .cleared)
      | _ => m
    | none => m
  | .append id result =>
    match m.calls.lookup id with
    | some c => match c.stage with
      | .cleared => m.appendCall cat id c result
      | _ => m
    | none => m
  | .apply id =>
    match m.calls.lookup id with
    | some c => match c.stage with
      | .durable record => m.applyCall cat id c record
      | _ => m
    | none => m
  | .confirm id =>
    match m.calls.lookup id with
    | some c => match c.stage with
      | .applied => m.move id c (.done true)
      | _ => m
    | none => m
  | .release id =>
    match m.calls.lookup id with
    | some c => match c.stage with
      | .done _ => m.releaseCall id c
      | _ => m
    | none => m
  | .flush => if m.state.archiving then m.flush else m

/-! ## What a step can do -/

/-- The reservation a step admits. -/
structure Admits (cat : Catalogue D) (m : Manager D) (x : Reading) (q : Request) (dailyBudget : ℤ)
    (spec : LeaseSpec) (a : Admission) : Prop where
  lease : checkLeaseSpec cat q dailyBudget spec = .ok ()
  request : checkReserve q dailyBudget spec = .ok ()
  admitted : admitForRun m.archive m.state (m.admission q.projectID) q.balanceKey dailyBudget
    spec.reservationMicrosUSD spec.counted q.workUnitID q.runID x.now = .ok a

/-- A step that an action can be, with what its guards have passed. -/
inductive Stepped [DecidableEq D] (cat : Catalogue D) (m : Manager D) : Action → Manager D → Prop
  | idle (a : Action) : Stepped cat m a m
  | begun {id : ℕ} {op : Operation} {x : Reading} {e : Event} (may : m.MayStart id op x)
      (made : m.outcome cat x op = .ok (some e)) (free : m.LockFree e) :
      Stepped cat m (.call id op x) (m.enter id { event := e })
  | closing {id : ℕ} {x : Reading} {projectID keyID workUnitID runID reason : String}
      {intent : GovernanceIntent} {e : Event}
      (may : m.MayStart id (.closeRun projectID keyID workUnitID runID reason intent) x)
      (event : e = runClosedEvent x projectID keyID workUnitID runID reason intent)
      (made : closeRun m.archive m.state projectID keyID workUnitID runID reason intent = .ok true)
      (free : m.LockFree e) :
      Stepped cat m (.call id (.closeRun projectID keyID workUnitID runID reason intent) x)
        ((m.setAdmission e.projectID { m.admission e.projectID with
          closingRuns := insert e.runID (m.admission e.projectID).closingRuns }).enter
          id { event := e, stage := .draining })
  | reserved {id : ℕ} {x : Reading} {q : Request} {dailyBudget : ℤ} {spec : LeaseSpec}
      {metadata : AttemptMetadata} {a : Admission}
      (may : m.MayStart id (.reserve q dailyBudget spec metadata) x)
      (admits : Admits cat m x q dailyBudget spec a) :
      Stepped cat m (.call id (.reserve q dailyBudget spec metadata) x)
        ((m.setAdmission q.projectID a).enter id
          { event := reservedEvent x q spec metadata,
            hold := if spec.counted ∨ q.runID ≠ "" then
                some ⟨q.balanceKey, spec.reservationMicrosUSD, q.runID⟩
              else none })
  | drained {id : ℕ} {c : Call} {now : ℤ} {period : Period} (call : m.calls.lookup id = some c)
      (stage : c.stage = .draining)
      (drained : (m.admission c.event.projectID).runAdmissions.getD c.event.runID 0 = 0) :
      Stepped cat m (.drained id now period) (m.enter id { c with
        event := period.stamp { c.event with occurredAt := now }, stage := .ready })
  | cleared {id : ℕ} {c : Call} (call : m.calls.lookup id = some c) (stage : c.stage = .ready)
      (healthy : m.applyErr = none) : Stepped cat m (.clear id) (m.move id c .cleared)
  | ended {a : Action} {id : ℕ} {c : Call} {isApplied : Bool} (call : m.calls.lookup id = some c)
      (stage : c.stage.isApplied = isApplied)
      (unapplied : ∀ r, c.stage = .durable r → m.applyErr.isSome = true) :
      Stepped cat m a (m.move id c (.done isApplied))
  | appended {id : ℕ} {c : Call} {result : AppendResult} (call : m.calls.lookup id = some c)
      (stage : c.stage = .cleared) (appendable : m.Appendable cat c.event) :
      Stepped cat m (.append id result) { m.move id c (if result = .lost then .done false
          else .durable (m.nextRecord c.event)) with
        log := m.log ++ [m.nextRecord c.event],
        available := decide (result ≠ .lost) }
  | applied {id : ℕ} {c : Call} {record : Record} (call : m.calls.lookup id = some c)
      (stage : c.stage = .durable record) (healthy : m.applyErr = none)
      (order : record.sequence ≤ m.state.watermark.sequence + 1)
      (ok : State.refusal (m.state.apply cat record) = none) :
      Stepped cat m (.apply id) { m.move id c .applied with ledger := play cat m.ledger record }
  | poisoned {id : ℕ} {c : Call} {record : Record} {error : ApplyError}
      (call : m.calls.lookup id = some c) (stage : c.stage = .durable record)
      (healthy : m.applyErr = none)
      (order : record.sequence ≤ m.state.watermark.sequence + 1)
      (refused : State.refusal (m.state.apply cat record) = some error) :
      Stepped cat m (.apply id) { m.move id c (.done false) with
        ledger := play cat m.ledger record,
        applyErr := some error,
        available := false }
  | released {id : ℕ} {c : Call} {isApplied : Bool} (call : m.calls.lookup id = some c)
      (stage : c.stage = .done isApplied) : Stepped cat m (.release id) (m.releaseCall id c)
  | flushed (archiving : m.state.archiving = true) : Stepped cat m .flush m.flush

/-- A call that returns leaves all but the calls and the admission states. -/
lemma releaseCall_frame (m : Manager D) (id : ℕ) (c : Call) : ∃ projects, m.releaseCall id c =
    { m with projects := projects, calls := m.calls.erase id } := by
  simp only [releaseCall, finishClose, releaseHold]
  split_ifs <;> split <;> exact ⟨_, rfl⟩

variable [DecidableEq D] {cat : Catalogue D} {m : Manager D}

lemma stepped_startOperation {id : ℕ} {op : Operation} {x : Reading} (may : m.MayStart id op x) :
    Stepped cat m (.call id op x) (m.startOperation cat id x op) := by
  have plain : Stepped cat m (.call id op x) (m.start id (m.outcome cat x op)) := by
    unfold start
    split
    · rename_i e made
      split_ifs with free
      · exact .begun may made free
      · exact .idle _
    · exact .idle _
  cases op with
  | closeRun projectID keyID workUnitID runID reason intent =>
    simp only [startOperation, startClose]
    split
    · rename_i made
      split_ifs with free
      · exact .closing may rfl made free
      · exact .idle _
    · exact .idle _
  | reserve q dailyBudget spec metadata =>
    simp only [startOperation, startReserve]
    split
    · rename_i hlease hreq
      split
      · rename_i a hadmit
        exact .reserved may ⟨hlease, hreq, hadmit⟩
      · exact .idle _
    · exact .idle _
  | _ => exact plain

lemma stepped_appendCall {id : ℕ} {c : Call} {result : AppendResult}
    (call : m.calls.lookup id = some c) (stage : c.stage = .cleared) :
    Stepped cat m (.append id result) (m.appendCall cat id c result) := by
  unfold appendCall
  split <;> rename_i hc
  · exact .ended call (by rw [stage]; rfl) (by simp [stage])
  · rw [not_or, not_not] at hc
    exact .appended call stage hc.2

lemma stepped_applyCall {id : ℕ} {c : Call} {record : Record} (call : m.calls.lookup id = some c)
    (stage : c.stage = .durable record) :
    Stepped cat m (.apply id) (m.applyCall cat id c record) := by
  unfold applyCall
  split_ifs with herr horder
  · exact .ended call (by rw [stage]; rfl) fun _ _ => herr
  · exact .idle _
  · have healthy : m.applyErr = none := by simpa using herr
    split
    · rename_i ok
      exact .applied call stage healthy (by omega) ok
    · rename_i error refused
      exact .poisoned call stage healthy (by omega) refused

/-- A step of a call that is under way. -/
lemma stepped_at {a : Action} {id : ℕ} {f : Call → Manager D}
    (h : ∀ c, m.calls.lookup id = some c → Stepped cat m a (f c)) :
    Stepped cat m a (match m.calls.lookup id with | some c => f c | none => m) := by
  split
  · exact h _ (by assumption)
  · exact .idle _

/-- **Every step is one of these.** -/
theorem stepped (cat : Catalogue D) (m : Manager D) (a : Action) :
    Stepped cat m a (m.step cat a) := by
  cases a with
  | call id op x =>
    simp only [step]
    split_ifs with may
    · exact stepped_startOperation may
    · exact .idle _
  | drained id now period =>
    refine stepped_at fun c call => ?_
    split
    · rename_i stage
      unfold drain
      split_ifs with hzero
      · exact .drained call stage hzero
      · exact .idle _
    · exact .idle _
  | clear id =>
    refine stepped_at fun c call => ?_
    split
    · rename_i stage
      split_ifs with herr
      · exact .ended call (by rw [stage]; rfl) fun _ _ => herr
      · exact .cleared call stage (by simpa using herr)
    · exact .idle _
  | append id result =>
    refine stepped_at fun c call => ?_
    split
    · exact stepped_appendCall call (by assumption)
    · exact .idle _
  | apply id =>
    refine stepped_at fun c call => ?_
    split
    · exact stepped_applyCall call (by assumption)
    · exact .idle _
  | confirm id =>
    refine stepped_at fun c call => ?_
    split
    · rename_i stage
      exact .ended call (by rw [stage]; rfl) (by simp [stage])
    · exact .idle _
  | release id =>
    refine stepped_at fun c call => ?_
    split
    · exact .released call (by assumption)
    · exact .idle _
  | flush =>
    simp only [step]
    split_ifs with harch
    · exact .flushed harch
    · exact .idle _

end Manager

end Budget

end Halro
