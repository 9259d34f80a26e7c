import Halro.Framework.Index
import Halro.Ledger.ApplySpec

/-!
# The books a ledger keeps

`Books s h` says that a state agrees with the history of records that took effect on it: every
running total is the sum of what it stands for, and every secondary index describes exactly the
primary maps.  The history is the abstract ledger.  It remembers effects, newest first, and from
it alone one reads what was settled against a key, a Run or a Work Unit, which Run a request is
attributed to and whether an attempt is open.

Each clause is a predicate on the fields it reads and on nothing else, so that a step that leaves
those fields alone keeps the clause as it is.
-/

namespace Halro

open Framework

namespace Ledger

/-! ## History -/

/-- A record that took effect.  For a settlement, `settled` is the reservation it settled. -/
structure Effect where
  event : Event
  settled : Option AttemptReservation := none

namespace Effect

/-- The sum of a measure over the settled attempts of a history. -/
def settledSum (f : Event → AttemptReservation → ℤ) : List Effect → ℤ
  | [] => 0
  | x :: h => ((x.settled.map (f x.event)).getD 0) + settledSum f h

variable {h : List Effect}

lemma settledSum_cons_none {f : Event → AttemptReservation → ℤ} {e : Event} :
    settledSum f (⟨e, none⟩ :: h) = settledSum f h := by
  simp [settledSum]

lemma settledSum_cons_some {f : Event → AttemptReservation → ℤ} {e : Event}
    {res : AttemptReservation} :
    settledSum f (⟨e, some res⟩ :: h) = f e res + settledSum f h := by
  simp [settledSum]

/-- The effect creates the Run `id`. -/
def CreatesRun (id : String) (x : Effect) : Prop :=
  x.event.kind = .runCreated ∧ x.event.runID = id

/-- The effect creates the Work Unit `id`. -/
def CreatesUnit (id : String) (x : Effect) : Prop :=
  x.event.kind = .workUnitCreated ∧ x.event.workUnitID = id

instance (id : String) (x : Effect) : Decidable (x.CreatesRun id) :=
  inferInstanceAs (Decidable (_ ∧ _))

instance (id : String) (x : Effect) : Decidable (x.CreatesUnit id) :=
  inferInstanceAs (Decidable (_ ∧ _))

/-- The history since the Run was last created. -/
def sinceRun (id : String) (h : List Effect) : List Effect :=
  h.takeWhile fun x => ¬ x.CreatesRun id

/-- The history since the Work Unit was last created. -/
def sinceUnit (id : String) (h : List Effect) : List Effect :=
  h.takeWhile fun x => ¬ x.CreatesUnit id

variable {id : String} {x : Effect}

lemma sinceRun_cons_self (hx : x.CreatesRun id) : sinceRun id (x :: h) = [] := by
  simp [sinceRun, hx]

lemma sinceRun_cons_ne (hx : ¬ x.CreatesRun id) : sinceRun id (x :: h) = x :: sinceRun id h := by
  simp [sinceRun, hx]

lemma sinceUnit_cons_self (hx : x.CreatesUnit id) : sinceUnit id (x :: h) = [] := by
  simp [sinceUnit, hx]

lemma sinceUnit_cons_ne (hx : ¬ x.CreatesUnit id) :
    sinceUnit id (x :: h) = x :: sinceUnit id h := by
  simp [sinceUnit, hx]

/-- The cost totals of a Work Unit over a history: its settlements added in order. -/
def costOver (id : String) : List Effect → WorkUnitCost
  | [] => {}
  | x :: h => if x.settled.isSome ∧ x.event.workUnitID = id then (costOver id h).add x.event
    else costOver id h

/-- The attribution of a request: that of its last acceptance under a Run, unless it has been
finalized since. -/
def attributionIn (requestID : String) : List Effect → Option RequestAttribution
  | [] => none
  | x :: h =>
    if x.event.requestID = requestID ∧ x.event.kind = .requestFinalized then none
    else if x.event.requestID = requestID ∧ x.event.kind = .requestAccepted ∧
        x.event.runID ≠ "" then
      some ⟨x.event.workUnitID, x.event.runID⟩
    else attributionIn requestID h

/-- The last effect that opened or settled an attempt. -/
def lastOn (attemptID : String) (h : List Effect) : Option Effect :=
  h.find? fun x => x.event.attemptID = attemptID ∧
    (x.event.kind = .reservationCreated ∨ x.event.kind = .attemptSettled)

end Effect

open Effect

/-! ## Totals -/

/-- The amount a reservation holds against a balance. -/
def heldAgainst (key : BalanceKey) (_ : String) (res : AttemptReservation) : ℤ :=
  if res.key = key then res.amount else 0

/-- The amount a reservation holds against a Run; an unknown-price lease holds none. -/
def heldByRun (id : String) (_ : String) (res : AttemptReservation) : ℤ :=
  if res.lease.runID = id ∧ res.lease.leaseMode ≠ .unknownAllowed then res.amount else 0

/-- Each balance's reserved amount is the sum of the open reservations under its key. -/
def ReservedExact (balances : FinMap BalanceKey Balance)
    (reservations : FinMap String AttemptReservation) : Prop :=
  ∀ key, (balances.getD key {}).reservedMicrosUSD = reservations.total (heldAgainst key)

/-- Each held Run's reserved amount is the sum of its open reservations of known price. -/
def RunReservedExact (runs : FinMap String Run)
    (reservations : FinMap String AttemptReservation) : Prop :=
  ∀ id run, runs.lookup id = some run → run.reservedMicrosUSD = reservations.total (heldByRun id)

/-- The part of a settlement that falls to a balance key. -/
def onKey (key : BalanceKey) (f : Event → AttemptReservation → ℤ) (e : Event)
    (res : AttemptReservation) : ℤ :=
  if e.balanceKey = key then f e res else 0

/-- The part of a settlement that falls to a Run. -/
def onRun (id : String) (f : Event → AttemptReservation → ℤ) (e : Event)
    (res : AttemptReservation) : ℤ :=
  if e.runID = id then f e res else 0

def committedOf (e : Event) (_ : AttemptReservation) : ℤ := e.committedMicrosUSD.getD 0

def inputOf (e : Event) (_ : AttemptReservation) : ℤ := e.providerInputTokens

def outputOf (e : Event) (_ : AttemptReservation) : ℤ := e.providerOutputTokens

def unknownOf (_ : Event) (res : AttemptReservation) : ℤ :=
  if res.lease.leaseMode = .unknownAllowed then 1 else 0

/-- Each balance's settled totals are the sums over the attempts settled under its key. -/
structure CommittedExact (balances : FinMap BalanceKey Balance) (h : List Effect) : Prop where
  committed : ∀ key, (balances.getD key {}).committedMicrosUSD =
    settledSum (onKey key committedOf) h
  input : ∀ key, (balances.getD key {}).inputTokens = settledSum (onKey key inputOf) h
  output : ∀ key, (balances.getD key {}).outputTokens = settledSum (onKey key outputOf) h
  unknown : ∀ key, (balances.getD key {}).unknownAttempts = settledSum (onKey key unknownOf) h

/-- Each held Run's settled totals are the sums over its settled attempts since it was created. -/
structure RunCommittedExact (runs : FinMap String Run) (h : List Effect) : Prop where
  committed : ∀ id run, runs.lookup id = some run →
    run.committedMicrosUSD = settledSum (onRun id committedOf) (sinceRun id h)
  unknown : ∀ id run, runs.lookup id = some run →
    run.unknownAttempts = settledSum (onRun id unknownOf) (sinceRun id h)

/-- Each held Work Unit's cost is that of its settled attempts since it was created, and no other
Work Unit has one. -/
structure CostsExact (workUnits : FinMap String WorkUnit)
    (workUnitCosts : FinMap String WorkUnitCost) (h : List Effect) : Prop where
  held : ∀ id w, workUnits.lookup id = some w →
    workUnitCosts.getD id {} = costOver id (sinceUnit id h)
  absent : ∀ id, workUnits.lookup id = none → workUnitCosts.lookup id = none

/-! ## Primary maps -/

/-- What holds of every open reservation. -/
structure ReservationSound {D : Type} (cat : Catalogue D) (runs : FinMap String Run)
    (attemptID : String) (res : AttemptReservation) : Prop where
  key : res.key = res.lease.balanceKey
  amount : res.amount = res.lease.reservationAmount
  valid : res.lease.validate cat = []
  kind : res.lease.kind = .reservationCreated
  attempt : res.lease.attemptID = attemptID
  run : res.lease.runID ≠ "" →
    ∃ run, runs.lookup res.lease.runID = some run ∧ run.workUnitID = res.lease.workUnitID

/-- Every attributed request names a held Run of the Work Unit it is attributed to. -/
def RequestsHeld (requestRuns : FinMap String RequestAttribution) (runs : FinMap String Run) :
    Prop :=
  ∀ q a, requestRuns.lookup q = some a →
    a.runID ≠ "" ∧ ∃ run, runs.lookup a.runID = some run ∧ run.workUnitID = a.workUnitID

/-- Every held Run is stored under its identifier, is active or closed, names a Work Unit, and
that Work Unit is held in the same project. -/
structure RunsHeld (runs : FinMap String Run) (workUnits : FinMap String WorkUnit) : Prop where
  id : ∀ id run, runs.lookup id = some run → run.id = id
  status : ∀ id run, runs.lookup id = some run → run.status ≠ .expired
  named : ∀ id run, runs.lookup id = some run → id ≠ "" ∧ run.workUnitID ≠ ""
  unit : ∀ id run, runs.lookup id = some run →
    ∃ w, workUnits.lookup run.workUnitID = some w ∧ w.projectID = run.projectID

/-- Every held Work Unit is stored under its identifier, which is not empty, and was created. -/
structure UnitsHeld (workUnits : FinMap String WorkUnit) (h : List Effect) : Prop where
  keyed : ∀ id w, workUnits.lookup id = some w → w.id = id ∧ id ≠ ""
  born : ∀ id w, workUnits.lookup id = some w → ∃ x ∈ h, x.CreatesUnit id

/-! ## Secondary indexes -/

/-- Where an open reservation is filed: under its Work Unit, if it has one. -/
def pendingPlace (res : AttemptReservation) : Option String :=
  if res.lease.workUnitID = "" then none else some res.lease.workUnitID

/-- Where an attributed request is filed: under its Work Unit. -/
def activePlace (a : RequestAttribution) : Option String := some a.workUnitID

/-- Where a Work Unit is filed while it is open: under its project. -/
def openPlace (w : WorkUnit) : Option String :=
  if w.status = .open then some w.projectID else none

/-- Where a Run is filed while it is active: under its project. -/
def livePlace (run : Run) : Option String :=
  if run.status = .active then some run.projectID else none

/-- The lease records are those of the open attempts and of the attempts last settled with a
failed pin, each under its attempt; an open attempt's record is the one that opened it. -/
structure LeasesExact (leaseRecords : FinMap String Record)
    (reservations : FinMap String AttemptReservation) (h : List Effect) : Prop where
  keyed : ∀ a r, leaseRecords.lookup a = some r → r.event.attemptID = a
  opened : ∀ a res, reservations.lookup a = some res →
    ∃ r, leaseRecords.lookup a = some r ∧ r.event = res.lease
  isOpen : ∀ a, (reservations.lookup a).isSome ↔
    ∃ x, lastOn a h = some x ∧ x.event.kind = .reservationCreated
  kept : ∀ a, (leaseRecords.lookup a).isSome ↔
    ∃ x, lastOn a h = some x ∧
      (x.event.kind = .reservationCreated ∨ x.event.outcome = outcomePinCommitFailed)

/-- **The books.**  A state agrees with the history of what took effect on it. -/
structure Books {D : Type} (cat : Catalogue D) (s : State D) (h : List Effect) : Prop where
  reserved : ReservedExact s.balances s.reservations
  runReserved : RunReservedExact s.runs s.reservations
  committed : CommittedExact s.balances h
  runCommitted : RunCommittedExact s.runs h
  costs : CostsExact s.workUnits s.workUnitCosts h
  sound : ∀ a res, s.reservations.lookup a = some res → ReservationSound cat s.runs a res
  requestsHeld : RequestsHeld s.requestRuns s.runs
  requests : ∀ q, s.requestRuns.lookup q = attributionIn q h
  runsHeld : RunsHeld s.runs s.workUnits
  unitsHeld : UnitsHeld s.workUnits h
  pending : FinMap.Indexes pendingPlace s.pendingByWorkUnit s.reservations
  active : FinMap.Indexes activePlace s.activeByWorkUnit s.requestRuns
  listed : FinMap.Lists Run.workUnitID s.runsByWorkUnit s.runs
  unitsOpen : FinMap.Indexes openPlace s.indexes.openByProject s.workUnits
  live : FinMap.Indexes livePlace s.indexes.liveRuns s.runs
  idem : FinMap.Lists GovernanceIdempotency.workUnitID s.indexes.idemByUnit
    s.governanceIdempotency
  idemKeyed : ∀ key g, s.governanceIdempotency.lookup key = some g → g.mapKey = key
  leases : LeasesExact s.leaseRecords s.reservations h

end Ledger

end Halro
