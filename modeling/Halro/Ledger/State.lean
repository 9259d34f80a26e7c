import Mathlib.Data.List.Sort
import Halro.Framework.FinMap
import Halro.Ledger.Event

/-!
# The accounting state (`internal/ledger/event.go`, `archive.go`)

`State` is the read model a ledger's records are folded into.  Its maps fall into three groups:
the primary ones (balances, open reservations, Work Units, Runs, request attributions), the
secondary ones that index them, and the bookkeeping of archiving.  This module holds the data
and the steps of archiving; `Apply.lean` holds the transition a record makes.

The window of recent event digests is the ring the source keeps: a map, the order of insertion
and the next slot to overwrite.  The expiry heap is kept as a list ordered by time, of which the
source's heap pops the same earliest entry; which of two entries with one time comes first is
not observable, since both are examined at the same record and each concerns its own Work Unit.
-/

namespace Halro

open Framework

namespace Ledger

/-! ## Records and positions -/

structure Record where
  generation : ℕ := 1
  sequence : ℕ
  offset : ℤ := 0
  epoch : ℕ := 0
  event : Event

structure Watermark where
  generation : ℕ := 0
  offset : ℤ := 0
  sequence : ℕ := 0
  deriving DecidableEq

/-- The position after a record. -/
def Record.watermark (r : Record) : Watermark where
  generation := r.generation
  offset := r.offset
  sequence := r.sequence

/-! ## Entries -/

structure BalanceKey where
  projectID : String
  periodID : String
  timezoneVersion : ℕ
  deriving DecidableEq

/-- The balance an event is charged to. -/
def Event.balanceKey (e : Event) : BalanceKey where
  projectID := e.projectID
  periodID := e.periodID
  timezoneVersion := e.periodTimezoneVersion

structure Balance where
  reservedMicrosUSD : ℤ := 0
  committedMicrosUSD : ℤ := 0
  inputTokens : ℤ := 0
  outputTokens : ℤ := 0
  unknownAttempts : ℤ := 0
  deriving DecidableEq

structure AttemptReservation where
  key : BalanceKey
  amount : ℤ
  lease : Event
  started : Bool := false

structure RequestAttribution where
  workUnitID : String
  runID : String
  deriving DecidableEq

structure GovernanceIdempotency where
  projectID : String
  operation : String
  keyHash : String
  requestFingerprint : String
  workUnitID : String
  runID : String
  deriving DecidableEq

def governanceIdempotencyMapKey (projectID operation keyHash : String) : String :=
  projectID ++ "\x00" ++ operation ++ "\x00" ++ keyHash

/-- The key an idempotency record is held under. -/
def GovernanceIdempotency.mapKey (g : GovernanceIdempotency) : String :=
  governanceIdempotencyMapKey g.projectID g.operation g.keyHash

/-- The key of a lifecycle event's idempotency record. -/
def Event.idempotencyKey (e : Event) : String :=
  governanceIdempotencyMapKey e.projectID e.operation e.idempotencyKeyHash

/-- Running totals of a Work Unit's settled attempts. -/
structure WorkUnitCost where
  knownMicrosUSD : ℤ := 0
  estimatedMicrosUSD : ℤ := 0
  unknownAttempts : ℤ := 0
  overflowed : Bool := false
  deriving DecidableEq

/-! ## Checked addition -/

/-- Addition refused outside the 64-bit range. -/
def checkedAdd (left right : ℤ) : Option ℤ :=
  if 0 < right ∧ maxInt64 - right < left then none
  else if right < 0 ∧ left < minInt64 - right then none
  else some (left + right)

lemma checkedAdd_eq_some {left right sum : ℤ} (h : checkedAdd left right = some sum) :
    sum = left + right := by
  unfold checkedAdd at h
  split_ifs at h
  exact (Option.some.inj h).symm

/-- The totals after a settlement: a failed addition leaves zero and marks the totals, exactly
as the source's assignments do, and never refuses the settlement. -/
def WorkUnitCost.add (c : WorkUnitCost) (e : Event) : WorkUnitCost :=
  match e.committedMicrosUSD with
  | none =>
    match checkedAdd c.unknownAttempts 1 with
    | some total => { c with unknownAttempts := total }
    | none => { c with unknownAttempts := 0, overflowed := true }
  | some committed =>
    match checkedAdd c.knownMicrosUSD committed with
    | none => { c with knownMicrosUSD := 0, overflowed := true }
    | some known =>
      if e.costEstimated then
        match checkedAdd c.estimatedMicrosUSD committed with
        | some estimated => { c with knownMicrosUSD := known, estimatedMicrosUSD := estimated }
        | none =>
          { c with knownMicrosUSD := known, estimatedMicrosUSD := 0, overflowed := true }
      else { c with knownMicrosUSD := known }

/-! ## Archiving data -/

/-- A finished Work Unit with everything that left the state with it. -/
structure ArchivedWorkUnit where
  workUnit : WorkUnit
  cost : WorkUnitCost
  runs : List Run
  idempotency : List GovernanceIdempotency
  sequence : ℕ
  deriving DecidableEq

structure Expiry where
  time : ℤ
  workUnitID : String
  deriving DecidableEq

structure ArchiveIndexes where
  queue : FinMap String ArchivedWorkUnit := ∅
  queuedRuns : FinMap String String := ∅
  queuedIdem : FinMap String String := ∅
  idemByUnit : FinMap String (List String) := ∅
  openByProject : FinMap String (Finset String) := ∅
  liveRuns : FinMap String (Finset String) := ∅
  expiries : List Expiry := []
  waiting : Finset String := ∅

/-! ## The state -/

/-- How many event digests the state remembers. -/
def recentEventDigests : ℕ := 65536

structure State (D : Type) where
  balances : FinMap BalanceKey Balance := ∅
  reservations : FinMap String AttemptReservation := ∅
  leaseRecords : FinMap String Record := ∅
  eventDigests : FinMap String D := ∅
  eventOrder : List String := []
  eventNext : ℕ := 0
  workUnits : FinMap String WorkUnit := ∅
  runs : FinMap String Run := ∅
  requestRuns : FinMap String RequestAttribution := ∅
  runsByWorkUnit : FinMap String (List String) := ∅
  activeByWorkUnit : FinMap String (Finset String) := ∅
  pendingByWorkUnit : FinMap String (Finset String) := ∅
  workUnitCosts : FinMap String WorkUnitCost := ∅
  governanceIdempotency : FinMap String GovernanceIdempotency := ∅
  watermark : Watermark := {}
  /-- Whether an archive is set, so that finished Work Units leave the state. -/
  archiving : Bool := false
  indexes : ArchiveIndexes := {}

namespace State

variable {D : Type}

/-- `NewState`, with or without an archive. -/
def new (D : Type) (archiving : Bool) : State D := { archiving := archiving }

/-- The balance under a key, zero when there is none. -/
def balance (s : State D) (key : BalanceKey) : Balance := s.balances.getD key {}

/-- The Run under an identifier, the zero Run when there is none. -/
def run (s : State D) (id : String) : Run := s.runs.getD id Run.zero

/-- The Runs a Work Unit has had, in order of creation. -/
def runsOf (s : State D) (workUnitID : String) : List String :=
  s.runsByWorkUnit.getD workUnitID []

/-! ## Remembering digests -/

/-- Record an event's digest, forgetting the oldest once the window is full. -/
def rememberDigest (s : State D) (eventID : String) (digest : D) : State D :=
  if s.eventOrder.length < recentEventDigests then
    { s with eventOrder := s.eventOrder ++ [eventID],
             eventDigests := s.eventDigests.insert eventID digest }
  else
    { s with eventDigests :=
               (s.eventDigests.erase (s.eventOrder.getD s.eventNext "")).insert eventID digest,
             eventOrder := s.eventOrder.set s.eventNext eventID,
             eventNext := (s.eventNext + 1) % recentEventDigests }

/-! ## Archiving steps -/

/-- Keep the indexes in step with one applied lifecycle record. -/
def noteGovernanceEvent (s : State D) (e : Event) (idempotencyKey : String) : State D :=
  let idemByUnit := s.indexes.idemByUnit.insert e.workUnitID
    (s.indexes.idemByUnit.getD e.workUnitID [] ++ [idempotencyKey])
  let indexes := { s.indexes with idemByUnit := idemByUnit }
  match e.kind with
  | .workUnitCreated =>
    { s with indexes := { indexes with
        openByProject := indexes.openByProject.addMember e.projectID e.workUnitID } }
  | .workUnitClosed =>
    { s with indexes := { indexes with
        openByProject := indexes.openByProject.removeMember e.projectID e.workUnitID } }
  | .runCreated =>
    { s with indexes := { indexes with
        liveRuns := indexes.liveRuns.addMember e.projectID e.runID } }
  | .runClosed =>
    { s with indexes := { indexes with
        liveRuns := indexes.liveRuns.removeMember e.projectID e.runID } }
  | _ => { s with indexes := indexes }

/-- Put a closed Work Unit on the expiry list unless it is already there. -/
def awaitExpiry (s : State D) (workUnitID : String) (time : ℤ) : State D :=
  if workUnitID ∈ s.indexes.waiting then s
  else { s with indexes := { s.indexes with
    waiting := insert workUnitID s.indexes.waiting,
    expiries := s.indexes.expiries.orderedInsert (fun a b => a.time ≤ b.time) ⟨time, workUnitID⟩ } }

/-- The latest expiry among a Work Unit's Runs that are active and not expired; zero if none. -/
def latestExpiry (s : State D) (workUnitID : String) (now : ℤ) : ℤ :=
  (s.runsOf workUnitID).foldl (fun latest runID =>
    let run := s.run runID
    if run.status = .active ∧ now < run.expiresAt ∧ latest < run.expiresAt then run.expiresAt
    else latest) 0

/-- Move one Run of a Work Unit out of the state. -/
def archiveRun (s : State D) (workUnitID runID : String) : State D :=
  { s with
    runs := s.runs.erase runID,
    indexes := { s.indexes with
      queuedRuns := s.indexes.queuedRuns.insert runID workUnitID,
      liveRuns := s.indexes.liveRuns.removeMember (s.run runID).projectID runID } }

/-- Move one idempotency record of a Work Unit out of the state, if it is held. -/
def archiveIdempotency (s : State D) (workUnitID key : String) : State D :=
  if (s.governanceIdempotency.lookup key).isSome then
    { s with
      governanceIdempotency := s.governanceIdempotency.erase key,
      indexes := { s.indexes with queuedIdem := s.indexes.queuedIdem.insert key workUnitID } }
  else s

/-- The idempotency keys of a Work Unit, sorted. -/
def sortedKeys (s : State D) (workUnitID : String) : List String :=
  (s.indexes.idemByUnit.getD workUnitID []).insertionSort (· ≤ ·)

/-- What the archive receives for a Work Unit. -/
def archivedItem (s : State D) (workUnit : WorkUnit) (workUnitID : String) (sequence : ℕ) :
    ArchivedWorkUnit where
  workUnit := workUnit
  cost := s.workUnitCosts.getD workUnitID {}
  runs := (s.runsOf workUnitID).map s.run
  idempotency := (s.sortedKeys workUnitID).filterMap s.governanceIdempotency.lookup
  sequence := sequence

/-- Take a finished Work Unit out of the state and queue it for the archive. -/
def archiveWorkUnit (s : State D) (workUnit : WorkUnit) (workUnitID : String) (sequence : ℕ) :
    State D :=
  let item := s.archivedItem workUnit workUnitID sequence
  let s₁ := (s.runsOf workUnitID).foldl (fun t runID => t.archiveRun workUnitID runID) s
  let s₂ := (s.sortedKeys workUnitID).foldl (fun t key => t.archiveIdempotency workUnitID key) s₁
  { s₂ with
    runsByWorkUnit := s₂.runsByWorkUnit.erase workUnitID,
    workUnitCosts := s₂.workUnitCosts.erase workUnitID,
    workUnits := s₂.workUnits.erase workUnitID,
    indexes := { s₂.indexes with
      queue := s₂.indexes.queue.insert workUnitID item,
      idemByUnit := s₂.indexes.idemByUnit.erase workUnitID } }

/-- Archive a Work Unit if nothing can change it any more; if only unexpired Runs hold it back,
wait for the latest of them. -/
def tryArchive (s : State D) (workUnitID : String) (now : ℤ) (sequence : ℕ) : State D :=
  match s.workUnits.lookup workUnitID with
  | none => s
  | some workUnit =>
    if workUnit.status ≠ .closed then s
    else if s.activeByWorkUnit.members workUnitID ≠ ∅ ∨
        s.pendingByWorkUnit.members workUnitID ≠ ∅ then s
    else if s.latestExpiry workUnitID now ≠ 0 then
      s.awaitExpiry workUnitID (s.latestExpiry workUnitID now)
    else s.archiveWorkUnit workUnit workUnitID sequence

/-- The state without the first entry of the expiry list. -/
def popped (s : State D) (item : Expiry) (rest : List Expiry) : State D :=
  { s with indexes := { s.indexes with
    expiries := rest, waiting := s.indexes.waiting.erase item.workUnitID } }

/-- The loop over due expiries.  Each turn takes one due entry away and adds at most one that is
not due, so as many turns as there are entries are enough (`drainExpiries_due`). -/
def drainExpiries (now : ℤ) (sequence : ℕ) : ℕ → State D → State D
  | 0, s => s
  | turns + 1, s =>
    match s.indexes.expiries with
    | [] => s
    | item :: rest =>
      if now < item.time then s
      else
        drainExpiries now sequence turns
          ((s.popped item rest).tryArchive item.workUnitID now sequence)

/-- Archive what a record may have finished: the Work Unit it names, and every closed Work Unit
whose last Run has expired by the record's clock. -/
def archiveFinished (s : State D) (workUnitID : String) (now : ℤ) (sequence : ℕ) : State D :=
  if !s.archiving then s
  else
    let s₁ := if workUnitID ≠ "" then s.tryArchive workUnitID now sequence else s
    drainExpiries now sequence s₁.indexes.expiries.length s₁

end State

end Ledger

end Halro
