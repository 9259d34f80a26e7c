import Halro.Ledger.State

/-!
# Applying a record (`State.Apply` in `internal/ledger/event.go`)

`State.apply` is the transition a durable record makes.  It runs in stages, each its own
definition: the duplicate and order checks, the attribution of a request to a Run, the effect of
the event's kind, and the common end that stores the balance, the idempotency record, archives
what is finished, remembers the digest and moves the watermark.

A refused record returns an error together with the state it leaves behind, because the source
returns in the middle of its updates: every refusal but one leaves the state as it was, and the
exception is visible in `applyReservation`.
-/

namespace Halro

namespace Ledger

/-- Why a record is refused. -/
inductive ApplyError
  | invalid (sequence : ℕ) (problems : List EventProblem)
  | noDigest
  | eventReused (eventID : String)
  | beforeWatermark (sequence watermark : ℕ)
  | notAfterWatermark (sequence watermark : ℕ)
  | idempotencyConflict
  | acceptedAttributionChanged
  | runAttributionNotActive
  | attributionChanged
  | attributionWithoutAccepted
  | workUnitExists (id : String)
  | governance (error : GovernanceError)
  | workUnitNotInProject (id : String)
  | workUnitAlreadyClosed (id : String)
  | runExists (id : String)
  | workUnitNotOpen (id : String)
  | runLimit
  | runNotInWorkUnit (id : String)
  | runAlreadyClosed (id : String)
  | reservationExists (attemptID : String)
  | integerRange
  | noLease (attemptID : String)
  | alreadyStarted (attemptID : String)
  | noReservation (attemptID : String)
  | settlementKey (attemptID : String)
  | settlementRun (attemptID : String)
  | settlementProvider (attemptID : String)
  | settlementSnapshot (attemptID : String)
  | settlementLeaseMode (attemptID : String)
  | exceedsProjectBalance (attemptID : String)
  | exceedsRunBalance (attemptID : String)
  deriving DecidableEq

def ApplyError.message : ApplyError → String
  | .invalid sequence problems =>
    "sequence " ++ toString sequence ++ ": " ++
      "\n".intercalate (problems.map EventProblem.message)
  | .noDigest => "json: unsupported value"
  | .eventReused id => "event id " ++ id.quote ++ " was reused with different content"
  | .beforeWatermark sequence watermark =>
    "sequence " ++ toString sequence ++ " is before watermark " ++ toString watermark
  | .notAfterWatermark sequence watermark =>
    "sequence " ++ toString sequence ++ " is not after watermark " ++ toString watermark
  | .idempotencyConflict => "idempotency key conflicts with another governance request"
  | .acceptedAttributionChanged => "accepted request changed run attribution"
  | .runAttributionNotActive => "request run attribution is not active in this project"
  | .attributionChanged => "request event changed run attribution"
  | .attributionWithoutAccepted => "request event has attribution without an accepted request"
  | .workUnitExists id => "work unit " ++ id.quote ++ " already exists"
  | .governance error => error.message
  | .workUnitNotInProject id => "work unit " ++ id.quote ++ " is not in project"
  | .workUnitAlreadyClosed id => "work unit " ++ id.quote ++ " is already closed"
  | .runExists id => "run " ++ id.quote ++ " already exists"
  | .workUnitNotOpen id => "work unit " ++ id.quote ++ " is not open in project"
  | .runLimit => "work unit run limit exceeded"
  | .runNotInWorkUnit id => "run " ++ id.quote ++ " is not in work unit"
  | .runAlreadyClosed id => "run " ++ id.quote ++ " is already closed"
  | .reservationExists id => "attempt " ++ id.quote ++ " already has a reservation"
  | .integerRange => "ledger integer overflow"
  | .noLease id => "attempt " ++ id.quote ++ " has no accounting lease"
  | .alreadyStarted id => "attempt " ++ id.quote ++ " already started"
  | .noReservation id => "attempt " ++ id.quote ++ " has no reservation"
  | .settlementKey id => "attempt " ++ id.quote ++ " settlement changed project or period"
  | .settlementRun id => "attempt " ++ id.quote ++ " settlement changed run attribution"
  | .settlementProvider id =>
    "attempt " ++ id.quote ++ " settlement changed provider attribution"
  | .settlementSnapshot id => "attempt " ++ id.quote ++ " settlement changed its price snapshot"
  | .settlementLeaseMode id => "attempt " ++ id.quote ++ " settlement changed its lease mode"
  | .exceedsProjectBalance id =>
    "attempt " ++ id.quote ++ " reservation exceeds project balance"
  | .exceedsRunBalance id => "attempt " ++ id.quote ++ " reservation exceeds run balance"

namespace State

variable {D : Type}

/-! ## Attribution of a request -/

/-- An accepted request is put under the Run it names, which must be active. -/
def attributeAccepted (s : State D) (e : Event) : Except ApplyError (State D) :=
  if ∃ a ∈ s.requestRuns.lookup e.requestID, a ≠ ⟨e.workUnitID, e.runID⟩ then
    .error .acceptedAttributionChanged
  else if e.runID = "" then .ok s
  else
    match s.runs.lookup e.runID with
    | none => .error .runAttributionNotActive
    | some run =>
      if run.projectID ≠ e.projectID ∨ run.workUnitID ≠ e.workUnitID ∨
          run.status ≠ .active ∨ run.expiresAt ≤ e.occurredAt then
        .error .runAttributionNotActive
      else .ok { s with
        requestRuns := s.requestRuns.insert e.requestID ⟨e.workUnitID, e.runID⟩,
        activeByWorkUnit := s.activeByWorkUnit.addMember e.workUnitID e.requestID }

/-- Every later event of a request must name the Run the request was put under. -/
def checkAttribution (s : State D) (e : Event) : Except ApplyError (State D) :=
  match s.requestRuns.lookup e.requestID with
  | some attribution =>
    if attribution ≠ ⟨e.workUnitID, e.runID⟩ then .error .attributionChanged else .ok s
  | none =>
    if e.workUnitID ≠ "" ∨ e.runID ≠ "" then .error .attributionWithoutAccepted else .ok s

/-- The attribution stage, skipped when no request is attributed and the event names no Run. -/
def attributeRequest (s : State D) (e : Event) : Except ApplyError (State D) :=
  if e.kind.isRequest ∧ (s.requestRuns.size ≠ 0 ∨ e.workUnitID ≠ "" ∨ e.runID ≠ "") then
    if e.kind = .requestAccepted then s.attributeAccepted e else s.checkAttribution e
  else .ok s

/-! ## The effect of each kind -/

/-- The Work Unit a creation event describes. -/
def newWorkUnit (e : Event) : WorkUnit where
  id := e.workUnitID
  projectID := e.projectID
  status := .open
  createdByKeyID := e.keyID
  createdAt := e.occurredAt
  periodID := e.periodID
  periodTimezoneVersion := e.periodTimezoneVersion
  outcomeDefinitions := e.outcomeDefinitions

def applyWorkUnitCreated (s : State D) (e : Event) : Except ApplyError (State D) :=
  if (s.workUnits.lookup e.workUnitID).isSome then .error (.workUnitExists e.workUnitID)
  else
    match (newWorkUnit e).validate with
    | .error error => .error (.governance error)
    | .ok _ => .ok { s with workUnits := s.workUnits.insert e.workUnitID (newWorkUnit e) }

def applyWorkUnitClosed (s : State D) (e : Event) : Except ApplyError (State D) :=
  match s.workUnits.lookup e.workUnitID with
  | none => .error (.workUnitNotInProject e.workUnitID)
  | some workUnit =>
    if workUnit.projectID ≠ e.projectID then .error (.workUnitNotInProject e.workUnitID)
    else if workUnit.status ≠ .open then .error (.workUnitAlreadyClosed e.workUnitID)
    else
      let closed := { workUnit with status := .closed, closedAt := some e.occurredAt }
      .ok { s with workUnits := s.workUnits.insert workUnit.id closed }

/-- The Run a creation event describes. -/
def newRun (e : Event) : Run where
  id := e.runID
  projectID := e.projectID
  workUnitID := e.workUnitID
  budgetMicrosUSD := e.runBudgetMicrosUSD
  status := .active
  createdByKeyID := e.keyID
  createdAt := e.occurredAt
  expiresAt := e.runExpiresAt

def applyRunCreated (s : State D) (e : Event) : Except ApplyError (State D) :=
  if (s.runs.lookup e.runID).isSome then .error (.runExists e.runID)
  else
    match s.workUnits.lookup e.workUnitID with
    | none => .error (.workUnitNotOpen e.workUnitID)
    | some workUnit =>
      if workUnit.projectID ≠ e.projectID ∨ workUnit.status ≠ .open then
        .error (.workUnitNotOpen e.workUnitID)
      else if maxRunsPerWorkUnit ≤ (s.runsOf e.workUnitID).length then .error .runLimit
      else
        match (newRun e).validate with
        | .error error => .error (.governance error)
        | .ok _ => .ok { s with
            runs := s.runs.insert e.runID (newRun e),
            runsByWorkUnit := s.runsByWorkUnit.insert e.workUnitID
              (s.runsOf e.workUnitID ++ [e.runID]) }

def applyRunClosed (s : State D) (e : Event) : Except ApplyError (State D) :=
  match s.runs.lookup e.runID with
  | none => .error (.runNotInWorkUnit e.runID)
  | some run =>
    if run.projectID ≠ e.projectID ∨ run.workUnitID ≠ e.workUnitID then
      .error (.runNotInWorkUnit e.runID)
    else if run.status ≠ .active then .error (.runAlreadyClosed e.runID)
    else
      let closed := { run with
        status := .closed, closedAt := some e.occurredAt, closeReason := e.closeReason }
      .ok { s with runs := s.runs.insert run.id closed }

/-- The reservation an event opens. -/
def newReservation (e : Event) : AttemptReservation where
  key := e.balanceKey
  amount := e.reservationAmount
  lease := e

/-- The maps a reservation is entered in before its Run is charged. -/
def enterReservation (s : State D) (r : Record) : State D :=
  { s with
    reservations := s.reservations.insert r.event.attemptID (newReservation r.event),
    pendingByWorkUnit := if r.event.workUnitID ≠ "" then
        s.pendingByWorkUnit.addMember r.event.workUnitID r.event.attemptID
      else s.pendingByWorkUnit,
    leaseRecords := s.leaseRecords.insert r.event.attemptID r }

/-- A reservation.  The last check is made after the reservation has been entered, so a refusal
there leaves the entered reservation behind. -/
def applyReservation (s : State D) (r : Record) :
    Except (State D × ApplyError) (State D × Balance) :=
  let e := r.event
  let balance := s.balance e.balanceKey
  if (s.reservations.lookup e.attemptID).isSome then
    .error (s, .reservationExists e.attemptID)
  else if e.leaseMode = .unknownAllowed then .ok (s.enterReservation r, balance)
  else
    match checkedAdd balance.reservedMicrosUSD e.reservationAmount with
    | none => .error (s, .integerRange)
    | some reserved =>
      let balance := { balance with reservedMicrosUSD := reserved }
      if e.runID = "" then .ok (s.enterReservation r, balance)
      else
        let run := s.run e.runID
        match checkedAdd run.reservedMicrosUSD e.reservationAmount with
        | none => .error (s.enterReservation r, .integerRange)
        | some reserved =>
          let entered := s.enterReservation r
          .ok ({ entered with
            runs := entered.runs.insert e.runID { run with reservedMicrosUSD := reserved } },
            balance)

def applyStarted (s : State D) (e : Event) : Except ApplyError (State D) :=
  match s.reservations.lookup e.attemptID with
  | none => .error (.noLease e.attemptID)
  | some reservation =>
    if reservation.started then .error (.alreadyStarted e.attemptID)
    else .ok { s with reservations :=
      s.reservations.insert e.attemptID { reservation with started := true } }

/-- The checks that tie a settlement to the lease it settles. -/
def checkSettlement (e : Event) (reservation : AttemptReservation) : Option ApplyError :=
  let lease := reservation.lease
  if reservation.key ≠ e.balanceKey then some (.settlementKey e.attemptID)
  else if e.workUnitID ≠ lease.workUnitID ∨ e.runID ≠ lease.runID then
    some (.settlementRun e.attemptID)
  else if e.routeID ≠ lease.routeID ∨ e.deploymentID ≠ lease.deploymentID ∨
      e.providerID ≠ lease.providerID ∨ e.offeringID ≠ lease.offeringID ∨
      e.profileID ≠ lease.profileID ∨ e.accountRegionID ≠ lease.accountRegionID ∨
      e.providerModel ≠ lease.providerModel ∨ e.providerPrimitive ≠ lease.providerPrimitive then
    some (.settlementProvider e.attemptID)
  else if lease.priceSnapshot.isSome ∧ e.priceSnapshot ≠ lease.priceSnapshot then
    some (.settlementSnapshot e.attemptID)
  else if lease.priceSnapshot.isSome ∧ e.leaseMode ≠ lease.leaseMode then
    some (.settlementLeaseMode e.attemptID)
  else none

/-- The balance after a settlement. -/
def settleBalance (balance : Balance) (e : Event) (reservation : AttemptReservation) :
    Except ApplyError Balance :=
  if balance.reservedMicrosUSD < reservation.amount then
    .error (.exceedsProjectBalance e.attemptID)
  else
    match checkedAdd balance.committedMicrosUSD (e.committedMicrosUSD.getD 0),
        checkedAdd balance.inputTokens e.providerInputTokens,
        checkedAdd balance.outputTokens e.providerOutputTokens,
        checkedAdd balance.unknownAttempts
          (if reservation.lease.leaseMode = .unknownAllowed then 1 else 0) with
    | some committed, some input, some output, some unknown => .ok
      { reservedMicrosUSD := balance.reservedMicrosUSD - reservation.amount,
        committedMicrosUSD := committed, inputTokens := input, outputTokens := output,
        unknownAttempts := unknown }
    | _, _, _, _ => .error .integerRange

/-- The Run after a settlement. -/
def settleRun (run : Run) (e : Event) (reservation : AttemptReservation) :
    Except ApplyError Run :=
  let unknown := reservation.lease.leaseMode = .unknownAllowed
  if ¬ unknown ∧ run.reservedMicrosUSD < reservation.amount then
    .error (.exceedsRunBalance e.attemptID)
  else
    match checkedAdd run.committedMicrosUSD (e.committedMicrosUSD.getD 0),
        checkedAdd run.unknownAttempts (if unknown then 1 else 0) with
    | some committed, some attempts => .ok { run with
        reservedMicrosUSD := if unknown then run.reservedMicrosUSD
          else run.reservedMicrosUSD - reservation.amount,
        committedMicrosUSD := committed, unknownAttempts := attempts }
    | _, _ => .error .integerRange

/-- The maps a settled attempt leaves. -/
def leaveReservation (s : State D) (e : Event) : State D :=
  { s with
    reservations := s.reservations.erase e.attemptID,
    leaseRecords := if e.outcome ≠ outcomePinCommitFailed then s.leaseRecords.erase e.attemptID
      else s.leaseRecords,
    pendingByWorkUnit := if e.workUnitID ≠ "" then
        s.pendingByWorkUnit.removeMember e.workUnitID e.attemptID
      else s.pendingByWorkUnit,
    workUnitCosts := if e.workUnitID ≠ "" then
        s.workUnitCosts.insert e.workUnitID ((s.workUnitCosts.getD e.workUnitID {}).add e)
      else s.workUnitCosts }

def applySettled (s : State D) (e : Event) : Except ApplyError (State D × Balance) :=
  match s.reservations.lookup e.attemptID with
  | none => .error (.noReservation e.attemptID)
  | some reservation =>
    match checkSettlement e reservation with
    | some error => .error error
    | none =>
      match settleBalance (s.balance e.balanceKey) e reservation with
      | .error error => .error error
      | .ok balance =>
        if e.runID = "" then .ok (s.leaveReservation e, balance)
        else
          match settleRun (s.run e.runID) e reservation with
          | .error error => .error error
          | .ok run =>
            .ok (({ s with runs := s.runs.insert e.runID run } : State D).leaveReservation e,
              balance)

def applyFinalized (s : State D) (e : Event) : State D :=
  match s.requestRuns.lookup e.requestID with
  | none => s
  | some attribution => { s with
      requestRuns := s.requestRuns.erase e.requestID,
      activeByWorkUnit := s.activeByWorkUnit.removeMember attribution.workUnitID e.requestID }

/-- Refusals that leave the state as it was, with the untouched balance. -/
def unchanged (s : State D) (key : BalanceKey) (result : Except ApplyError (State D)) :
    Except (State D × ApplyError) (State D × Balance) :=
  match result with
  | .ok t => .ok (t, s.balance key)
  | .error error => .error (s, error)

/-- The effect of the event's kind on the state and on the balance the event is charged to. -/
def applyKind (s : State D) (r : Record) : Except (State D × ApplyError) (State D × Balance) :=
  let e := r.event
  match e.kind with
  | .workUnitCreated => s.unchanged e.balanceKey (s.applyWorkUnitCreated e)
  | .workUnitClosed => s.unchanged e.balanceKey (s.applyWorkUnitClosed e)
  | .runCreated => s.unchanged e.balanceKey (s.applyRunCreated e)
  | .runClosed => s.unchanged e.balanceKey (s.applyRunClosed e)
  | .reservationCreated => s.applyReservation r
  | .attemptStarted => s.unchanged e.balanceKey (s.applyStarted e)
  | .attemptSettled =>
    match s.applySettled e with
    | .ok result => .ok result
    | .error error => .error (s, error)
  | .requestFinalized => .ok (s.applyFinalized e, s.balance e.balanceKey)
  | .requestAccepted | .invalid _ => .ok (s, s.balance e.balanceKey)

/-! ## The common end -/

/-- The idempotency record a lifecycle event leaves. -/
def idempotencyRecord (e : Event) : GovernanceIdempotency where
  projectID := e.projectID
  operation := e.operation
  keyHash := e.idempotencyKeyHash
  requestFingerprint := e.requestFingerprint
  workUnitID := e.workUnitID
  runID := e.runID

/-- Store the balance and, for a lifecycle event, its idempotency record and its indexes. -/
def settleIndexes (s : State D) (e : Event) (balance : Balance) : State D :=
  let stored := { s with balances := s.balances.insert e.balanceKey balance }
  if e.kind.isLifecycle then
    ({ stored with governanceIdempotency :=
      stored.governanceIdempotency.insert e.idempotencyKey (idempotencyRecord e) } : State D)
      |>.noteGovernanceEvent e e.idempotencyKey
  else stored

/-- Remember the record's digest and move to its position. -/
def advance (s : State D) (r : Record) (digest : D) : State D :=
  { s.rememberDigest r.event.eventID digest with watermark := r.watermark }

/-- The common end of an accepted record. -/
def finish (s : State D) (r : Record) (digest : D) (balance : Balance) : State D :=
  let e := r.event
  ((s.settleIndexes e balance).archiveFinished e.workUnitID e.occurredAt r.sequence).advance r digest

/-- The stages after the duplicate, order and idempotency checks. -/
def applyFresh (s : State D) (r : Record) (digest : D) : Except (State D × ApplyError) (State D) :=
  match s.attributeRequest r.event with
  | .error error => .error (s, error)
  | .ok attributed =>
    match attributed.applyKind r with
    | .error failure => .error failure
    | .ok (t, balance) => .ok (t.finish r digest balance)

/-! ## `Apply` -/

variable [DecidableEq D] (cat : Catalogue D)

def apply (s : State D) (r : Record) : Except (State D × ApplyError) (State D) :=
  let e := r.event
  if e.validate cat ≠ [] then .error (s, .invalid r.sequence (e.validate cat))
  else
    match cat.eventDigest e with
    | none => .error (s, .noDigest)
    | some digest =>
      match s.eventDigests.lookup e.eventID with
      | some existing =>
        if existing ≠ digest then .error (s, .eventReused e.eventID)
        else if r.sequence < s.watermark.sequence then
          .error (s, .beforeWatermark r.sequence s.watermark.sequence)
        else if s.watermark.sequence < r.sequence then .ok { s with watermark := r.watermark }
        else .ok s
      | none =>
        if r.sequence ≤ s.watermark.sequence then
          .error (s, .notAfterWatermark r.sequence s.watermark.sequence)
        else
          match e.kind.isLifecycle, s.governanceIdempotency.lookup e.idempotencyKey with
          | true, some existing =>
            if existing.requestFingerprint ≠ e.requestFingerprint then
              .error (s, .idempotencyConflict)
            else .ok (s.advance r digest)
          | _, _ => s.applyFresh r digest

/-- Why a record was refused, if it was. -/
def refusal (result : Except (State D × ApplyError) (State D)) : Option ApplyError :=
  match result with
  | .ok _ => none
  | .error (_, error) => some error

omit [DecidableEq D] in
lemma refusal_eq_some {result : Except (State D × ApplyError) (State D)} {error : ApplyError} :
    refusal result = some error ↔ ∃ s, result = .error (s, error) := by
  cases result with
  | ok s => simp [refusal]
  | error failure => simp [refusal, Prod.ext_iff]

omit [DecidableEq D] in
lemma refusal_eq_none {result : Except (State D × ApplyError) (State D)} :
    refusal result = none ↔ ∃ s, result = .ok s := by
  cases result with
  | ok s => simp [refusal]
  | error failure => simp [refusal]

/-- The state a record leaves, accepted or refused. -/
def after (result : Except (State D × ApplyError) (State D)) : State D :=
  match result with
  | .ok s => s
  | .error (s, _) => s

end State

end Ledger

end Halro
