import Halro.Ledger.Apply

/-!
# What an accepted record did

One inversion lemma per stage of `State.apply`.  Each says everything the stage can have done
when it accepts, guards included, so that a proof about the ledger cites these and never unfolds
a stage again.  `apply_ok` sorts the accepted records into the three the source distinguishes: a
repeated event, a repeated governance request, and a fresh record, which alone has an effect;
`apply_error_state` says what a refused record leaves behind.
-/

namespace Halro

open Framework

namespace Ledger

namespace State

variable {D : Type}

/-! ## Attribution -/

/-- The state after an accepted request was put under its Run. -/
def attributed (s : State D) (e : Event) : State D :=
  { s with
    requestRuns := s.requestRuns.insert e.requestID ⟨e.workUnitID, e.runID⟩,
    activeByWorkUnit := s.activeByWorkUnit.addMember e.workUnitID e.requestID }

/-- The guards under which an accepted request is put under its Run. -/
structure AttributionOpen (s : State D) (e : Event) (run : Run) : Prop where
  named : e.runID ≠ ""
  held : s.runs.lookup e.runID = some run
  project : run.projectID = e.projectID
  workUnit : run.workUnitID = e.workUnitID
  active : run.status = .active
  unexpired : e.occurredAt < run.expiresAt
  same : ∀ a, s.requestRuns.lookup e.requestID = some a → a = ⟨e.workUnitID, e.runID⟩

variable {s t : State D} {e : Event}

lemma attributeRequest_accepted (hk : e.kind = .requestAccepted) (h : s.attributeRequest e = .ok t) :
    (t = s ∧ e.runID = "") ∨ (∃ run, AttributionOpen s e run ∧ t = s.attributed e) := by
  unfold attributeRequest at h
  by_cases hc : e.kind.isRequest ∧ (s.requestRuns.size ≠ 0 ∨ e.workUnitID ≠ "" ∨ e.runID ≠ "")
  · rw [if_pos hc, if_pos hk] at h
    obtain ⟨hsame, h⟩ := guard_eq_ok.mp h
    by_cases hrun : e.runID = ""
    · rw [if_pos hrun] at h
      exact Or.inl ⟨(Except.ok.inj h).symm, hrun⟩
    rw [if_neg hrun] at h
    split at h
    · cases h
    · rename_i run hl
      obtain ⟨hg, h⟩ := guard_eq_ok.mp h
      push Not at hg hsame
      exact Or.inr ⟨run, ⟨hrun, hl, hg.1, hg.2.1, hg.2.2.1, hg.2.2.2, hsame⟩,
        (Except.ok.inj h).symm⟩
  · rw [if_neg hc] at h
    refine Or.inl ⟨(Except.ok.inj h).symm, ?_⟩
    by_contra hrun
    exact hc ⟨by rw [hk]; rfl, Or.inr (Or.inr hrun)⟩

/-- An event carries the attribution of its request, or none if the request has none. -/
def Attribution (s : State D) (e : Event) : Prop :=
  s.requestRuns.lookup e.requestID = some ⟨e.workUnitID, e.runID⟩ ∨
    (s.requestRuns.lookup e.requestID = none ∧ e.workUnitID = "" ∧ e.runID = "")

lemma attributeRequest_later (hk : e.kind ≠ .requestAccepted) (hreq : e.kind.isRequest = true)
    (h : s.attributeRequest e = .ok t) :
    t = s ∧ s.Attribution e := by
  unfold attributeRequest at h
  by_cases hc : e.kind.isRequest ∧ (s.requestRuns.size ≠ 0 ∨ e.workUnitID ≠ "" ∨ e.runID ≠ "")
  · rw [if_pos hc, if_neg hk] at h
    unfold checkAttribution at h
    cases hl : s.requestRuns.lookup e.requestID with
    | none =>
      simp only [hl, guard_eq_ok] at h
      obtain ⟨hw, h⟩ := h
      push Not at hw
      exact ⟨(Except.ok.inj h).symm, Or.inr ⟨hl, hw⟩⟩
    | some a =>
      simp only [hl, guard_eq_ok] at h
      obtain ⟨ha, h⟩ := h
      rw [not_not] at ha
      exact ⟨(Except.ok.inj h).symm, Or.inl (by rw [hl, ha])⟩
  · rw [if_neg hc] at h
    have hempty : s.requestRuns.size = 0 ∧ e.workUnitID = "" ∧ e.runID = "" := by
      by_contra hne
      refine hc ⟨hreq, ?_⟩
      by_contra hall
      push Not at hall
      exact hne hall
    refine ⟨(Except.ok.inj h).symm, Or.inr ⟨?_, hempty.2⟩⟩
    exact FinMap.size_eq_zero_iff.mp hempty.1 _

/-- Lifecycle events pass the attribution stage untouched. -/
lemma attributeRequest_lifecycle (hk : e.kind.isRequest = false) (h : s.attributeRequest e = .ok t) :
    t = s := by
  unfold attributeRequest at h
  rw [if_neg (by simp [hk])] at h
  exact (Except.ok.inj h).symm

/-- Only an accepted request changes the state at the attribution stage. -/
lemma attributeRequest_eq_self (hk : e.kind ≠ .requestAccepted) (h : s.attributeRequest e = .ok t) :
    t = s := by
  cases hreq : e.kind.isRequest with
  | true => exact (attributeRequest_later hk hreq h).1
  | false => exact attributeRequest_lifecycle hreq h

/-! ## Kinds -/

lemma applyWorkUnitCreated_ok (h : s.applyWorkUnitCreated e = .ok t) :
    s.workUnits.lookup e.workUnitID = none ∧ (newWorkUnit e).validate = .ok () ∧
      t = { s with workUnits := s.workUnits.insert e.workUnitID (newWorkUnit e) } := by
  obtain ⟨hl, h⟩ := guard_eq_ok.mp h
  split at h
  · cases h
  · rename_i hv
    exact ⟨by simpa using hl, hv, (Except.ok.inj h).symm⟩

/-- A Work Unit as a close record leaves it. -/
def closedUnit (w : WorkUnit) (e : Event) : WorkUnit :=
  { w with status := .closed, closedAt := some e.occurredAt }

lemma applyWorkUnitClosed_ok (h : s.applyWorkUnitClosed e = .ok t) :
    ∃ w, s.workUnits.lookup e.workUnitID = some w ∧ w.projectID = e.projectID ∧ w.status = .open ∧
      t = { s with workUnits := s.workUnits.insert w.id (closedUnit w e) } := by
  unfold applyWorkUnitClosed at h
  split at h
  · cases h
  · rename_i w hl
    simp only [guard_eq_ok, not_not, ne_eq] at h
    exact ⟨w, hl, h.1, h.2.1, (Except.ok.inj h.2.2).symm⟩

lemma applyRunCreated_ok (h : s.applyRunCreated e = .ok t) : s.runs.lookup e.runID = none ∧
    (∃ w, s.workUnits.lookup e.workUnitID = some w ∧ w.projectID = e.projectID ∧ w.status = .open) ∧
    (s.runsOf e.workUnitID).length < maxRunsPerWorkUnit ∧ (newRun e).validate = .ok () ∧
      t = { s with
        runs := s.runs.insert e.runID (newRun e),
        runsByWorkUnit := s.runsByWorkUnit.insert e.workUnitID
          (s.runsOf e.workUnitID ++ [e.runID]) } := by
  obtain ⟨hr, h⟩ := guard_eq_ok.mp h
  split at h
  · cases h
  · rename_i w hl
    obtain ⟨hw, h⟩ := guard_eq_ok.mp h
    obtain ⟨hn, h⟩ := guard_eq_ok.mp h
    push Not at hw hn
    split at h
    · cases h
    · rename_i hv
      exact ⟨by simpa using hr, ⟨w, hl, hw⟩, hn, hv, (Except.ok.inj h).symm⟩

/-- A Run as a close record leaves it. -/
def closedRun (r : Run) (e : Event) : Run :=
  { r with status := .closed, closedAt := some e.occurredAt, closeReason := e.closeReason }

lemma applyRunClosed_ok (h : s.applyRunClosed e = .ok t) :
    ∃ r, s.runs.lookup e.runID = some r ∧ r.projectID = e.projectID ∧
      r.workUnitID = e.workUnitID ∧ r.status = .active ∧
      t = { s with runs := s.runs.insert r.id (closedRun r e) } := by
  unfold applyRunClosed at h
  split at h
  · cases h
  · rename_i r hl
    simp only [guard_eq_ok] at h
    obtain ⟨hp, ha, h⟩ := h
    push Not at hp
    exact ⟨r, hl, hp.1, hp.2, not_not.mp ha, (Except.ok.inj h).symm⟩

/-- The balance after a reservation: an unknown-price lease reserves nothing. -/
def reservedBalance (b : Balance) (e : Event) : Balance :=
  if e.leaseMode = .unknownAllowed then b
  else { b with reservedMicrosUSD := b.reservedMicrosUSD + e.reservationAmount }

/-- The Runs after a reservation. -/
def reservedRuns (s : State D) (e : Event) : FinMap String Run :=
  if e.runID = "" ∨ e.leaseMode = .unknownAllowed then s.runs
  else s.runs.insert e.runID { s.run e.runID with
    reservedMicrosUSD := (s.run e.runID).reservedMicrosUSD + e.reservationAmount }

variable {r : Record} {b : Balance}

lemma applyReservation_ok (h : s.applyReservation r = .ok (t, b)) :
    s.reservations.lookup r.event.attemptID = none ∧
      b = reservedBalance (s.balance r.event.balanceKey) r.event ∧
      t = { s.enterReservation r with runs := s.reservedRuns r.event } := by
  obtain ⟨hl, h⟩ := guard_eq_ok.mp h
  have hnone : s.reservations.lookup r.event.attemptID = none := by simpa using hl
  by_cases hm : r.event.leaseMode = .unknownAllowed
  · rw [if_pos hm] at h
    obtain ⟨rfl, rfl⟩ := Prod.mk.inj (Except.ok.inj h)
    refine ⟨hnone, by simp [reservedBalance, hm], ?_⟩
    simp [reservedRuns, hm, enterReservation]
  rw [if_neg hm] at h
  split at h
  · cases h
  · rename_i reserved hb
    rw [checkedAdd_eq_some hb] at h
    by_cases hrun : r.event.runID = ""
    · rw [if_pos hrun] at h
      obtain ⟨rfl, rfl⟩ := Prod.mk.inj (Except.ok.inj h)
      refine ⟨hnone, by simp [reservedBalance, hm], ?_⟩
      simp [reservedRuns, hrun, enterReservation]
    · rw [if_neg hrun] at h
      dsimp only at h
      split at h
      · cases h
      · rename_i charged hc
        rw [checkedAdd_eq_some hc] at h
        obtain ⟨rfl, rfl⟩ := Prod.mk.inj (Except.ok.inj h)
        refine ⟨hnone, by simp [reservedBalance, hm], ?_⟩
        simp [reservedRuns, hrun, hm, enterReservation]

lemma applyStarted_ok (h : s.applyStarted e = .ok t) :
    ∃ res, s.reservations.lookup e.attemptID = some res ∧ res.started = false ∧
      t = { s with reservations :=
        s.reservations.insert e.attemptID { res with started := true } } := by
  unfold applyStarted at h
  split at h
  · cases h
  · rename_i res hl
    obtain ⟨hnew, h⟩ := guard_eq_ok.mp h
    exact ⟨res, hl, by simpa using hnew, (Except.ok.inj h).symm⟩

/-! ## Settlement -/

/-- What a settlement shares with the lease it settles. -/
structure Settles (e : Event) (res : AttemptReservation) : Prop where
  key : res.key = e.balanceKey
  workUnit : e.workUnitID = res.lease.workUnitID
  run : e.runID = res.lease.runID
  mode : res.lease.priceSnapshot.isSome → e.leaseMode = res.lease.leaseMode

variable {res : AttemptReservation}

lemma settles_of_check (h : checkSettlement e res = none) : Settles e res := by
  simp only [checkSettlement, guard_eq_none] at h
  obtain ⟨h1, h2, -, -, h5, -⟩ := h
  rw [not_not] at h1
  push Not at h2 h5
  exact ⟨h1, h2.1, h2.2, h5⟩

/-- The balance a settlement leaves. -/
def settledBalance (b : Balance) (e : Event) (res : AttemptReservation) : Balance where
  reservedMicrosUSD := b.reservedMicrosUSD - res.amount
  committedMicrosUSD := b.committedMicrosUSD + e.committedMicrosUSD.getD 0
  inputTokens := b.inputTokens + e.providerInputTokens
  outputTokens := b.outputTokens + e.providerOutputTokens
  unknownAttempts :=
    b.unknownAttempts + if res.lease.leaseMode = .unknownAllowed then 1 else 0

lemma settleBalance_ok {b' : Balance} (h : settleBalance b e res = .ok b') :
    b' = settledBalance b e res := by
  obtain ⟨-, h⟩ := guard_eq_ok.mp h
  split at h
  · rename_i h1 h2 h3 h4
    rw [← Except.ok.inj h, checkedAdd_eq_some h1, checkedAdd_eq_some h2, checkedAdd_eq_some h3,
      checkedAdd_eq_some h4]
    rfl
  · cases h

/-- The Run a settlement leaves. -/
def settledRun (r : Run) (e : Event) (res : AttemptReservation) : Run :=
  { r with
    reservedMicrosUSD := if res.lease.leaseMode = .unknownAllowed then r.reservedMicrosUSD
      else r.reservedMicrosUSD - res.amount,
    committedMicrosUSD := r.committedMicrosUSD + e.committedMicrosUSD.getD 0,
    unknownAttempts :=
      r.unknownAttempts + if res.lease.leaseMode = .unknownAllowed then 1 else 0 }

lemma settleRun_ok {r r' : Run} (h : settleRun r e res = .ok r') : r' = settledRun r e res := by
  obtain ⟨-, h⟩ := guard_eq_ok.mp h
  split at h
  · rename_i h1 h2
    rw [← Except.ok.inj h, checkedAdd_eq_some h1, checkedAdd_eq_some h2]
    rfl
  · cases h

/-- The Runs after a settlement. -/
def settledRuns (s : State D) (e : Event) (res : AttemptReservation) : FinMap String Run :=
  if e.runID = "" then s.runs else s.runs.insert e.runID (settledRun (s.run e.runID) e res)

lemma applySettled_ok (h : s.applySettled e = .ok (t, b)) :
    ∃ res, s.reservations.lookup e.attemptID = some res ∧ Settles e res ∧
      b = settledBalance (s.balance e.balanceKey) e res ∧
      t = { s.leaveReservation e with runs := s.settledRuns e res } := by
  unfold applySettled at h
  split at h
  · cases h
  rename_i res hl
  split at h
  · cases h
  rename_i hc
  split at h
  · cases h
  rename_i b' hb
  rw [settleBalance_ok hb] at h
  refine ⟨res, hl, settles_of_check hc, ?_⟩
  by_cases hrun : e.runID = ""
  · rw [if_pos hrun] at h
    obtain ⟨rfl, rfl⟩ := Prod.mk.inj (Except.ok.inj h)
    exact ⟨rfl, by simp [settledRuns, hrun, leaveReservation]⟩
  · rw [if_neg hrun] at h
    split at h
    · cases h
    · rename_i run hr
      rw [settleRun_ok hr] at h
      obtain ⟨rfl, rfl⟩ := Prod.mk.inj (Except.ok.inj h)
      exact ⟨rfl, by simp [settledRuns, hrun, leaveReservation]⟩

/-! ## Whole records -/

/-- The event is neither a repeated event nor a repeated governance request, as far as the state
remembers. -/
def Fresh (s : State D) (e : Event) : Prop :=
  s.eventDigests.lookup e.eventID = none ∧
    (e.kind.isLifecycle = true → s.governanceIdempotency.lookup e.idempotencyKey = none)

instance (s : State D) (e : Event) : Decidable (s.Fresh e) :=
  decidable_of_iff ((s.eventDigests.lookup e.eventID).isNone = true ∧
    (e.kind.isLifecycle = true → (s.governanceIdempotency.lookup e.idempotencyKey).isNone = true))
    (by simp [Fresh])

/-- What the stages of a record make of a state, the indexing of its event included. -/
inductive Staged (s : State D) (r : Record) : State D → Prop
  | mk {a k : State D} {b : Balance} (attributed : s.attributeRequest r.event = .ok a)
    (applied : a.applyKind r = .ok (k, b)) : Staged s r (k.settleIndexes r.event b)

/-- A state with the Work Units archived that a record finishes. -/
abbrev archived (u : State D) (r : Record) : State D :=
  u.archiveFinished r.event.workUnitID r.event.occurredAt r.sequence

lemma applyFresh_ok {digest : D} (h : s.applyFresh r digest = .ok t) :
    ∃ u, s.Staged r u ∧ t = (u.archived r).advance r digest := by
  unfold applyFresh at h
  split at h
  · cases h
  rename_i a ha
  split at h
  · cases h
  · rename_i k b hk
    exact ⟨_, ⟨ha, hk⟩, (Except.ok.inj h).symm⟩

variable [DecidableEq D] {cat : Catalogue D}

/-- The three ways a record is accepted. -/
inductive Accepted (s : State D) (r : Record) (digest : D) (t : State D) : Prop
  /-- The event is remembered; at most the watermark moves. -/
  | repeated (known : s.eventDigests.lookup r.event.eventID = some digest)
      (order : s.watermark.sequence ≤ r.sequence)
      (eq : t = if s.watermark.sequence < r.sequence then { s with watermark := r.watermark }
        else s)
  /-- The governance request is remembered; only its position is recorded. -/
  | replayed (unseen : s.eventDigests.lookup r.event.eventID = none)
      (order : s.watermark.sequence < r.sequence)
      (lifecycle : r.event.kind.isLifecycle = true)
      (known : ∃ g, s.governanceIdempotency.lookup r.event.idempotencyKey = some g ∧
        g.requestFingerprint = r.event.requestFingerprint)
      (eq : t = s.advance r digest)
  /-- The record takes effect. -/
  | fresh (fresh : s.Fresh r.event) (order : s.watermark.sequence < r.sequence)
      (ok : s.applyFresh r digest = .ok t)

lemma apply_ok (h : s.apply cat r = .ok t) : r.event.validate cat = [] ∧
      ∃ digest, cat.eventDigest r.event = some digest ∧ s.Accepted r digest t := by
  obtain ⟨hv, h⟩ := guard_eq_ok.mp h
  refine ⟨not_not.mp hv, ?_⟩
  cases hd : cat.eventDigest r.event with
  | none => simp [hd] at h
  | some digest =>
    refine ⟨digest, rfl, ?_⟩
    simp only [hd] at h
    cases hl : s.eventDigests.lookup r.event.eventID with
    | some existing =>
      simp only [hl, guard_eq_ok] at h
      obtain ⟨hsame, hle, h⟩ := h
      rw [not_not] at hsame
      refine .repeated (by rw [hl, hsame]) (Nat.le_of_not_lt hle) ?_
      split_ifs at h ⊢ with hlt <;> exact (Except.ok.inj h).symm
    | none =>
      simp only [hl, guard_eq_ok] at h
      obtain ⟨hlt, h⟩ := h
      have hlt := Nat.lt_of_not_le hlt
      cases hlife : r.event.kind.isLifecycle with
      | false =>
        simp only [hlife] at h
        exact .fresh ⟨hl, by simp [hlife]⟩ hlt h
      | true =>
        cases hg : s.governanceIdempotency.lookup r.event.idempotencyKey with
        | none =>
          simp only [hlife, hg] at h
          exact .fresh ⟨hl, fun _ => hg⟩ hlt h
        | some g =>
          simp only [hlife, hg, guard_eq_ok] at h
          exact .replayed hl hlt hlife ⟨g, hg, not_not.mp h.1⟩ (Except.ok.inj h.2).symm

omit [DecidableEq D] in
/-- The refusal of a reservation that leaves the reservation entered: its Run's reserved total
would leave the 64-bit range. -/
structure LeftEntered (s : State D) (r : Record) (t : State D) : Prop where
  kind : r.event.kind = .reservationCreated
  run : r.event.runID ≠ ""
  mode : r.event.leaseMode ≠ .unknownAllowed
  overflow : checkedAdd (s.run r.event.runID).reservedMicrosUSD r.event.reservationAmount = none
  eq : t = s.enterReservation r

variable {err : ApplyError}

omit [DecidableEq D] in
lemma applyReservation_error (hk : r.event.kind = .reservationCreated)
    (h : s.applyReservation r = .error (t, err)) :
    t = s ∨ s.LeftEntered r t := by
  unfold applyReservation at h
  simp only at h
  split at h
  · exact Or.inl (Prod.mk.inj (Except.error.inj h)).1.symm
  split at h
  · cases h
  rename_i hm
  cases hb : checkedAdd (s.balance r.event.balanceKey).reservedMicrosUSD
      r.event.reservationAmount with
  | none =>
    simp only [hb] at h
    exact Or.inl (Prod.mk.inj (Except.error.inj h)).1.symm
  | some reserved =>
    simp only [hb] at h
    split at h
    · cases h
    rename_i hrun
    cases hc : checkedAdd (s.run r.event.runID).reservedMicrosUSD r.event.reservationAmount with
    | none =>
      simp only [hc] at h
      exact Or.inr ⟨hk, hrun, hm, hc, (Prod.mk.inj (Except.error.inj h)).1.symm⟩
    | some charged => simp [hc] at h

omit [DecidableEq D] in
lemma unchanged_error {key : BalanceKey} {result : Except ApplyError (State D)}
    (h : s.unchanged key result = .error (t, err)) : t = s := by
  cases result with
  | ok _ => cases h
  | error _ => exact (Prod.mk.inj (Except.error.inj h)).1.symm

omit [DecidableEq D] in
lemma unchanged_ok {key : BalanceKey} {result : Except ApplyError (State D)}
    (h : s.unchanged key result = .ok (t, b)) :
    result = .ok t ∧ b = s.balance key := by
  cases result with
  | error _ => cases h
  | ok u =>
    obtain ⟨rfl, rfl⟩ := Prod.mk.inj (Except.ok.inj h)
    exact ⟨rfl, rfl⟩

/-- **What an accepted record of each kind does**: the state before its indexes are settled, and the
balance of its key. -/
inductive KindApplied (s : State D) (r : Record) : State D → Balance → Prop
  | workUnitCreated (kind : r.event.kind = .workUnitCreated)
    (unused : s.workUnits.lookup r.event.workUnitID = none) : KindApplied s r
      { s with workUnits := s.workUnits.insert r.event.workUnitID (newWorkUnit r.event) }
      (s.balance r.event.balanceKey)
  | workUnitClosed (kind : r.event.kind = .workUnitClosed) {w : WorkUnit}
    (unit : s.workUnits.lookup r.event.workUnitID = some w)
    (project : w.projectID = r.event.projectID) (isOpen : w.status = .open) : KindApplied s r
      { s with workUnits := s.workUnits.insert w.id (closedUnit w r.event) }
      (s.balance r.event.balanceKey)
  | runCreated (kind : r.event.kind = .runCreated)
    (unused : s.runs.lookup r.event.runID = none) {w : WorkUnit}
    (unit : s.workUnits.lookup r.event.workUnitID = some w)
    (project : w.projectID = r.event.projectID) (isOpen : w.status = .open) : KindApplied s r
      { s with
        runs := s.runs.insert r.event.runID (newRun r.event),
        runsByWorkUnit := s.runsByWorkUnit.insert r.event.workUnitID
          (s.runsOf r.event.workUnitID ++ [r.event.runID]) } (s.balance r.event.balanceKey)
  | runClosed (kind : r.event.kind = .runClosed) {run : Run}
    (held : s.runs.lookup r.event.runID = some run) (project : run.projectID = r.event.projectID)
    (workUnit : run.workUnitID = r.event.workUnitID) (active : run.status = .active) :
    KindApplied s r { s with runs := s.runs.insert run.id (closedRun run r.event) }
      (s.balance r.event.balanceKey)
  | reservationCreated (kind : r.event.kind = .reservationCreated)
    (attribution : s.Attribution r.event)
    (unused : s.reservations.lookup r.event.attemptID = none) : KindApplied s r
      { s.enterReservation r with runs := s.reservedRuns r.event }
      (reservedBalance (s.balance r.event.balanceKey) r.event)
  | attemptStarted (kind : r.event.kind = .attemptStarted) {res : AttemptReservation}
    (lease : s.reservations.lookup r.event.attemptID = some res) : KindApplied s r
      { s with reservations :=
        s.reservations.insert r.event.attemptID { res with started := true } }
      (s.balance r.event.balanceKey)
  | attemptSettled (kind : r.event.kind = .attemptSettled) {res : AttemptReservation}
    (lease : s.reservations.lookup r.event.attemptID = some res) (settles : Settles r.event res) :
    KindApplied s r { s.leaveReservation r.event with runs := s.settledRuns r.event res }
      (settledBalance (s.balance r.event.balanceKey) r.event res)
  | requestFinalized (kind : r.event.kind = .requestFinalized)
    (attribution : s.Attribution r.event) :
    KindApplied s r (s.applyFinalized r.event) (s.balance r.event.balanceKey)
  | requestAccepted (kind : r.event.kind = .requestAccepted) (plain : r.event.runID = "") :
    KindApplied s r s (s.balance r.event.balanceKey)
  | requestAttributed (kind : r.event.kind = .requestAccepted) {run : Run}
    (isOpen : AttributionOpen s r.event run) :
    KindApplied s r (s.attributed r.event) ((s.attributed r.event).balance r.event.balanceKey)

omit [DecidableEq D] in
lemma Staged.kind (hst : s.Staged r t) (hv : r.event.validate cat = []) :
    ∃ k b, t = k.settleIndexes r.event b ∧ KindApplied s r k b := by
  obtain @⟨a, k, b, ha, hk⟩ := hst
  refine ⟨k, b, rfl, ?_⟩
  have lifecycle : r.event.kind.isRequest = false → a = s :=
    fun hq => attributeRequest_lifecycle hq ha
  have later : r.event.kind ≠ .requestAccepted → r.event.kind.isRequest = true → a = s ∧ _ :=
    fun hne hq => attributeRequest_later hne hq ha
  unfold applyKind at hk
  cases hkind : r.event.kind <;> simp only [hkind] at hk <;> simp only [hkind] at later lifecycle
  case workUnitCreated =>
    obtain rfl := lifecycle rfl
    obtain ⟨hdone, rfl⟩ := unchanged_ok hk
    obtain ⟨hnone, -, rfl⟩ := applyWorkUnitCreated_ok hdone
    exact .workUnitCreated hkind hnone
  case workUnitClosed =>
    obtain rfl := lifecycle rfl
    obtain ⟨hdone, rfl⟩ := unchanged_ok hk
    obtain ⟨w, hw, hp, ho, rfl⟩ := applyWorkUnitClosed_ok hdone
    exact .workUnitClosed hkind hw hp ho
  case runCreated =>
    obtain rfl := lifecycle rfl
    obtain ⟨hdone, rfl⟩ := unchanged_ok hk
    obtain ⟨hnone, ⟨w, hw, hp, ho⟩, -, -, rfl⟩ := applyRunCreated_ok hdone
    exact .runCreated hkind hnone hw hp ho
  case runClosed =>
    obtain rfl := lifecycle rfl
    obtain ⟨hdone, rfl⟩ := unchanged_ok hk
    obtain ⟨run, hr, hp, hwu, hact, rfl⟩ := applyRunClosed_ok hdone
    exact .runClosed hkind hr hp hwu hact
  case reservationCreated =>
    obtain ⟨rfl, hattr⟩ := later (by simp) rfl
    obtain ⟨hnone, rfl, rfl⟩ := applyReservation_ok hk
    exact .reservationCreated hkind hattr hnone
  case attemptStarted =>
    obtain ⟨rfl, -⟩ := later (by simp) rfl
    obtain ⟨hdone, rfl⟩ := unchanged_ok hk
    obtain ⟨res, hres, -, rfl⟩ := applyStarted_ok hdone
    exact .attemptStarted hkind hres
  case attemptSettled =>
    obtain ⟨rfl, -⟩ := later (by simp) rfl
    cases hs : a.applySettled r.event with
    | error err => simp [hs] at hk
    | ok result =>
      simp only [hs] at hk
      rw [Except.ok.inj hk] at hs
      obtain ⟨res, hres, hset, rfl, rfl⟩ := applySettled_ok hs
      exact .attemptSettled hkind hres hset
  case requestFinalized =>
    obtain ⟨rfl, hattr⟩ := later (by simp) rfl
    obtain ⟨rfl, rfl⟩ := Prod.mk.inj (Except.ok.inj hk)
    exact .requestFinalized hkind hattr
  case requestAccepted =>
    obtain ⟨rfl, rfl⟩ := Prod.mk.inj (Except.ok.inj hk)
    rcases attributeRequest_accepted hkind ha with ⟨rfl, hr⟩ | ⟨run, hopen, rfl⟩
    · exact .requestAccepted hkind hr
    · exact .requestAttributed hkind hopen
  case invalid code =>
    have hvalid := (Event.valid_of_validate hv).kind_valid
    simp [hkind, EventKind.valid] at hvalid

omit [DecidableEq D] in
lemma applyKind_error (h : s.applyKind r = .error (t, err)) :
    r.event.kind ≠ .requestAccepted ∧ (t = s ∨ s.LeftEntered r t) := by
  unfold applyKind at h
  cases hk : r.event.kind <;> simp only [hk] at h
  case reservationCreated => exact ⟨by simp, applyReservation_error hk h⟩
  case attemptSettled =>
    refine ⟨by simp, ?_⟩
    cases hs : s.applySettled r.event with
    | ok result => simp [hs] at h
    | error e =>
      simp only [hs] at h
      exact Or.inl (Prod.mk.inj (Except.error.inj h)).1.symm
  all_goals first
    | exact ⟨by simp, Or.inl (unchanged_error h)⟩
    | cases h

/-- **What a refused record leaves behind.**  The state is untouched, except by a reservation
whose Run total leaves the 64-bit range. -/
lemma apply_error_state (h : s.apply cat r = .error (t, err)) : t = s ∨ s.LeftEntered r t := by
  have same : ∀ {u : State D} {e' : ApplyError},
      (Except.error (u, e') : Except (State D × ApplyError) (State D)) = .error (t, err) →
      t = u := fun h => (Prod.mk.inj (Except.error.inj h)).1.symm
  have freshCase : ∀ digest, s.applyFresh r digest = .error (t, err) →
      t = s ∨ s.LeftEntered r t := by
    intro digest hf
    unfold applyFresh at hf
    cases ha : s.attributeRequest r.event with
    | error e' =>
      simp only [ha] at hf
      exact Or.inl (same hf)
    | ok a =>
      simp only [ha] at hf
      cases hk : a.applyKind r with
      | ok result => simp [hk] at hf
      | error failure =>
        simp only [hk] at hf
        obtain rfl := same hf
        obtain ⟨hne, hu⟩ := applyKind_error hk
        rw [attributeRequest_eq_self hne ha] at hu
        exact hu
  unfold apply at h
  simp only at h
  split at h
  · exact Or.inl (same h)
  cases hd : cat.eventDigest r.event with
  | none =>
    simp only [hd] at h
    exact Or.inl (same h)
  | some digest =>
    simp only [hd] at h
    cases hl : s.eventDigests.lookup r.event.eventID with
    | some existing =>
      simp only [hl] at h
      split_ifs at h <;> exact Or.inl (same h)
    | none =>
      simp only [hl] at h
      split at h
      · exact Or.inl (same h)
      split at h
      · split_ifs at h
        exact Or.inl (same h)
      · exact freshCase digest h

end State

end Ledger

end Halro
