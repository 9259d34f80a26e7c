import Halro.Ledger.Change

/-!
# Spend against a limit

What a balance or a Run has spent is what is reserved for it and what was settled against it.  A
fresh record moves it in two ways only.  A reservation adds its amount.  A settlement takes the
reserved amount away and adds the settled one, so that spend rises by no more than the settlement
went over its reservation.  `Change.load_le` says this once, for any part of the reservations and
settlements; balances and Runs are two such parts.
-/

namespace Halro

open Framework Framework.FinMap Ledger.State

namespace Ledger

open Effect

variable {D : Type} {cat : Catalogue D} {s t : State D} {h : List Effect} {r : Record}
  {gone : Finset String}

/-! ## Settled sums -/

/-- How far a settlement went over what was reserved for it. -/
def overrunOf (e : Event) (res : AttemptReservation) : ℤ := max 0 (committedOf e res - res.amount)

/-- The part of a measure that falls to the events of a kind. -/
def part (Q : Event → Prop) [DecidablePred Q] (f : Event → AttemptReservation → ℤ) (e : Event)
    (res : AttemptReservation) : ℤ :=
  if Q e then f e res else 0

variable {f : Event → AttemptReservation → ℤ}

lemma settledSum_entry_of_ne {e : Event}
    (hk : e.kind ≠ .attemptSettled) : settledSum f (s.entry e :: h) = settledSum f h := by
  rw [entry, if_neg hk, settledSum_cons_none]

lemma settledSum_entry {e : Event} {res : AttemptReservation}
    (hk : e.kind = .attemptSettled) (hres : s.reservations.lookup e.attemptID = some res) :
    settledSum f (s.entry e :: h) = f e res + settledSum f h := by
  rw [entry, if_pos hk, hres, settledSum_cons_some]

lemma settledSum_nonneg (hf : ∀ e res, 0 ≤ f e res) (h : List Effect) : 0 ≤ settledSum f h := by
  induction h with
  | nil => exact le_refl 0
  | cons x h ih =>
    obtain ⟨e, settled⟩ := x
    cases settled with
    | none => rwa [settledSum_cons_none]
    | some res =>
      rw [settledSum_cons_some]
      have := hf e res
      omega

lemma part_overrunOf_nonneg (Q : Event → Prop) [DecidablePred Q] (e : Event)
    (res : AttemptReservation) : 0 ≤ part Q overrunOf e res := by
  unfold part overrunOf
  split_ifs <;> omega

/-! ## Open reservations after a fresh record -/

namespace Change

variable {f : String → AttemptReservation → ℤ}

lemma total_opened (hc : Change s r gone t) (hk : r.event.kind = .reservationCreated) :
    t.reservations.total f =
      s.reservations.total f + f r.event.attemptID (newReservation r.event) := by
  rw [hc.reservations, reservationsAfter, hk]
  rw [total_insert, hc.unopened hk]
  simp

lemma total_settled (hc : Change s r gone t) (hk : r.event.kind = .attemptSettled)
    {res : AttemptReservation} (hres : s.reservations.lookup r.event.attemptID = some res) :
    t.reservations.total f = s.reservations.total f - f r.event.attemptID res := by
  rw [hc.reservations, reservationsAfter, hk]
  rw [total_erase, hres]
  simp

/-- A record of another kind keeps every total that does not ask whether an attempt has started. -/
lemma total_kept (hc : Change s r gone t)
    (hf : ∀ a (res : AttemptReservation), f a { res with started := true } = f a res)
    (hne : r.event.kind ≠ .reservationCreated) (hns : r.event.kind ≠ .attemptSettled) :
    t.reservations.total f = s.reservations.total f := by
  rw [hc.reservations, reservationsAfter]
  split
  · contradiction
  · split
    · rename_i res hres
      rw [total_insert, hres, hf]
      simp
    · rfl
  · contradiction
  · rfl

end Change

/-! ## Loads -/

/-- What counts against a limit: what is reserved and what was settled, less what the settlements
went over their reservations. -/
def load (f : String → AttemptReservation → ℤ) (Q : Event → Prop) [DecidablePred Q]
    (reservations : FinMap String AttemptReservation) (h : List Effect) : ℤ :=
  reservations.total f + settledSum (part Q committedOf) h - settledSum (part Q overrunOf) h

/-- What an event opens, as a measure on reservations sees it. -/
def opened (f : String → AttemptReservation → ℤ) (e : Event) : ℤ :=
  if e.kind = .reservationCreated then f e.attemptID (State.newReservation e) else 0

lemma opened_heldAgainst (key : BalanceKey) (e : Event) : opened (heldAgainst key) e =
    if e.kind = .reservationCreated ∧ e.balanceKey = key then e.reservationAmount else 0 := by
  by_cases hk : e.kind = .reservationCreated <;> by_cases hkey : e.balanceKey = key <;>
    simp [opened, heldAgainst, newReservation, hk, hkey]

lemma opened_heldByRun (id : String) (e : Event) : opened (heldByRun id) e =
    if e.kind = .reservationCreated ∧ e.runID = id ∧ e.leaseMode ≠ .unknownAllowed then
      e.reservationAmount else 0 := by
  by_cases hk : e.kind = .reservationCreated <;> by_cases hrun : e.runID = id <;>
    by_cases hm : e.leaseMode = .unknownAllowed <;>
    simp [opened, heldByRun, newReservation, hk, hrun, hm]

/-- **A fresh record adds to a load at most what it opens.** -/
theorem Change.load_le (hc : Change s r gone t) {f : String → AttemptReservation → ℤ}
    {Q : Event → Prop} [DecidablePred Q]
    (hf : ∀ a (res : AttemptReservation), f a { res with started := true } = f a res)
    (hset : ∀ res, s.reservations.lookup r.event.attemptID = some res →
      State.Settles r.event res → f r.event.attemptID res = if Q r.event then res.amount else 0) :
    load f Q t.reservations (s.entry r.event :: h) ≤
      load f Q s.reservations h + opened f r.event := by
  unfold load opened
  by_cases hk : r.event.kind = .attemptSettled
  · obtain ⟨res, hres, hsets⟩ := hc.settles hk
    have hpart := hset res hres hsets
    rw [hc.total_settled hk hres, settledSum_entry hk hres, settledSum_entry hk hres,
      if_neg (by rw [hk]; simp), hpart]
    unfold part overrunOf
    split_ifs <;> omega
  · rw [settledSum_entry_of_ne hk, settledSum_entry_of_ne hk]
    split_ifs with hopen
    · rw [hc.total_opened hopen]
      omega
    · rw [hc.total_kept hf hopen hk]
      omega

/-- A fresh record adds to a total of open reservations at most what it opens. -/
lemma Change.total_le (hc : Change s r gone t) {f : String → AttemptReservation → ℤ}
    (hf : ∀ a (res : AttemptReservation), f a { res with started := true } = f a res)
    (hpos : ∀ a res, s.reservations.lookup a = some res → 0 ≤ f a res) :
    t.reservations.total f ≤ s.reservations.total f + opened f r.event := by
  unfold opened
  by_cases hk : r.event.kind = .attemptSettled
  · obtain ⟨res, hres, -⟩ := hc.settles hk
    have := hpos _ res hres
    rw [hc.total_settled hk hres, if_neg (by rw [hk]; simp)]
    omega
  · split_ifs with hopen
    · rw [hc.total_opened hopen]
    · rw [hc.total_kept hf hopen hk]
      omega

/-- The load of a balance. -/
def keyLoad (key : BalanceKey) (s : State D) (h : List Effect) : ℤ :=
  load (heldAgainst key) (fun e => e.balanceKey = key) s.reservations h

/-- The load of a Run. -/
def runLoad (id : String) (s : State D) (h : List Effect) : ℤ :=
  load (heldByRun id) (fun e => e.runID = id) s.reservations h

/-- The spend of a balance, against its load. -/
lemma Books.balance_spend (hb : Books cat s h) (key : BalanceKey) :
    (s.balance key).committedMicrosUSD + (s.balance key).reservedMicrosUSD =
      keyLoad key s h + settledSum (onKey key overrunOf) h := by
  have hrsvd := hb.reserved key
  have hcmtd := hb.committed.committed key
  have hparts : part (fun e => e.balanceKey = key) = onKey key := rfl
  unfold keyLoad load balance
  rw [hrsvd, hcmtd, hparts]
  omega

lemma keyLoad_le (hc : Change s r gone t) (key : BalanceKey) :
    keyLoad key t (s.entry r.event :: h) ≤ keyLoad key s h + opened (heldAgainst key) r.event := by
  refine hc.load_le (fun _ _ => rfl) fun res hres hsets => ?_
  unfold heldAgainst
  rw [hsets.key]

lemma runLoad_le (hb : Books cat s h) (hc : Change s r gone t) (id : String) :
    runLoad id t (s.entry r.event :: h) ≤ runLoad id s h + opened (heldByRun id) r.event := by
  refine hc.load_le (fun _ _ => rfl) fun res hres hsets => ?_
  have hsound := hb.sound _ res hres
  unfold heldByRun
  rw [hsets.run]
  by_cases hm : res.lease.leaseMode = .unknownAllowed
  · have hzero : res.amount = 0 := by
      rw [hsound.amount]
      exact Event.unknown_reserves_nothing hsound.valid hsound.kind hm
    simp [hm, hzero]
  · simp [hm]

/-! ## The Runs a fresh record leaves -/

/-- What is reserved and settled under a Run. -/
def runSpend (id : String) (s : State D) (h : List Effect) : ℤ :=
  s.reservations.total (heldByRun id) + settledSum (onRun id committedOf) h

lemma runSpend_eq (id : String) (s : State D) (h : List Effect) :
    runSpend id s h = runLoad id s h + settledSum (onRun id overrunOf) h := by
  have hparts : part (fun e => e.runID = id) = onRun id := rfl
  unfold runSpend runLoad load
  rw [hparts]
  omega

namespace State

/-- What an event adds to the spend of a Run. -/
def runDelta (s : State D) (e : Event) (id : String) : ℤ :=
  if e.runID ≠ id then 0
  else
    match e.kind with
    | .reservationCreated =>
      if e.leaseMode = .unknownAllowed then 0 else e.reservationAmount
    | .attemptSettled =>
      match s.reservations.lookup e.attemptID with
      | some res => e.committedMicrosUSD.getD 0 -
          if res.lease.leaseMode = .unknownAllowed then 0 else res.amount
      | none => 0
    | _ => 0

lemma runDelta_eq_zero {e : Event} (hne : e.kind ≠ .reservationCreated)
    (hns : e.kind ≠ .attemptSettled) (id : String) : s.runDelta e id = 0 := by
  unfold runDelta
  by_cases hid : e.runID ≠ id
  · rw [if_pos hid]
  · rw [if_neg hid]
    split <;> first | contradiction | rfl

end State

lemma Change.runSpend (hc : Change s r gone t) (id : String) :
    runSpend id t (s.entry r.event :: h) = runSpend id s h + s.runDelta r.event id := by
  unfold Ledger.runSpend runDelta
  by_cases hk : r.event.kind = .attemptSettled
  · obtain ⟨res, hres, hsets⟩ := hc.settles hk
    rw [hc.total_settled hk hres, settledSum_entry hk hres]
    simp only [hk, hres, heldByRun, onRun, committedOf, ← hsets.run]
    by_cases hid : r.event.runID = id <;> by_cases hm : res.lease.leaseMode = .unknownAllowed <;>
      simp only [hid, hm, ne_eq, not_true_eq_false, not_false_eq_true, if_true, if_false, and_true,
        and_false, and_self] <;> omega
  · rw [settledSum_entry_of_ne hk]
    by_cases hopen : r.event.kind = .reservationCreated
    · rw [hc.total_opened hopen]
      simp only [hopen, heldByRun, newReservation]
      by_cases hid : r.event.runID = id <;> by_cases hm : r.event.leaseMode = .unknownAllowed <;>
        simp only [hid, hm, ne_eq, not_true_eq_false, not_false_eq_true, if_true, if_false, and_true,
          and_false, and_self] <;> omega
    · rw [hc.total_kept (fun _ _ => rfl) hopen hk]
      have hzero := runDelta_eq_zero (s := s) hopen hk id
      unfold runDelta at hzero
      rw [hzero, add_zero]

/-- A Run on the terms of another, its identifier, project and budget, that has spent `delta`
more. -/
structure Continues (run old : Run) (delta : ℤ) : Prop where
  id : run.id = old.id
  projectID : run.projectID = old.projectID
  budget : run.budgetMicrosUSD = old.budgetMicrosUSD
  spend : run.committedMicrosUSD + run.reservedMicrosUSD =
    old.committedMicrosUSD + old.reservedMicrosUSD + delta

/-- **A Run after a fresh record** is the one the record creates, or one held before on the same
terms whose spend moved as the record says. -/
lemma Change.run_cases (hb : Books cat s h) (hc : Change s r gone t) {id : String} {run : Run}
    (hr : (s.runsAfter r.event).lookup id = some run) :
    (r.event.kind = .runCreated ∧ id = r.event.runID ∧ run = newRun r.event) ∨
      ∃ old, s.runs.lookup id = some old ∧ Continues run old (s.runDelta r.event id) := by
  have kept : s.runs.lookup id = some run → s.runDelta r.event id = 0 →
      ∃ old, s.runs.lookup id = some old ∧ Continues run old (s.runDelta r.event id) :=
    fun hl hd => ⟨run, hl, rfl, rfl, rfl, by omega⟩
  unfold runsAfter at hr
  by_cases hopen : r.event.kind = .reservationCreated
  · right
    simp only [hopen, reservedRuns] at hr
    by_cases hplain : r.event.runID = "" ∨ r.event.leaseMode = .unknownAllowed
    · rw [if_pos hplain] at hr
      refine kept hr ?_
      have hname := (hb.runsHeld.named id run hr).1
      unfold runDelta
      by_cases hid : r.event.runID = id
      · have hm := hplain.resolve_left (by rw [hid]; exact hname)
        simp [hid, hopen, hm]
      · simp [hid]
    · rw [if_neg hplain] at hr
      rw [not_or] at hplain
      obtain ⟨hid, rfl⟩ | ⟨hid, hr⟩ := lookup_insert_cases hr
      · obtain ⟨old, hold, -⟩ := hc.attributed (by rw [hopen]; rfl) (by rw [hopen]; simp) hplain.1
        rw [run_of_lookup hold]
        refine ⟨old, by rw [hid, hold], rfl, rfl, rfl, ?_⟩
        simp only [runDelta, hid, hopen, hplain.2, ne_eq, not_true_eq_false, if_false]
        omega
      · exact kept hr (by simp [runDelta, Ne.symm hid])
  by_cases hset : r.event.kind = .attemptSettled
  · right
    obtain ⟨res, hres, -⟩ := hc.settles hset
    simp only [hset, hres, settledRuns] at hr
    by_cases hplain : r.event.runID = ""
    · rw [if_pos hplain] at hr
      have hname := (hb.runsHeld.named id run hr).1
      exact kept hr (by simp [runDelta, hplain, Ne.symm hname])
    · rw [if_neg hplain] at hr
      obtain ⟨hid, rfl⟩ | ⟨hid, hr⟩ := lookup_insert_cases hr
      · obtain ⟨old, hold, -⟩ := hc.attributed (by rw [hset]; rfl) (by rw [hset]; simp) hplain
        rw [run_of_lookup hold]
        refine ⟨old, by rw [hid, hold], rfl, rfl, rfl, ?_⟩
        simp only [runDelta, settledRun, hid, hset, hres, ne_eq, not_true_eq_false, if_false]
        split_ifs <;> omega
      · exact kept hr (by simp [runDelta, Ne.symm hid])
  have hzero := runDelta_eq_zero (s := s) hopen hset id
  split at hr
  · rename_i hk
    obtain ⟨hid, heq⟩ | ⟨-, hr⟩ := lookup_insert_cases hr
    · exact Or.inl ⟨hk, hid, heq.symm⟩
    · exact Or.inr (kept hr hzero)
  · right
    split at hr
    · rename_i closing hl
      obtain ⟨hid, rfl⟩ | ⟨-, hr⟩ := lookup_insert_cases hr
      · refine ⟨closing, by rw [hid, hl], rfl, rfl, rfl, ?_⟩
        rw [hzero]
        simp [closedRun]
      · exact kept hr hzero
    · exact kept hr hzero
  · contradiction
  · contradiction
  · exact Or.inr (kept hr hzero)

end Ledger

end Halro
