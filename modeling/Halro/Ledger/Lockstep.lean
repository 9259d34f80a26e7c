import Mathlib.Data.List.GetD
import Halro.Ledger.Locality

/-!
# States that agree in what a snapshot keeps

No decision of `State.apply` reads more of a state than a snapshot keeps, so two states that agree
in that accept and refuse the same records, for the same reasons (`SameCore.refusal`).  They go on
to agree as well: every stage of an accepted record carries `SameCore` over, archiving included as
long as both take out the same Work Units.
-/

namespace Halro

open Framework Ledger.State

namespace Ledger

variable {D : Type} {cat : Catalogue D} {s t : State D} {h : List Effect} {e : Event} {r : Record}

/-! ## Decisions read only what a snapshot keeps -/

namespace State

/-- The state with what no stage of an event reads or writes taken from another: the watermark, the
indexes of archiving, the idempotency records and the digest window. -/
abbrev withRest (s x : State D) : State D :=
  { s with
    eventDigests := x.eventDigests, eventOrder := x.eventOrder, eventNext := x.eventNext,
    watermark := x.watermark, indexes := x.indexes, archiving := x.archiving,
    governanceIdempotency := x.governanceIdempotency }

variable (x : State D)

lemma attributeAccepted_withRest :
    (s.withRest x).attributeAccepted e = (s.attributeAccepted e).map (withRest · x) := by
  unfold attributeAccepted
  split_ifs
  · rfl
  · rfl
  · cases s.runs.lookup e.runID with
    | none => rfl
    | some run =>
      dsimp only
      split_ifs <;> rfl

lemma checkAttribution_withRest :
    (s.withRest x).checkAttribution e = (s.checkAttribution e).map (withRest · x) := by
  unfold checkAttribution
  cases s.requestRuns.lookup e.requestID with
  | none =>
    split_ifs <;> rfl
  | some a =>
    simp only
    split_ifs <;> rfl

lemma attributeRequest_withRest :
    (s.withRest x).attributeRequest e = (s.attributeRequest e).map (withRest · x) := by
  unfold attributeRequest
  rw [attributeAccepted_withRest, checkAttribution_withRest]
  split_ifs <;> rfl

lemma applyWorkUnitCreated_withRest :
    (s.withRest x).applyWorkUnitCreated e = (s.applyWorkUnitCreated e).map (withRest · x) := by
  unfold applyWorkUnitCreated
  split_ifs
  · rfl
  · cases (newWorkUnit e).validate <;> rfl

lemma applyWorkUnitClosed_withRest :
    (s.withRest x).applyWorkUnitClosed e = (s.applyWorkUnitClosed e).map (withRest · x) := by
  unfold applyWorkUnitClosed
  cases s.workUnits.lookup e.workUnitID with
  | none => rfl
  | some w =>
    simp only
    split_ifs <;> rfl

lemma applyRunCreated_withRest :
    (s.withRest x).applyRunCreated e = (s.applyRunCreated e).map (withRest · x) := by
  have hruns : (s.withRest x).runsOf e.workUnitID = s.runsOf e.workUnitID := rfl
  unfold applyRunCreated
  rw [hruns]
  cases s.workUnits.lookup e.workUnitID with
  | none => split_ifs <;> rfl
  | some w => cases (newRun e).validate <;> dsimp only <;> split_ifs <;> rfl

lemma applyRunClosed_withRest :
    (s.withRest x).applyRunClosed e = (s.applyRunClosed e).map (withRest · x) := by
  unfold applyRunClosed
  cases s.runs.lookup e.runID with
  | none => rfl
  | some run =>
    simp only
    split_ifs <;> rfl

lemma applyStarted_withRest :
    (s.withRest x).applyStarted e = (s.applyStarted e).map (withRest · x) := by
  unfold applyStarted
  cases s.reservations.lookup e.attemptID with
  | none => rfl
  | some res =>
    simp only
    split_ifs <;> rfl

lemma applySettled_withRest : (s.withRest x).applySettled e =
    (s.applySettled e).map fun result => (result.1.withRest x, result.2) := by
  unfold applySettled
  simp only [withRest, balance, run]
  cases s.reservations.lookup e.attemptID with
  | none => rfl
  | some res =>
    simp only
    cases checkSettlement e res with
    | some err => rfl
    | none =>
      cases settleBalance (s.balances.getD e.balanceKey {}) e res with
      | error err => rfl
      | ok b =>
        split_ifs
        · rfl
        · cases settleRun (s.runs.getD e.runID Run.zero) e res <;> rfl

/-- The outcome of the stage of an event's kind, carried to another rest. -/
def carried : Except (State D × ApplyError) (State D × Balance) →
    Except (State D × ApplyError) (State D × Balance)
  | .ok (k, b) => .ok (k.withRest x, b)
  | .error (k, err) => .error (k.withRest x, err)

lemma unchanged_withRest {key : BalanceKey} {result : Except ApplyError (State D)} :
    (s.withRest x).unchanged key (result.map (withRest · x)) =
      carried x (s.unchanged key result) := by
  cases result <;> rfl

lemma applyReservation_withRest :
    (s.withRest x).applyReservation r = carried x (s.applyReservation r) := by
  unfold applyReservation
  dsimp only [withRest, balance, run]
  cases checkedAdd (s.balances.getD r.event.balanceKey {}).reservedMicrosUSD
      r.event.reservationAmount with
  | none => split_ifs <;> rfl
  | some reserved =>
    cases checkedAdd (s.runs.getD r.event.runID Run.zero).reservedMicrosUSD
      r.event.reservationAmount <;> dsimp only <;> split_ifs <;> rfl

lemma applyKind_withRest : (s.withRest x).applyKind r = carried x (s.applyKind r) := by
  unfold applyKind
  simp only [applyWorkUnitCreated_withRest, applyWorkUnitClosed_withRest,
    applyRunCreated_withRest, applyRunClosed_withRest, applyStarted_withRest,
    applyReservation_withRest, applySettled_withRest, unchanged_withRest]
  cases r.event.kind <;> try rfl
  case attemptSettled => cases s.applySettled r.event <;> rfl
  case requestFinalized =>
    simp only [applyFinalized, withRest]
    cases s.requestRuns.lookup r.event.requestID <;> rfl

/-! ## The digest window -/

variable {x}

/-- Remembering a digest appends to the window, and forgets its oldest entry once it is full. -/
lemma rememberDigest_window (hw : WindowSound s) (id : String) (digest : D) :
    (s.rememberDigest id digest).window =
        (if s.eventOrder.length < recentEventDigests then s.window else s.window.tail) ++ [id] ∧
      (s.rememberDigest id digest).eventDigests =
        (if s.eventOrder.length < recentEventDigests then s.eventDigests
          else s.eventDigests.erase (s.window.headD "")).insert id digest := by
  by_cases hlt : s.eventOrder.length < recentEventDigests
  · rw [if_pos hlt, if_pos hlt, rememberDigest, if_pos hlt]
    refine ⟨?_, rfl⟩
    simp only [window, hw.filling hlt, List.rotate_zero]
  · have hlen : s.eventOrder.length = recentEventDigests := by
      have := hw.bound
      omega
    have hnext : s.eventNext < s.eventOrder.length := by
      rw [hlen]
      exact hw.next
    -- the window is what lies behind the next slot, then what lies before it
    have hwin : s.window = s.eventOrder.getD s.eventNext "" ::
        (s.eventOrder.drop (s.eventNext + 1) ++ s.eventOrder.take s.eventNext) := by
      rw [window, List.rotate_eq_drop_append_take hnext.le, List.drop_eq_getElem_cons hnext,
        List.getD_eq_getElem _ _ hnext, List.cons_append]
    rw [if_neg hlt, if_neg hlt, rememberDigest, if_neg hlt, hwin, List.tail_cons, List.headD_cons]
    refine ⟨?_, rfl⟩
    show (s.eventOrder.set s.eventNext id).rotate ((s.eventNext + 1) % recentEventDigests) = _
    rw [List.set_eq_take_append_cons_drop, if_pos hnext]
    have htake : (s.eventOrder.take s.eventNext ++ [id]).length = s.eventNext + 1 := by
      rw [List.length_append, List.length_take, List.length_singleton]
      omega
    by_cases hlast : s.eventNext + 1 = recentEventDigests
    · rw [hlast, Nat.mod_self, List.rotate_zero, ← hlen, List.drop_length]
      simp
    · rw [Nat.mod_eq_of_lt (by have := hw.next; omega), List.append_cons,
        List.rotate_eq_drop_append_take (by rw [List.length_append, htake]; omega),
        List.drop_left' htake, List.take_left' htake, List.append_assoc]

end State

lemma WindowSound.same (hw : WindowSound s) (hdigs : t.eventDigests = s.eventDigests)
    (horder : t.eventOrder = s.eventOrder) (hnext : t.eventNext = s.eventNext) :
    WindowSound t := by
  have hwin : t.window = s.window := by rw [window, window, horder, hnext]
  refine ⟨?_, ?_, ?_, ?_, fun id => ?_⟩
  · rw [hwin]
    exact hw.nodup
  · rw [horder]
    exact hw.bound
  · rw [hnext]
    exact hw.next
  · rw [horder, hnext]
    exact hw.filling
  · rw [hdigs, hwin]
    exact hw.exact id

lemma WindowSound.remember (hw : WindowSound s) {id : String} (digest : D)
    (hnew : s.eventDigests.lookup id = none) : WindowSound (s.rememberDigest id digest) := by
  obtain ⟨hwin, hdigs⟩ := rememberDigest_window hw id digest
  have hnotin : id ∉ s.window := by
    rw [← hw.exact, hnew]
    simp
  have hsub : (if s.eventOrder.length < recentEventDigests then s.window
      else s.window.tail).Sublist s.window := by
    split_ifs
    · exact List.Sublist.refl _
    · exact List.tail_sublist _
  refine ⟨?_, ?_, ?_, ?_, fun j => ?_⟩
  · rw [hwin, List.nodup_append]
    refine ⟨hsub.nodup hw.nodup, List.nodup_singleton id, fun a ha b hb => ?_⟩
    rw [List.mem_singleton.mp hb]
    rintro rfl
    exact hnotin (hsub.subset ha)
  · unfold rememberDigest
    split_ifs with hlt
    · simp only [List.length_append, List.length_singleton]
      omega
    · simp only [List.length_set]
      exact hw.bound
  · unfold rememberDigest
    split_ifs
    · exact hw.next
    · exact Nat.mod_lt _ (by decide)
  · unfold rememberDigest
    split_ifs with hlt
    · exact fun _ => hw.filling hlt
    · intro hc
      simp only [List.length_set] at hc
      exact absurd hc hlt
  · rw [hwin, hdigs, FinMap.lookup_insert_ite, List.mem_append, List.mem_singleton]
    by_cases hj : j = id
    · simp [hj]
    · rw [if_neg hj]
      simp only [hj, or_false]
      split_ifs with hlt
      · exact hw.exact j
      · rw [FinMap.lookup_erase_ite]
        have hnodup := hw.nodup
        have hexact := hw.exact j
        cases hq : s.window with
        | nil =>
          rw [hq] at hexact
          rw [List.headD_nil, List.tail_nil, ← hexact]
          split_ifs with hempty
          · simp [hexact]
          · rfl
        | cons first rest =>
          rw [hq] at hexact hnodup
          have hfirst := (List.nodup_cons.mp hnodup).1
          rw [List.headD_cons, List.tail_cons]
          split_ifs with hjf
          · subst hjf
            simpa using hfirst
          · rw [hexact, List.mem_cons]
            simp [hjf]

/-! ## Stages keep the agreement -/

namespace State

lemma effect_frame {a k : State D} {b : Balance} (ha : s.attributeRequest r.event = .ok a)
    (hk : a.applyKind r = .ok (k, b)) : k.withRest s = k := by
  have hkind : a.applyKind r = carried a (a.applyKind r) := applyKind_withRest a
  have hattr : s.attributeRequest r.event = (s.attributeRequest r.event).map (withRest · s) :=
    attributeRequest_withRest s
  rw [hk] at hkind
  rw [ha] at hattr
  rw [(Prod.mk.inj (Except.ok.inj hkind)).1, Except.ok.inj hattr]

/-- The stages of a record and its indexing move neither the digest window, the watermark nor the
archive. -/
lemma Staged.frame (hst : s.Staged r t) : t.eventDigests = s.eventDigests ∧
    t.eventOrder = s.eventOrder ∧ t.eventNext = s.eventNext ∧ t.archiving = s.archiving ∧
    t.indexes.queue = s.indexes.queue ∧ t.indexes.queuedRuns = s.indexes.queuedRuns ∧
    t.indexes.queuedIdem = s.indexes.queuedIdem := by
  obtain ⟨ha, hk⟩ := hst
  rw [← effect_frame ha hk]
  unfold settleIndexes noteGovernanceEvent
  split_ifs
  · split <;> exact ⟨rfl, rfl, rfl, rfl, rfl, rfl, rfl⟩
  · exact ⟨rfl, rfl, rfl, rfl, rfl, rfl, rfl⟩

/-- Nor does the archiving that follows move the window. -/
lemma Staged.archived_frame (hst : s.Staged r t) : (t.archived r).eventDigests = s.eventDigests ∧
    (t.archived r).eventOrder = s.eventOrder ∧ (t.archived r).eventNext = s.eventNext ∧
    (t.archived r).archiving = s.archiving := by
  obtain ⟨fd, fo, fn, fa, -⟩ := hst.frame
  have hkeeps := archiveFinished_untouched t r.event.workUnitID r.event.occurredAt r.sequence
  simp only [untouched, Prod.mk.injEq] at hkeeps
  obtain ⟨-, -, -, hd, ho, hn, -, -, -, -, ha⟩ := hkeeps
  exact ⟨hd.trans fd, ho.trans fo, hn.trans fn, ha.trans fa⟩

/-- What an accepted record does to the window: it repeats an event that is remembered, or moves to
the position of one that is not. -/
lemma accepted_window {digest : D} (hacc : s.Accepted r digest t) :
    ∃ u : State D, u.eventDigests = s.eventDigests ∧ u.eventOrder = s.eventOrder ∧
      u.eventNext = s.eventNext ∧ u.archiving = s.archiving ∧
      (s.eventDigests.lookup r.event.eventID = some digest ∧ t = u ∨
        s.eventDigests.lookup r.event.eventID = none ∧ t = u.advance r digest) := by
  cases hacc with
  | repeated known order eq =>
    refine ⟨t, ?_⟩
    rw [eq]
    split_ifs <;> exact ⟨rfl, rfl, rfl, rfl, .inl ⟨known, rfl⟩⟩
  | replayed unseen order lifecycle known eq =>
    exact ⟨s, rfl, rfl, rfl, rfl, .inr ⟨unseen, eq⟩⟩
  | fresh fresh order ok =>
    obtain ⟨u, hst, rfl⟩ := applyFresh_ok ok
    obtain ⟨hd, ho, hn, ha⟩ := hst.archived_frame
    exact ⟨_, hd, ho, hn, ha, .inr ⟨fresh.1, rfl⟩⟩

end State

lemma WindowSound.accepted {digest : D} (hw : WindowSound s) (hacc : s.Accepted r digest t) :
    WindowSound t ∧ t.archiving = s.archiving := by
  obtain ⟨u, hd, ho, hn, ha, hcase⟩ := accepted_window hacc
  have hu := hw.same hd ho hn
  rcases hcase with ⟨-, rfl⟩ | ⟨hnew, rfl⟩
  · exact ⟨hu, ha⟩
  · rw [← hd] at hnew
    rw [advance_eq]
    exact ⟨(hu.remember digest hnew).same rfl rfl rfl, ha⟩

namespace SameCore

lemma refl (s : State D) : SameCore s s :=
  ⟨rfl, rfl, rfl, rfl, rfl, rfl, rfl, rfl, rfl, rfl, rfl, rfl, rfl, rfl, rfl⟩

section

variable (hc : SameCore s t)

include hc

/-- A state that agrees with another is the other with its own indexes and its own ring. -/
lemma eq : ∃ order next indexes, t = { s with
    eventOrder := order, eventNext := next, indexes := indexes } := by
  refine ⟨t.eventOrder, t.eventNext, t.indexes, ?_⟩
  obtain ⟨h1, h2, h3, h4, -, h6, h7, h8, h9, h10, h11, h12, h13, h14, h15⟩ := hc
  rw [← h1, ← h2, ← h3, ← h4, ← h6, ← h7, ← h8, ← h9, ← h10, ← h11, ← h12, ← h13, ← h14, ← h15]

lemma eq_withRest : t = s.withRest t := by
  obtain ⟨order, next, indexes, rfl⟩ := hc.eq
  rfl

lemma fresh_iff : t.Fresh e ↔ s.Fresh e := by
  obtain ⟨order, next, indexes, rfl⟩ := hc.eq
  exact Iff.rfl

lemma lastExpiry (unit : String) : t.lastExpiry unit = s.lastExpiry unit := by
  obtain ⟨order, next, indexes, rfl⟩ := hc.eq
  rfl

lemma finished_iff {now : ℤ} {unit : String} : t.Finished now unit ↔ s.Finished now unit := by
  obtain ⟨order, next, indexes, rfl⟩ := hc.eq
  exact ⟨fun h => { h with }, fun h => { h with }⟩

/-- What a stage writes, it writes alike in both. -/
lemma effect {k : State D} (hframe : k.withRest s = k) :
    SameCore k (k.withRest t) := by
  have hwin := hc.window
  obtain ⟨order, next, indexes, rfl⟩ := hc.eq
  rw [← hframe]
  exact { refl (k.withRest s) with window := hwin }

lemma settleIndexes (e : Event) (b : Balance) :
    SameCore (s.settleIndexes e b) (t.settleIndexes e b) := by
  have hwin := hc.window
  obtain ⟨order, next, indexes, rfl⟩ := hc.eq
  unfold settleIndexes noteGovernanceEvent
  dsimp only
  split_ifs
  · cases e.kind <;> exact { refl _ with window := hwin }
  · exact { refl _ with window := hwin }

/-- What the archive receives for a Work Unit does not depend on the order in which its
idempotency records were listed. -/
lemma archivedItem (hs : Books cat s h) (ht : Books cat t h)
    (w : WorkUnit) (unit : String) (sequence : ℕ) :
    t.archivedItem w unit sequence = s.archivedItem w unit sequence := by
  have hmem : ∀ key, key ∈ t.indexes.idemByUnit.getD unit [] ↔
      key ∈ s.indexes.idemByUnit.getD unit [] := by
    intro key
    rw [hs.idem.mem, ht.idem.mem, hc.governanceIdempotency]
  have hperm : (t.indexes.idemByUnit.getD unit []).Perm (s.indexes.idemByUnit.getD unit []) :=
    (List.perm_ext_iff_of_nodup (ht.idem.nodup unit) (hs.idem.nodup unit)).mpr hmem
  have hkeys : t.sortedKeys unit = s.sortedKeys unit := by
    refine List.Perm.eq_of_pairwise' (List.pairwise_insertionSort _ _)
      (List.pairwise_insertionSort _ _) ?_
    exact (List.perm_insertionSort _ _).trans (hperm.trans (List.perm_insertionSort _ _).symm)
  obtain ⟨order, next, indexes, rfl⟩ := hc.eq
  rw [archivedItem, archivedItem, hkeys]
  rfl

/-- States that agree still agree after the same Work Units were taken out of both. -/
lemma swept {gone : Finset String} {sequence : ℕ} {s' t' : State D}
    (hs : State.Swept s gone sequence s') (ht : State.Swept t gone sequence t') :
    SameCore s' t' := by
  have hus := hs.untouched
  have hut := ht.untouched
  simp only [State.untouched, Prod.mk.injEq] at hus hut
  obtain ⟨s1, s2, s3, s4, s5, s6, s7, s8, s9, s10, s11⟩ := hus
  obtain ⟨t1, t2, t3, t4, t5, t6, t7, t8, t9, t10, t11⟩ := hut
  exact {
    balances := by rw [s1, t1, hc.balances]
    reservations := by rw [s2, t2, hc.reservations]
    leaseRecords := by rw [s3, t3, hc.leaseRecords]
    eventDigests := by rw [s4, t4, hc.eventDigests]
    window := by
      have hwin := hc.window
      rwa [State.window, State.window, ← s5, ← s6, ← t5, ← t6] at hwin
    workUnits := Finmap.ext_lookup fun unit => by rw [hs.workUnits, ht.workUnits, hc.workUnits]
    runs := Finmap.ext_lookup fun id => by rw [hs.runs, ht.runs, hc.runs]
    requestRuns := by rw [s7, t7, hc.requestRuns]
    runsByWorkUnit := Finmap.ext_lookup fun unit => by
      rw [hs.runsByWorkUnit, ht.runsByWorkUnit, hc.runsByWorkUnit]
    activeByWorkUnit := by rw [s8, t8, hc.activeByWorkUnit]
    pendingByWorkUnit := by rw [s9, t9, hc.pendingByWorkUnit]
    workUnitCosts := Finmap.ext_lookup fun unit => by
      rw [hs.workUnitCosts, ht.workUnitCosts, hc.workUnitCosts]
    governanceIdempotency := Finmap.ext_lookup fun key => by
      rw [hs.governanceIdempotency, ht.governanceIdempotency, hc.governanceIdempotency]
    watermark := by rw [s10, t10, hc.watermark]
    archiving := by rw [s11, t11, hc.archiving] }

lemma advance (hs : WindowSound s) (ht : WindowSound t) (r : Record)
    (digest : D) : SameCore (s.advance r digest) (t.advance r digest) := by
  obtain ⟨hws, hds⟩ := State.rememberDigest_window hs r.event.eventID digest
  obtain ⟨hwt, hdt⟩ := State.rememberDigest_window ht r.event.eventID digest
  have hlen : t.eventOrder.length = s.eventOrder.length := by
    have := congrArg List.length hc.window
    rwa [State.window, State.window, List.length_rotate, List.length_rotate] at this
  rw [hc.window, hlen] at hwt
  rw [hc.window, hc.eventDigests, hlen] at hdt
  rw [State.advance_eq, State.advance_eq]
  exact { hc with
    eventDigests := hdt.trans hds.symm
    window := hwt.trans hws.symm
    watermark := rfl }

/-! ## The same decisions -/

lemma refusal_applyFresh (r : Record) (digest : D) :
    refusal (t.applyFresh r digest) = refusal (s.applyFresh r digest) := by
  rw [hc.eq_withRest, applyFresh, attributeRequest_withRest, applyFresh]
  cases s.attributeRequest r.event with
  | error error => rfl
  | ok a =>
    simp only [Except.map]
    rw [applyKind_withRest]
    cases a.applyKind r with
    | error failure => rfl
    | ok result => rfl

/-- **States that agree in what a snapshot keeps take the same decisions.** -/
theorem refusal [DecidableEq D] (cat : Catalogue D) (r : Record) :
    refusal (t.apply cat r) = refusal (s.apply cat r) := by
  have hfresh := hc.refusal_applyFresh r
  unfold apply
  simp only [hc.eventDigests, hc.watermark, hc.governanceIdempotency]
  cases cat.eventDigest r.event with
  | none => split_ifs <;> rfl
  | some digest =>
    cases s.eventDigests.lookup r.event.eventID with
    | some existing =>
      dsimp only
      split_ifs <;> rfl
    | none =>
      cases r.event.kind.isLifecycle <;>
        cases s.governanceIdempotency.lookup r.event.idempotencyKey <;>
        dsimp only <;> split_ifs <;> first | rfl | exact hfresh digest

end

end SameCore

end Ledger

end Halro
