import Halro.Ledger.Snapshot

/-!
# What archiving takes out

A closed Work Unit is finished at a clock when no request of it is in flight, no attempt of it is
open, and none of its active Runs expires later.  `archiveFinished` does not look for finished Work
Units: it examines the one the record names and those whose entry on the expiry list is due.
`archiveFinished_spec` says when that is enough: if every closed Work Unit at rest is on the list at
no later than its last expiry (`Waits`), a record archives exactly the finished ones.  So what is
archived depends on the maps and the clock, and not on how the list came to be.
-/

namespace Halro

open Framework.FinMap

namespace Ledger

variable {D : Type} {cat : Catalogue D} {s t : State D} {h : List Effect} {except : Set String}

namespace State

/-! ## Finished Work Units -/

/-- The later of a time and the expiry of a Run, if the Run is active. -/
def laterExpiry (s : State D) (latest : ℤ) (id : String) : ℤ :=
  if (s.run id).status = .active ∧ latest < (s.run id).expiresAt then (s.run id).expiresAt
  else latest

/-- The last expiry among a Work Unit's active Runs; zero if none is active. -/
def lastExpiry (s : State D) (unit : String) : ℤ := (s.runsOf unit).foldl s.laterExpiry 0

/-- Nothing of the Work Unit is in flight. -/
def Quiet (s : State D) (unit : String) : Prop :=
  s.activeByWorkUnit.members unit = ∅ ∧ s.pendingByWorkUnit.members unit = ∅

/-- The Work Unit is held and closed. -/
def HeldClosed (s : State D) (unit : String) : Prop :=
  ∃ w, s.workUnits.lookup unit = some w ∧ w.status = .closed

/-- Nothing can change the Work Unit any more, by the clock `now`. -/
structure Finished (s : State D) (now : ℤ) (unit : String) : Prop where
  closed : s.HeldClosed unit
  quiet : s.Quiet unit
  expired : s.lastExpiry unit ≤ now ∨ s.lastExpiry unit = 0

lemma le_laterExpiry (latest : ℤ) (id : String) : latest ≤ s.laterExpiry latest id := by
  unfold laterExpiry
  split_ifs <;> omega

lemma le_foldl_laterExpiry (ids : List String) (latest : ℤ) :
    latest ≤ ids.foldl s.laterExpiry latest := by
  induction ids generalizing latest with
  | nil => exact le_rfl
  | cons id ids ih => exact (le_laterExpiry latest id).trans (ih _)

lemma lastExpiry_nonneg (unit : String) : 0 ≤ s.lastExpiry unit := le_foldl_laterExpiry _ 0

/-- The expiry the source computes with a clock is the last expiry, if that is still to come. -/
lemma latestExpiry_eq (unit : String) (now : ℤ) :
    s.latestExpiry unit now = if now < s.lastExpiry unit then s.lastExpiry unit else 0 := by
  -- the two folds run side by side: `a` counts the Runs still to expire, `b` all active ones
  have fold : ∀ (ids : List String) (a b : ℤ), 0 ≤ b → a = (if now < b then b else 0) →
      ids.foldl (fun latest runID =>
        let run := s.run runID
        if run.status = .active ∧ now < run.expiresAt ∧ latest < run.expiresAt then run.expiresAt
        else latest) a =
      if now < ids.foldl s.laterExpiry b then ids.foldl s.laterExpiry b else 0 := by
    intro ids
    induction ids with
    | nil => exact fun a b _ hab => hab
    | cons id ids ih =>
      intro a b hb hab
      refine ih _ _ (hb.trans (le_laterExpiry b id)) ?_
      simp only [laterExpiry]
      by_cases hact : (s.run id).status = .active
      · simp only [hact, true_and]
        split_ifs at hab ⊢ <;> omega
      · simp only [hact, false_and, if_false]
        exact hab
  exact fold _ 0 0 le_rfl (by simp)

variable {unit : String} {now : ℤ}

lemma latestExpiry_eq_zero :
    s.latestExpiry unit now = 0 ↔ s.lastExpiry unit ≤ now ∨ s.lastExpiry unit = 0 := by
  rw [latestExpiry_eq]
  split_ifs <;> omega

/-- Last expiries agree when the Runs of the Work Unit agree in status and expiry. -/
lemma lastExpiry_congr (hruns : t.runsOf unit = s.runsOf unit)
    (hrun : ∀ id ∈ s.runsOf unit, (t.run id).status = (s.run id).status ∧
      (t.run id).expiresAt = (s.run id).expiresAt) : t.lastExpiry unit = s.lastExpiry unit := by
  unfold lastExpiry
  rw [hruns]
  refine List.foldl_ext _ _ _ fun latest id hid => ?_
  obtain ⟨hstat, hexpires⟩ := hrun id hid
  rw [laterExpiry, laterExpiry, hstat, hexpires]

/-! ## Examining one Work Unit -/

/-- What `tryArchive` does: take out a finished Work Unit, put one that is only kept by its Runs
on the expiry list, and leave every other as it is. -/
lemma tryArchive_cases (s : State D) (unit : String) (now : ℤ) (sequence : ℕ) :
    (s.Finished now unit ∧ ∃ w, s.workUnits.lookup unit = some w ∧ w.status = .closed ∧
      s.tryArchive unit now sequence = s.archiveWorkUnit w unit sequence) ∨
    (s.HeldClosed unit ∧ s.Quiet unit ∧ now < s.lastExpiry unit ∧ s.lastExpiry unit ≠ 0 ∧
      s.tryArchive unit now sequence = s.awaitExpiry unit (s.lastExpiry unit)) ∨
    ((s.HeldClosed unit → ¬ s.Quiet unit) ∧ s.tryArchive unit now sequence = s) := by
  unfold tryArchive
  split
  · rename_i hw
    refine Or.inr (Or.inr ⟨?_, rfl⟩)
    rintro ⟨w, hw', -⟩
    cases hw.symm.trans hw'
  rename_i w hw
  split_ifs with hcl hbusy hzero
  · refine Or.inr (Or.inr ⟨?_, rfl⟩)
    rintro ⟨w', hw', hc⟩
    cases hw.symm.trans hw'
    exact absurd hc hcl
  · exact Or.inr (Or.inr ⟨fun _ hq => hbusy.elim (fun ha => ha hq.1) fun hp => hp hq.2, rfl⟩)
  all_goals
    have hheld : s.HeldClosed unit := ⟨w, hw, not_not.mp hcl⟩
    push Not at hbusy
  · have hlt : now < s.lastExpiry unit ∧ s.lastExpiry unit ≠ 0 := by
      rw [ne_eq, latestExpiry_eq_zero] at hzero
      omega
    rw [latestExpiry_eq, if_pos hlt.1]
    exact Or.inr (Or.inl ⟨hheld, hbusy, hlt.1, hlt.2, rfl⟩)
  · exact Or.inl ⟨⟨hheld, hbusy, latestExpiry_eq_zero.mp (not_not.mp hzero)⟩, w, hw,
      not_not.mp hcl, rfl⟩

/-! ## What is left when Work Units are taken out -/

/-- The parts of a state that archiving does not touch. -/
def untouched (s : State D) :=
  (s.balances, s.reservations, s.leaseRecords, s.eventDigests, s.eventOrder, s.eventNext,
    s.requestRuns, s.activeByWorkUnit, s.pendingByWorkUnit, s.watermark, s.archiving)

/-! Taking one out writes none of them, whatever the state. -/

lemma foldl_untouched {X : Type} {f : State D → X → State D}
    (hf : ∀ s x, (f s x).untouched = s.untouched) (l : List X) (s : State D) :
    (l.foldl f s).untouched = s.untouched :=
  List.foldlRecOn l (motive := (·.untouched = s.untouched)) f rfl fun t ht x _ => (hf t x).trans ht

lemma archiveFinished_untouched (s : State D) (unit : String) (now : ℤ) (sequence : ℕ) :
    (s.archiveFinished unit now sequence).untouched = s.untouched := by
  refine archiveFinished_keeps (P := fun t => t.untouched = s.untouched) (fun _ _ _ ht => ht) ?_
    unit now rfl
  intro t unit w ht _ _ _ _
  have hkeys : ∀ u : State D, ((t.sortedKeys unit).foldl
      (fun u key => u.archiveIdempotency unit key) u).untouched = u.untouched := by
    refine foldl_untouched (fun u key => ?_) _
    unfold archiveIdempotency
    split_ifs <;> rfl
  exact ((hkeys _).trans (foldl_untouched (f := (archiveRun · unit ·)) (fun _ _ => rfl) _ t)).trans ht

/-- `t` is `s` with the Work Units `gone` taken out and queued for the archive by the record at
`sequence`. -/
structure Swept (s : State D) (gone : Finset String) (sequence : ℕ) (t : State D) : Prop where
  untouched : t.untouched = s.untouched
  workUnits : ∀ unit, t.workUnits.lookup unit =
    if unit ∈ gone then none else s.workUnits.lookup unit
  workUnitCosts : ∀ unit, t.workUnitCosts.lookup unit =
    if unit ∈ gone then none else s.workUnitCosts.lookup unit
  runsByWorkUnit : ∀ unit, t.runsByWorkUnit.lookup unit =
    if unit ∈ gone then none else s.runsByWorkUnit.lookup unit
  idemByUnit : ∀ unit, t.indexes.idemByUnit.lookup unit =
    if unit ∈ gone then none else s.indexes.idemByUnit.lookup unit
  runs : ∀ id, t.runs.lookup id = (s.runs.lookup id).filter fun run => run.workUnitID ∉ gone
  governanceIdempotency : ∀ key, t.governanceIdempotency.lookup key =
    (s.governanceIdempotency.lookup key).filter fun g => g.workUnitID ∉ gone
  queue : ∀ unit, t.indexes.queue.lookup unit =
    if unit ∈ gone then (s.workUnits.lookup unit).map fun w => s.archivedItem w unit sequence
    else s.indexes.queue.lookup unit

namespace Swept

variable {gone : Finset String} {sequence : ℕ} {unit : String}

lemma refl (s : State D) : Swept s ∅ sequence s := by
  refine ⟨rfl, fun _ => by simp, fun _ => by simp, fun _ => by simp, fun _ => by simp,
    fun id => ?_, fun key => ?_, fun _ => by simp⟩
  · cases s.runs.lookup id <;> simp [Option.filter]
  · cases s.governanceIdempotency.lookup key <;> simp [Option.filter]

section

variable (hs : Swept s gone sequence t)

include hs

lemma runsOf (hu : unit ∉ gone) : t.runsOf unit = s.runsOf unit := by
  rw [State.runsOf, getD, hs.runsByWorkUnit, if_neg hu]
  rfl

/-- The Runs of a Work Unit that stays are the same. -/
lemma run (hb : Books cat s h) (hu : unit ∉ gone) {id : String}
    (hid : id ∈ s.runsOf unit) : t.run id = s.run id := by
  obtain ⟨run, hr, hw⟩ := hb.listed.lookup_of_mem hid
  rw [State.run, State.run, getD, hs.runs, hr, getD_of_lookup _ hr,
    Option.filter_some_pos (by simpa [hw] using hu)]
  rfl

lemma lastExpiry (hb : Books cat s h) (hu : unit ∉ gone) :
    t.lastExpiry unit = s.lastExpiry unit := by
  refine lastExpiry_congr (hs.runsOf hu) fun id hid => ?_
  rw [hs.run hb hu hid]
  exact ⟨rfl, rfl⟩

lemma members :
    t.activeByWorkUnit = s.activeByWorkUnit ∧ t.pendingByWorkUnit = s.pendingByWorkUnit := by
  have := hs.untouched
  simp only [State.untouched, Prod.mk.injEq] at this
  exact ⟨this.2.2.2.2.2.2.2.1, this.2.2.2.2.2.2.2.2.1⟩

lemma quiet : t.Quiet unit ↔ s.Quiet unit := by
  rw [Quiet, Quiet, hs.members.1, hs.members.2]

lemma heldClosed : t.HeldClosed unit ↔ unit ∉ gone ∧ s.HeldClosed unit := by
  unfold HeldClosed
  rw [hs.workUnits]
  split_ifs with hu
  · simp [hu]
  · simp [hu]

/-- What the archive receives for a Work Unit that is still held is what it would have received
before. -/
lemma archivedItem (hb : Books cat s h) (hu : unit ∉ gone)
    (w : WorkUnit) : t.archivedItem w unit sequence = s.archivedItem w unit sequence := by
  have hkeys : t.sortedKeys unit = s.sortedKeys unit := by
    rw [sortedKeys, sortedKeys, getD, getD, hs.idemByUnit, if_neg hu]
  have hcost : t.workUnitCosts.getD unit {} = s.workUnitCosts.getD unit {} := by
    rw [getD, getD, hs.workUnitCosts, if_neg hu]
  have hruns : (t.runsOf unit).map t.run = (s.runsOf unit).map s.run := by
    rw [hs.runsOf hu]
    exact List.map_congr_left fun id hid => hs.run hb hu hid
  have hidem : (t.sortedKeys unit).filterMap t.governanceIdempotency.lookup =
      (s.sortedKeys unit).filterMap s.governanceIdempotency.lookup := by
    rw [hkeys]
    refine List.filterMap_congr fun key hkey => ?_
    obtain ⟨g, hg, hw⟩ := hb.idem.lookup_of_mem (mem_sortedKeys.mp hkey)
    rw [hs.governanceIdempotency, hg, Option.filter_some_pos (by simpa [hw] using hu)]
  rw [State.archivedItem, State.archivedItem, hcost, hruns, hidem]

/-- Taking out one more. -/
lemma insert {u : State D} (hb : Books cat s h) (hu : unit ∉ gone)
    (hone : Swept t {unit} sequence u) : Swept s (insert unit gone) sequence u := by
  have lookup : ∀ {V : Type} {a b c : Option V} {v : String},
      c = (if v ∈ ({unit} : Finset String) then none else b) →
      b = (if v ∈ gone then none else a) →
      c = if v ∈ Insert.insert unit gone then none else a := by
    intro V a b c v hc hb
    rw [hc, hb]
    by_cases h1 : v = unit <;> by_cases h2 : v ∈ gone <;> simp [h1, h2]
  refine ⟨hone.untouched.trans hs.untouched, fun v => lookup (hone.workUnits v) (hs.workUnits v),
    fun v => lookup (hone.workUnitCosts v) (hs.workUnitCosts v),
    fun v => lookup (hone.runsByWorkUnit v) (hs.runsByWorkUnit v),
    fun v => lookup (hone.idemByUnit v) (hs.idemByUnit v), fun id => ?_, fun key => ?_,
    fun v => ?_⟩
  · rw [hone.runs, hs.runs, Option.filter_filter]
    congr 1
    funext run
    by_cases h1 : run.workUnitID = unit <;> simp [h1]
  · rw [hone.governanceIdempotency, hs.governanceIdempotency, Option.filter_filter]
    congr 1
    funext g
    by_cases h1 : g.workUnitID = unit <;> simp [h1]
  · rw [hone.queue, hs.queue]
    by_cases h1 : v = unit
    · subst h1
      rw [if_pos (Finset.mem_singleton_self v), if_pos (Finset.mem_insert_self v gone),
        hs.workUnits, if_neg hu]
      exact congrArg (fun f => (s.workUnits.lookup v).map f)
        (funext fun w => hs.archivedItem hb hu w)
    · simp [h1]

end

end Swept

/-- Archiving a Work Unit takes out that one, and leaves the expiry list alone. -/
lemma swept_archiveWorkUnit (hb : Books cat s h) {w : WorkUnit} (sequence : ℕ)
    (hw : s.workUnits.lookup unit = some w) :
    Swept s {unit} sequence (s.archiveWorkUnit w unit sequence) ∧
      (s.archiveWorkUnit w unit sequence).indexes.expiries = s.indexes.expiries ∧
      (s.archiveWorkUnit w unit sequence).indexes.waiting = s.indexes.waiting := by
  obtain ⟨queuedRuns, queuedIdem, liveRuns, heq, -⟩ := archiveWorkUnit_eq w unit sequence hb.live
  rw [heq]
  refine ⟨?_, rfl, rfl⟩
  exact {
    untouched := rfl
    workUnits := fun v => by simp only [lookup_erase_ite, Finset.mem_singleton]
    workUnitCosts := fun v => by simp only [lookup_erase_ite, Finset.mem_singleton]
    runsByWorkUnit := fun v => by simp only [lookup_erase_ite, Finset.mem_singleton]
    idemByUnit := fun v => by simp only [lookup_erase_ite, Finset.mem_singleton]
    runs := fun id => by
      have := hb.listed.lookup_eraseAll (l := s.runsOf unit) (fun _ => Iff.rfl) id
      simpa only [Finset.mem_singleton] using this
    governanceIdempotency := fun key => by
      have := hb.idem.lookup_eraseAll (l := s.sortedKeys unit) (fun _ => mem_sortedKeys) key
      simpa only [Finset.mem_singleton] using this
    queue := fun v => by
      by_cases hv : v = unit
      · subst hv
        simp [hw]
      · simp [hv] }

/-! ## The expiry list -/

/-- The expiry list is in order of time, names each Work Unit once, and `waiting` is the set of
those it names. -/
structure ExpiryList (indexes : ArchiveIndexes) : Prop where
  ordered : indexes.expiries.Pairwise fun a b => a.time ≤ b.time
  once : (indexes.expiries.map Expiry.workUnitID).Nodup
  waiting : ∀ unit, unit ∈ indexes.waiting ↔ ∃ time, ⟨time, unit⟩ ∈ indexes.expiries

lemma ExpiryList.congr {q q' : ArchiveIndexes} (hl : ExpiryList q) (hexp : q'.expiries = q.expiries)
    (hwait : q'.waiting = q.waiting) : ExpiryList q' :=
  ⟨hexp ▸ hl.ordered, hexp ▸ hl.once, hexp ▸ hwait ▸ hl.waiting⟩

instance : Std.Total fun a b : Expiry => a.time ≤ b.time := ⟨fun a b => le_total a.time b.time⟩

instance : IsTrans Expiry fun a b => a.time ≤ b.time := ⟨fun _ _ _ hab hbc => le_trans hab hbc⟩

/-- What `awaitExpiry` leaves on the list. -/
lemma awaitExpiry_expiries (hl : ExpiryList s.indexes) (unit : String) (time : ℤ) :
    ExpiryList (s.awaitExpiry unit time).indexes ∧
    (∀ item, item ∈ (s.awaitExpiry unit time).indexes.expiries ↔
      item ∈ s.indexes.expiries ∨ (unit ∉ s.indexes.waiting ∧ item = ⟨time, unit⟩)) := by
  unfold awaitExpiry
  split_ifs with hw
  · exact ⟨hl, fun item => by simp [hw]⟩
  · have hmem : ∀ item, item ∈ s.indexes.expiries.orderedInsert (fun a b => a.time ≤ b.time)
        ⟨time, unit⟩ ↔ item ∈ s.indexes.expiries ∨ item = ⟨time, unit⟩ := by
      intro item
      rw [List.mem_orderedInsert, or_comm]
    refine ⟨⟨hl.ordered.orderedInsert _ _, ?_, fun v => ?_⟩, fun item => by simp [hw, hmem]⟩
    · have hperm := (List.perm_orderedInsert (fun a b : Expiry => a.time ≤ b.time) ⟨time, unit⟩
        s.indexes.expiries).map Expiry.workUnitID
      rw [hperm.nodup_iff, List.map_cons, List.nodup_cons]
      refine ⟨fun hin => hw ((hl.waiting unit).mpr ?_), hl.once⟩
      obtain ⟨item, hitem, rfl⟩ := List.mem_map.mp hin
      exact ⟨item.time, hitem⟩
    · simp only [Finset.mem_insert, hmem, hl.waiting]
      constructor
      · rintro (rfl | ⟨time', hin⟩)
        · exact ⟨time, Or.inr rfl⟩
        · exact ⟨time', Or.inl hin⟩
      · rintro ⟨time', hin | heq⟩
        · exact Or.inr ⟨time', hin⟩
        · exact Or.inl (Expiry.mk.inj heq).2

lemma popped_expiryList (hl : ExpiryList s.indexes) {item : Expiry} {rest : List Expiry}
    (hq : s.indexes.expiries = item :: rest) : ExpiryList (s.popped item rest).indexes := by
  have hord := hl.ordered
  have honce := hl.once
  rw [hq] at hord honce
  rw [List.map_cons, List.nodup_cons] at honce
  refine ⟨hord.of_cons, honce.2, fun unit => ?_⟩
  show unit ∈ s.indexes.waiting.erase item.workUnitID ↔ ∃ time, ⟨time, unit⟩ ∈ rest
  rw [Finset.mem_erase, hl.waiting, hq]
  constructor
  · rintro ⟨hne, time, hin⟩
    rcases List.mem_cons.mp hin with heq | hin
    · exact absurd (congrArg Expiry.workUnitID heq) hne
    · exact ⟨time, hin⟩
  · rintro ⟨time, hin⟩
    refine ⟨?_, time, List.mem_cons_of_mem item hin⟩
    rintro rfl
    exact honce.1 (List.mem_map.mpr ⟨⟨time, _⟩, hin, rfl⟩)

/-! ## Closed Work Units wait no longer than they must -/

/-- Every closed Work Unit at rest, except those of `except`, has a Run still to expire and is on
the expiry list at no later than its last expiry; and an entry for a held Work Unit is never later
than that. -/
structure Waits (s : State D) (except : Set String) : Prop where
  list : ExpiryList s.indexes
  bounded : ∀ item ∈ s.indexes.expiries, ∀ w, s.workUnits.lookup item.workUnitID = some w →
    w.status = .closed ∧
      (item.time ≤ s.lastExpiry item.workUnitID ∨ s.lastExpiry item.workUnitID = 0)
  listed : ∀ unit, unit ∉ except → s.HeldClosed unit → s.Quiet unit →
    s.lastExpiry unit ≠ 0 ∧ ∃ time ≤ s.lastExpiry unit, ⟨time, unit⟩ ∈ s.indexes.expiries

variable {sequence : ℕ}

/-- Examining the one Work Unit that may not wait properly makes all wait properly. -/
lemma Waits.tryArchive (hw : s.Waits except) (hb : Books cat s h)
    (hex : except ⊆ {unit}) : (s.tryArchive unit now sequence).Waits ∅ := by
  have elsewhere : ∀ v, v ≠ unit → v ∉ except := fun v hv hin => hv (hex hin)
  rcases s.tryArchive_cases unit now sequence with
    ⟨-, w, hl, -, heq⟩ | ⟨hheld, hquiet, hlt, hne, heq⟩ | ⟨hbusy, heq⟩ <;> rw [heq]
  · obtain ⟨hswept, hexp, hwait⟩ := swept_archiveWorkUnit hb sequence hl
    refine ⟨hw.list.congr hexp hwait, fun item hitem v hv => ?_, fun v _ hcl hquiet => ?_⟩
    · rw [hexp] at hitem
      rw [hswept.workUnits] at hv
      split_ifs at hv with hin
      rw [hswept.lastExpiry hb hin]
      exact hw.bounded item hitem v hv
    · obtain ⟨hin, hcl⟩ := hswept.heldClosed.mp hcl
      rw [hswept.lastExpiry hb hin, hexp]
      refine hw.listed v (elsewhere v ?_) hcl (hswept.quiet.mp hquiet)
      simpa using hin
  · obtain ⟨hlist, hmem⟩ := awaitExpiry_expiries hw.list unit (s.lastExpiry unit)
    obtain ⟨indexes, hcore⟩ : ∃ indexes, s.awaitExpiry unit (s.lastExpiry unit) =
        { s with indexes := indexes } := by
      unfold awaitExpiry
      split_ifs
      · exact ⟨s.indexes, rfl⟩
      · exact ⟨_, rfl⟩
    rw [hcore] at hlist hmem ⊢
    refine ⟨hlist, fun item hitem v hv => ?_, fun v _ hcl hq => ?_⟩
    · rcases (hmem item).mp hitem with hin | ⟨-, rfl⟩
      · exact hw.bounded item hin v hv
      · obtain ⟨v', hv', hc⟩ := hheld
        cases hv'.symm.trans hv
        exact ⟨hc, Or.inl le_rfl⟩
    · by_cases hv : v = unit
      · subst hv
        refine ⟨hne, ?_⟩
        by_cases hin : v ∈ s.indexes.waiting
        · obtain ⟨time, htime⟩ := (hw.list.waiting v).mp hin
          obtain ⟨w, hw', -⟩ := hheld
          refine ⟨time, ?_, (hmem _).mpr (Or.inl htime)⟩
          exact ((hw.bounded _ htime w hw').2).resolve_right hne
        · exact ⟨s.lastExpiry v, le_rfl, (hmem _).mpr (Or.inr ⟨hin, rfl⟩)⟩
      · obtain ⟨hne', time, hle, hin⟩ := hw.listed v (elsewhere v hv) hcl hq
        exact ⟨hne', time, hle, (hmem _).mpr (Or.inl hin)⟩
  · refine ⟨hw.list, hw.bounded, fun v _ hcl hq => ?_⟩
    refine hw.listed v (elsewhere v ?_) hcl hq
    rintro rfl
    exact hbusy hcl hq

/-- Only the Work Unit whose entry was removed may not wait properly any more. -/
lemma Waits.popped (hw : s.Waits ∅) {item : Expiry} {rest : List Expiry}
    (hq : s.indexes.expiries = item :: rest) :
    (s.popped item rest).Waits {item.workUnitID} := by
  refine ⟨popped_expiryList hw.list hq, fun item' hin w hl => ?_, fun unit hne hcl hquiet => ?_⟩
  · exact hw.bounded item' (by rw [hq]; exact List.mem_cons_of_mem item hin) w hl
  · obtain ⟨hzero, time, hle, hin⟩ := hw.listed unit (Set.notMem_empty unit) hcl hquiet
    rw [hq] at hin
    refine ⟨hzero, time, hle, (List.mem_cons.mp hin).resolve_left fun heq => hne ?_⟩
    exact congrArg Expiry.workUnitID heq

/-! ## What a record archives -/

/-- The number of entries that are due. -/
def due (now : ℤ) (s : State D) : ℕ :=
  (s.indexes.expiries.filter fun item => item.time ≤ now).length

/-- A state on the way from `s` through the archiving of one record: what was taken out was
finished, and what waits was waiting or was held and closed. -/
structure Sweeping (cat : Catalogue D) (h : List Effect) (s : State D) (now : ℤ) (sequence : ℕ)
    (gone : Finset String) (t : State D) : Prop where
  swept : Swept s gone sequence t
  finished : ∀ unit ∈ gone, s.Finished now unit
  books : Books cat t h
  waited : ∀ unit ∈ t.indexes.waiting, unit ∈ s.indexes.waiting ∨ s.HeldClosed unit

variable {gone : Finset String}

/-- Examining a Work Unit keeps what is said of the sweep and adds no entry that is due. -/
lemma Sweeping.tryArchive
    (hs : Sweeping cat h s now sequence gone t) (hb : Books cat s h) (unit : String) :
    ∃ gone', Sweeping cat h s now sequence gone' (t.tryArchive unit now sequence) ∧
      due now (t.tryArchive unit now sequence) = due now t := by
  have hbks := hs.books.tryArchive unit now sequence
  rcases t.tryArchive_cases unit now sequence with
    ⟨hfin, w, hl, -, heq⟩ | ⟨hheld, -, hlt, -, heq⟩ | ⟨-, heq⟩ <;> rw [heq] at hbks ⊢
  · obtain ⟨hone, hexp, hwait⟩ := swept_archiveWorkUnit hs.books sequence hl
    obtain ⟨hu, hcl⟩ := hs.swept.heldClosed.mp hfin.closed
    refine ⟨insert unit gone, ⟨hs.swept.insert hb hu hone, fun v hv => ?_, hbks, ?_⟩, ?_⟩
    · rcases Finset.mem_insert.mp hv with rfl | hv
      · refine ⟨hcl, hs.swept.quiet.mp hfin.quiet, ?_⟩
        rw [← hs.swept.lastExpiry hb hu]
        exact hfin.expired
      · exact hs.finished v hv
    · rw [hwait]
      exact hs.waited
    · rw [due, hexp, due]
  · refine ⟨gone, ⟨?_, hs.finished, hbks, ?_⟩, ?_⟩
    · unfold awaitExpiry
      split_ifs
      · exact hs.swept
      · exact { hs.swept with }
    · unfold awaitExpiry
      split_ifs
      · exact hs.waited
      · intro v hv
        rcases Finset.mem_insert.mp hv with rfl | hv
        · exact Or.inr (hs.swept.heldClosed.mp hheld).2
        · exact hs.waited v hv
    · unfold awaitExpiry due
      split_ifs
      · rfl
      · have hperm := (List.perm_orderedInsert (fun a b : Expiry => a.time ≤ b.time)
          ⟨t.lastExpiry unit, unit⟩ t.indexes.expiries).filter fun item => item.time ≤ now
        rw [hperm.length_eq, List.filter_cons_of_neg (by simpa using hlt)]
  · exact ⟨gone, hs, rfl⟩

/-- Taking an entry off the list. -/
lemma Sweeping.popped
    (hs : Sweeping cat h s now sequence gone t) (item : Expiry) (rest : List Expiry) :
    Sweeping cat h s now sequence gone (t.popped item rest) :=
  ⟨{ hs.swept with }, hs.finished, { hs.books with },
    fun v hv => hs.waited v (Finset.mem_of_mem_erase hv)⟩

/-- The loop over due entries archives only what is finished, however many turns it has; with a turn
for each, nothing due is left. -/
lemma drainExpiries_due (hb : Books cat s h) (turns : ℕ)
    (hs : Sweeping cat h s now sequence gone t) :
    ∃ gone', Sweeping cat h s now sequence gone' (drainExpiries now sequence turns t) ∧
      (t.Waits ∅ → due now t ≤ turns → (drainExpiries now sequence turns t).Waits ∅ ∧
        ∀ item ∈ (drainExpiries now sequence turns t).indexes.expiries, now < item.time) := by
  induction turns generalizing t gone with
  | zero =>
    refine ⟨gone, hs, fun hw hturns => ⟨hw, fun item hin => ?_⟩⟩
    have hnil := List.eq_nil_of_length_eq_zero (Nat.le_zero.mp hturns)
    have := List.filter_eq_nil_iff.mp hnil item hin
    simpa using this
  | succ turns ih =>
    unfold drainExpiries
    cases hq : t.indexes.expiries with
    | nil =>
      refine ⟨gone, hs, fun hw _ => ⟨hw, fun item hin => ?_⟩⟩
      rw [hq] at hin
      cases hin
    | cons item rest =>
      simp only
      split_ifs with hlt
      · refine ⟨gone, hs, fun hw _ => ⟨hw, fun item' hin => ?_⟩⟩
        have hord := hw.list.ordered
        rw [hq] at hin hord
        rcases List.mem_cons.mp hin with rfl | hin
        · exact hlt
        · exact lt_of_lt_of_le hlt ((List.pairwise_cons.mp hord).1 item' hin)
      · have hpop := hs.popped item rest
        obtain ⟨gone', hs', hdue⟩ := hpop.tryArchive hb item.workUnitID
        obtain ⟨gone'', hs'', hrest⟩ := ih hs'
        refine ⟨gone'', hs'', fun hw hturns =>
          hrest ((hw.popped hq).tryArchive hpop.books Set.Subset.rfl) ?_⟩
        -- the entry taken away was due
        have hone : due now t = due now (t.popped item rest) + 1 := by
          rw [due, due, hq, List.filter_cons_of_pos (by simpa using hlt), List.length_cons]
          rfl
        omega

/-- The archiving of one record, after the named Work Unit was examined and then the due ones. -/
lemma archiveFinished_sweeping (hb : Books cat s h) (harch : s.archiving = true)
    (unit : String) (now : ℤ) (sequence : ℕ) :
    ∃ gone, Sweeping cat h s now sequence gone (s.archiveFinished unit now sequence) ∧
      (s.Waits {unit} → (s.archiveFinished unit now sequence).Waits ∅ ∧
        ∀ item ∈ (s.archiveFinished unit now sequence).indexes.expiries, now < item.time) := by
  have hnamed : ∃ gone, Sweeping cat h s now sequence gone
      (if unit ≠ "" then s.tryArchive unit now sequence else s) ∧
      (s.Waits {unit} → (if unit ≠ "" then s.tryArchive unit now sequence else s).Waits ∅) := by
    have hstart : Sweeping cat h s now sequence ∅ s := ⟨.refl s, by simp, hb, fun _ => Or.inl⟩
    split_ifs with hne
    · obtain ⟨gone, hs, -⟩ := hstart.tryArchive hb unit
      exact ⟨gone, hs, fun hw => hw.tryArchive hb Set.Subset.rfl⟩
    · refine ⟨∅, hstart, fun hw => ⟨hw.list, hw.bounded, fun v _ hcl hquiet => ?_⟩⟩
      refine hw.listed v (fun hv => ?_) hcl hquiet
      obtain ⟨w, hl, -⟩ := hcl
      exact (hb.unitsHeld.keyed v w hl).2 (hv.trans (not_not.mp hne))
  obtain ⟨gone, hs, hwaits⟩ := hnamed
  obtain ⟨gone', hs', hdue⟩ := drainExpiries_due hb _ hs
  rw [archiveFinished, harch]
  exact ⟨gone', hs', fun hw => hdue (hwaits hw) (List.length_filter_le _ _)⟩

/-- A record archives only finished Work Units, with an archive or without, however the expiry list
came to be. -/
lemma archiveFinished_sound (hb : Books cat s h) (unit : String) (now : ℤ) (sequence : ℕ) :
    ∃ gone, Swept s gone sequence (s.archiveFinished unit now sequence) ∧
      ∀ v ∈ gone, s.Finished now v := by
  by_cases harch : s.archiving = true
  · obtain ⟨gone, hs, -⟩ := archiveFinished_sweeping hb harch unit now sequence
    exact ⟨gone, hs.swept, hs.finished⟩
  · rw [archiveFinished, if_pos (by simpa using harch)]
    exact ⟨∅, .refl s, by simp⟩

/-- **What a record archives.**  If all closed Work Units wait properly, except perhaps the one
the record names, then the record archives exactly the finished ones, and all wait properly
again; a Work Unit that waits then was waiting or held. -/
theorem archiveFinished_spec (hb : Books cat s h) (harch : s.archiving = true)
    (hw : s.Waits {unit}) (now : ℤ) (sequence : ℕ) :
    ∃ gone, Swept s gone sequence (s.archiveFinished unit now sequence) ∧
      (∀ v, v ∈ gone ↔ s.Finished now v) ∧ (s.archiveFinished unit now sequence).Waits ∅ ∧
      ∀ v ∈ (s.archiveFinished unit now sequence).indexes.waiting,
        v ∈ s.indexes.waiting ∨ s.HeldClosed v := by
  obtain ⟨gone, hs, hrest⟩ := archiveFinished_sweeping hb harch unit now sequence
  obtain ⟨hwaits, hnone⟩ := hrest hw
  refine ⟨gone, hs.swept, fun v => ⟨hs.finished v, fun hfin => ?_⟩, hwaits, hs.waited⟩
  -- a finished Work Unit that was left would have an entry that is due
  by_contra hv
  obtain ⟨hzero, time, hle, hin⟩ := hwaits.listed v (Set.notMem_empty v)
    (hs.swept.heldClosed.mpr ⟨hv, hfin.closed⟩) (hs.swept.quiet.mpr hfin.quiet)
  have hlt := hnone _ hin
  rw [hs.swept.lastExpiry hb hv] at hzero hle
  have hexp := hfin.expired.resolve_right hzero
  simp only at hlt
  omega

end State

end Ledger

end Halro
