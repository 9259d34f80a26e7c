import Halro.Ledger.Lockstep

/-!
# Resuming from a snapshot

A state restored from a snapshot and the state the snapshot was taken of are in lockstep: they
agree in all that a snapshot keeps, and in both the closed Work Units wait properly (`Ready`).  So
over steady records the two take the same decisions, archive the same Work Units at the same
records and end in the same state (`resume_eq_replay`).

Without steadiness they do not: `resume_differs` closes the Run of a closed Work Unit that expires
last.  The live state then waits for an expiry that no longer matters, and the restored one, which
looks again at the first record, does not.
-/

namespace Halro

open Framework Framework.FinMap Ledger.State Ledger.GovernanceIdempotency

namespace Ledger

variable {D : Type} {cat : Catalogue D} {s t : State D} {h : List Effect} {e : Event} {r : Record}

/-! ## What holds of a state between records -/

/-- A state with an archive, as steady records leave it. -/
structure Ready (cat : Catalogue D) (s : State D) (h : List Effect) : Prop where
  books : Books cat s h
  window : WindowSound s
  waits : s.Waits ∅
  archiving : s.archiving = true
  born : ∀ unit ∈ s.indexes.waiting, ∃ x ∈ h, x.CreatesUnit unit
  queued : ∀ unit item, s.indexes.queue.lookup unit = some item →
    item.sequence ≤ s.watermark.sequence

/-- The Work Unit as the step from `s` to `t` queued it for the archive, if it did. -/
def archivedBy (s t : State D) (unit : String) : Option ArchivedWorkUnit :=
  if t.indexes.queue.lookup unit = s.indexes.queue.lookup unit then none
  else t.indexes.queue.lookup unit

/-- What a record archives: the finished Work Units `gone`, of the state `s` it makes of the one
before, leaving `t`. -/
structure Sweep (s : State D) (r : Record) (h : List Effect) (gone : Finset String)
    (t : State D) : Prop where
  swept : State.Swept s gone r.sequence t
  gone_iff : ∀ unit, unit ∈ gone ↔ s.Finished r.event.occurredAt unit
  waits : t.Waits ∅
  born : ∀ unit ∈ t.indexes.waiting, ∃ x ∈ h, x.CreatesUnit unit
  window : WindowSound t

namespace Ready

variable {digest : D}

lemma new (cat : Catalogue D) : Ready cat (State.new D true) [] where
  books := Books.new true
  window := ⟨List.nodup_nil, Nat.zero_le _, Nat.pos_of_ne_zero (by decide), fun _ => rfl,
    fun id => by simp [State.new, State.window]⟩
  waits := by
    refine ⟨⟨List.Pairwise.nil, List.nodup_nil, fun unit => by simp [State.new]⟩, ?_, ?_⟩
    · intro item hitem
      simp [State.new] at hitem
    · rintro unit - ⟨w, hw, -⟩
      simp [State.new] at hw
  archiving := rfl
  born unit hunit := by simp [State.new] at hunit
  queued unit item hitem := by simp [State.new] at hitem

/-- What a fresh steady record archives. -/
lemma sweep (hr : Ready cat s h) (hv : r.event.validate cat = []) (hf : s.Fresh r.event)
    (hstdy : Steady (s, h) r) (hst : s.Staged r t) :
    ∃ gone, Sweep t r (s.entry r.event :: h) gone (t.archived r) := by
  have hbks := hr.books.staged hv hf hst
  have hlocal := localTo_effect hr.books hr.waits hr.born hv hf hstdy hst
  obtain ⟨-, -, -, fa, -⟩ := hst.frame
  obtain ⟨gone, hswept, hgone, hwaits, hwaited⟩ := archiveFinished_spec hbks
    (fa.trans hr.archiving) (hr.waits.local hlocal) r.event.occurredAt r.sequence
  refine ⟨gone, hswept, hgone, hwaits, fun unit hunit => ?_, ?_⟩
  · rcases hwaited unit hunit with hin | ⟨w, hw, -⟩
    · rw [hlocal.waiting] at hin
      exact List.exists_mem_cons_of_exists (hr.born unit hin)
    · exact hbks.unitsHeld.born unit w hw
  · obtain ⟨hd, ho, hn, -⟩ := hst.archived_frame
    exact hr.window.same hd ho hn

/-- Moving to the position of a record that is not remembered. -/
lemma advance (hbks : Books cat s h) (hwin : WindowSound s) (hwaits : s.Waits ∅)
    (harch : s.archiving = true)
    (hborn : ∀ unit ∈ s.indexes.waiting, ∃ x ∈ h, x.CreatesUnit unit)
    (hqueue : ∀ unit item, s.indexes.queue.lookup unit = some item → item.sequence ≤ r.sequence)
    (hnew : s.eventDigests.lookup r.event.eventID = none) : Ready cat (s.advance r digest) h := by
  have hwin' : WindowSound (s.advance r digest) := { hwin.remember digest hnew with }
  have hbks' := hbks.advance r digest
  rw [advance_eq] at hwin' hbks' ⊢
  exact ⟨hbks', hwin', { hwaits with }, harch, hborn, hqueue⟩

/-- A fresh steady record. -/
lemma fresh (hr : Ready cat s h) (hv : r.event.validate cat = []) (hf : s.Fresh r.event)
    (horder : s.watermark.sequence < r.sequence) (hstdy : Steady (s, h) r)
    (hst : s.Staged r t) : Ready cat ((t.archived r).advance r digest) (s.entry r.event :: h) := by
  obtain ⟨gone, hsweep⟩ := hr.sweep hv hf hstdy hst
  have hbks := (hr.books.staged hv hf hst).archiveFinished r.event.workUnitID
    r.event.occurredAt r.sequence
  obtain ⟨-, -, -, -, hqueue, -⟩ := hst.frame
  obtain ⟨hd, -, -, harch⟩ := hst.archived_frame
  refine advance hbks hsweep.window hsweep.waits (harch.trans hr.archiving) hsweep.born
    (fun unit item hitem => ?_) (by rw [hd]; exact hf.1)
  -- what this record queued carries its sequence, the rest an earlier one
  rw [hsweep.swept.queue] at hitem
  split_ifs at hitem
  · obtain ⟨w, -, rfl⟩ := Option.map_eq_some_iff.mp hitem
    exact le_rfl
  · rw [hqueue] at hitem
    have := hr.queued unit item hitem
    omega

/-- **Step lemma.**  An accepted steady record leaves a state that is ready for the next. -/
lemma accepted [DecidableEq D] (hr : Ready cat s h) (hok : s.apply cat r = .ok t)
    (hstdy : Steady (s, h) r) : Ready cat t ((effectOf cat s r).toList ++ h) := by
  obtain ⟨hv, digest, -, hacc⟩ := apply_ok hok
  rw [effectOf_ok hok]
  cases hacc with
  | repeated known order eq =>
    rw [if_neg (fun hf => by simp [hf.1] at known), eq]
    split_ifs
    · refine ⟨{ hr.books with }, { hr.window with }, { hr.waits with }, hr.archiving, hr.born,
        fun unit item hitem => ?_⟩
      exact (hr.queued unit item hitem).trans order
    · exact hr
  | replayed unseen order lifecycle known eq =>
    obtain ⟨g, hg, -⟩ := known
    rw [if_neg (fun hf => by simp [hf.2 lifecycle] at hg), eq]
    refine advance hr.books hr.window hr.waits hr.archiving hr.born (fun unit item hitem => ?_)
      unseen
    exact (hr.queued unit item hitem).trans order.le
  | fresh fresh order ok =>
    obtain ⟨u, hst, rfl⟩ := applyFresh_ok ok
    rw [if_pos fresh]
    exact hr.fresh hv fresh order hstdy hst

end Ready

/-! ## A restored state is ready -/

namespace State

/-- Units put on the expiry list one by one, at time zero. -/
lemma foldl_awaitExpiry_zero (units : List WorkUnit) (s : State D) (hl : ExpiryList s.indexes)
    (hzero : ∀ item ∈ s.indexes.expiries, item.time = 0) :
    ExpiryList (units.foldl (fun t w => t.awaitExpiry w.id 0) s).indexes ∧
      ∀ item, item ∈ (units.foldl (fun t w => t.awaitExpiry w.id 0) s).indexes.expiries ↔
        item ∈ s.indexes.expiries ∨ ∃ w ∈ units, item = ⟨0, w.id⟩ := by
  induction units generalizing s with
  | nil => exact ⟨hl, fun item => by simp⟩
  | cons w units ih =>
    obtain ⟨hl', hmem⟩ := awaitExpiry_expiries hl w.id 0
    -- an entry that was there already is the one that would be added
    have hmem : ∀ item, item ∈ (s.awaitExpiry w.id 0).indexes.expiries ↔
        item ∈ s.indexes.expiries ∨ item = ⟨0, w.id⟩ := by
      intro item
      rw [hmem]
      constructor
      · exact Or.imp_right And.right
      · rintro (hin | rfl)
        · exact Or.inl hin
        · by_cases hw : w.id ∈ s.indexes.waiting
          · obtain ⟨time, htime⟩ := (hl.waiting w.id).mp hw
            have := hzero _ htime
            exact Or.inl (this ▸ htime)
          · exact Or.inr ⟨hw, rfl⟩
    have hzero' : ∀ item ∈ (s.awaitExpiry w.id 0).indexes.expiries, item.time = 0 := by
      intro item hin
      rcases (hmem item).mp hin with hin | rfl
      · exact hzero item hin
      · rfl
    obtain ⟨hl'', hmem'⟩ := ih _ hl' hzero'
    refine ⟨hl'', fun item => ?_⟩
    rw [List.foldl_cons, hmem', hmem]
    simp only [List.mem_cons, exists_eq_or_imp, or_assoc]

/-- After rebuilding, every Work Unit that is not open is on the expiry list, to be looked at by
the next record. -/
lemma rebuildArchiveIndexes_expiries (s : State D) : ExpiryList s.rebuildArchiveIndexes.indexes ∧
      ∀ item, item ∈ s.rebuildArchiveIndexes.indexes.expiries ↔
        ∃ id w, s.workUnits.lookup id = some w ∧ w.status ≠ .open ∧ item = ⟨0, w.id⟩ := by
  obtain ⟨hl, hmem⟩ := foldl_awaitExpiry_zero
    (((s.workUnits.entriesSorted idLE).map Prod.snd).filter fun w => w.status ≠ .open)
    { s with indexes := {
      idemByUnit := listsOf workUnitID (s.governanceIdempotency.entriesSorted idLE),
      openByProject := indexOf openPlace
        (((s.workUnits.entriesSorted idLE).map Prod.snd).map fun w => (w.id, w)),
      liveRuns := indexOf livePlace
        (((s.runs.entriesSorted idLE).map Prod.snd).map fun r => (r.id, r)) } }
    ⟨List.Pairwise.nil, List.nodup_nil, fun unit => by simp⟩ (by simp)
  refine ⟨hl, fun item => (hmem item).trans ?_⟩
  constructor
  · rintro (hin | ⟨w, hw, rfl⟩)
    · cases hin
    · obtain ⟨hw, hopen⟩ := List.mem_filter.mp hw
      obtain ⟨⟨id, w⟩, hin, rfl⟩ := List.mem_map.mp hw
      exact ⟨id, w, mem_entriesSorted.mp hin, by simpa using hopen, rfl⟩
  · rintro ⟨id, w, hl, hopen, rfl⟩
    refine Or.inr ⟨w, List.mem_filter.mpr ⟨?_, by simpa using hopen⟩, rfl⟩
    exact List.mem_map.mpr ⟨(id, w), mem_entriesSorted.mpr hl, rfl⟩

end State

/-- The entries of a map read back under a field that is their key. -/
lemma entries_keyed {V : Type} (key : V → String) {m : FinMap String V}
    (hkey : ∀ id v, m.lookup id = some v → key v = id) :
    ((m.entriesSorted idLE).map Prod.snd).map (fun v => (key v, v)) = m.entriesSorted idLE := by
  rw [List.map_map]
  refine (List.map_congr_left ?_).trans (List.map_id _)
  rintro ⟨id, v⟩ hin
  have hid := hkey id v (mem_entriesSorted.mp hin)
  simp [hid]

/-- The books of a state hold for one that agrees with it, once its own indexes are right. -/
lemma Books.of_sameCore (hb : Books cat s h) (hc : SameCore s t)
    (hopen : FinMap.Indexes openPlace t.indexes.openByProject t.workUnits)
    (hlive : FinMap.Indexes livePlace t.indexes.liveRuns t.runs)
    (hidem : FinMap.Lists workUnitID t.indexes.idemByUnit
      t.governanceIdempotency) : Books cat t h := by
  obtain ⟨order, next, indexes, rfl⟩ := hc.eq
  exact { hb with unitsOpen := hopen, live := hlive, idem := hidem }

/-- Rebuilt indexes are right. -/
lemma Books.rebuilt (hb : Books cat s h) (hc : SameCore s t.rebuildArchiveIndexes) :
    Books cat t.rebuildArchiveIndexes h := by
  obtain ⟨waiting, expiries, heq⟩ := rebuildArchiveIndexes_eq t
  have hunits : t.workUnits = s.workUnits := by rw [← hc.workUnits, heq]
  have hruns : t.runs = s.runs := by rw [← hc.runs, heq]
  refine hb.of_sameCore hc ?_ ?_ ?_
  · rw [heq]
    rw [entries_keyed WorkUnit.id (fun id w hw =>
      (hb.unitsHeld.keyed id w (hunits ▸ hw)).1)]
    have hindex : FinMap.Indexes openPlace _ _ :=
      indexes_indexOf (nodup_entriesSorted (r := idLE) t.workUnits)
    rwa [ofList_entriesSorted] at hindex
  · rw [heq]
    rw [entries_keyed Run.id (fun id run hr => hb.runsHeld.id id run (hruns ▸ hr))]
    have hindex : FinMap.Indexes livePlace _ _ :=
      indexes_indexOf (nodup_entriesSorted (r := idLE) t.runs)
    rwa [ofList_entriesSorted] at hindex
  · rw [heq]
    have hlists : FinMap.Lists workUnitID _ _ :=
      lists_listsOf (nodup_entriesSorted (r := idLE) t.governanceIdempotency)
    rwa [ofList_entriesSorted] at hlists

section Restored

/-- What is on the expiry list of a restored state, and that nothing is queued. -/
lemma restore_indexes (hb : Books cat s h) (hw : WindowSound s) :
    State.ExpiryList (s.copySnapshot.restore s.archiving).indexes ∧
      (∀ item, item ∈ (s.copySnapshot.restore s.archiving).indexes.expiries ↔
        item.time = 0 ∧ s.HeldClosed item.workUnitID) ∧
      (s.copySnapshot.restore s.archiving).indexes.queue = ∅ := by
  have hc := restore_sameCore hb hw
  unfold Snapshot.restore at hc ⊢
  obtain ⟨hlist, hmem⟩ := rebuildArchiveIndexes_expiries
    (s.copySnapshot.eventDigests.foldl (fun t item => t.rememberDigest item.1 item.2)
      (s.copySnapshot.loaded s.archiving))
  obtain ⟨waiting, expiries, heq⟩ := rebuildArchiveIndexes_eq
    (s.copySnapshot.eventDigests.foldl (fun t item => t.rememberDigest item.1 item.2)
      (s.copySnapshot.loaded s.archiving))
  have hunits : (s.copySnapshot.eventDigests.foldl (fun t item => t.rememberDigest item.1 item.2)
      (s.copySnapshot.loaded s.archiving)).workUnits = s.workUnits := by
    rw [← hc.workUnits, heq]
  refine ⟨hlist, fun item => (hmem item).trans ?_, by rw [heq]⟩
  rw [hunits]
  constructor
  · rintro ⟨id, w, hl, hstat, rfl⟩
    have hid := (hb.unitsHeld.keyed id w hl).1
    refine ⟨rfl, w, by rw [hid]; exact hl, ?_⟩
    cases hs : w.status with
    | «open» => exact absurd hs hstat
    | closed => rfl
  · rintro ⟨htime, w, hl, hstat⟩
    refine ⟨item.workUnitID, w, hl, by rw [hstat]; decide, ?_⟩
    rw [(hb.unitsHeld.keyed _ w hl).1, ← htime]

lemma restore_window (hb : Books cat s h) (hw : WindowSound s) :
    WindowSound (s.copySnapshot.restore s.archiving) := by
  have hc := restore_sameCore hb hw
  have hlen : (s.copySnapshot.restore s.archiving).eventOrder.length = s.eventOrder.length := by
    have := congrArg List.length hc.window
    rwa [window, window, List.length_rotate, List.length_rotate] at this
  have hnext : (s.copySnapshot.restore s.archiving).eventNext = 0 := by
    have hids := (copySnapshot_eventDigests hw).1
    have hroom : (s.copySnapshot.loaded s.archiving).eventOrder.length +
        s.copySnapshot.eventDigests.length ≤ recentEventDigests := by
      rw [Snapshot.loaded, List.length_nil, zero_add, ← List.length_map, hids, window,
        List.length_rotate]
      exact hw.bound
    obtain ⟨waiting, expiries, heq⟩ := rebuildArchiveIndexes_eq
      (s.copySnapshot.eventDigests.foldl (fun t item => t.rememberDigest item.1 item.2)
        (s.copySnapshot.loaded s.archiving))
    rw [Snapshot.restore, heq, foldl_rememberDigest _ _ hroom]
    rfl
  refine ⟨?_, ?_, ?_, fun _ => hnext, fun id => ?_⟩
  · rw [hc.window]
    exact hw.nodup
  · rw [hlen]
    exact hw.bound
  · rw [hnext]
    exact Nat.pos_of_ne_zero (by decide)
  · rw [hc.eventDigests, hc.window]
    exact hw.exact id

/-- **A restored state is ready**, with the history of the state the snapshot was taken of. -/
lemma Ready.restored (hr : Ready cat s h) : Ready cat (s.copySnapshot.restore s.archiving) h := by
  have hc := restore_sameCore hr.books hr.window
  obtain ⟨hlist, hmem, hqueue⟩ := restore_indexes hr.books hr.window
  refine ⟨hr.books.rebuilt hc, restore_window hr.books hr.window, ⟨hlist, ?_, ?_⟩,
    hc.archiving.trans hr.archiving, fun unit hunit => ?_, fun unit item hitem => ?_⟩
  · intro item hitem w hw
    obtain ⟨hzero, w', hw', hcl⟩ := (hmem item).mp hitem
    rw [hc.workUnits, hw'] at hw
    cases hw
    refine ⟨hcl, Or.inl ?_⟩
    rw [hzero]
    exact lastExpiry_nonneg _
  · intro unit _ hcl hquiet
    rw [State.HeldClosed, hc.workUnits] at hcl
    rw [State.Quiet, hc.activeByWorkUnit, hc.pendingByWorkUnit] at hquiet
    obtain ⟨hne, -⟩ := hr.waits.listed unit (Set.notMem_empty unit) hcl hquiet
    rw [← hc.lastExpiry] at hne
    exact ⟨hne, 0, lastExpiry_nonneg unit, (hmem _).mpr ⟨rfl, hcl⟩⟩
  · obtain ⟨time, htime⟩ := (hlist.waiting unit).mp hunit
    obtain ⟨-, w, hw, -⟩ := (hmem _).mp htime
    exact hr.books.unitsHeld.born unit w hw
  · rw [hqueue] at hitem
    simp at hitem

end Restored

/-! ## Lockstep -/

/-- What the archive receives from a fresh record. -/
lemma Ready.archivedBy_advance (digest : D) (hr : Ready cat s h)
    (horder : s.watermark.sequence < r.sequence) {u : State D} (hst : s.Staged r u)
    {gone : Finset String} (hswept : State.Swept u gone r.sequence t) (unit : String) :
    archivedBy s (t.advance r digest) unit = if unit ∈ gone then
      (u.workUnits.lookup unit).map fun w => u.archivedItem w unit r.sequence else none := by
  obtain ⟨-, -, -, -, hq, -⟩ := hst.frame
  have hqueue : (t.advance r digest).indexes.queue.lookup unit = if unit ∈ gone then
      (u.workUnits.lookup unit).map fun w => u.archivedItem w unit r.sequence
      else s.indexes.queue.lookup unit := by
    rw [← hq, ← hswept.queue unit, advance_eq]
  rw [archivedBy, hqueue]
  by_cases hu : unit ∈ gone
  · rw [if_pos hu, if_pos hu]
    cases hl : u.workUnits.lookup unit with
    | none => simp
    | some w =>
      -- an item queued before carries an earlier sequence
      rw [if_neg]
      intro hsame
      have := hr.queued unit _ hsame.symm
      simp only [archivedItem] at this
      omega
  · rw [if_neg hu, if_neg hu, if_pos rfl]

/-- A step that leaves the indexes alone archives nothing. -/
lemma archivedBy_of_indexes (hidxs : t.indexes = s.indexes) : archivedBy s t = fun _ => none := by
  funext unit
  rw [archivedBy, hidxs, if_pos rfl]

/-- Steadiness reads no more than a snapshot keeps. -/
lemma SameCore.steady (hc : SameCore s t) (hstdy : Steady (s, h) r) : Steady (t, h) r := by
  obtain ⟨order, next, indexes, rfl⟩ := hc.eq
  exact hstdy

/-- An event enters the history of both alike. -/
lemma SameCore.entry (hc : SameCore s t) (e : Event) : t.entry e = s.entry e := by
  rw [State.entry, State.entry, hc.reservations]

/-- The stages write the same in two states that agree. -/
lemma SameCore.staged {u v : State D} (hc : SameCore s t) (hu : s.Staged r u)
    (hv : t.Staged r v) : SameCore u v := by
  obtain @⟨a, k, b, ha, hk⟩ := hu
  obtain @⟨a', k', b', ha', hk'⟩ := hv
  have heq : a' = a.withRest t := by
    rw [hc.eq_withRest, attributeRequest_withRest, ha] at ha'
    exact (Except.ok.inj ha').symm
  rw [heq, applyKind_withRest, hk] at hk'
  obtain ⟨rfl, rfl⟩ := Prod.mk.inj (Except.ok.inj hk')
  exact (hc.effect (effect_frame ha hk)).settleIndexes r.event b

/-- A fresh record in two ready states that agree. -/
lemma SameCore.lockstep_fresh {s' t' : State D} {digest : D} (hc : SameCore s t)
    (hs : Ready cat s h) (ht : Ready cat t h) (hv : r.event.validate cat = [])
    (hf : s.Fresh r.event) (horder : s.watermark.sequence < r.sequence)
    (hstdy : Steady (s, h) r) (hok : s.applyFresh r digest = .ok s')
    (hok' : t.applyFresh r digest = .ok t') :
    SameCore s' t' ∧ archivedBy t t' = archivedBy s s' := by
  obtain ⟨u, hst, rfl⟩ := applyFresh_ok hok
  obtain ⟨u', hst', rfl⟩ := applyFresh_ok hok'
  have hf' := hc.fresh_iff.mpr hf
  have horder' : t.watermark.sequence < r.sequence := by rwa [hc.watermark]
  have hcore := hc.staged hst hst'
  obtain ⟨gone, hsweep⟩ := hs.sweep hv hf hstdy hst
  obtain ⟨gone', hsweep'⟩ := ht.sweep hv hf' (hc.steady hstdy) hst'
  have hitems := hs.archivedBy_advance digest horder hst hsweep.swept
  have hitems' := ht.archivedBy_advance digest horder' hst' hsweep'.swept
  have hbks := hs.books.staged hv hf hst
  have hbks' := ht.books.staged hv hf' hst'
  rw [hc.entry] at hbks'
  obtain rfl : gone' = gone := by
    ext unit
    rw [hsweep'.gone_iff, hsweep.gone_iff, hcore.finished_iff]
  refine ⟨(hcore.swept hsweep.swept hsweep'.swept).advance hsweep.window hsweep'.window r digest, ?_⟩
  funext unit
  rw [hitems, hitems', hcore.workUnits]
  exact congrArg (fun f => if unit ∈ gone' then Option.map f _ else none)
    (funext fun w => hcore.archivedItem hbks hbks' w unit r.sequence)

/-- A fresh record in two states that agree and do not archive. -/
lemma SameCore.lockstep_unarchived {s' t' : State D} {digest : D} (hc : SameCore s t)
    (hs : WindowSound s) (ht : WindowSound t) (harch : s.archiving = false)
    (hok : s.applyFresh r digest = .ok s') (hok' : t.applyFresh r digest = .ok t') :
    SameCore s' t' ∧ archivedBy t t' = archivedBy s s' := by
  obtain ⟨u, hst, rfl⟩ := applyFresh_ok hok
  obtain ⟨u', hst', rfl⟩ := applyFresh_ok hok'
  obtain ⟨fd, fo, fn, fa, fq, -⟩ := hst.frame
  obtain ⟨fd', fo', fn', fa', fq', -⟩ := hst'.frame
  have still : ∀ {v : State D}, v.archiving = false → v.archived r = v := fun hv => by
    rw [archived, archiveFinished, hv]
    rfl
  rw [still (fa.trans harch), still (fa'.trans (hc.archiving.trans harch))]
  refine ⟨(hc.staged hst hst').advance (hs.same fd fo fn) (ht.same fd' fo' fn') r digest, ?_⟩
  funext unit
  rw [archivedBy, archivedBy, advance_eq, advance_eq, if_pos (by rw [fq']), if_pos (by rw [fq])]

variable [DecidableEq D]

/-- A record accepted by one of two states that agree is accepted by the other, with the same
effect; only a fresh one has to be looked at. -/
lemma SameCore.accepted {s' : State D} (hc : SameCore s t) (hs : WindowSound s)
    (ht : WindowSound t) (hok : s.apply cat r = .ok s')
    (hfresh : ∀ digest t', r.event.validate cat = [] → s.Fresh r.event →
      s.watermark.sequence < r.sequence → s.applyFresh r digest = .ok s' →
      t.applyFresh r digest = .ok t' → SameCore s' t' ∧ archivedBy t t' = archivedBy s s') :
    ∃ t', t.apply cat r = .ok t' ∧ effectOf cat t r = effectOf cat s r ∧ SameCore s' t' ∧
      archivedBy t t' = archivedBy s s' := by
  have hrefl := hc.refusal cat r
  cases hok' : t.apply cat r with
  | error failure =>
    rw [hok, hok'] at hrefl
    cases hrefl
  | ok t' =>
    have heff : effectOf cat t r = effectOf cat s r := by
      rw [effectOf_ok hok, effectOf_ok hok', hc.entry]
      simp only [hc.fresh_iff]
    obtain ⟨hv, digest, hdig, hacc⟩ := apply_ok hok
    obtain ⟨-, digest', hdig', hacc'⟩ := apply_ok hok'
    rw [hdig] at hdig'
    obtain rfl := Option.some.inj hdig'
    refine ⟨t', rfl, heff, ?_⟩
    have still : ∀ {u u' : State D}, u.indexes = t.indexes → u'.indexes = s.indexes →
        archivedBy t u = archivedBy s u' := by
      intro u u' hu hu'
      rw [archivedBy_of_indexes hu, archivedBy_of_indexes hu']
    cases hacc with
    | repeated known order eq =>
      cases hacc' with
      | repeated _ _ eq' =>
        rw [hc.watermark] at eq'
        by_cases hlt : s.watermark.sequence < r.sequence
        · rw [if_pos hlt] at eq eq'
          rw [eq, eq']
          refine ⟨{ hc with watermark := rfl }, still ?_ ?_⟩ <;> rfl
        · rw [if_neg hlt] at eq eq'
          rw [eq, eq']
          exact ⟨hc, still rfl rfl⟩
      | replayed unseen => simp [hc.eventDigests, known] at unseen
      | fresh fresh => simp [(hc.fresh_iff.mp fresh).1] at known
    | replayed unseen order lifecycle known eq =>
      obtain ⟨g, hg, -⟩ := known
      cases hacc' with
      | repeated known' => simp [hc.eventDigests, unseen] at known'
      | replayed _ _ _ _ eq' =>
        rw [eq, eq']
        refine ⟨hc.advance hs ht r digest, still ?_ ?_⟩ <;> rw [advance_eq]
      | fresh fresh => simp [(hc.fresh_iff.mp fresh).2 lifecycle] at hg
    | fresh fresh order ok =>
      have hf' : t.Fresh r.event := hc.fresh_iff.mpr fresh
      cases hacc' with
      | repeated known' => simp [hf'.1] at known'
      | replayed _ _ lifecycle known' => simp [hf'.2 lifecycle] at known'
      | fresh _ order' ok' => exact hfresh digest t' hv fresh order ok ok'

/-! ## Whole runs -/

/-- The decisions on records applied in turn, with what each archived. -/
def outcomes (cat : Catalogue D) (s : State D) :
    List Record → List (Option ApplyError × (String → Option ArchivedWorkUnit))
  | [] => []
  | r :: rest =>
    (State.refusal (s.apply cat r), archivedBy s (State.after (s.apply cat r))) ::
      outcomes cat (State.after (s.apply cat r)) rest

/-- The state after records applied in turn. -/
def State.feed (cat : Catalogue D) (s : State D) (records : List Record) : State D :=
  records.foldl (fun s r => State.after (s.apply cat r)) s

/-- A record accepted in the run. -/
def Taken (cat : Catalogue D) (p : State D × List Effect) (r : Record) : Prop :=
  ∃ t, p.1.apply cat r = .ok t

instance (p : State D × List Effect) (r : Record) : Decidable (Taken cat p r) :=
  decidable_of_iff (State.refusal (p.1.apply cat r) = none) (by
    unfold Taken
    cases p.1.apply cat r <;> simp [State.refusal])

/-- A record that is accepted or leaves the state as it was, steady where there is an archive. -/
def Calm (cat : Catalogue D) (p : State D × List Effect) (r : Record) : Prop :=
  (Taken cat p r ∨ p.1.RunTotalFits r) ∧ (p.1.archiving = true → Steady p r)

instance (p : State D × List Effect) (r : Record) : Decidable (Calm cat p r) :=
  inferInstanceAs (Decidable ((_ ∨ _) ∧ (_ → _)))

/-- A state as calm records leave it, with an archive or without. -/
structure Poised (cat : Catalogue D) (archiving : Bool) (s : State D) (h : List Effect) : Prop where
  books : Books cat s h
  window : WindowSound s
  mode : s.archiving = archiving
  ready : archiving = true → Ready cat s h

namespace Poised

variable {archiving : Bool}

omit [DecidableEq D] in
lemma new (cat : Catalogue D) (archiving : Bool) :
    Poised cat archiving (State.new D archiving) [] where
  books := Books.new archiving
  window := (Ready.new cat).window.same rfl rfl rfl
  mode := rfl
  ready harch := harch ▸ Ready.new cat

omit [DecidableEq D] in
lemma restored (hs : Poised cat archiving s h) :
    Poised cat archiving (s.copySnapshot.restore s.archiving) h where
  books := hs.books.rebuilt (restore_sameCore hs.books hs.window)
  window := restore_window hs.books hs.window
  mode := (restore_sameCore hs.books hs.window).archiving.trans hs.mode
  ready harch := (hs.ready harch).restored

/-- A refused calm record leaves the state as it was. -/
lemma refused {failure : State D × ApplyError} (hcalm : Calm cat (s, h) r)
    (hr : s.apply cat r = .error failure) : after (s.apply cat r) = s := by
  rw [hr]
  rcases hcalm.1 with ⟨u, hok⟩ | hfits
  · exact nomatch hr.symm.trans hok
  · exact refused_state hr hfits

/-- **Step lemma.**  A calm record leaves a state that is poised for the next. -/
lemma play {p : State D × List Effect} (hs : Poised cat archiving p.1 p.2)
    (hcalm : Calm cat p r) : Poised cat archiving (play cat p r).1 (play cat p r).2 := by
  cases hr : p.1.apply cat r with
  | error failure =>
    have hnone : effectOf cat p.1 r = none := by rw [effectOf, hr]
    rw [Ledger.play, hnone, refused hcalm hr]
    exact hs
  | ok t =>
    obtain ⟨-, digest, -, hacc⟩ := apply_ok hr
    obtain ⟨hwin, harch⟩ := hs.window.accepted hacc
    rw [Ledger.play, hr]
    exact ⟨hs.books.accepted hr, hwin, harch.trans hs.mode, fun hon =>
      (hs.ready hon).accepted hr (hcalm.2 (hs.mode.trans hon))⟩

/-- **Lockstep.**  A calm record is decided alike by two poised states that agree, archives the same
from both and leaves them in agreement. -/
lemma lockstep (hs : Poised cat archiving s h) (ht : Poised cat archiving t h) (hc : SameCore s t)
    (hcalm : Calm cat (s, h) r) :
    SameCore (after (s.apply cat r)) (after (t.apply cat r)) ∧
      Poised cat archiving (after (t.apply cat r)) ((effectOf cat s r).toList ++ h) ∧
      archivedBy t (after (t.apply cat r)) = archivedBy s (after (s.apply cat r)) := by
  have hrefl := hc.refusal cat r
  have hcalm' : Calm cat (t, h) r := by
    refine ⟨hcalm.1.imp (fun htaken => ?_) fun hfits => ?_, fun hon => hc.steady (hcalm.2 ?_)⟩
    · obtain ⟨u, hok⟩ := htaken
      rw [hok] at hrefl
      exact refusal_eq_none.mp hrefl
    · obtain ⟨order, next, indexes, rfl⟩ := hc.eq
      exact hfits
    · exact hc.archiving.symm.trans hon
  have hplay := ht.play (p := (t, h)) hcalm'
  suffices effectOf cat t r = effectOf cat s r ∧
      SameCore (after (s.apply cat r)) (after (t.apply cat r)) ∧
      archivedBy t (after (t.apply cat r)) = archivedBy s (after (s.apply cat r)) by
    obtain ⟨heff, hcore, hitems⟩ := this
    rw [Ledger.play, heff] at hplay
    exact ⟨hcore, hplay, hitems⟩
  cases hr : s.apply cat r with
  | error failure =>
    rw [hr] at hrefl
    obtain ⟨u', hr'⟩ := refusal_eq_some.mp hrefl
    rw [← hr, refused hcalm hr, refused hcalm' hr', effectOf, effectOf, hr, hr',
      archivedBy_of_indexes rfl, archivedBy_of_indexes rfl]
    exact ⟨rfl, hc, rfl⟩
  | ok s' =>
    obtain ⟨t', hr', heff, hcore, hitems⟩ := hc.accepted hs.window ht.window hr (by
      intro digest t' hv hfresh horder hok hok'
      cases hmode : archiving with
      | true =>
        exact hc.lockstep_fresh (hs.ready hmode) (ht.ready hmode) hv hfresh horder
          (hcalm.2 (hs.mode.trans hmode)) hok hok'
      | false => exact hc.lockstep_unarchived hs.window ht.window (hs.mode.trans hmode) hok hok')
    rw [hr']
    exact ⟨heff, hcore, hitems⟩

/-- **Run lemma.**  Poised states that agree stay in lockstep over calm records. -/
lemma run_lockstep {p : State D × List Effect} {records : List Record}
    (hcalm : Along (Ledger.play cat) (Calm cat) p records) (hc : SameCore p.1 t)
    (hs : Poised cat archiving p.1 p.2) (ht : Poised cat archiving t p.2) :
    outcomes cat t records = outcomes cat p.1 records ∧
      SameCore (records.foldl (Ledger.play cat) p).1 (t.feed cat records) ∧
      Poised cat archiving (t.feed cat records) (records.foldl (Ledger.play cat) p).2 := by
  induction records generalizing p t with
  | nil => exact ⟨rfl, hc, ht⟩
  | cons r rest ih =>
    obtain ⟨hone, hrest⟩ := hcalm
    obtain ⟨hc', ht', hitems⟩ := hs.lockstep ht hc hone
    obtain ⟨hout, hfinal⟩ := ih hrest hc' (hs.play hone) ht'
    refine ⟨?_, hfinal⟩
    rw [outcomes, outcomes, hc.refusal cat r, hitems, hout]
    rfl

/-- **Whole runs.**  After calm records, the state restored from a snapshot goes on over calm records
as the live one does. -/
lemma resume {before rest : List Record} (hcalm : Along (Ledger.play cat) (Calm cat)
      (State.new D archiving, []) (before ++ rest)) :
    outcomes cat ((replay cat archiving before).1.copySnapshot.restore archiving) rest =
        outcomes cat (replay cat archiving before).1 rest ∧
      SameCore (replay cat archiving (before ++ rest)).1
        (((replay cat archiving before).1.copySnapshot.restore archiving).feed cat rest) ∧
      Poised cat archiving
        (((replay cat archiving before).1.copySnapshot.restore archiving).feed cat rest)
        (replay cat archiving (before ++ rest)).2 := by
  obtain ⟨hbef, hrest⟩ := Along.append.mp hcalm
  have hs : Poised cat archiving (replay cat archiving before).1 (replay cat archiving before).2 :=
    hbef.invariant (I := fun p => Poised cat archiving p.1 p.2) (fun p r hp hone => hp.play hone)
      (new cat archiving)
  have hc := restore_sameCore hs.books hs.window
  have ht := hs.restored
  rw [hs.mode] at hc ht
  have hwhole : replay cat archiving (before ++ rest) =
      rest.foldl (Ledger.play cat) (replay cat archiving before) := List.foldl_append
  rw [hwhole]
  exact run_lockstep hrest hc hs ht

end Poised

/-- **A snapshot and the rest equal the whole.**  Over accepted steady records with archiving on,
cut anywhere: the state restored from the snapshot at the cut decides every later record as the
live state did, archives the same Work Units at the same records, and ends in agreement with the
state of the whole run, its indexes being those of that state's history. -/
theorem resume_eq_replay (cat : Catalogue D) (before rest : List Record)
    (htaken : Along (play cat) (Taken cat) (State.new D true, []) (before ++ rest))
    (hsteady : Along (play cat) Steady (State.new D true, []) (before ++ rest)) :
    outcomes cat ((replay cat true before).1.copySnapshot.restore true) rest =
        outcomes cat (replay cat true before).1 rest ∧
      SameCore (replay cat true (before ++ rest)).1
        (((replay cat true before).1.copySnapshot.restore true).feed cat rest) ∧
      Books cat (((replay cat true before).1.copySnapshot.restore true).feed cat rest)
        (replay cat true (before ++ rest)).2 := by
  have hcalm : Along (play cat) (Calm cat) (State.new D true, []) (before ++ rest) :=
    (htaken.and hsteady).imp fun p r hone => ⟨.inl hone.1, fun _ => hone.2⟩
  obtain ⟨hout, hcore, hfinal⟩ := Poised.resume hcalm
  exact ⟨hout, hcore, hfinal.books⟩

/-- With an archive or without, and over refused records that leave the state as it was. -/
theorem calm_resume_eq_replay (cat : Catalogue D) (archiving : Bool) (before rest : List Record)
    (hcalm : Along (play cat) (Calm cat) (State.new D archiving, []) (before ++ rest)) :
    let s := (replay cat archiving before).1
    let t := s.copySnapshot.restore archiving
    outcomes cat t rest = outcomes cat s rest ∧
      SameCore (replay cat archiving (before ++ rest)).1 (t.feed cat rest) := by
  obtain ⟨hout, hcore, -⟩ := Poised.resume hcalm
  exact ⟨hout, hcore⟩

/-! ## The last Run of a closed Work Unit, closed early

A Work Unit with two Runs, expiring at 20 and at 30, is closed at 10, and one of its Runs at 15. -/

section ClosedEarly

/-- A Run of the Work Unit `wku_a`. -/
def createRun (runID : String) (digit : Char) (time expiresAt : ℤ) : Event :=
  { eventID := "evt_" ++ runID, kind := .runCreated, workUnitID := "wku_a", runID := runID,
    runBudgetMicrosUSD := 5, runExpiresAt := expiresAt, projectID := "prj", keyID := "key",
    periodID := "2026-05-01", occurredAt := time, operation := "run.create",
    idempotencyKeyHash := labelOf digit, requestFingerprint := labelOf digit }

/-- The Work Unit is closed at 10, then the Run at 15. -/
def closeWith (runID : String) : List Event :=
  [{ eventID := "evt_1", kind := .workUnitCreated, workUnitID := "wku_a", projectID := "prj",
     keyID := "key", periodID := "2026-05-01", occurredAt := 1, operation := "work_unit.create",
     idempotencyKeyHash := labelOf '0', requestFingerprint := labelOf 'a' },
   createRun "run_a" '1' 2 20, createRun "run_b" '2' 3 30,
   { eventID := "evt_4", kind := .workUnitClosed, workUnitID := "wku_a", projectID := "prj",
     keyID := "key", periodID := "2026-05-01", occurredAt := 10, operation := "work_unit.close",
     idempotencyKeyHash := labelOf '3', requestFingerprint := labelOf 'd' },
   { eventID := "evt_5", kind := .runClosed, workUnitID := "wku_a", runID := runID,
     closeReason := "done", projectID := "prj", keyID := "key", periodID := "2026-05-01",
     occurredAt := 15, operation := "run.close", idempotencyKeyHash := labelOf '4',
     requestFingerprint := labelOf 'e' }]

/-- A record that names no Work Unit. -/
def acceptAt (time : ℤ) : Record where
  sequence := 6
  event := { eventID := "evt_6", kind := .requestAccepted, requestID := "req", projectID := "prj",
             periodID := "2026-05-01", occurredAt := time }

/-- When the Run that expires first is closed, a record after the other expiry archives the Work
Unit, restored or not. -/
theorem resume_eq_replay_first_closed :
    SameCore (replay Catalogue.bare true (recordsOf (closeWith "run_a") ++ [acceptAt 35])).1
      (((replay Catalogue.bare true (recordsOf (closeWith "run_a"))).1.copySnapshot.restore
        true).feed Catalogue.bare [acceptAt 35]) ∧
    (replay Catalogue.bare true (recordsOf (closeWith "run_a") ++ [acceptAt 35])).1.workUnits.size =
      0 :=
  ⟨(resume_eq_replay Catalogue.bare (recordsOf (closeWith "run_a")) [acceptAt 35]
    (by decide +kernel) (by decide +kernel)).2.1, by decide +kernel⟩

/-- Both refuse a second record of one sequence. -/
theorem calm_resume_eq_replay_repeated :
    let s := (replay Catalogue.bare false [acceptAt 35]).1
    outcomes Catalogue.bare (s.copySnapshot.restore false) [acceptAt 36] =
      outcomes Catalogue.bare s [acceptAt 36] :=
  (calm_resume_eq_replay _ false [acceptAt 35] [acceptAt 36] (by decide +kernel)).1

/-- When the Run that expires last is closed, a record between the two expiries archives the Work
Unit from the restored state and not from the live one. -/
theorem resume_differs : ¬ (∀ before rest : List Record,
      Along (play Catalogue.bare) (Taken Catalogue.bare) (State.new Event true, [])
        (before ++ rest) →
      outcomes Catalogue.bare
          ((replay Catalogue.bare true before).1.copySnapshot.restore true) rest =
        outcomes Catalogue.bare (replay Catalogue.bare true before).1 rest ∧
      SameCore (replay Catalogue.bare true (before ++ rest)).1
        (((replay Catalogue.bare true before).1.copySnapshot.restore true).feed Catalogue.bare
          rest)) := by
  intro hall
  obtain ⟨-, hcore⟩ := hall (recordsOf (closeWith "run_b")) [acceptAt 25] (by decide +kernel)
  have hsize := congrArg FinMap.size hcore.workUnits
  revert hsize
  decide +kernel

end ClosedEarly

end Ledger

end Halro
