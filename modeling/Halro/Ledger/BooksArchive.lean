import Halro.Ledger.BooksKinds

/-!
# Archiving keeps the books

A finished Work Unit leaves the state with its Runs, its costs and its idempotency records.  The
books stay exact because nothing that is left can name what went: a reservation or an attributed
request of one of its Runs would be listed under the Work Unit, and then the Work Unit would not
have been finished.
-/

namespace Halro

open Framework Framework.FinMap

namespace Ledger

variable {D : Type} {cat : Catalogue D} {s : State D} {h : List Effect}

namespace State

/-! ## What the folds of archiving leave -/

/-- Moving Runs out touches the Runs, the live index and the queue of archived Runs. -/
lemma foldl_archiveRun (unit : String) (ids : List String) (s : State D)
    (hlive : FinMap.Indexes livePlace s.indexes.liveRuns s.runs) :
    ∃ queuedRuns liveRuns, ids.foldl (fun t runID => t.archiveRun unit runID) s =
        { s with
          runs := s.runs.eraseAll ids,
          indexes := { s.indexes with queuedRuns := queuedRuns, liveRuns := liveRuns } } ∧
      FinMap.Indexes livePlace liveRuns (s.runs.eraseAll ids) ∧
      ∀ id, queuedRuns.lookup id =
        if id ∈ ids then some unit else s.indexes.queuedRuns.lookup id := by
  induction ids generalizing s with
  | nil => exact ⟨_, _, rfl, hlive, fun id => rfl⟩
  | cons first ids ih =>
    have hnext : FinMap.Indexes livePlace (s.archiveRun unit first).indexes.liveRuns
        (s.archiveRun unit first).runs := by
      refine hlive.remove (fun j hj => ?_) fun b => filed_erase
      cases hl : s.runs.lookup first with
      | none =>
        rw [filed_of_none hl] at hj
        cases hj
      | some held =>
        rw [filed_of_lookup hl, livePlace] at hj
        split_ifs at hj
        rw [run, getD_of_lookup _ hl]
        exact (Option.some.inj hj).symm
    obtain ⟨queued, live, heq, hl, hqueued⟩ := ih _ hnext
    refine ⟨queued, live, heq, hl, fun id => ?_⟩
    simp only [hqueued, archiveRun, lookup_insert_ite]
    by_cases hfirst : id = first <;> by_cases hrest : id ∈ ids <;> simp [hrest]

/-- Moving idempotency records out touches the records and the queue of archived keys, where the
keys of those that are held are entered. -/
lemma foldl_archiveIdempotency (unit : String) (keys : List String) (s : State D) :
    ∃ queuedIdem, keys.foldl (fun t key => t.archiveIdempotency unit key) s =
        { s with
          governanceIdempotency := s.governanceIdempotency.eraseAll keys,
          indexes := { s.indexes with queuedIdem := queuedIdem } } ∧
      ∀ key, queuedIdem.lookup key =
        if key ∈ keys ∧ (s.governanceIdempotency.lookup key).isSome then some unit
        else s.indexes.queuedIdem.lookup key := by
  induction keys generalizing s with
  | nil => exact ⟨_, rfl, fun key => by simp⟩
  | cons first keys ih =>
    obtain ⟨queued, heq, hqueued⟩ := ih (s.archiveIdempotency unit first)
    refine ⟨queued, heq.trans ?_, fun key => (hqueued key).trans ?_⟩ <;> rw [archiveIdempotency]
    · rw [eraseAll_cons]
      split_ifs with hheld
      · rfl
      · have herase : Finmap.erase first s.governanceIdempotency = s.governanceIdempotency := by
          refine Finmap.ext_lookup fun b => ?_
          rw [lookup_erase_ite]
          split_ifs with hb
          · rw [hb]
            exact (Option.not_isSome_iff_eq_none.mp hheld).symm
          · rfl
        rw [herase]
    · by_cases hkey : key = first
      · subst hkey
        by_cases hheld : (s.governanceIdempotency.lookup key).isSome <;> simp [hheld]
      · by_cases hheld : (s.governanceIdempotency.lookup first).isSome <;> simp [hheld, hkey]

lemma mem_sortedKeys {workUnitID key : String} :
    key ∈ s.sortedKeys workUnitID ↔ key ∈ s.indexes.idemByUnit.getD workUnitID [] :=
  List.mem_insertionSort _

/-- **What archiving a Work Unit leaves.** -/
lemma archiveWorkUnit_eq (w : WorkUnit) (unit : String) (sequence : ℕ)
    (hlive : FinMap.Indexes livePlace s.indexes.liveRuns s.runs) :
    ∃ queuedRuns queuedIdem liveRuns, s.archiveWorkUnit w unit sequence =
        { s with
          runs := s.runs.eraseAll (s.runsOf unit),
          governanceIdempotency := s.governanceIdempotency.eraseAll (s.sortedKeys unit),
          runsByWorkUnit := s.runsByWorkUnit.erase unit,
          workUnitCosts := s.workUnitCosts.erase unit,
          workUnits := s.workUnits.erase unit,
          indexes := { s.indexes with
            queue := s.indexes.queue.insert unit (s.archivedItem w unit sequence),
            queuedRuns := queuedRuns,
            queuedIdem := queuedIdem,
            idemByUnit := s.indexes.idemByUnit.erase unit,
            liveRuns := liveRuns } } ∧
      FinMap.Indexes livePlace liveRuns (s.runs.eraseAll (s.runsOf unit)) ∧
      (∀ id, queuedRuns.lookup id =
        if id ∈ s.runsOf unit then some unit else s.indexes.queuedRuns.lookup id) ∧
      ∀ key, queuedIdem.lookup key =
        if key ∈ s.sortedKeys unit ∧ (s.governanceIdempotency.lookup key).isSome then some unit
        else s.indexes.queuedIdem.lookup key := by
  obtain ⟨queuedRuns, liveRuns, hruns, hl⟩ := foldl_archiveRun unit (s.runsOf unit) s hlive
  obtain ⟨queuedIdem, hidem, hkeys⟩ := foldl_archiveIdempotency unit (s.sortedKeys unit)
    ((s.runsOf unit).foldl (fun t runID => t.archiveRun unit runID) s)
  rw [hruns] at hidem hkeys
  refine ⟨queuedRuns, queuedIdem, liveRuns, ?_, hl.1, hl.2, hkeys⟩
  simp only [archiveWorkUnit]
  rw [hruns, hidem]

/-! ## The whole of archiving -/

section

variable {P : State D → Prop} {sequence : ℕ}
  (hlist : ∀ s waiting expiries, P s → P { s with indexes := { s.indexes with waiting, expiries } })
  (hout : ∀ s unit w, P s → s.workUnits.lookup unit = some w → w.status = .closed →
    s.activeByWorkUnit.members unit = ∅ → s.pendingByWorkUnit.members unit = ∅ →
    P (s.archiveWorkUnit w unit sequence))

include hlist hout

/-- What holds whatever is on the expiry list, and when a closed Work Unit at rest is taken out, is
kept by archiving. -/
lemma tryArchive_keeps (unit : String) (now : ℤ) (hp : P s) : P (s.tryArchive unit now sequence) := by
  unfold tryArchive awaitExpiry
  cases hw : s.workUnits.lookup unit with
  | none => exact hp
  | some w =>
    simp only
    split_ifs with hcl hheld hexpiry
    · exact hp
    · exact hp
    · exact hp
    · exact hlist s _ _ hp
    · push Not at hheld
      exact hout s unit w hp hw (not_not.mp hcl) hheld.1 hheld.2

lemma drainExpiries_keeps (now : ℤ) (turns : ℕ) (hp : P s) :
    P (drainExpiries now sequence turns s) := by
  induction turns generalizing s with
  | zero => exact hp
  | succ turns ih =>
    unfold drainExpiries
    split
    · exact hp
    · split_ifs
      · exact hp
      · exact ih (tryArchive_keeps hlist hout _ now (hlist s _ _ hp))

lemma archiveFinished_keeps (unit : String) (now : ℤ) (hp : P s) :
    P (s.archiveFinished unit now sequence) := by
  unfold archiveFinished
  split_ifs
  · exact hp
  · exact drainExpiries_keeps hlist hout now _ (tryArchive_keeps hlist hout unit now hp)
  · exact drainExpiries_keeps hlist hout now _ hp

end

/-- Moving to a record's position changes the digest window and the watermark alone. -/
lemma advance_eq (s : State D) (r : Record) (digest : D) : s.advance r digest = { s with
    eventDigests := (s.rememberDigest r.event.eventID digest).eventDigests,
    eventOrder := (s.rememberDigest r.event.eventID digest).eventOrder,
    eventNext := (s.rememberDigest r.event.eventID digest).eventNext,
    watermark := r.watermark } := by
  unfold advance rememberDigest
  split_ifs <;> rfl

end State

/-! ## Archiving one Work Unit -/

section

variable (hb : Books cat s h)

include hb

/-- A Run that stays when a Work Unit leaves is a Run of another Work Unit. -/
lemma Books.stays_iff (unit : String) {id : String} {run : Run} :
    (s.runs.eraseAll (s.runsOf unit)).lookup id = some run ↔
      s.runs.lookup id = some run ∧ run.workUnitID ≠ unit := by
  rw [lookup_eraseAll]
  have hmem := hb.listed.mem unit id
  constructor
  · intro hr
    split_ifs at hr with hin
    refine ⟨hr, fun hw => hin (hmem.mpr ?_)⟩
    rw [hr, Option.map_some, hw]
  · rintro ⟨hr, hw⟩
    rw [if_neg, hr]
    intro hin
    have hin := hmem.mp hin
    rw [hr, Option.map_some] at hin
    exact hw (Option.some.inj hin)

lemma Books.archiveWorkUnit {w : WorkUnit} {unit : String} {sequence : ℕ}
    (hw : s.workUnits.lookup unit = some w) (hcl : w.status = .closed)
    (hact : s.activeByWorkUnit.members unit = ∅)
    (hpend : s.pendingByWorkUnit.members unit = ∅) :
    Books cat (s.archiveWorkUnit w unit sequence) h := by
  obtain ⟨queuedRuns, queuedIdem, liveRuns, heq, hlive, -⟩ :=
    State.archiveWorkUnit_eq w unit sequence hb.live
  rw [heq]
  have hname := (hb.unitsHeld.keyed unit w hw).2
  have hstay : ∀ {id run}, _ := fun {id run} => @Books.stays_iff _ _ _ _ hb unit id run
  exact { hb with
    runReserved := fun id run hr => hb.runReserved id run (hstay.mp hr).1
    runCommitted := ⟨fun id run hr => hb.runCommitted.committed id run (hstay.mp hr).1,
      fun id run hr => hb.runCommitted.unknown id run (hstay.mp hr).1⟩
    costs := by
      refine ⟨fun id v hv => ?_, fun id hv => ?_⟩
      · obtain ⟨hid, hv⟩ := lookup_erase_cases hv
        rw [getD_erase, if_neg hid]
        exact hb.costs.held id v hv
      · rw [lookup_erase_ite] at hv ⊢
        split_ifs at hv ⊢
        · rfl
        · exact hb.costs.absent id hv
    sound := fun a res hres => by
      have hs := hb.sound a res hres
      refine { hs with run := fun hne => ?_ }
      obtain ⟨run, hr, hwr⟩ := hs.run hne
      refine ⟨run, hstay.mpr ⟨hr, fun hc => ?_⟩, hwr⟩
      -- a reservation of the Work Unit would be pending
      refine hb.pending.members_eq_empty_iff.mp hpend a ?_
      rw [filed_of_lookup hres, pendingPlace, ← hwr, hc, if_neg hname]
    requestsHeld := fun q a ha => by
      obtain ⟨hne, run, hr, hwr⟩ := hb.requestsHeld q a ha
      refine ⟨hne, run, hstay.mpr ⟨hr, fun hc => ?_⟩, hwr⟩
      -- an attributed request of the Work Unit would be active
      refine hb.active.members_eq_empty_iff.mp hact q ?_
      rw [filed_of_lookup ha, activePlace, ← hwr, hc]
    runsHeld := by
      refine ⟨fun id run hr => hb.runsHeld.id id run (hstay.mp hr).1,
        fun id run hr => hb.runsHeld.status id run (hstay.mp hr).1,
        fun id run hr => hb.runsHeld.named id run (hstay.mp hr).1, fun id run hr => ?_⟩
      obtain ⟨hr, hne⟩ := hstay.mp hr
      obtain ⟨v, hv, hp⟩ := hb.runsHeld.unit id run hr
      exact ⟨v, by rw [lookup_erase_ite, if_neg hne, hv], hp⟩
    unitsHeld := ⟨fun id v hv => hb.unitsHeld.keyed id v (lookup_erase_cases hv).2,
      fun id v hv => hb.unitsHeld.born id v (lookup_erase_cases hv).2⟩
    listed := hb.listed.drop fun b => lookup_eraseAll _ _ b
    unitsOpen := by
      refine hb.unitsOpen.same fun b => ?_
      rw [filed_erase]
      split_ifs with hbu
      · rw [hbu, filed_of_lookup hw, openPlace, hcl]
        rfl
      · rfl
    live := hlive
    idem := by
      refine hb.idem.drop fun b => ?_
      rw [lookup_eraseAll]
      simp only [State.mem_sortedKeys]
    idemKeyed := fun key g hg => by
      rw [lookup_eraseAll] at hg
      split_ifs at hg
      exact hb.idemKeyed key g hg }

lemma Books.tryArchive (unit : String) (now : ℤ) (sequence : ℕ) :
    Books cat (s.tryArchive unit now sequence) h :=
  State.tryArchive_keeps (P := (Books cat · h)) (fun _ _ _ hb => { hb with })
    (fun _ _ _ hb => hb.archiveWorkUnit) unit now hb

lemma Books.archiveFinished (unit : String) (now : ℤ) (sequence : ℕ) :
    Books cat (s.archiveFinished unit now sequence) h :=
  State.archiveFinished_keeps (P := (Books cat · h)) (fun _ _ _ hb => { hb with })
    (fun _ _ _ hb => hb.archiveWorkUnit) unit now hb

lemma Books.advance (r : Record) (digest : D) :
    Books cat (s.advance r digest) h := by
  rw [State.advance_eq]
  exact { hb with }

end

end Ledger

end Halro
