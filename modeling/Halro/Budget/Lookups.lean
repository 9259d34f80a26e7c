import Halro.Budget.ClosedRuns

/-!
# Lookups while finished Work Units are archived (`internal/ledger/archive.go`)

`FlushArchive` copies the queue of finished Work Units under the state's lock, writes the copy to the
archive in one transaction, and then forgets what it has written, comparing sequences.  Here these
are steps of their own, of any number of flushes, between which operations go on; a lookup reads the
state at one moment and the archive at a later one, and that of a Work Unit reads the queue at a
moment in between.

An entry leaves a place only after it is in the next, and lookups read the places in that order.  So
a lookup that begins when an entry has been accepted finds it, as it was accepted.
-/

namespace Halro

open Framework

namespace Budget

open Ledger Manager

/-! ## Flushes in steps -/

/-- A `FlushArchive` under way: what it copied, and whether the archive has it.  One that fails goes
no further. -/
structure Flush where
  items : List ArchivedWorkUnit
  isWritten : Bool := false

structure Archiver (D : Type) where
  manager : Manager D
  flushes : List Flush := []

inductive Move
  /-- A step of the operations. -/
  | act (action : Action)
  | copyArchiveQueue
  | writeArchived (flush : ℕ)
  | forgetArchived (flush : ℕ)

/-- The names of operations have no separator in them. -/
def Move.Plain : Move → Prop
  | .act action => action.Plain
  | _ => True

instance (a : Move) : Decidable a.Plain := by
  cases a <;> unfold Move.Plain <;> infer_instance

variable {D : Type}

/-- The part of `forgetArchived` for one item. -/
def forgetItem (m : Manager D) (item : ArchivedWorkUnit) : Manager D :=
  match m.state.indexes.queue.lookup item.workUnit.id with
  | none => m
  | some queued =>
    if queued.sequence ≠ item.sequence then m
    else m.shelve m.archive (m.state.indexes.queue.erase item.workUnit.id)
      (m.state.indexes.queuedRuns.eraseAll queued.runIDs)
      (m.state.indexes.queuedIdem.eraseAll queued.keys)

namespace Archiver

def new (D : Type) (archiving : Bool) : Archiver D where
  manager := Manager.new D archiving

/-- One step.  An action that is not enabled changes nothing. -/
def step [DecidableEq D] (cat : Catalogue D) (p : Archiver D) : Move → Archiver D
  | .act action => { p with manager := p.manager.step cat action }
  | .copyArchiveQueue =>
    let items := (p.manager.state.indexes.queue.entriesSorted idLE).map Prod.snd
    if p.manager.state.archiving then { p with flushes := p.flushes ++ [{ items := items }] } else p
  | .writeArchived flush =>
    match p.flushes[flush]? with
    | some ⟨items, false⟩ =>
      { manager := { p.manager with archive := p.manager.archive ++ items },
        flushes := p.flushes.set flush ⟨items, true⟩ }
    | _ => p
  | .forgetArchived flush =>
    match p.flushes[flush]? with
    | some ⟨items, true⟩ =>
      { manager := items.foldl forgetItem p.manager, flushes := p.flushes.eraseIdx flush }
    | _ => p

end Archiver

/-- `State.WorkUnit`, which reads the Work Units at hand, the queue and the archive one after the
other. -/
def readWorkUnit (held queued : State D) (archive : List ArchivedWorkUnit) (id : String) :
    Option WorkUnit :=
  held.workUnits.lookup id <|>
  (queued.indexes.queue.lookup id).map (·.workUnit) <|>
  (archive.find? fun item => item.workUnit.id = id).map (·.workUnit)

/-! ## The shelf -/

/-- What is queued or archived. -/
def Shelf (m : Manager D) (item : ArchivedWorkUnit) : Prop := OnShelf m.archive m.state.indexes item

/-- Nothing leaves the shelf or the archive. -/
structure Grows (m n : Manager D) : Prop where
  archive : ∀ item ∈ m.archive, item ∈ n.archive
  shelf : ∀ item, Shelf m item → Shelf n item

lemma Grows.refl (m : Manager D) : Grows m m := ⟨fun _ hi => hi, fun _ hi => hi⟩

lemma Grows.trans {l m n : Manager D} (h : Grows l m) (h' : Grows m n) : Grows l n :=
  ⟨fun i hi => h'.archive i (h.archive i hi), fun i hi => h'.shelf i (h.shelf i hi)⟩

/-- Everything is in its place, and what is archived and still queued is the same there. -/
structure Stocked (cat : Catalogue D) (m : Manager D) : Prop where
  accounted : Accounted cat m
  governed : Governed m
  tidy : ∀ item ∈ m.archive, ∀ queued,
    m.state.indexes.queue.lookup item.workUnit.id = some queued → queued = item

namespace Stocked

variable {cat : Catalogue D} {m : Manager D} (h : Stocked cat m)

include h

/-- A queued item is queued under its own name. -/
lemma queued {unit : String} {item : ArchivedWorkUnit}
    (hi : m.state.indexes.queue.lookup unit = some item) :
    m.state.indexes.queue.lookup item.workUnit.id = some item := by
  rw [h.governed.homed.queue.keyed unit item hi]
  exact hi

/-- The shelf arranged otherwise. -/
lemma shelve {archive : List ArchivedWorkUnit} {queue : FinMap String ArchivedWorkUnit}
    {queuedRuns queuedIdem : FinMap String String}
    (hr : Rearranged m.archive m.state.indexes archive
      (m.shelve archive queue queuedRuns queuedIdem).state.indexes)
    (hq : QueueIndexed (m.shelve archive queue queuedRuns queuedIdem).state.indexes) :
    Stocked cat (m.shelve archive queue queuedRuns queuedIdem) ∧
      Grows m (m.shelve archive queue queuedRuns queuedIdem) := by
  have ha := h.accounted
  refine ⟨⟨⟨{ ha.books with }, { ha.counters with }, { ha.calls with },
    ha.runs.shelve hr⟩, h.governed.shelve hr hq, fun item hi queued hque => ?_⟩, hr.archived,
    fun i hi => (hr.onShelf_iff i).mpr hi⟩
  have hold := hr.queued _ queued hque
  rcases hr.shelved item hi with ⟨unit, hi⟩ | hi
  · rw [h.queued hi] at hold
    exact (Option.some.inj hold).symm
  · exact h.tidy item hi queued hold

/-- Items of the shelf are written to the archive. -/
lemma write {items : List ArchivedWorkUnit} (hitems : ∀ i ∈ items, Shelf m i) :
    Stocked cat { m with archive := m.archive ++ items } ∧
      Grows m { m with archive := m.archive ++ items } := by
  have hr : Rearranged m.archive m.state.indexes (m.archive ++ items) m.state.indexes :=
    ⟨fun i => List.mem_append_left items,
      fun i hi => (List.mem_append.mp hi).elim Or.inr (hitems i), fun _ _ => id, fun _ _ => Or.inl⟩
  exact h.shelve hr h.governed.homed.queue

/-- An item of the archive is forgotten in the queue. -/
lemma forgetItem {item : ArchivedWorkUnit} (hitem : item ∈ m.archive) :
    Stocked cat (Budget.forgetItem m item) ∧ Grows m (Budget.forgetItem m item) := by
  unfold Budget.forgetItem
  split
  · exact ⟨h, .refl m⟩
  · rename_i queued hque
    split_ifs
    · exact ⟨h, .refl m⟩
    obtain rfl := h.tidy item hitem queued hque
    have hq := h.governed.homed.queue
    have hsub : ∀ unit i, (m.state.indexes.queue.erase queued.workUnit.id).lookup unit = some i →
        m.state.indexes.queue.lookup unit = some i :=
      fun unit i hi => (FinMap.lookup_erase_cases hi).2
    refine h.shelve ⟨fun _ => id, fun _ => Or.inr, hsub, fun unit i hi => ?_⟩
      ⟨fun unit i hi => hq.keyed unit i (hsub unit i hi), hq.runs.erase hque, hq.idem.erase hque⟩
    by_cases hu : unit = queued.workUnit.id
    · rw [hu, hque] at hi
      exact Or.inr (Option.some.inj hi ▸ hitem)
    · exact Or.inl ((FinMap.lookup_erase_ite _ _ _).trans ((if_neg hu).trans hi))

omit h in
lemma forgetItems (h : Stocked cat m) {items : List ArchivedWorkUnit}
    (hitems : ∀ i ∈ items, i ∈ m.archive) :
    Stocked cat (items.foldl Budget.forgetItem m) ∧ Grows m (items.foldl Budget.forgetItem m) := by
  induction items generalizing m with
  | nil => exact ⟨h, .refl m⟩
  | cons item items ih =>
    obtain ⟨hitem, hrest⟩ := List.forall_mem_cons.mp hitems
    obtain ⟨hfirst, hgrows⟩ := h.forgetItem hitem
    obtain ⟨hall, hmore⟩ := ih hfirst fun i hi => hgrows.archive i (hrest i hi)
    exact ⟨hall, hgrows.trans hmore⟩

/-- An operation leaves what is on the shelf there. -/
lemma act [DecidableEq D] {a : Action} (hplain : a.Plain) :
    Stocked cat (m.step cat a) ∧ Grows m (m.step cat a) := by
  have haccounted := h.accounted.step (stepped cat m a)
  have hgoverned := h.governed.step h.accounted hplain
  have same : (m.step cat a).archive = m.archive →
      (∀ i, Shelf m i → (m.step cat a).state.indexes.queue.lookup i.workUnit.id =
        m.state.indexes.queue.lookup i.workUnit.id) →
      Stocked cat (m.step cat a) ∧ Grows m (m.step cat a) := by
    intro harc hqueue
    refine ⟨⟨haccounted, hgoverned, fun i hi j hj => ?_⟩, fun i hi => by rw [harc]; exact hi, ?_⟩
    · rw [harc] at hi
      rw [hqueue i (Or.inr hi)] at hj
      exact h.tidy i hi j hj
    · rintro i (⟨unit, hi⟩ | hi)
      · refine Or.inl ⟨i.workUnit.id, ?_⟩
        rw [hqueue i (Or.inl ⟨unit, hi⟩)]
        exact h.queued hi
      · exact Or.inr (by rw [harc]; exact hi)
  cases h.accounted.effective (stepped cat m a) with
  | quieter quieter =>
    obtain ⟨digests, order, next, watermark, heq⟩ := quieter.maps
    exact same quieter.archive fun i _ => by rw [heq]
  | admitted action free admits counted hold stage eq =>
    exact same (by rw [eq]; rfl) fun i _ => by rw [eq]; rfl
  | played call event change valid new ledger archive =>
    refine same archive fun i hi => ?_
    rw [state, ledger]
    -- what is archived now was at hand, so it was not on the shelf
    refine change.unqueued _ fun hgone => change.held hgone ?_
    exact h.governed.homed.units.apart i.workUnit ⟨i, hi, rfl⟩
  | flushed eq =>
    rw [eq]
    exact h.shelve m.rearranged_flush (queueIndexed_flush h.governed.homed.queue)

end Stocked

/-! ## Steps and runs -/

/-- What a flush under way copied is on the shelf, and in the archive once it is written. -/
structure Flush.Sound (m : Manager D) (f : Flush) : Prop where
  shelf : ∀ i ∈ f.items, Shelf m i
  written : f.isWritten = true → ∀ i ∈ f.items, i ∈ m.archive

structure Kept (cat : Catalogue D) (p : Archiver D) : Prop where
  stocked : Stocked cat p.manager
  flushes : ∀ f ∈ p.flushes, f.Sound p.manager

namespace Kept

variable {cat : Catalogue D} {p : Archiver D}

lemma new (archiving : Bool) : Kept cat (Archiver.new D archiving) where
  stocked := ⟨.new archiving, .new archiving, fun item hi => by cases hi⟩
  flushes f hf := by cases hf

variable [DecidableEq D]

/-- **Step lemma.** -/
lemma step (h : Kept cat p) {a : Move} (hplain : a.Plain) :
    Kept cat (p.step cat a) ∧ Grows p.manager (p.step cat a).manager := by
  have refl : Kept cat p ∧ Grows p.manager p.manager := ⟨h, .refl _⟩
  have onward : ∀ {n : Manager D}, Grows p.manager n → ∀ f ∈ p.flushes, f.Sound n := fun hg f hf => by
    have hs := h.flushes f hf
    exact ⟨fun i hi => hg.shelf i (hs.shelf i hi), fun hw i hi => hg.archive i (hs.written hw i hi)⟩
  cases a with
  | act action =>
    obtain ⟨hstk, hg⟩ := h.stocked.act hplain
    exact ⟨⟨hstk, onward hg⟩, hg⟩
  | copyArchiveQueue =>
    simp only [Archiver.step]
    split_ifs
    · refine ⟨⟨h.stocked, List.forall_mem_append.mpr ⟨h.flushes, ?_⟩⟩, refl.2⟩
      exact List.forall_mem_singleton.mpr ⟨fun i hi => Or.inl (FinMap.mem_values.mp hi),
        fun hw => by cases hw⟩
    · exact refl
  | writeArchived flush =>
    simp only [Archiver.step]
    split
    · rename_i items hf
      have hshelf := (h.flushes _ (List.mem_of_getElem? hf)).shelf
      obtain ⟨hstk, hg⟩ := h.stocked.write hshelf
      refine ⟨⟨hstk, fun f hmem => ?_⟩, hg⟩
      rcases List.mem_or_eq_of_mem_set hmem with hold | rfl
      · exact onward hg f hold
      · exact ⟨fun i hi => hg.shelf i (hshelf i hi), fun _ i hi => List.mem_append_right _ hi⟩
    · exact refl
  | forgetArchived flush =>
    simp only [Archiver.step]
    split
    · rename_i items hf
      obtain ⟨hstk, hg⟩ := h.stocked.forgetItems
        ((h.flushes _ (List.mem_of_getElem? hf)).written rfl)
      exact ⟨⟨hstk, fun f hmem => onward hg f (List.mem_of_mem_eraseIdx hmem)⟩, hg⟩
    · exact refl

lemma run (h : Kept cat p) {moves : List Move} (hplain : ∀ a ∈ moves, a.Plain) :
    Kept cat (moves.foldl (Archiver.step cat) p) ∧
      Grows p.manager (moves.foldl (Archiver.step cat) p).manager :=
  Along.invariant (P := fun _ a => a.Plain) (I := fun q => Kept cat q ∧ Grows p.manager q.manager)
    (fun _ _ hq ha => ⟨(hq.1.step ha).1, hq.2.trans (hq.1.step ha).2⟩) ⟨h, .refl _⟩
    (.of_forall hplain)

end Kept

/-! ## Lookups -/

/-- A part of a Work Unit that was accepted is found as it was, in the archive of a later moment. -/
lemma findPart_later {V : Type} {key : V → String} {parts : ArchivedWorkUnit → List V}
    {held held' whole whole' : FinMap String V} {index : FinMap String String} {m n : Manager D}
    (hh : Homes key held (fun v => ∃ item, Shelf m item ∧ v ∈ parts item) whole)
    (hl : Leads (fun item => (parts item).map key) m.state.indexes.queue index)
    (hh' : Homes key held' (fun v => ∃ item, Shelf n item ∧ v ∈ parts item) whole')
    (hg : Grows m n) {id : String} {v : V} (hv : whole.lookup id = some v) :
    findPart key parts held index m.state.indexes.queue n.archive id = some v := by
  cases hf : findPart key parts held index m.state.indexes.queue n.archive id with
  | none => exact absurd hf (findPart_ne_none hh hl hv hg.archive)
  | some u =>
    have early : held.lookup id = some u ∨ ((∃ item, Shelf m item ∧ u ∈ parts item) ∧ key u = id) →
        some u = some v := fun hu => ((hh.lookup id u).mpr hu).symm.trans hv
    rcases part_of_findPart hf with hu | ⟨hk, ⟨unit, item, hitem, hmem⟩ | ⟨hnone, item, hitem, hmem⟩⟩
    · exact early (Or.inl hu)
    · exact early (Or.inr ⟨⟨item, Or.inl ⟨unit, hitem⟩, hmem⟩, hk⟩)
    · -- both are on the later shelf under one key
      rcases (hh.lookup id v).mp hv with hheld | ⟨⟨old, hold, hin⟩, hkv⟩
      · rw [hnone] at hheld
        cases hheld
      · have hthen := hh'.of_shelved ⟨old, hg.shelf old hold, hin⟩
        have hnow := hh'.of_shelved ⟨item, Or.inr hitem, hmem⟩
        rw [hk, ← hkv, hthen] at hnow
        exact hnow.symm

/-- A Work Unit that was accepted is found as it was. -/
lemma readWorkUnit_later {cat : Catalogue D} {l m n : Manager D} (hl : Stocked cat l)
    (hm : Stocked cat m) (hn : Stocked cat n) (hg : Grows l m) (hg' : Grows m n) {id : String}
    {w : WorkUnit} (hw : (contents l.history).units.lookup id = some w) :
    readWorkUnit l.state m.state n.archive id = some w := by
  simp only [readWorkUnit, Option.orElse_eq_orElse, Option.orElse_eq_or]
  rcases (hl.governed.homed.units.lookup id w).mp hw with hheld | ⟨⟨item, hitem, rfl⟩, rfl⟩
  · rw [hheld, Option.some_or]
  rw [hl.governed.homed.units.apart item.workUnit ⟨item, hitem, rfl⟩, Option.none_or]
  have hshelf := hg.shelf item hitem
  -- what is found on a later shelf under its name is the same
  have unique : ∀ {k : Manager D}, Stocked cat k → Shelf k item → ∀ {i}, Shelf k i →
      i.workUnit.id = item.workUnit.id → i.workUnit = item.workUnit := fun hk hs i hi heq => by
    have hone := hk.governed.homed.units.of_shelved ⟨i, hi, rfl⟩
    rw [heq, hk.governed.homed.units.of_shelved ⟨item, hs, rfl⟩] at hone
    exact (Option.some.inj hone).symm
  cases hq : m.state.indexes.queue.lookup item.workUnit.id with
  | some i =>
    have heq := unique hm hshelf (Or.inl ⟨_, hq⟩) (hm.governed.homed.queue.keyed _ i hq)
    rw [Option.map_some, Option.some_or, heq]
  | none =>
    have harc : item ∈ n.archive := by
      rcases hshelf with ⟨unit, hi⟩ | hi
      · rw [hm.queued hi] at hq
        cases hq
      · exact hg'.archive item hi
    cases hf : n.archive.find? fun i => i.workUnit.id = item.workUnit.id with
    | none => exact absurd (List.find?_eq_none.mp hf item harc) (by simp)
    | some i =>
      have heq := unique hn (Or.inr harc) (Or.inr (List.mem_of_find?_eq_some hf))
        (by simpa using List.find?_some hf)
      rw [Option.map_none, Option.none_or, Option.map_some, heq]

section ReadDuringFlush

namespace Sample

/-- A Work Unit that is created and closed, and so archived. -/
def finished : List Move :=
  (whole 0 (.createWorkUnit "prj" "key" 5 [] (intent "work_unit.create" '0'))
    (reading "evt_0" "wku_a" 1) ++
  whole 1 (.closeWorkUnit "prj" "key" "wku_a" (intent "work_unit.close" '1'))
    (reading "evt_1" "" 2)).map .act

end Sample

end ReadDuringFlush

end Budget

end Halro
