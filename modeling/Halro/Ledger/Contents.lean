import Halro.Framework.Homes
import Halro.Ledger.Change

/-!
# Where accepted entries are

A Work Unit, a Run or an idempotency record is in the accounting state until its Work Unit is
finished, then in the queue of archived Work Units, then in the archive.  `Contents` is what the
history of accepted records makes of them, wherever they are; nothing of it is ever taken away.
`Homed` says that the three places together hold exactly that, and that the indexes of the queue
lead to what is queued.  A record keeps it so (`Homed.play`), as long as it does not create an entry
under a name that was used before (`Unrepeated`).
-/

namespace Halro

open Framework Framework.FinMap Ledger.State Ledger.GovernanceIdempotency

namespace Ledger

/-! ## What a history accepted -/

/-- The Work Units, Runs and idempotency records that were ever accepted. -/
structure Contents where
  units : FinMap String WorkUnit := ∅
  runs : FinMap String Run := ∅
  keys : FinMap String GovernanceIdempotency := ∅

/-- Change the entry at a key, if there is one. -/
def updateAt {V : Type} (m : FinMap String V) (k : String) (f : V → V) : FinMap String V :=
  match m.lookup k with
  | some v => m.insert k (f v)
  | none => m

/-- A Run with one more amount reserved. -/
def reservedRun (run : Run) (amount : ℤ) : Run :=
  { run with reservedMicrosUSD := run.reservedMicrosUSD + amount }

namespace Contents

def unitsAfter (units : FinMap String WorkUnit) (e : Event) : FinMap String WorkUnit :=
  match e.kind with
  | .workUnitCreated => units.insert e.workUnitID (State.newWorkUnit e)
  | .workUnitClosed => updateAt units e.workUnitID (State.closedUnit · e)
  | _ => units

def runsAfter (runs : FinMap String Run) (x : Effect) : FinMap String Run :=
  match x.event.kind with
  | .runCreated => runs.insert x.event.runID (State.newRun x.event)
  | .runClosed => updateAt runs x.event.runID (State.closedRun · x.event)
  | .reservationCreated =>
    if x.event.runID = "" ∨ x.event.leaseMode = .unknownAllowed then runs
    else updateAt runs x.event.runID (reservedRun · x.event.reservationAmount)
  | .attemptSettled =>
    match x.settled with
    | none => runs
    | some res =>
      if x.event.runID = "" then runs
      else updateAt runs x.event.runID (State.settledRun · x.event res)
  | _ => runs

def keysAfter (keys : FinMap String GovernanceIdempotency) (e : Event) :
    FinMap String GovernanceIdempotency :=
  if e.kind.isLifecycle then keys.insert e.idempotencyKey (State.idempotencyRecord e) else keys

/-- What one more accepted record makes of them. -/
def after (c : Contents) (x : Effect) : Contents where
  units := unitsAfter c.units x.event
  runs := runsAfter c.runs x
  keys := keysAfter c.keys x.event

end Contents

/-- What a history accepted. -/
def contents : List Effect → Contents
  | [] => {}
  | x :: h => (contents h).after x

section Histories

variable {h : List Effect} {id : String}

/-- An update changes an entry that is there. -/
lemma of_updateAt {V : Type} {m : FinMap String V} {k j : String} {f : V → V} {v : V}
    (hv : (updateAt m k f).lookup j = some v) :
    ∃ u, m.lookup j = some u ∧ (j = k ∧ f u = v ∨ j ≠ k ∧ u = v) := by
  unfold updateAt at hv
  cases hl : m.lookup k with
  | none =>
    rw [hl] at hv
    refine ⟨v, hv, Or.inr ⟨fun hj => ?_, rfl⟩⟩
    subst hj
    exact nomatch hl.symm.trans hv
  | some u =>
    rw [hl] at hv
    obtain ⟨rfl, rfl⟩ | ⟨hj, hv⟩ := lookup_insert_cases hv
    · exact ⟨u, hl, Or.inl ⟨rfl, rfl⟩⟩
    · exact ⟨v, hv, Or.inr ⟨hj, rfl⟩⟩

/-- A Work Unit that was accepted was created. -/
lemma unit_created (hs : ((contents h).units.lookup id).isSome) : ∃ x ∈ h, x.CreatesUnit id := by
  induction h with
  | nil => simp [contents] at hs
  | cons x h ih =>
    obtain ⟨v, hv⟩ := Option.isSome_iff_exists.mp hs
    have older : ∀ {u}, (contents h).units.lookup id = some u → ∃ y ∈ x :: h, y.CreatesUnit id :=
      fun hu => List.exists_mem_cons_of_exists (ih (by rw [hu]; rfl))
    simp only [contents, Contents.after, Contents.unitsAfter] at hv
    split at hv
    · rename_i hkind
      obtain ⟨hid, -⟩ | ⟨-, hv⟩ := lookup_insert_cases hv
      · exact ⟨x, List.mem_cons_self, hkind, hid.symm⟩
      · exact older hv
    · obtain ⟨u, hu, -⟩ := of_updateAt hv
      exact older hu
    · exact older hv

/-- A Run after a record is created by it or was there: a closed Run stays closed, and the one the
record closes is closed. -/
lemma run_before {runs : FinMap String Run} {x : Effect} {v : Run}
    (hv : (Contents.runsAfter runs x).lookup id = some v) :
    x.CreatesRun id ∨ ∃ u, runs.lookup id = some u ∧
      (u.status = .closed ∨ x.event.kind = .runClosed ∧ x.event.runID = id →
        v.status = .closed) := by
  -- a change of the Run that keeps its status
  have kept : ∀ {u : Run}, x.event.kind ≠ .runClosed → runs.lookup id = some u →
      v.status = u.status → x.CreatesRun id ∨ ∃ u, runs.lookup id = some u ∧
        (u.status = .closed ∨ x.event.kind = .runClosed ∧ x.event.runID = id →
          v.status = .closed) :=
    fun hk hu hs => Or.inr ⟨_, hu, fun hc => hs.trans (hc.resolve_right fun hcl => hk hcl.1)⟩
  unfold Contents.runsAfter at hv
  split at hv <;> rename_i hkind
  · obtain ⟨hid, -⟩ | ⟨-, hv⟩ := lookup_insert_cases hv
    · exact Or.inl ⟨hkind, hid.symm⟩
    · exact kept (by simp [hkind]) hv rfl
  · obtain ⟨u, hu, ⟨-, rfl⟩ | ⟨hid, rfl⟩⟩ := of_updateAt hv
    · exact Or.inr ⟨u, hu, fun _ => rfl⟩
    · exact Or.inr ⟨u, hu, fun hc => hc.resolve_right fun hcl => hid hcl.2.symm⟩
  · split_ifs at hv
    · exact kept (by simp [hkind]) hv rfl
    · obtain ⟨u, hu, ⟨-, rfl⟩ | ⟨-, rfl⟩⟩ := of_updateAt hv <;> exact kept (by simp [hkind]) hu rfl
  · split at hv
    · exact kept (by simp [hkind]) hv rfl
    · split_ifs at hv
      · exact kept (by simp [hkind]) hv rfl
      · obtain ⟨u, hu, ⟨-, rfl⟩ | ⟨-, rfl⟩⟩ := of_updateAt hv <;> exact kept (by simp [hkind]) hu rfl
  · exact kept (by assumption) hv rfl

/-- A Run that was accepted was created. -/
lemma run_created (hs : ((contents h).runs.lookup id).isSome) : ∃ x ∈ h, x.CreatesRun id := by
  induction h with
  | nil => simp [contents] at hs
  | cons x h ih =>
    obtain ⟨v, hv⟩ := Option.isSome_iff_exists.mp hs
    rcases run_before hv with hx | ⟨u, hu, -⟩
    · exact ⟨x, List.mem_cons_self, hx⟩
    · exact List.exists_mem_cons_of_exists (ih (by rw [hu]; rfl))

/-- An idempotency record is that of a lifecycle record of the history. -/
lemma key_recorded {key : String} {g : GovernanceIdempotency}
    (hg : (contents h).keys.lookup key = some g) :
    ∃ x ∈ h, x.event.kind.isLifecycle = true ∧ x.event.idempotencyKey = key ∧
      g = idempotencyRecord x.event := by
  induction h with
  | nil => simp [contents] at hg
  | cons x h ih =>
    simp only [contents, Contents.after, Contents.keysAfter] at hg
    split_ifs at hg with hlife
    · obtain ⟨hkey, rfl⟩ | ⟨-, hg⟩ := lookup_insert_cases hg
      · exact ⟨x, List.mem_cons_self, hlife, hkey.symm, rfl⟩
      · exact List.exists_mem_cons_of_exists (ih hg)
    · exact List.exists_mem_cons_of_exists (ih hg)

/-- The key of a lifecycle record stays taken. -/
lemma key_taken {x : Effect} (hx : x ∈ h) (hlife : x.event.kind.isLifecycle = true) :
    ((contents h).keys.lookup x.event.idempotencyKey).isSome := by
  induction h with
  | nil => cases hx
  | cons y h ih =>
    simp only [contents, Contents.after, Contents.keysAfter]
    rcases List.mem_cons.mp hx with rfl | hx
    · rw [if_pos hlife, lookup_insert_ite, if_pos rfl]
      rfl
    · split_ifs
      · rw [lookup_insert_ite]
        split_ifs
        · rfl
        · exact ih hx
      · exact ih hx

end Histories

/-! ## The shelf -/

/-- An archived Work Unit, in the queue or in the archive. -/
def OnShelf (archive : List ArchivedWorkUnit) (q : ArchiveIndexes) (item : ArchivedWorkUnit) :
    Prop :=
  (∃ unit, q.queue.lookup unit = some item) ∨ item ∈ archive

/-- An index leads from a part to the queued item that has it. -/
def Leads (parts : ArchivedWorkUnit → List String) (queue : FinMap String ArchivedWorkUnit)
    (index : FinMap String String) : Prop :=
  ∀ id unit, index.lookup id = some unit ↔
    ∃ item, queue.lookup unit = some item ∧ id ∈ parts item

/-- The identifiers of an item's Runs. -/
def ArchivedWorkUnit.runIDs (item : ArchivedWorkUnit) : List String := item.runs.map Run.id

/-- The keys of an item's idempotency records. -/
def ArchivedWorkUnit.keys (item : ArchivedWorkUnit) : List String :=
  item.idempotency.map GovernanceIdempotency.mapKey

namespace Leads

variable {parts : ArchivedWorkUnit → List String} {queue : FinMap String ArchivedWorkUnit}
  {index index' : FinMap String String} {unit : String} {item : ArchivedWorkUnit}

/-- One more item, none of whose parts is queued. -/
lemma insert (h : Leads parts queue index) (hnone : queue.lookup unit = none)
    (hnew : ∀ id ∈ parts item, index.lookup id = none)
    (hin : ∀ id ∈ parts item, index'.lookup id = some unit)
    (hout : ∀ id, id ∉ parts item → index'.lookup id = index.lookup id) :
    Leads parts (queue.insert unit item) index' := by
  intro id v
  simp only [lookup_insert_ite]
  by_cases hid : id ∈ parts item
  · rw [hin id hid]
    constructor
    · intro hv
      exact ⟨item, if_pos (Option.some.inj hv).symm, hid⟩
    · rintro ⟨i, hi, hpart⟩
      split_ifs at hi with hv
      · rw [hv]
      · have hque := (h id v).mpr ⟨i, hi, hpart⟩
        rw [hnew id hid] at hque
        cases hque
  · rw [hout id hid, h id v]
    constructor
    · rintro ⟨i, hi, hpart⟩
      exact ⟨i, by rw [if_neg (by rintro rfl; rw [hnone] at hi; cases hi), hi], hpart⟩
    · rintro ⟨i, hi, hpart⟩
      split_ifs at hi
      · rw [← Option.some.inj hi] at hpart
        exact absurd hpart hid
      · exact ⟨i, hi, hpart⟩

/-- One item less. -/
lemma erase (h : Leads parts queue index) (hitem : queue.lookup unit = some item) :
    Leads parts (queue.erase unit) (index.eraseAll (parts item)) := by
  intro id v
  rw [lookup_eraseAll, lookup_erase_ite]
  split_ifs with hid hv hv
  · simp
  · simp only [false_iff]
    rintro ⟨i, hi, hpart⟩
    have hother := (h id v).mpr ⟨i, hi, hpart⟩
    rw [(h id unit).mpr ⟨item, hitem, hid⟩] at hother
    exact hv (Option.some.inj hother).symm
  · simp only [false_and, exists_false, iff_false]
    intro hlead
    obtain ⟨i, hi, hpart⟩ := (h id v).mp hlead
    rw [hv, hitem] at hi
    exact hid ((Option.some.inj hi) ▸ hpart)
  · exact h id v

end Leads

/-- The indexes of the queue lead to what is queued. -/
structure QueueIndexed (q : ArchiveIndexes) : Prop where
  keyed : ∀ unit item, q.queue.lookup unit = some item → item.workUnit.id = unit
  runs : Leads ArchivedWorkUnit.runIDs q.queue q.queuedRuns
  idem : Leads ArchivedWorkUnit.keys q.queue q.queuedIdem

variable {D : Type} {cat : Catalogue D} {s : State D} {h : List Effect} {r : Record}
  {archive : List ArchivedWorkUnit} {c : Contents}

/-- **What was accepted is in the state, the queue or the archive**, each entry in one of them. -/
structure Homed (archive : List ArchivedWorkUnit) (s : State D) (c : Contents) : Prop where
  units : Homes WorkUnit.id s.workUnits
    (fun w => ∃ item, OnShelf archive s.indexes item ∧ item.workUnit = w) c.units
  runs : Homes Run.id s.runs
    (fun run => ∃ item, OnShelf archive s.indexes item ∧ run ∈ item.runs) c.runs
  keys : Homes GovernanceIdempotency.mapKey s.governanceIdempotency
    (fun g => ∃ item, OnShelf archive s.indexes item ∧ g ∈ item.idempotency) c.keys
  queue : QueueIndexed s.indexes
  members : ∀ item, OnShelf archive s.indexes item →
    ∀ run ∈ item.runs, run.workUnitID = item.workUnit.id

/-- A shelf arranged otherwise: what is queued was queued, what is archived was shelved, and nothing
has left. -/
structure Rearranged (archive : List ArchivedWorkUnit) (q : ArchiveIndexes)
    (archive' : List ArchivedWorkUnit) (q' : ArchiveIndexes) : Prop where
  archived : ∀ i ∈ archive, i ∈ archive'
  shelved : ∀ i ∈ archive', OnShelf archive q i
  queued : ∀ unit i, q'.queue.lookup unit = some i → q.queue.lookup unit = some i
  kept : ∀ unit i, q.queue.lookup unit = some i → q'.queue.lookup unit = some i ∨ i ∈ archive'

lemma Rearranged.onShelf_iff {archive' : List ArchivedWorkUnit} {q q' : ArchiveIndexes}
    (h : Rearranged archive q archive' q') (i : ArchivedWorkUnit) :
    OnShelf archive' q' i ↔ OnShelf archive q i := by
  constructor
  · rintro (⟨unit, hi⟩ | hi)
    · exact Or.inl ⟨unit, h.queued unit i hi⟩
    · exact h.shelved i hi
  · rintro (⟨unit, hi⟩ | hi)
    · exact (h.kept unit i hi).imp_left fun hi => ⟨unit, hi⟩
    · exact Or.inr (h.archived i hi)

/-! ## Archiving one Work Unit -/

namespace State

section Item

variable {w : WorkUnit} {k : ℕ} {i : String}

/-- The Runs of an archived Work Unit are those that were held under it. -/
lemma mem_archivedItem_runs (hb : Books cat s h) (unit : String) {v : Run} :
    v ∈ (s.archivedItem w unit k).runs ↔ s.runs.lookup v.id = some v ∧ v.workUnitID = unit := by
  refine ⟨fun hrun => archivedItem_runs hb hrun, fun ⟨hr, hu⟩ => ?_⟩
  refine List.mem_map.mpr ⟨v.id, (hb.listed.mem unit v.id).mpr ?_, run_of_lookup hr⟩
  rw [hr, Option.map_some, hu]

/-- The keys of what a map holds under a Work Unit. -/
lemma mem_map_key {V : Type} {key unitOf : V → String} {m : FinMap String V} {l : List V}
    {unit : String} (hmem : ∀ v, v ∈ l ↔ m.lookup (key v) = some v ∧ unitOf v = unit)
    (hkeyed : ∀ i v, m.lookup i = some v → key v = i) :
    i ∈ l.map key ↔ (m.lookup i).map unitOf = some unit := by
  rw [List.mem_map, Option.map_eq_some_iff]
  constructor
  · rintro ⟨v, hv, rfl⟩
    exact ⟨v, (hmem v).mp hv⟩
  · rintro ⟨v, hv, hu⟩
    have hk := hkeyed i v hv
    exact ⟨v, (hmem v).mpr ⟨hk.symm ▸ hv, hu⟩, hk⟩

/-- Its idempotency records are those that were held under it. -/
lemma mem_archivedItem_idempotency (hb : Books cat s h) (unit : String)
    {v : GovernanceIdempotency} :
    v ∈ (s.archivedItem w unit k).idempotency ↔
      s.governanceIdempotency.lookup v.mapKey = some v ∧ v.workUnitID = unit := by
  unfold archivedItem
  rw [List.mem_filterMap]
  constructor
  · rintro ⟨key, hkey, hg⟩
    obtain ⟨g, hg', hu⟩ := hb.idem.lookup_of_mem (mem_sortedKeys.mp hkey)
    rw [hg] at hg'
    obtain rfl := Option.some.inj hg'
    rw [hb.idemKeyed key v hg]
    exact ⟨hg, hu⟩
  · rintro ⟨hg, hu⟩
    refine ⟨v.mapKey, mem_sortedKeys.mpr ((hb.idem.mem unit v.mapKey).mpr ?_), hg⟩
    rw [hg, Option.map_some, hu]

end Item

end State

namespace Homed

variable {w : WorkUnit} {unit : String} {sequence : ℕ}

section

variable (hh : Homed archive s c)

include hh

omit hh in
/-- A part at hand is not queued. -/
lemma part_unqueued {V : Type} {key : V → String} {parts : ArchivedWorkUnit → List V}
    {held whole : FinMap String V} {index : FinMap String String} {id : String} {v : V}
    (homes : Homes key held (fun v => ∃ item, OnShelf archive s.indexes item ∧ v ∈ parts item) whole)
    (leads : Leads (fun item => (parts item).map key) s.indexes.queue index)
    (hv : held.lookup id = some v) : index.lookup id = none := by
  refine Option.eq_none_iff_forall_ne_some.mpr fun u hq => ?_
  obtain ⟨item, hitem, hmem⟩ := (leads id u).mp hq
  obtain ⟨shelved, hin, rfl⟩ := List.mem_map.mp hmem
  exact nomatch hv.symm.trans (homes.apart shelved ⟨item, Or.inl ⟨u, hitem⟩, hin⟩)

/-- **Archiving a Work Unit moves it, its Runs and its idempotency records to the queue.** -/
lemma archiveWorkUnit (hb : Books cat s h) (hw : s.workUnits.lookup unit = some w) :
    Homed archive (s.archiveWorkUnit w unit sequence) c := by
  obtain ⟨queuedRuns, queuedIdem, liveRuns, heq, -, hqueuedRuns, hqueuedIdem⟩ :=
    archiveWorkUnit_eq w unit sequence hb.live
  -- what is queued is not at hand
  have hnone : s.indexes.queue.lookup unit = none := by
    refine Option.eq_none_iff_forall_ne_some.mpr fun item hq => ?_
    have hnone := hh.units.apart item.workUnit ⟨item, Or.inl ⟨unit, hq⟩, rfl⟩
    rw [hh.queue.keyed unit item hq, hw] at hnone
    cases hnone
  have hid : w.id = unit := (hb.unitsHeld.keyed unit w hw).1
  have hruns := fun run => mem_archivedItem_runs (w := w) (k := sequence) (v := run) hb unit
  have hkeys := fun g => mem_archivedItem_idempotency (w := w) (k := sequence) (v := g) hb unit
  have hids : ∀ id, id ∈ (s.archivedItem w unit sequence).runIDs ↔ id ∈ s.runsOf unit := by
    intro id
    refine Iff.trans ?_ (hb.listed.mem unit id).symm
    exact mem_map_key hruns hb.runsHeld.id
  have hkeyIDs : ∀ key, key ∈ (s.archivedItem w unit sequence).keys ↔ key ∈ s.sortedKeys unit := by
    intro key
    rw [mem_sortedKeys, hb.idem.mem unit key]
    exact mem_map_key hkeys hb.idemKeyed
  have hheld : ∀ key ∈ (s.archivedItem w unit sequence).keys,
      ∃ g, s.governanceIdempotency.lookup key = some g := fun key hmem =>
    (hb.idem.lookup_of_mem (mem_sortedKeys.mp ((hkeyIDs key).mp hmem))).imp fun g hg => hg.1
  rw [heq]
  -- the shelf has one more item
  have hshelf : ∀ i, OnShelf archive { s.indexes with
      queue := s.indexes.queue.insert unit (s.archivedItem w unit sequence),
      queuedRuns := queuedRuns, queuedIdem := queuedIdem,
      idemByUnit := s.indexes.idemByUnit.erase unit, liveRuns := liveRuns } i ↔
        OnShelf archive s.indexes i ∨ i = s.archivedItem w unit sequence := by
    intro i
    unfold OnShelf
    simp only [lookup_insert_ite]
    constructor
    · rintro (⟨v, hv⟩ | hi)
      · split_ifs at hv
        · exact Or.inr (Option.some.inj hv).symm
        · exact Or.inl (Or.inl ⟨v, hv⟩)
      · exact Or.inl (Or.inr hi)
    · rintro ((⟨v, hv⟩ | hi) | rfl)
      · refine Or.inl ⟨v, ?_⟩
        rw [if_neg (by rintro rfl; rw [hnone] at hv; cases hv), hv]
      · exact Or.inr hi
      · exact Or.inl ⟨unit, if_pos rfl⟩
  refine ⟨?_, ?_, ?_, ⟨?_, ?_, ?_⟩, ?_⟩
  · refine hh.units.move (fun v => v.id = unit) (fun k v => ?_) fun v => ?_
    · rw [lookup_erase_ite]
      split_ifs with hk
      · refine ⟨fun hv => (by cases hv), fun ⟨hv, hne⟩ => absurd ?_ hne⟩
        rw [hh.units.keyed k v hv, hk]
      · refine ⟨fun hv => ⟨hv, fun hu => hk ?_⟩, fun hv => hv.1⟩
        rw [← hh.units.keyed k v hv, hu]
    · simp only [hshelf]
      constructor
      · rintro ⟨i, hi | rfl, rfl⟩
        · exact Or.inl ⟨i, hi, rfl⟩
        · exact Or.inr ⟨by change s.workUnits.lookup w.id = some w; rw [hid]; exact hw, hid⟩
      · rintro (⟨i, hi, rfl⟩ | ⟨hv, hu⟩)
        · exact ⟨i, Or.inl hi, rfl⟩
        · refine ⟨_, Or.inr rfl, ?_⟩
          rw [hu, hw] at hv
          exact Option.some.inj hv
  · refine hh.runs.move (fun v => v.workUnitID = unit) (fun k v => hb.stays_iff unit) fun v => ?_
    simp only [hshelf, or_and_right, exists_or, exists_eq_left, hruns]
  · refine hh.keys.move (fun v => v.workUnitID = unit) (fun k v => ?_) fun v => ?_
    · rw [hb.idem.lookup_eraseAll (fun _ => mem_sortedKeys)]
      simp
    · simp only [hshelf, or_and_right, exists_or, exists_eq_left, hkeys]
  · exact forall_insert hid hh.queue.keyed
  · refine hh.queue.runs.insert hnone (fun id hmem => ?_) (fun id hmem => ?_) fun id hmem => ?_
    · rw [hids] at hmem
      obtain ⟨run, hr, -⟩ := hb.listed.lookup_of_mem hmem
      exact part_unqueued hh.runs hh.queue.runs hr
    · rw [hqueuedRuns, if_pos ((hids id).mp hmem)]
    · rw [hqueuedRuns, if_neg fun hin => hmem ((hids id).mpr hin)]
  · refine hh.queue.idem.insert hnone (fun key hmem => ?_) (fun key hmem => ?_) fun key hmem => ?_
    · obtain ⟨g, hg⟩ := hheld key hmem
      exact part_unqueued hh.keys hh.queue.idem hg
    · obtain ⟨g, hg⟩ := hheld key hmem
      rw [hqueuedIdem, if_pos ⟨(hkeyIDs key).mp hmem, by rw [hg]; rfl⟩]
    · rw [hqueuedIdem, if_neg fun hin => hmem ((hkeyIDs key).mpr hin.1)]
  · intro i hi run hrun
    rcases (hshelf i).mp hi with hi | rfl
    · exact hh.members i hi run hrun
    · rw [((hruns run).mp hrun).2]
      exact hid.symm

lemma rearrange {archive' : List ArchivedWorkUnit} {q : ArchiveIndexes}
    (hr : Rearranged archive s.indexes archive' q) (hq : QueueIndexed q) :
    Homed archive' { s with indexes := q } c where
  units := hh.units.congr fun w => by simp only [hr.onShelf_iff]
  runs := hh.runs.congr fun run => by simp only [hr.onShelf_iff]
  keys := hh.keys.congr fun g => by simp only [hr.onShelf_iff]
  queue := hq
  members i hi := hh.members i ((hr.onShelf_iff i).mp hi)

/-- `Homed` reads the three maps and the queue. -/
lemma congr {t : State D} (hunits : t.workUnits = s.workUnits)
    (hruns : t.runs = s.runs) (hkeys : t.governanceIdempotency = s.governanceIdempotency)
    (hqueue : t.indexes.queue = s.indexes.queue)
    (hqueuedRuns : t.indexes.queuedRuns = s.indexes.queuedRuns)
    (hqueuedIdem : t.indexes.queuedIdem = s.indexes.queuedIdem) : Homed archive t c := by
  have hsame : Rearranged archive s.indexes archive t.indexes :=
    ⟨fun _ => id, fun _ => Or.inr, fun _ _ => hqueue ▸ id, fun _ _ => hqueue ▸ Or.inl⟩
  have hh' := hh.rearrange hsame ⟨hqueue ▸ hh.queue.keyed, hqueue ▸ hqueuedRuns ▸ hh.queue.runs,
    hqueue ▸ hqueuedIdem ▸ hh.queue.idem⟩
  exact ⟨hunits ▸ hh'.units, hruns ▸ hh'.runs, hkeys ▸ hh'.keys, hh'.queue, hh'.members⟩

/-! ## Archiving what a record finished -/

lemma archiveFinished (hb : Books cat s h) (unit : String) (now : ℤ)
    (sequence : ℕ) : Homed archive (s.archiveFinished unit now sequence) c := by
  refine (archiveFinished_keeps (P := fun t => Books cat t h ∧ Homed archive t c) ?_ ?_ unit now
    ⟨hb, hh⟩).2
  · rintro s waiting expiries ⟨hb, hh⟩
    exact ⟨{ hb with }, hh.congr rfl rfl rfl rfl rfl rfl⟩
  · rintro s unit w ⟨hb, hh⟩ hw hcl hact hpend
    exact ⟨hb.archiveWorkUnit hw hcl hact hpend, hh.archiveWorkUnit hb hw⟩

end

end Homed

/-! ## Accepting a record -/

/-- What a record creates was never created before. -/
structure Unrepeated (c : Contents) (e : Event) : Prop where
  unit : e.kind = .workUnitCreated → c.units.lookup e.workUnitID = none
  run : e.kind = .runCreated → c.runs.lookup e.runID = none
  key : e.kind.isLifecycle = true → c.keys.lookup e.idempotencyKey = none

/-- What an accepted record changes is at hand. -/
structure Grounded (s : State D) (e : Event) : Prop where
  unit : e.kind = .workUnitClosed → ∃ w, s.workUnits.lookup e.workUnitID = some w
  closed : e.kind = .runClosed → ∃ run, s.runs.lookup e.runID = some run
  run : e.kind = .reservationCreated ∨ e.kind = .attemptSettled → e.runID ≠ "" →
    ∃ run, s.runs.lookup e.runID = some run
  settled : e.kind = .attemptSettled → ∃ res, s.reservations.lookup e.attemptID = some res

/-- The stages of an accepted record have found what it changes. -/
lemma State.grounded (hb : Books cat s h) {k : State D} {b : Balance}
    (hk : s.KindApplied r k b) : Grounded s r.event := by
  cases hk with
  | workUnitClosed kind unit => exact ⟨fun _ => ⟨_, unit⟩, by simp [kind], by simp [kind], by simp [kind]⟩
  | runClosed kind held => exact ⟨by simp [kind], fun _ => ⟨_, held⟩, by simp [kind], by simp [kind]⟩
  | reservationCreated kind attribution =>
    refine ⟨by simp [kind], by simp [kind], fun _ hrun => ?_, by simp [kind]⟩
    exact (hb.run_of_attribution attribution hrun).imp fun run hr => hr.1
  | attemptSettled kind lease settles =>
    refine ⟨by simp [kind], by simp [kind], fun _ hrun => ?_, fun _ => ⟨_, lease⟩⟩
    rw [settles.run] at hrun ⊢
    exact ((hb.sound _ _ lease).run hrun).imp fun run hr => hr.1
  | workUnitCreated kind | runCreated kind | attemptStarted kind | requestFinalized kind
  | requestAccepted kind | requestAttributed kind => constructor <;> simp [kind]

section Maps

variable {e : Event} {units : FinMap String WorkUnit} {runs : FinMap String Run}
  {keys : FinMap String GovernanceIdempotency}

lemma Grounded.units_entered {shelved : WorkUnit → Prop} (hg : Grounded s e)
    (hh : Homes WorkUnit.id s.workUnits shelved units)
    (hnew : e.kind = .workUnitCreated → units.lookup e.workUnitID = none) :
    Homes WorkUnit.id (s.workUnitsAfter e) shelved (Contents.unitsAfter units e) := by
  have hcl := hg.unit
  cases hkind : e.kind <;> simp only [workUnitsAfter, Contents.unitsAfter, hkind]
  case workUnitCreated =>
    exact hh.enter rfl (hnew hkind)
  case workUnitClosed =>
    obtain ⟨w, hw⟩ := hcl hkind
    simp only [updateAt, hw, hh.of_held hw]
    exact hh.change (hh.keyed _ w hw) hw
  all_goals exact hh

lemma Grounded.runs_entered {shelved : Run → Prop} (hg : Grounded s e)
    (hh : Homes Run.id s.runs shelved runs)
    (hnew : e.kind = .runCreated → runs.lookup e.runID = none) :
    Homes Run.id (s.runsAfter e) shelved (Contents.runsAfter runs (s.entry e)) := by
  -- a Run at hand that is changed
  have changed : ∀ {run : Run} (f : Run → Run), s.runs.lookup e.runID = some run →
      (f run).id = run.id →
      Homes Run.id (s.runs.insert e.runID (f run)) shelved (updateAt runs e.runID f) := by
    intro run f hr hid
    simp only [updateAt, hh.of_held hr]
    exact hh.change (hid.trans (hh.keyed _ run hr)) hr
  have hevent : (s.entry e).event = e := rfl
  cases hkind : e.kind <;>
    simp only [runsAfter, Contents.runsAfter, hevent, hkind]
  case runCreated => exact hh.enter rfl (hnew hkind)
  case runClosed =>
    obtain ⟨run, hr⟩ := hg.closed hkind
    rw [hr]
    exact changed (closedRun · e) hr rfl
  case reservationCreated =>
    unfold reservedRuns
    split_ifs with hplain
    · exact hh
    · rw [not_or] at hplain
      obtain ⟨run, hr⟩ := hg.run (Or.inl hkind) hplain.1
      rw [run_of_lookup hr]
      exact changed (reservedRun · e.reservationAmount) hr rfl
  case attemptSettled =>
    obtain ⟨res, hres⟩ := hg.settled hkind
    have hset : (s.entry e).settled = some res := by rw [entry, if_pos hkind, hres]
    rw [hres, hset]
    simp only [settledRuns]
    split_ifs with hplain
    · exact hh
    · obtain ⟨run, hr⟩ := hg.run (Or.inr hkind) hplain
      rw [run_of_lookup hr]
      exact changed (settledRun · e res) hr rfl
  all_goals exact hh

end Maps

namespace Homed

/-- **An accepted record enters the three maps as it enters what was accepted.** -/
lemma enter (hh : Homed archive s c) {e : Event} (hg : Grounded s e) (hnew : Unrepeated c e) :
    Homed archive ({ s with
      workUnits := s.workUnitsAfter e, runs := s.runsAfter e,
      governanceIdempotency := s.idempotencyAfter e } : State D) (c.after (s.entry e)) where
  units := hg.units_entered hh.units hnew.unit
  runs := hg.runs_entered hh.runs hnew.run
  keys := by
    change Homes mapKey (s.idempotencyAfter e) _ (Contents.keysAfter c.keys e)
    unfold idempotencyAfter Contents.keysAfter
    split_ifs with hlife
    · exact hh.keys.enter rfl (hnew.key hlife)
    · exact hh.keys
  queue := hh.queue
  members := hh.members

/-- A fresh record that is accepted. -/
lemma applyFresh (hh : Homed archive s (contents h)) (hb : Books cat s h)
    (hv : r.event.validate cat = []) (hf : s.Fresh r.event)
    (hnew : Unrepeated (contents h) r.event) {t : State D} {digest : D}
    (hok : s.applyFresh r digest = .ok t) :
    Homed archive t (contents (s.entry r.event :: h)) := by
  obtain ⟨u, hst, rfl⟩ := applyFresh_ok hok
  have hbks := hb.staged hv hf hst
  have heff := effected hb hv hst
  obtain ⟨-, -, -, -, hqueue, hruns, hidem⟩ := hst.frame
  obtain ⟨k, b, -, happl⟩ := hst.kind hv
  have hent : Homed archive u (contents (s.entry r.event :: h)) :=
    (hh.enter (grounded hb happl) hnew).congr heff.workUnits heff.runs heff.governanceIdempotency
      hqueue hruns hidem
  rw [advance_eq]
  exact (hent.archiveFinished hbks r.event.workUnitID r.event.occurredAt r.sequence).congr rfl
    rfl rfl rfl rfl rfl

/-- **Step lemma.**  A record, accepted or refused, keeps every accepted entry in its place. -/
lemma play [DecidableEq D] {p : State D × List Effect} (hh : Homed archive p.1 (contents p.2))
    (hb : Books cat p.1 p.2) (hnew : Unrepeated (contents p.2) r.event) :
    Homed archive (Ledger.play cat p r).1 (contents (Ledger.play cat p r).2) := by
  cases hr : p.1.apply cat r with
  | error failure =>
    obtain ⟨t, err⟩ := failure
    have hnone : effectOf cat p.1 r = none := by rw [effectOf, hr]
    rw [Ledger.play, hnone, hr]
    rcases apply_error_state hr with rfl | hleft
    · exact hh
    · rw [hleft.eq]
      exact hh.congr rfl rfl rfl rfl rfl rfl
  | ok t =>
    rw [Ledger.play, hr]
    rcases accepted_cases hr with ⟨heff, digests, order, next, watermark, rfl⟩ |
      ⟨heff, hv, hf, digest, ok⟩ <;> rw [heff]
    · exact hh.congr rfl rfl rfl rfl rfl rfl
    · exact hh.applyFresh hb hv hf hnew ok

lemma new (archiving : Bool) : Homed [] (State.new D archiving) (contents []) where
  units := (Homes.empty WorkUnit.id).congr fun w => by simp [OnShelf, State.new]
  runs := (Homes.empty Run.id).congr fun run => by simp [OnShelf, State.new]
  keys := (Homes.empty mapKey).congr fun g => by simp [OnShelf, State.new]
  queue := ⟨fun unit item hitem => by simp [State.new] at hitem,
    fun id unit => by simp [State.new], fun key unit => by simp [State.new]⟩
  members item hitem := by simp [OnShelf, State.new] at hitem

end Homed

end Ledger

end Halro
