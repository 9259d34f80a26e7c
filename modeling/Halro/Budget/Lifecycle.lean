import Halro.Budget.Safety

/-!
# Work Units, Runs and their keys over interleaved operations

The lifecycle lock of a project orders the creation and closing of its Work Units and Runs.  This
module draws from it, for every interleaving, what later results about them rest on (`Governed`):
every accepted entry is in the state, the queue or the archive; no two calls under way exclude each
other; what a call is going to create, its idempotency key included, is not taken while its record
is not applied; and as long as the log takes appends, every record of it has taken effect or belongs
to a call that is about to apply it.

The idempotency key joins a project, an operation and a hash with NUL.  The names of operations the
control plane uses are fixed texts without one, which is the only assumption (`Action.Plain`).
-/

namespace Halro

open Framework Framework.FinMap

namespace Budget

open Ledger Manager

/-! ## Keys -/

/-- Texts joined with a separator that the last of them does not have come apart at it. -/
lemma append_cons_inj {α : Type} {a : α} {x y u v : List α} (hu : a ∉ u) (hv : a ∉ v)
    (h : x ++ a :: u = y ++ a :: v) : x = y ∧ u = v := by
  rcases List.append_eq_append_iff.mp h with ⟨z, rfl, hz⟩ | ⟨z, rfl, hz⟩
  · rcases List.cons_eq_append_iff.mp hz with ⟨rfl, heq⟩ | ⟨w, rfl, heq⟩
    · exact ⟨(List.append_nil x).symm, (List.cons.inj heq).2.symm⟩
    · exact absurd (by rw [heq]; simp) hu
  · rcases List.cons_eq_append_iff.mp hz with ⟨rfl, heq⟩ | ⟨w, rfl, heq⟩
    · exact ⟨List.append_nil y, (List.cons.inj heq).2⟩
    · exact absurd (by rw [heq]; simp) hv

/-- The operation and the key hash of an event have no separator in them. -/
structure Keyed (e : Event) : Prop where
  operation : '\x00' ∉ e.operation.toList
  keyHash : '\x00' ∉ e.idempotencyKeyHash.toList

variable {e f : Event}

/-- Events with one key are of one project and one operation. -/
lemma Keyed.parts_eq (he : Keyed e) (hf : Keyed f) (h : e.idempotencyKey = f.idempotencyKey) :
    e.projectID = f.projectID ∧ e.operation = f.operation := by
  have hlist := congrArg String.toList h
  simp only [Event.idempotencyKey, governanceIdempotencyMapKey, String.toList_append] at hlist
  have hhash := append_cons_inj (x := e.projectID.toList ++ ['\x00'] ++ e.operation.toList)
    (y := f.projectID.toList ++ ['\x00'] ++ f.operation.toList) he.keyHash hf.keyHash
    (by simpa using hlist)
  have hop := append_cons_inj (x := e.projectID.toList) (y := f.projectID.toList)
    he.operation hf.operation (by simpa using hhash.1)
  exact ⟨String.toList_inj.mp hop.1, String.toList_inj.mp hop.2⟩

lemma notMem_of_validSHA256Label {label : String} (h : validSHA256Label label = true) :
    '\x00' ∉ label.toList := by
  unfold validSHA256Label at h
  simp only [Bool.and_eq_true] at h
  obtain ⟨⟨hlead, -⟩, hdigits⟩ := h
  intro hmem
  rw [← List.take_append_drop 7 label.toList, List.mem_append] at hmem
  rcases hmem with hmem | hmem
  · -- the first seven characters are the name of the digest
    obtain ⟨rest, hrest⟩ := List.isPrefixOf_iff_prefix.mp hlead
    rw [← hrest] at hmem
    revert hmem
    rw [List.take_append_of_le_length (by decide)]
    decide
  · have hdigit := List.all_eq_true.mp hdigits _ hmem
    revert hdigit
    decide

/-! ## Lookups -/

section Lookups

variable {D : Type} {archive : List ArchivedWorkUnit} {s : State D} {c : Contents}

section Parts

variable {V : Type} {key : V → String} {parts : ArchivedWorkUnit → List V}
  {held whole : FinMap String V} {index : FinMap String String} {id : String} {v : V}
  {q : ArchiveIndexes}
  (hh : Homes key held (fun v => ∃ item, OnShelf archive q item ∧ v ∈ parts item) whole)
  (hl : Leads (fun item => (parts item).map key) q.queue index)

include hh hl

/-- What was accepted is found, also if more has been archived since. -/
lemma findPart_ne_none {archive' : List ArchivedWorkUnit} (hv : whole.lookup id = some v)
    (hsub : ∀ item ∈ archive, item ∈ archive') :
    findPart key parts held index q.queue archive' id ≠ none := by
  intro hnone
  simp only [findPart, Option.orElse_eq_orElse, Option.orElse_eq_or, Option.or_eq_none_iff] at hnone
  obtain ⟨hheld, hqueue, harc⟩ := hnone
  have found : ∀ item, v ∈ parts item → key v = id →
      ((parts item).find? fun v => key v = id) ≠ none :=
    fun item hmem hk hf => by simpa [hk] using List.find?_eq_none.mp hf v hmem
  rcases (hh.lookup id v).mp hv with hv | ⟨⟨item, ⟨unit, hitem⟩ | hitem, hmem⟩, hk⟩
  · rw [hheld] at hv
    cases hv
  · have hindex := (hl id unit).mpr ⟨item, hitem, List.mem_map.mpr ⟨v, hmem, hk⟩⟩
    rw [hindex, Option.bind_some, hitem, Option.bind_some] at hqueue
    exact found item hmem hk hqueue
  · exact found item hmem hk (List.findSome?_eq_none_iff.mp harc item (hsub item hitem))

/-- A lookup answers with what was accepted. -/
lemma findPart_eq (id : String) :
    findPart key parts held index q.queue archive id = whole.lookup id := by
  cases hf : findPart key parts held index q.queue archive id with
  | some u =>
    refine ((hh.lookup id u).mpr ?_).symm
    rcases part_of_findPart hf with hheld | ⟨hk, ⟨unit, item, hitem, hmem⟩ | ⟨-, item, hitem, hmem⟩⟩
    · exact Or.inl hheld
    · exact Or.inr ⟨⟨item, Or.inl ⟨unit, hitem⟩, hmem⟩, hk⟩
    · exact Or.inr ⟨⟨item, Or.inr hitem, hmem⟩, hk⟩
  | none =>
    cases hw : whole.lookup id with
    | none => rfl
    | some v => exact absurd hf (findPart_ne_none hh hl hw fun _ hi => hi)

end Parts

lemma findRun_eq (hh : Homed archive s c) (id : String) : findRun archive s id = c.runs.lookup id :=
  findPart_eq hh.runs hh.queue.runs id

lemma findIdempotency_eq (hh : Homed archive s c) (key : String) :
    findIdempotency archive s key = c.keys.lookup key :=
  findPart_eq hh.keys hh.queue.idem key

/-- Nothing is queued after a flush. -/
lemma queue_flush {m : Manager D} (hq : QueueIndexed m.state.indexes) (unit : String) :
    m.flush.state.indexes.queue.lookup unit = none := by
  simp only [Manager.flush, Manager.state]
  rw [lookup_eraseAll]
  split_ifs with hmem
  · rfl
  · cases hl : m.ledger.1.indexes.queue.lookup unit with
    | none => rfl
    | some item =>
      refine absurd (List.mem_map.mpr ⟨item, mem_values.mpr ⟨unit, hl⟩, ?_⟩) hmem
      exact hq.keyed unit item hl

lemma queueIndexed_flush {m : Manager D} (hq : QueueIndexed m.state.indexes) :
    QueueIndexed m.flush.state.indexes := by
  have hqueue := queue_flush hq
  have drained : ∀ {parts : ArchivedWorkUnit → List String} {index : FinMap String String},
      Leads parts m.state.indexes.queue index → Leads parts m.flush.state.indexes.queue
        (index.eraseAll (((m.state.indexes.queue.entriesSorted idLE).map Prod.snd).flatMap parts)) := by
    intro parts index hl id unit
    simp only [hqueue, reduceCtorEq, false_and, exists_false, iff_false]
    rw [lookup_eraseAll]
    split_ifs with hmem
    · simp
    · intro hv
      obtain ⟨item, hitem, hpart⟩ := (hl id unit).mp hv
      exact hmem (List.mem_flatMap.mpr ⟨item, mem_values.mpr ⟨unit, hitem⟩, hpart⟩)
  refine ⟨fun unit item hitem => ?_, drained hq.runs, drained hq.idem⟩
  rw [hqueue] at hitem
  cases hitem

end Lookups

/-! ## Events that do not collide -/

/-- Two events with their own identifiers, which create different Work Units and Runs and, if both
are lifecycle events, have different keys. -/
structure Apart (e f : Event) : Prop where
  events : e.eventID ≠ f.eventID
  units : e.kind = .workUnitCreated → f.kind = .workUnitCreated → e.workUnitID ≠ f.workUnitID
  runs : e.kind = .runCreated → f.kind = .runCreated → e.runID ≠ f.runID
  keys : e.kind.isLifecycle = true → f.kind.isLifecycle = true →
    e.idempotencyKey ≠ f.idempotencyKey

lemma Apart.symm (h : Apart e f) : Apart f e where
  events := h.events.symm
  units hf he := (h.units he hf).symm
  runs hf he := (h.runs he hf).symm
  keys hf he := (h.keys he hf).symm

/-- Two events that differ at most in when they occurred. -/
structure Alike (e f : Event) : Prop where
  event : e.eventID = f.eventID
  kind : e.kind = f.kind
  project : e.projectID = f.projectID
  unit : e.workUnitID = f.workUnitID
  run : e.runID = f.runID
  operation : e.operation = f.operation
  keyHash : e.idempotencyKeyHash = f.idempotencyKeyHash

namespace Alike

variable {e f g : Event}

lemma refl (e : Event) : Alike e e := ⟨rfl, rfl, rfl, rfl, rfl, rfl, rfl⟩

lemma key (h : Alike e f) : e.idempotencyKey = f.idempotencyKey := by
  simp only [Event.idempotencyKey, h.project, h.operation, h.keyHash]

lemma apart (h : Alike e f) (ha : Apart f g) : Apart e g where
  events := h.event ▸ ha.events
  units := by rw [h.kind, h.unit]; exact ha.units
  runs := by rw [h.kind, h.run]; exact ha.runs
  keys := by rw [h.kind, h.key]; exact ha.keys

lemma lockOf (h : Alike e f) : lockOf e = lockOf f := by
  simp only [Budget.lockOf, h.kind, h.project, h.run]

lemma keyed (h : Alike e f) (hk : Keyed f) : Keyed e where
  operation := by rw [h.operation]; exact hk.operation
  keyHash := by rw [h.keyHash]; exact hk.keyHash

end Alike

lemma Excludes.symm (h : Excludes e f) : Excludes f e := by
  obtain ⟨l, hl, k, hk, hp, hside⟩ := h
  exact ⟨k, hk, l, hl, hp.symm, by rw [Bool.or_comm]; exact hside⟩

/-- A lifecycle event excludes what else is written under its project's lock. -/
lemma excludes_of_lifecycle (he : e.kind.isLifecycle = true)
    (hf : f.kind.isLifecycle = true ∨ f.kind = .requestAccepted ∧ f.runID ≠ "")
    (hp : e.projectID = f.projectID) : Excludes e f := by
  have hown : lockOf e = some ⟨e.projectID, true⟩ := if_pos he
  by_cases hlife : f.kind.isLifecycle = true
  · exact ⟨_, hown, ⟨f.projectID, true⟩, if_pos hlife, hp, rfl⟩
  · have hacc := hf.resolve_left hlife
    have hshared : lockOf f = some ⟨f.projectID, false⟩ := by
      rw [lockOf, if_neg hlife, if_pos hacc]
    exact ⟨_, hown, _, hshared, hp, rfl⟩

/-- The calls under way do not exclude each other and do not collide. -/
structure CallsApart (calls : FinMap ℕ Call) : Prop where
  keyed : ∀ i c, calls.lookup i = some c → c.event.kind.isLifecycle = true → Keyed c.event
  apart : ∀ i j c d, calls.lookup i = some c → calls.lookup j = some d → i ≠ j →
    Apart c.event d.event
  allowed : ∀ i j c d, calls.lookup i = some c → calls.lookup j = some d → i ≠ j →
    ¬ Excludes c.event d.event

namespace CallsApart

variable {calls : FinMap ℕ Call} {id : ℕ} {c d : Call}

/-- A call that starts or goes on, which keeps apart from the others. -/
lemma insert (h : CallsApart calls) (hkeyed : d.event.kind.isLifecycle = true → Keyed d.event)
    (hother : ∀ i b, calls.lookup i = some b → i ≠ id →
      Apart d.event b.event ∧ ¬ Excludes d.event b.event) : CallsApart (calls.insert id d) := by
  refine ⟨forall_insert hkeyed h.keyed, fun i j b b' hb hb' hne => ?_,
    fun i j b b' hb hb' hne => ?_⟩
  all_goals
    rw [lookup_insert_ite] at hb hb'
    split_ifs at hb hb' with hi hj hj
    · exact absurd (hi.trans hj.symm) hne
    · obtain rfl := Option.some.inj hb
      have := hother j b' hb' hj
      first | exact this.1 | exact this.2
    · obtain rfl := Option.some.inj hb'
      have := hother i b hb hi
      first | exact this.1.symm | exact fun he => this.2 he.symm
    · first | exact h.apart i j b b' hb hb' hne | exact h.allowed i j b b' hb hb' hne

lemma move (h : CallsApart calls) (hc : calls.lookup id = some c) (hd : Alike d.event c.event) :
    CallsApart (calls.insert id d) := by
  refine h.insert (fun hlife => ?_) fun i b hb hne => ⟨?_, fun he => ?_⟩
  · rw [hd.kind] at hlife
    exact hd.keyed (h.keyed id c hc hlife)
  · exact hd.apart (h.apart id i c b hc hb hne.symm)
  · rw [Excludes, hd.lockOf] at he
    exact h.allowed id i c b hc hb hne.symm he

lemma erase (h : CallsApart calls) (id : ℕ) : CallsApart (calls.erase id) where
  keyed i b hb := h.keyed i b (lookup_erase_cases hb).2
  apart i j b b' hb hb' := h.apart i j b b' (lookup_erase_cases hb).2 (lookup_erase_cases hb').2
  allowed i j b b' hb hb' := h.allowed i j b b' (lookup_erase_cases hb).2 (lookup_erase_cases hb').2

end CallsApart

/-! ## Operations that start -/

/-- The intent of a lifecycle operation. -/
def Operation.intent : Operation → Option GovernanceIntent
  | .createWorkUnit _ _ _ _ intent => some intent
  | .closeWorkUnit _ _ _ intent => some intent
  | .createRun _ _ _ _ _ _ intent => some intent
  | .closeRun _ _ _ _ _ intent => some intent
  | _ => none

/-- The name of a lifecycle operation has no separator in it. -/
def Action.Plain : Action → Prop
  | .call _ op _ => ∀ i ∈ op.intent, '\x00' ∉ i.operation.toList
  | _ => True

instance (a : Action) : Decidable a.Plain := by
  cases a <;> unfold Action.Plain <;> infer_instance

variable {D : Type} {cat : Catalogue D} {m n : Manager D} {e : Event} {x : Reading}

/-- What a call that starts has found: what its event names as new is not taken, and its lock is
free. -/
structure Opens (m : Manager D) (e : Event) : Prop where
  event : m.Unused e.eventID
  unit : e.kind = .workUnitCreated → m.Unused e.workUnitID
  run : e.kind = .runCreated → m.Unused e.runID
  key : e.kind.isLifecycle = true →
    findIdempotency m.archive m.state e.idempotencyKey = none ∧ Keyed e
  free : m.LockFree e

/-- An event of another kind names nothing else as new. -/
lemma Opens.of_request (hevent : m.Unused e.eventID) (hkind : e.kind.isLifecycle = false)
    (free : m.LockFree e) : Opens m e where
  event := hevent
  unit hk := by rw [hk] at hkind; cases hkind
  run hk := by rw [hk] at hkind; cases hkind
  key hk := by rw [hk] at hkind; cases hkind
  free := free

/-- An intent makes an event that can be told apart by its key. -/
lemma keyed_of_valid {i : GovernanceIntent} (hvalid : i.valid = true)
    (hplain : '\x00' ∉ i.operation.toList) (hop : e.operation = i.operation)
    (hhash : e.idempotencyKeyHash = i.idempotencyKeyHash) : Keyed e := by
  simp only [GovernanceIntent.valid, Bool.and_eq_true] at hvalid
  exact ⟨by rw [hop]; exact hplain, by rw [hhash]; exact notMem_of_validSHA256Label hvalid.1.2⟩

/-- A plain operation opens with the event it comes to. -/
lemma opens_of_outcome {id : ℕ} {op : Operation} (may : m.MayStart id op x)
    (made : m.outcome cat x op = .ok (some e)) (free : m.LockFree e)
    (hplain : (Action.call id op x).Plain) : Opens m e := by
  obtain ⟨-, hevent, hdrawn⟩ := may
  cases op with
  | createWorkUnit projectID keyID maxOpen definitions intent =>
    obtain ⟨hnew, rfl⟩ := createWorkUnit_ok made
    exact ⟨hevent, fun _ => hdrawn rfl, fun hk => (by cases hk),
      fun _ => ⟨hnew.unrecorded, keyed_of_valid hnew.valid (hplain _ rfl) rfl rfl⟩, free⟩
  | closeWorkUnit projectID keyID workUnitID intent =>
    obtain ⟨hnew, rfl, -⟩ := closeWorkUnit_ok made
    exact ⟨hevent, fun hk => (by cases hk), fun hk => (by cases hk),
      fun _ => ⟨hnew.unrecorded, keyed_of_valid hnew.valid (hplain _ rfl) rfl rfl⟩, free⟩
  | createRun projectID keyID workUnitID budget ttl maxActive intent =>
    obtain ⟨hnew, rfl, -⟩ := createRun_ok made
    exact ⟨hevent, fun hk => (by cases hk), fun _ => hdrawn rfl,
      fun _ => ⟨hnew.unrecorded, keyed_of_valid hnew.valid (hplain _ rfl) rfl rfl⟩, free⟩
  | beginRequest | settle | markStarted | finalize =>
    obtain ⟨hkind, hid, -, -⟩ := outcome_kind made
    exact .of_request (hid ▸ hevent) (by rw [hkind]; rfl) free
  | closeRun | reserve => cases made

/-! ## What holds between any two steps -/

/-- Nothing of a call whose record is not applied is taken. -/
structure Untaken (p : State D × List Effect) (e : Event) : Prop where
  unseen : p.1.eventDigests.lookup e.eventID = none
  apart : ∀ x ∈ p.2, Apart x.event e

/-- **The Work Units, the Runs and their keys are in order.** -/
structure Governed (m : Manager D) : Prop where
  homed : Homed m.archive m.state (contents m.history)
  calls : CallsApart m.calls
  untaken : ∀ i c, m.calls.lookup i = some c → c.stage.isApplied = false → Untaken m.ledger c.event
  digests : ∀ id, (∀ r ∈ m.log, r.event.eventID ≠ id) → m.state.eventDigests.lookup id = none
  healthy : m.applyErr.isSome = true → m.available = false
  tracked : m.available = true → ∀ r ∈ m.log, (∃ x ∈ m.history, x.event = r.event) ∨
    ∃ i c, m.calls.lookup i = some c ∧ c.stage = .durable r
  log : m.log.Pairwise fun r r' => Apart r.event r'.event
  history : m.history.Pairwise fun x y => Apart x.event y.event

namespace Governed

variable {id : ℕ} {c d : Call} {record : Record}

lemma new (archiving : Bool) : Governed (Manager.new D archiving) where
  homed := Homed.new archiving
  calls := ⟨fun i c hc => by simp [Manager.new] at hc, fun i j c d hc => by simp [Manager.new] at hc,
    fun i j c d hc => by simp [Manager.new] at hc⟩
  untaken i c hc := by simp [Manager.new] at hc
  digests id _ := by simp [Manager.new, state, State.new]
  healthy h := by simp [Manager.new] at h
  tracked _ r hr := by simp [Manager.new] at hr
  log := List.Pairwise.nil
  history := List.Pairwise.nil

section

variable (h : Governed m)

include h

/-- The event of a call that starts is apart from all that is in the history. -/
lemma untaken_of_opens (hc : CallsSound m) (ho : Opens m e) : Untaken m.ledger e := by
  refine ⟨h.digests e.eventID fun r hr hid => ?_, fun x hx => ?_⟩
  · refine ho.event.1 r hr ?_
    rw [← hid]
    simp [identifiers]
  obtain ⟨r, hr, he⟩ := hc.logged x hx
  refine ⟨fun heq => ho.event.1 r hr ?_, fun _ hk heq => (ho.unit hk).1 r hr ?_,
    fun _ hk heq => (ho.run hk).1 r hr ?_, fun hlife hk heq => ?_⟩
  iterate 3
    · rw [he, ← heq]
      simp [identifiers]
  · have hnone := (ho.key hk).1
    rw [findIdempotency_eq h.homed, ← heq] at hnone
    have htaken := Option.isSome_iff_ne_none.mp (key_taken hx hlife)
    exact htaken hnone

/-- The event of a call that starts is apart from every call under way. -/
lemma apart_of_opens (ho : Opens m e) {i : ℕ} (hc : m.calls.lookup i = some c) :
    Apart e c.event ∧ ¬ Excludes e c.event := by
  have hfree := every_iff.mp ho.free i c hc
  have hnew : ∀ id, m.Unused id → id ∉ identifiers c.event := fun id hu => every_iff.mp hu.2 i c hc
  refine ⟨⟨fun heq => hnew _ ho.event ?_, fun hk _ heq => hnew _ (ho.unit hk) ?_,
    fun hk _ heq => hnew _ (ho.run hk) ?_, fun hk hlife heq => hfree ?_⟩, hfree⟩
  iterate 3
    · rw [heq]
      simp [identifiers]
  · have hprj := (ho.key hk).2.parts_eq (h.calls.keyed i c hc hlife) heq
    exact excludes_of_lifecycle hk (Or.inl hlife) hprj.1

/-- A record stays tracked when the call about to apply it is under way as before. -/
lemma tracked_of (ha : m.available = true) {r : Record} (hr : r ∈ m.log) {calls : FinMap ℕ Call}
    (hkept : ∀ i b, m.calls.lookup i = some b → b.stage = .durable r → calls.lookup i = some b) :
    (∃ x ∈ m.history, x.event = r.event) ∨
      ∃ i c, calls.lookup i = some c ∧ c.stage = .durable r := by
  refine (h.tracked ha r hr).imp_right ?_
  rintro ⟨i, b, hb, hdur⟩
  exact ⟨i, b, hkept i b hb hdur, hdur⟩

/-- A call that starts. -/
lemma begin (hs : CallsSound m) (ho : Opens m c.event) (hfree : m.calls.lookup id = none)
    (projects : FinMap String Admission) :
    Governed { m with projects := projects, calls := m.calls.insert id c } :=
  { h with
    calls := h.calls.insert (fun hlife => (ho.key hlife).2) fun i b hb _ => h.apart_of_opens ho hb
    untaken := forall_insert (fun _ => h.untaken_of_opens hs ho) h.untaken
    tracked := fun havail r hr => h.tracked_of havail hr fun i b hb _ =>
      lookup_insert_kept hb (by rw [hfree]; exact nofun) }

/-- A call that goes on while the ledger stays as it is. -/
lemma stay (hc : m.calls.lookup id = some c) (hd : Alike d.event c.event)
    (happl : d.stage.isApplied = false → c.stage.isApplied = false) {available : Bool}
    {applyErr : Option ApplyError} (hhealthy : applyErr.isSome = true → available = false)
    (htrk : available = true → m.available = true ∧ ∀ r, c.stage ≠ .durable r) :
    Governed { m with
      calls := m.calls.insert id d, applyErr := applyErr, available := available } :=
  { h with
    calls := h.calls.move hc hd
    healthy := hhealthy
    untaken := forall_insert (fun hs =>
      have hold := h.untaken id c hc (happl hs)
      ⟨by rw [hd.event]; exact hold.unseen, fun x hx => (hd.apart (hold.apart x hx).symm).symm⟩)
      h.untaken
    tracked := fun ha r hr => h.tracked_of (htrk ha).1 hr fun i b hb hdur =>
      lookup_insert_kept hb fun hcb => (htrk ha).2 r
        (by rw [Option.some.inj (hc.symm.trans hcb)]; exact hdur) }

/-- An event that becomes a record. -/
lemma append (hs : CallsSound m) (hc : m.calls.lookup id = some c)
    (hstage : c.stage = .cleared) (havail : m.available = true) (result : AppendResult) :
    Governed { m.move id c (if result = .lost then .done false
        else .durable (m.nextRecord c.event)) with
      log := m.log ++ [m.nextRecord c.event],
      available := decide (result ≠ .lost) } where
  homed := h.homed
  calls := h.calls.move hc (.refl _)
  untaken := forall_insert (fun _ => h.untaken id c hc (by rw [hstage]; rfl)) h.untaken
  digests i hi := h.digests i fun r hr => hi r (List.mem_append_left _ hr)
  healthy herr := by
    rw [h.healthy herr] at havail
    cases havail
  tracked ha r hr := by
    change _ ∨ ∃ i b, (m.calls.insert id _).lookup i = some b ∧ _
    have hkept : ¬ result = .lost := by simpa using ha
    rcases List.mem_append.mp hr with hr | hr
    · refine h.tracked_of havail hr fun i b hb hdur =>
        lookup_insert_kept hb fun hcb => ?_
      rw [Option.some.inj (hcb.symm.trans hc), hstage] at hdur
      cases hdur
    · obtain rfl := List.mem_singleton.mp hr
      refine Or.inr ⟨id, _, by rw [lookup_insert_ite, if_pos rfl], ?_⟩
      rw [if_neg hkept]
  log := by
    refine List.pairwise_append.mpr ⟨h.log, List.pairwise_singleton _ _, fun r hr r' hr' => ?_⟩
    obtain rfl := List.mem_singleton.mp hr'
    -- the record is in the history, or it is that of another call
    rcases h.tracked havail r hr with ⟨x, hx, he⟩ | ⟨i, b, hb, hb'⟩
    · rw [← he]
      exact (h.untaken id c hc (by rw [hstage]; rfl)).apart x hx
    · rw [(hs.durable i b r hb hb').2]
      refine h.calls.apart i id b c hb hc ?_
      rintro rfl
      rw [Option.some.inj (hb.symm.trans hc), hstage] at hb'
      cases hb'
  history := h.history

/-- What a call is going to record is fresh. -/
lemma fresh (hu : Untaken m.ledger e) : m.state.Fresh e := by
  refine ⟨hu.unseen, fun hlife => ?_⟩
  cases hg : m.state.governanceIdempotency.lookup e.idempotencyKey with
  | none => rfl
  | some g =>
    obtain ⟨x, hx, hkind, hkey, -⟩ := key_recorded (h.homed.keys.of_held hg)
    exact absurd hkey ((hu.apart x hx).keys hkind hlife)

end

lemma unrepeated (hu : Untaken m.ledger e) : Unrepeated (contents m.history) e where
  unit hk := by
    by_contra hsome
    obtain ⟨x, hx, hkind, hid⟩ := unit_created (Option.isSome_iff_ne_none.mpr hsome)
    exact (hu.apart x hx).units hkind hk hid
  run hk := by
    by_contra hsome
    obtain ⟨x, hx, hkind, hid⟩ := run_created (Option.isSome_iff_ne_none.mpr hsome)
    exact (hu.apart x hx).runs hkind hk hid
  key hk := by
    by_contra hsome
    obtain ⟨g, hg⟩ := Option.ne_none_iff_exists'.mp hsome
    obtain ⟨x, hx, hkind, hid, -⟩ := key_recorded hg
    exact (hu.apart x hx).keys hkind hk hid

section Apply

variable [DecidableEq D] (h : Governed m) (ha : Accounted cat m)
  (hc : m.calls.lookup id = some c) (hstage : c.stage = .durable record)
  (ok : State.refusal (m.state.apply cat record) = none)

include h ha hc hstage ok

/-- An accepted record takes effect, since it is fresh. -/
lemma entered : Untaken m.ledger record.event ∧
    (play cat m.ledger record).2 = m.state.entry record.event :: m.history ∧
    ∃ gone, Change m.state record gone (play cat m.ledger record).1 := by
  have hu : Untaken m.ledger record.event := by
    rw [(ha.calls.durable id c record hc hstage).2]
    exact h.untaken id c hc (by rw [hstage]; rfl)
  refine ⟨hu, ?_⟩
  obtain ⟨t, ht⟩ : ∃ t, m.ledger.1.apply cat record = .ok t := State.refusal_eq_none.mp ok
  rcases State.accepted_cases ht with ⟨hnone, -⟩ | ⟨heff, hv, hf, digest, hok⟩
  · rw [effectOf_ok ht, if_pos (show m.ledger.1.Fresh record.event from h.fresh hu)] at hnone
    cases hnone
  · rw [play, heff, ht]
    exact ⟨rfl, change_of_fresh ha.books hv hf hok⟩

/-- A record that is applied enters the history. -/
lemma apply : Governed { m.move id c .applied with ledger := play cat m.ledger record } := by
  obtain ⟨hr, he⟩ := ha.calls.durable id c record hc hstage
  obtain ⟨hu, hhist, gone, hchg⟩ := h.entered ha hc hstage ok
  have hother : ∀ i b, (m.calls.insert id { c with stage := .applied }).lookup i = some b →
      b.stage.isApplied = false → i ≠ id ∧ m.calls.lookup i = some b := by
    intro i b hb hb'
    obtain ⟨-, rfl⟩ | ⟨hi, hb⟩ := lookup_insert_cases hb
    · cases hb'
    · exact ⟨hi, hb⟩
  constructor
  case homed => exact h.homed.play ha.books (unrepeated hu)
  case calls => exact h.calls.move hc (.refl _)
  case untaken =>
    intro i b hb hb'
    obtain ⟨hi, hb⟩ := hother i b hb hb'
    have hold := h.untaken i b hb hb'
    have hapart := h.calls.apart i id b c hb hc hi
    refine ⟨hchg.digests _ (by rw [he]; exact hapart.events) hold.unseen, fun x hx => ?_⟩
    rw [hhist] at hx
    rcases List.mem_cons.mp hx with rfl | hx
    · rw [he]
      exact hapart.symm
    · exact hold.apart x hx
  case digests =>
    intro i hi
    exact hchg.digests i (hi record hr).symm (h.digests i hi)
  case healthy => exact h.healthy
  case tracked =>
    intro havail r hr
    change (∃ x ∈ (play cat m.ledger record).2, _) ∨ ∃ i b, (m.calls.insert id _).lookup i = _ ∧ _
    rw [hhist]
    rcases h.tracked havail r hr with ⟨x, hx, hxe⟩ | ⟨i, b, hb, hdur⟩
    · exact Or.inl ⟨x, List.mem_cons_of_mem _ hx, hxe⟩
    · by_cases hi : i = id
      · rw [hi, hc] at hb
        obtain rfl := Option.some.inj hb
        rw [hstage] at hdur
        obtain rfl := Stage.durable.inj hdur
        exact Or.inl ⟨_, List.mem_cons_self, rfl⟩
      · exact Or.inr ⟨i, b, by rw [lookup_insert_ite, if_neg hi, hb], hdur⟩
  case log => exact h.log
  case history =>
    change (play cat m.ledger record).2.Pairwise _
    rw [hhist]
    exact List.pairwise_cons.mpr ⟨fun x hx => (hu.apart x hx).symm, h.history⟩

end Apply

/-- A call that returns. -/
lemma erase (h : Governed m) (hc : m.calls.lookup id = some c) (hstage : ∀ r, c.stage ≠ .durable r)
    (projects : FinMap String Admission) :
    Governed { m with projects := projects, calls := m.calls.erase id } := by
  refine { h with
    calls := h.calls.erase id
    untaken := fun i b hb => h.untaken i b (lookup_erase_cases hb).2
    tracked := fun ha r hr => h.tracked_of ha hr fun i b hb hdur => ?_ }
  rw [lookup_erase_ite, if_neg, hb]
  rintro rfl
  rw [Option.some.inj (hb.symm.trans hc)] at hdur
  exact hstage r hdur

/-- A shelf arranged otherwise. -/
lemma shelve {archive : List ArchivedWorkUnit} {queue : FinMap String ArchivedWorkUnit}
    {queuedRuns queuedIdem : FinMap String String} (h : Governed m)
    (hr : Rearranged m.archive m.state.indexes archive
      (m.shelve archive queue queuedRuns queuedIdem).state.indexes)
    (hq : QueueIndexed (m.shelve archive queue queuedRuns queuedIdem).state.indexes) :
    Governed (m.shelve archive queue queuedRuns queuedIdem) :=
  { h with
    homed := h.homed.rearrange hr hq
    untaken := fun i b hb hb' =>
      have hold := h.untaken i b hb hb'
      ⟨hold.unseen, hold.apart⟩ }

end Governed

/-! ## Steps and runs -/

namespace Governed

variable [DecidableEq D] {a : Action}

/-- **Step lemma.** -/
lemma step (h : Governed m) (ha : Accounted cat m) (hplain : a.Plain) :
    Governed (m.step cat a) := by
  have hs := stepped cat m a
  generalize m.step cat a = n at hs ⊢
  cases hs with
  | idle => exact h
  | begun may made free =>
    exact h.begin ha.calls (opens_of_outcome may made free hplain) may.1 _
  | closing may event made free =>
    subst event
    obtain ⟨hnew, -⟩ := closeRun_ok made
    have hopens : Opens m (runClosedEvent _ _ _ _ _ _ _) := ⟨may.2.1, fun hk => (by cases hk),
      fun hk => (by cases hk), fun _ => ⟨hnew.unrecorded, keyed_of_valid hnew.valid (hplain _ rfl)
        rfl rfl⟩, free⟩
    exact h.begin ha.calls hopens may.1 _
  | reserved may admits =>
    refine h.begin ha.calls (.of_request may.2.1 rfl (every_iff.mpr fun i c _ he => ?_)) may.1 _
    obtain ⟨l, hl, -⟩ := he
    cases hl
  | drained call stage drained =>
    refine h.stay call (by exact ⟨rfl, rfl, rfl, rfl, rfl, rfl, rfl⟩) (fun _ => by rw [stage]; rfl)
      h.healthy fun havail => ⟨havail, ?_⟩
    rw [stage]
    simp
  | cleared call stage healthy =>
    refine h.stay call (by exact .refl _) (fun _ => by rw [stage]; rfl) h.healthy
      fun havail => ⟨havail, ?_⟩
    rw [stage]
    simp
  | ended call stage unapplied =>
    refine h.stay call (by exact .refl _) (by exact stage.trans) h.healthy
      fun havail => ⟨havail, fun r hr => ?_⟩
    -- only a log that takes no more appends leaves a durable record unapplied
    rw [h.healthy (unapplied r hr)] at havail
    cases havail
  | appended call stage appendable => exact h.append ha.calls call stage appendable.1 _
  | applied call stage healthy order ok => exact h.apply ha call stage ok
  | poisoned call stage healthy order refused =>
    rw [play_refused refused (ha.runTotalFits call stage)]
    exact h.stay call (by exact .refl _) (fun _ => by rw [stage]; rfl) (fun _ => rfl)
      fun havail => by cases havail
  | released call stage =>
    obtain ⟨projects, heq⟩ := releaseCall_frame m _ _
    rw [heq]
    exact h.erase call (by rw [stage]; simp) projects
  | flushed archiving => exact h.shelve m.rearranged_flush (queueIndexed_flush h.homed.queue)

end Governed

end Budget

end Halro
