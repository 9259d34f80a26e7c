import Mathlib.Data.List.TakeWhile
import Halro.Framework.Bucket

/-!
# Listing what is held and what is archived (`MergeVisit` in `internal/ledger/archive.go`)

A listing walks the held items, copied and sorted before, and the rows of the archive as one
sequence.  The archive drives it: each row is handed to a closure that first visits the held items
below it.  Any of the visits may end the walk, and so may a row that cannot be read.

A visitor is any function of the calls made to it, the last one being the call it answers, so that
what it does may depend on all it has seen.  `mergeVisit_eq` says that the calls are those of a
plain walk over the merged sequence, and which error comes back.
-/

namespace Halro

open Framework

namespace Ledger

variable {T E S V : Type}

/-- What a visitor answers: whether it wants more, and its error. -/
structure Answer (E : Type) where
  more : Bool
  err : Option E

def Answer.stops (a : Answer E) : Bool := !a.more || a.err.isSome

/-! ## The archive's side (`internal/archive/archive.go`) -/

/-- The loop of `visitOrdered` over the keys its cursor comes to. -/
def visitKeys (after : Bytes) (emit : S → Bytes → S × Answer E) : List Bytes → S → S × Option E
  | [], s => (s, none)
  | key :: rest, s =>
    if key ≤ after then visitKeys after emit rest s
    else
      let (s, answer) := emit s key
      if answer.stops then (s, answer.err) else visitKeys after emit rest s

/-- The keys the cursor comes to: those of the rows, or what follows the project in the keys of the
index. -/
def orderedKeys (rows index : Bucket Bytes V) (projectID after : Bytes) : List Bytes :=
  if projectID = [] then (rows.seek after).ahead.map Prod.fst
  else
    let stem := projectID ++ [0]
    (((index.seek (stem ++ after)).ahead.map Prod.fst).takeWhile (stem.isPrefixOf ·)).map
      (·.drop stem.length)

def visitOrdered (rows index : Bucket Bytes V) (projectID after : Bytes)
    (emit : S → Bytes → S × Answer E) (s : S) : S × Option E :=
  visitKeys after emit (orderedKeys rows index projectID after) s

/-- What `VisitArchivedRuns`, `VisitArchivedWorkUnits` and `VisitArchivedOutcomes` make of a key: the
row is read and checked, passed over if the query does not ask for it, and handed on otherwise. -/
def visitRow (read : Bytes → Except E (Option T)) (emit : S → T → S × Answer E) (s : S)
    (key : Bytes) : S × Answer E :=
  match read key with
  | .error err => (s, ⟨false, some err⟩)
  | .ok none => (s, ⟨true, none⟩)
  | .ok (some item) => emit s item

/-! ## The merge -/

/-- The variables the closures of `MergeVisit` share: the held items from `index` on, the calls of
`visit`, and how it ended. -/
structure Merging (T E : Type) where
  rest : List T
  calls : List T
  stopped : Bool := false
  visitErr : Option E := none

/-- An error of a listing. -/
inductive ListError (E : Type)
  | visitor (err : E)
  | archiveUnavailable (err : E)
  deriving DecidableEq

section Merge

variable (visit : List T → Answer E) (id : T → Bytes)

def emitHeldBefore (bound : Bytes) (calls : List T) : List T → Merging T E × Answer E
  | [] => (⟨[], calls, false, none⟩, ⟨true, none⟩)
  | item :: rest =>
    if bound = [] ∨ id item < bound then
      let answer := visit (calls ++ [item])
      if answer.stops then (⟨rest, calls ++ [item], false, none⟩, ⟨false, answer.err⟩)
      else emitHeldBefore bound (calls ++ [item]) rest
    else (⟨item :: rest, calls, false, none⟩, ⟨true, none⟩)

/-- The closure handed to the archive.  Its own error is kept in `visitErr`. -/
def emitArchived (seen : List Bytes) (m : Merging T E) (item : T) : Merging T E × Answer E :=
  if id item ∈ seen then (m, ⟨true, none⟩)
  else
    let (m, answer) := emitHeldBefore visit id (id item) m.calls m.rest
    let (m, answer) := if answer.stops then (m, answer)
      else ({ m with calls := m.calls ++ [item] }, visit (m.calls ++ [item]))
    if answer.stops then ({ m with stopped := true, visitErr := answer.err }, ⟨false, none⟩)
    else (m, ⟨true, none⟩)

/-- `MergeVisit`: the calls of `visit` it makes, and its error. -/
def mergeVisit (held : List T)
    (archived : Option ((Merging T E → T → Merging T E × Answer E) → Merging T E →
      Merging T E × Option E)) : List T × Option (ListError E) :=
  let start : Merging T E := ⟨held, [], false, none⟩
  let (m, err) := match archived with
    | none => (start, none)
    | some archived => archived (emitArchived visit id (held.map id)) start
  match err with
  | some err => (m.calls, some (.archiveUnavailable err))
  | none =>
    if m.stopped then (m.calls, m.visitErr.map .visitor)
    else
      let (m, answer) := emitHeldBefore visit id [] m.calls m.rest
      (m.calls, answer.err.map .visitor)

end Merge

/-! ## What a listing should be -/

/-- A plain walk over a sequence: the calls it makes, and the answer it ends with, if it ends before
the sequence does. -/
def walk (visit : List T → Answer E) (calls : List T) : List T → List T × Option (Answer E)
  | [] => (calls, none)
  | item :: rest =>
    let answer := visit (calls ++ [item])
    if answer.stops then (calls ++ [item], some answer) else walk visit (calls ++ [item]) rest

/-- The items of an archive up to the first row that cannot be read, and that row's error. -/
def readRows (read : Bytes → Except E (Option T)) : List Bytes → List T × Option E
  | [] => ([], none)
  | key :: rest =>
    match read key with
    | .error err => ([], some err)
    | .ok none => readRows read rest
    | .ok (some item) => (item :: (readRows read rest).1, (readRows read rest).2)

/-- Two sequences as one, the second driving: what has been passed when it ends, and what is left of
the first. -/
def passed (id : T → Bytes) : List T → List T → List T × List T
  | held, [] => ([], held)
  | held, item :: rest =>
    let next := passed id (held.dropWhile (id · < id item)) rest
    (held.takeWhile (id · < id item) ++ [item] ++ next.1, next.2)

/-- How a listing ends that has passed all there was. -/
def ending (walked : List T × Option (Answer E)) (unread : Option E) :
    List T × Option (ListError E) :=
  match walked with
  | (calls, some answer) => (calls, answer.err.map .visitor)
  | (calls, none) => (calls, unread.map .archiveUnavailable)

variable {visit : List T → Answer E} {id : T → Bytes}

lemma walk_append (calls a b : List T) : walk visit calls (a ++ b) = match walk visit calls a with
      | (calls, some answer) => (calls, some answer)
      | (calls, none) => walk visit calls b := by
  induction a generalizing calls with
  | nil => rfl
  | cons item a ih =>
    simp only [List.cons_append, walk]
    split
    · rfl
    · exact ih _

/-- Whether the held items below a bound are all visited, and what the walk over them says. -/
lemma emitHeldBefore_eq {bound : Bytes} {below : T → Bool}
    (hbelow : ∀ x, (bound = [] ∨ id x < bound) ↔ below x = true) (calls held : List T) :
    ∃ rest, emitHeldBefore visit id bound calls held =
      match walk visit calls (held.takeWhile below) with
      | (calls, some answer) => (⟨rest, calls, false, none⟩, ⟨false, answer.err⟩)
      | (calls, none) => (⟨held.dropWhile below, calls, false, none⟩, ⟨true, none⟩) := by
  induction held generalizing calls with
  | nil => exact ⟨[], rfl⟩
  | cons item held ih =>
    rw [emitHeldBefore]
    by_cases hb : below item = true
    · rw [if_pos ((hbelow item).mpr hb), List.takeWhile_cons_of_pos hb,
        List.dropWhile_cons_of_pos hb, walk]
      dsimp only
      split
      · exact ⟨held, rfl⟩
      · exact ih _
    · rw [if_neg (mt (hbelow item).mp hb), List.takeWhile_cons_of_neg hb,
        List.dropWhile_cons_of_neg hb, walk]
      exact ⟨[], rfl⟩

/-- A row no held item covers is walked to over the held items below it. -/
lemma emitArchived_eq {seen : List Bytes} {item : T} (hseen : id item ∉ seen) (hne : id item ≠ [])
    (held calls : List T) :
    ∃ rest, emitArchived visit id seen ⟨held, calls, false, none⟩ item =
      match walk visit calls (held.takeWhile (id · < id item) ++ [item]) with
      | (calls, some answer) => (⟨rest, calls, true, answer.err⟩, ⟨false, none⟩)
      | (calls, none) => (⟨held.dropWhile (id · < id item), calls, false, none⟩, ⟨true, none⟩) := by
  have hbelow : ∀ x, (id item = [] ∨ id x < id item) ↔ decide (id x < id item) = true := by
    simp [hne]
  obtain ⟨rest, hheld⟩ := emitHeldBefore_eq hbelow calls held
  rw [emitArchived, if_neg hseen, hheld, walk_append]
  rcases walk visit calls (held.takeWhile (id · < id item)) with ⟨calls, _ | answer⟩
  · refine ⟨held.dropWhile (id · < id item), ?_⟩
    have hmore : (⟨true, none⟩ : Answer E).stops = false := rfl
    by_cases hstops : (visit (calls ++ [item])).stops = true
    · simp [walk, hmore, hstops]
    · simp [walk, hmore, hstops]
  · exact ⟨rest, rfl⟩

/-- Where an archive's walk ends: with what its visitor answered, or at its own end. -/
def walkEnd (rest left : List T) (unread : Option E) :
    List T × Option (Answer E) → Merging T E × Option E
  | (calls, some answer) => (⟨rest, calls, true, answer.err⟩, none)
  | (calls, none) => (⟨left, calls, false, none⟩, unread)

/-- **The archive's walk**, from any place among the held items: the calls are those of a walk over
what is passed, and its error is kept apart from that of a row. -/
lemma visitKeys_eq {read : Bytes → Except E (Option T)}
    (hread : ∀ key item, read key = .ok (some item) → id item = key)
    (visit : List T → Answer E) (seen : List Bytes) (after : Bytes) (keys : List Bytes)
    (held calls : List T) :
    ∃ rest, visitKeys after (visitRow read (emitArchived visit id seen)) keys
        ⟨held, calls, false, none⟩ =
      let rows := readRows read (keys.filter (after < ·))
      let next := passed id held (rows.1.filter fun item => id item ∉ seen)
      walkEnd rest next.2 rows.2 (walk visit calls next.1) := by
  induction keys generalizing held calls with
  | nil => exact ⟨[], rfl⟩
  | cons key keys ih =>
    rw [visitKeys]
    by_cases hafter : key ≤ after
    · rw [if_pos hafter, List.filter_cons_of_neg (by simpa using hafter)]
      exact ih held calls
    rw [if_neg hafter, List.filter_cons_of_pos (by simpa using hafter), readRows, visitRow]
    cases hrow : read key with
    | error err => exact ⟨[], rfl⟩
    | ok row =>
      cases row with
      | none => exact ih held calls
      | some item =>
        dsimp only
        by_cases hseen : id item ∈ seen
        · rw [emitArchived, if_pos hseen, List.filter_cons_of_neg (by simpa using hseen)]
          exact ih held calls
        -- a row's key is past the cursor, so it is not the bound that stands for all
        have hne : id item ≠ [] := by
          intro hnil
          rw [hread key item hrow] at hnil
          exact hafter (hnil ▸ not_lt.mp (List.not_lt_nil _))
        obtain ⟨rest, hitem⟩ := emitArchived_eq hseen hne held calls
        rw [hitem, List.filter_cons_of_pos (by simpa using hseen), passed,
          walk_append _ (_ ++ [item])]
        rcases walk visit calls (held.takeWhile (id · < id item) ++ [item]) with
          ⟨calls, _ | answer⟩
        · exact ih _ calls
        · exact ⟨rest, rfl⟩

/-! ## The listing -/

/-- The empty bound stands for all. -/
lemma emitHeldBefore_nil (visit : List T → Answer E) (id : T → Bytes) (calls held : List T) :
    ((emitHeldBefore visit id [] calls held).1.calls,
      (emitHeldBefore visit id [] calls held).2.err.map .visitor) =
      ending (walk visit calls held) none := by
  have hbelow : ∀ x, (([] : Bytes) = [] ∨ id x < []) ↔ true = true :=
    fun _ => ⟨fun _ => rfl, fun _ => .inl rfl⟩
  obtain ⟨rest, hheld⟩ := emitHeldBefore_eq hbelow calls held
  rw [hheld, List.takeWhile_eq_self_iff.mpr fun _ _ => rfl]
  rcases walk visit calls held with ⟨calls, _ | answer⟩
  · rfl
  · rfl

/-- Where no row has the identifier of a held item, the second sequence enters the first at the
place its identifier has. -/
lemma merge_cons_right {item : T} {held : List T} (hne : id item ∉ held.map id) (rest : List T) :
    held.merge (item :: rest) (id · ≤ id ·) = held.takeWhile (id · < id item) ++
      item :: (held.dropWhile (id · < id item)).merge rest (id · ≤ id ·) := by
  induction held with
  | nil => simp
  | cons x held ih =>
    simp only [List.map_cons, List.mem_cons, not_or] at hne
    by_cases hlt : id x < id item
    · simp [hlt, hlt.le, ih hne.2]
    · have hle : ¬ id x ≤ id item := fun hle => hlt (lt_of_le_of_ne hle (Ne.symm hne.1))
      simp [hlt, hle]

lemma passed_append {held items : List T} (hne : ∀ x ∈ items, id x ∉ held.map id) :
    (passed id held items).1 ++ (passed id held items).2 = held.merge items (id · ≤ id ·) := by
  induction items generalizing held with
  | nil => simp [passed]
  | cons item items ih =>
    have hitem := hne item List.mem_cons_self
    rw [merge_cons_right hitem, passed, List.append_assoc, ih, ← List.append_cons]
    intro x hx hmem
    refine hne x (List.mem_cons_of_mem _ hx) ?_
    exact ((List.dropWhile_sublist _).map id).subset hmem

/-- The keys a cursor comes to are in order. -/
lemma orderedKeys_sorted (rows index : Bucket Bytes V) (projectID after : Bytes) :
    (orderedKeys rows index projectID after).Pairwise (· < ·) := by
  have hkeys : ∀ (b : Bucket Bytes V) (k : Bytes),
      ((b.seek k).ahead.map Prod.fst).Pairwise (· < ·) := fun b k =>
    List.pairwise_map.mpr (b.sorted.sublist (List.dropWhile_sublist _))
  unfold orderedKeys
  split_ifs with hprj
  · exact hkeys rows after
  · set stem := projectID ++ [0]
    have hstem : StrictMono (stem ++ ·) := fun _ _ h => List.append_left_lt h
    refine List.pairwise_map.mpr (((hkeys index _).sublist
      (List.takeWhile_sublist _)).imp_of_mem ?_)
    intro a b ha hb hlt
    obtain ⟨a, rfl⟩ := List.isPrefixOf_iff_prefix.mp (List.mem_takeWhile_imp ha)
    obtain ⟨b, rfl⟩ := List.isPrefixOf_iff_prefix.mp (List.mem_takeWhile_imp hb)
    simpa using hstem.lt_iff_lt.mp hlt

/-- The rows read have their keys' identifiers. -/
lemma map_readRows {read : Bytes → Except E (Option T)}
    (hread : ∀ key item, read key = .ok (some item) → id item = key) (keys : List Bytes) :
    ((readRows read keys).1.map id).Sublist keys := by
  induction keys with
  | nil => exact List.Sublist.refl _
  | cons key keys ih =>
    rw [readRows]
    split
    · exact List.nil_sublist _
    · exact ih.cons key
    · next item hrow =>
      rw [List.map_cons, hread key item hrow]
      exact ih.cons_cons key

section Listing

variable (visit id) (held : List T) (rows index : Bucket Bytes V) (projectID after : Bytes)
  (read : Bytes → Except E (Option T))

/-- The listing of a project after a cursor: `VisitWorkUnits`, `VisitRuns` and `VisitOutcomes`. -/
def listing : List T × Option (ListError E) :=
  mergeVisit visit id held (some fun emit =>
    visitOrdered rows index projectID after (visitRow read emit))

/-- What the archive has for the listing, up to a row that cannot be read. -/
def archivedRows : List T × Option E :=
  readRows read ((orderedKeys rows index projectID after).filter (after < ·))

/-- The rows with an identifier no held item has. -/
def unheldRows : List T :=
  (archivedRows rows index projectID after read).1.filter fun item => id item ∉ held.map id

variable {visit id rows index projectID after read}

lemma listing_eq (hread : ∀ key item, read key = .ok (some item) → id item = key) :
    let next := passed id held (unheldRows id held rows index projectID after read)
    listing visit id held rows index projectID after read =
      match (archivedRows rows index projectID after read).2 with
      | none => ending (walk visit [] (next.1 ++ next.2)) none
      | some err => ending (walk visit [] next.1) (some err) := by
  intro next
  obtain ⟨rest, hkeys⟩ : ∃ rest, visitOrdered rows index projectID after (visitRow read
      (emitArchived visit id (held.map id))) ⟨held, [], false, none⟩ =
        walkEnd rest next.2 (archivedRows rows index projectID after read).2
          (walk visit [] next.1) :=
    visitKeys_eq hread visit (held.map id) after (orderedKeys rows index projectID after) held []
  simp only [listing, mergeVisit, hkeys]
  rw [walk_append]
  rcases walk visit [] next.1 with ⟨calls, _ | answer⟩
  · cases (archivedRows rows index projectID after read).2 with
    | none => exact emitHeldBefore_nil visit id calls next.2
    | some err => rfl
  · cases (archivedRows rows index projectID after read).2 with
    | none => rfl
    | some err => rfl

/-- **A listing is a walk over the sorted union** of the held items and the archived ones no held
item covers, in which each identifier stands once.  If a row cannot be read, it is a walk over what
has been passed before it, and the archive is reported as unavailable when the visitor lets the walk
come to its end.  The visitor's own error comes back as it is. -/
theorem listing_walks_union (hheld : held.Pairwise (id · ≤ id ·))
    (hread : ∀ key item, read key = .ok (some item) → id item = key) :
    let unheld := unheldRows id held rows index projectID after read
    let union := held.merge unheld (id · ≤ id ·)
    let next := passed id held unheld
    union.Perm (held ++ unheld) ∧ union.Pairwise (id · ≤ id ·) ∧
    ((held.map id).Nodup → (union.map id).Nodup) ∧ union = next.1 ++ next.2 ∧
    mergeVisit visit id held none = ending (walk visit [] held) none ∧
    listing visit id held rows index projectID after read =
      match (archivedRows rows index projectID after read).2 with
      | none => ending (walk visit [] union) none
      | some err => ending (walk visit [] next.1) (some err) := by
  intro unheld union next
  have hperm : union.Perm (held ++ unheld) := List.merge_perm_append _
  have hunheld : ∀ x ∈ unheld, id x ∉ held.map id := by
    intro x hx
    simpa using (List.mem_filter.mp hx).2
  have hids : (unheld.map id).Pairwise (· < ·) := by
    have hrows := (orderedKeys_sorted rows index projectID after).filter (after < ·)
    exact hrows.sublist ((List.filter_sublist.map id).trans (map_readRows hread _))
  have happ : union = next.1 ++ next.2 := (passed_append hunheld).symm
  refine ⟨hperm, ?_, ?_, happ, ?_, happ ▸ listing_eq held hread⟩
  · refine (List.pairwise_merge ?_ ?_ _ _ (hheld.imp ?_) ((List.pairwise_map.mp hids).imp ?_)).imp ?_
    · intro a b c hab hbc
      simp only [decide_eq_true_eq] at *
      exact hab.trans hbc
    · intro a b
      simpa using le_total (id a) (id b)
    · simp
    · intro a b hlt
      simpa using hlt.le
    · simp
  · intro hnodup
    refine (hperm.map id).nodup_iff.mpr ?_
    rw [List.map_append, List.nodup_append]
    refine ⟨hnodup, hids.imp fun h => h.ne, ?_⟩
    rintro a ha b hb rfl
    obtain ⟨x, hx, rfl⟩ := List.mem_map.mp hb
    exact hunheld x hx ha
  · exact emitHeldBefore_nil visit id [] held

end Listing

/-- Two held items and an archive of four rows, one of them held too and the last unreadable: the
visitor is called on each identifier once before the archive is reported. -/
theorem listing_walks_union_unreadable :
    let held : List (Bytes × Bool) := [([1], true), ([3], true)]
    let rows : Bucket Bytes Unit := ⟨[([2], ()), ([3], ()), ([4], ()), ([5], ())], by decide⟩
    let read (key : Bytes) : Except String (Option (Bytes × Bool)) :=
      if key = [5] then .error "tampered" else .ok (some (key, false))
    let visit (_ : List (Bytes × Bool)) : Answer String := ⟨true, none⟩
    listing visit Prod.fst held rows rows [] [] read =
        ending (walk visit [] [([1], true), ([2], false), ([3], true), ([4], false)])
          (some "tampered") ∧
      listing visit Prod.fst held rows rows [] [] read =
        ([([1], true), ([2], false), ([3], true), ([4], false)],
          some (.archiveUnavailable "tampered")) := by
  intro held rows read visit
  refine ⟨(listing_walks_union held (by decide) fun key item h => ?_).2.2.2.2.2, by decide⟩
  simp only [read] at h
  split_ifs at h
  rw [← Option.some.inj (Except.ok.inj h)]

end Ledger

end Halro
