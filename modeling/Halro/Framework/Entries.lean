import Mathlib.Data.List.Sort
import Mathlib.Data.String.Basic
import Halro.Framework.FinMap

/-!
# Finite maps written out and read back

A map is written out as the list of its entries in key order and read back by inserting the
entries of a list one by one, each under a key computed from the entry.  Reading back what was
written gives the map, provided every entry carries its own key.
-/

namespace Framework

namespace FinMap

variable {K V W : Type}

-- The order of texts under names, so that a definition that sorts by them holds no proof.
instance isTransText : IsTrans String (· ≤ ·) := inferInstance

instance antisymmText : Std.Antisymm (α := String) (· ≤ ·) := inferInstance

instance totalText : Std.Total (α := String) (· ≤ ·) := inferInstance

/-! ## Writing out -/

section Sorted

variable (r : K → K → Prop) [DecidableRel r] [IsTrans K r] [Std.Antisymm r] [Std.Total r]

/-- The elements of a multiset in order.  Insertion sort keeps the definition structural. -/
def sorted (s : Multiset K) : List K :=
  Quotient.liftOn s (List.insertionSort r) fun a b hab =>
    List.Perm.eq_of_pairwise' (r := r) (List.pairwise_insertionSort _ a)
      (List.pairwise_insertionSort _ b)
      ((List.perm_insertionSort _ a).trans (hab.trans (List.perm_insertionSort _ b).symm))

variable {r}

lemma mem_sorted {s : Multiset K} {k : K} : k ∈ sorted r s ↔ k ∈ s := by
  induction s using Quotient.inductionOn with
  | _ l => exact List.mem_insertionSort _

lemma nodup_sorted {s : Multiset K} (h : s.Nodup) : (sorted r s).Nodup := by
  induction s using Quotient.inductionOn with
  | _ l =>
    have hl : l.Nodup := Multiset.coe_nodup.mp h
    exact (List.perm_insertionSort _ l).nodup_iff.mpr hl

variable [DecidableEq K] (r)

/-- The entries of a map in key order. -/
def entriesSorted (m : FinMap K V) : List (K × V) :=
  (sorted r m.keys.val).filterMap fun k => (m.lookup k).map fun v => (k, v)

variable {r}

lemma mem_entriesSorted {m : FinMap K V} {k : K} {v : V} :
    (k, v) ∈ m.entriesSorted r ↔ m.lookup k = some v := by
  unfold entriesSorted
  rw [List.mem_filterMap]
  constructor
  · rintro ⟨j, -, hj⟩
    obtain ⟨w, hw, heq⟩ := Option.map_eq_some_iff.mp hj
    cases heq
    exact hw
  · intro hv
    refine ⟨k, mem_sorted.mpr ?_, by rw [hv, Option.map_some]⟩
    exact Finmap.mem_keys.mpr (Finmap.mem_iff.mpr ⟨v, hv⟩)

lemma mem_values {m : FinMap K V} {v : V} :
    v ∈ (m.entriesSorted r).map Prod.snd ↔ ∃ k, m.lookup k = some v := by
  rw [List.mem_map]
  constructor
  · rintro ⟨⟨k, w⟩, hmem, rfl⟩
    exact ⟨k, mem_entriesSorted.mp hmem⟩
  · rintro ⟨k, hk⟩
    exact ⟨(k, v), mem_entriesSorted.mpr hk, rfl⟩

/-- No key is written out twice. -/
lemma nodup_entriesSorted (m : FinMap K V) : ((m.entriesSorted r).map Prod.fst).Nodup := by
  have hsub : ((m.entriesSorted r).map Prod.fst).Sublist (sorted r m.keys.val) := by
    unfold entriesSorted
    induction sorted r m.keys.val with
    | nil => exact List.Sublist.refl _
    | cons k l ih =>
      rw [List.filterMap_cons]
      cases m.lookup k with
      | none => exact ih.cons k
      | some v => exact ih.cons_cons k
  exact hsub.nodup (nodup_sorted m.keys.nodup)

end Sorted

/-! ## Reading back -/

section OfList

variable [DecidableEq K]

/-- The map of a list of items, each inserted under its own key; a later item replaces an
earlier one. -/
def ofList (key : W → K) (value : W → V) (l : List W) : FinMap K V :=
  l.foldl (fun m w => m.insert (key w) (value w)) ∅

/-- Reading back a list that holds each entry of `m`, and nothing else, gives `m`. -/
lemma ofList_eq {key : W → K} {value : W → V} {l : List W} {m : FinMap K V}
    (hin : ∀ w ∈ l, m.lookup (key w) = some (value w))
    (hall : ∀ k v, m.lookup k = some v → ∃ w ∈ l, key w = k) : ofList key value l = m := by
  have fold : ∀ (l : List W) (n : FinMap K V), (∀ w ∈ l, m.lookup (key w) = some (value w)) →
      ∀ k, Finmap.lookup k (l.foldl (fun m w => m.insert (key w) (value w)) n) =
        if k ∈ l.map key then m.lookup k else n.lookup k := by
    intro l
    induction l with
    | nil => intro n _ k; simp
    | cons w l ih =>
      intro n hl k
      rw [List.foldl_cons, ih _ (fun x hx => hl x (List.mem_cons_of_mem w hx)),
        lookup_insert_ite, List.map_cons]
      have hw := hl w List.mem_cons_self
      by_cases hmem : k ∈ l.map key
      · rw [if_pos hmem, if_pos (List.mem_cons_of_mem (key w) hmem)]
      · rw [if_neg hmem]
        by_cases hk : k = key w
        · rw [if_pos hk, if_pos (by rw [hk]; exact List.mem_cons_self), hk, hw]
        · rw [if_neg hk, if_neg]
          exact fun hc => (List.mem_cons.mp hc).elim hk hmem
  refine Finmap.ext_lookup fun k => ?_
  rw [ofList, fold l ∅ hin]
  split_ifs with hmem
  · rfl
  · cases hk : m.lookup k with
    | none => simp
    | some v =>
      obtain ⟨w, hw, rfl⟩ := hall k v hk
      exact absurd (List.mem_map_of_mem hw) hmem

/-- Written out and read back, a map is itself, if each entry carries its key. -/
lemma ofList_entriesSorted {r : K → K → Prop} [DecidableRel r] [IsTrans K r] [Std.Antisymm r]
    [Std.Total r] (m : FinMap K V) : ofList Prod.fst Prod.snd (m.entriesSorted r) = m := by
  refine ofList_eq ?_ fun k v hv => ⟨(k, v), mem_entriesSorted.mpr hv, rfl⟩
  rintro ⟨k, v⟩ hmem
  exact mem_entriesSorted.mp hmem

end OfList

variable {l : List (K × V)}

/-- Entries replaced or left out under their keys stay distinct. -/
lemma nodup_filterMap_keys {g : K × V → Option W} (hl : (l.map Prod.fst).Nodup) :
    ((l.filterMap fun e => (g e).map fun w => (e.1, w)).map Prod.fst).Nodup := by
  have hsub : ((l.filterMap fun e => (g e).map fun w => (e.1, w)).map Prod.fst).Sublist
      (l.map Prod.fst) := by
    clear hl
    induction l with
    | nil => exact List.Sublist.refl _
    | cons e l ih =>
      rw [List.filterMap_cons]
      cases g e with
      | none => exact ih.cons _
      | some w => exact ih.cons_cons _
  exact hsub.nodup hl

/-! ## Writing many entries -/

section InsertAll

variable [DecidableEq K]

/-- The entries of a list written one by one. -/
def insertAll (m : FinMap K V) (l : List (K × V)) : FinMap K V :=
  l.foldl (fun n e => n.insert e.1 e.2) m

lemma lookup_insertAll_of_notMem {m : FinMap K V} {k : K}
    (h : k ∉ l.map Prod.fst) : (m.insertAll l).lookup k = m.lookup k := by
  induction l generalizing m with
  | nil => rfl
  | cons e l ih =>
    obtain ⟨hne, hl⟩ := not_or.mp (mt List.mem_cons.mpr h)
    rw [insertAll, List.foldl_cons, ← insertAll, ih hl, lookup_insert_ite, if_neg hne]

/-- A key written once has the value written. -/
lemma lookup_insertAll_of_mem {m : FinMap K V} {k : K} {v : V}
    (hl : (l.map Prod.fst).Nodup) (h : (k, v) ∈ l) : (m.insertAll l).lookup k = some v := by
  induction l generalizing m with
  | nil => cases h
  | cons e l ih =>
    obtain ⟨hne, hl⟩ := List.nodup_cons.mp hl
    rw [insertAll, List.foldl_cons, ← insertAll]
    rcases List.mem_cons.mp h with rfl | h
    · rw [lookup_insertAll_of_notMem hne, lookup_insert_ite, if_pos rfl]
    · exact ih hl h

end InsertAll

end FinMap

end Framework
