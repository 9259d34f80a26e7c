import Mathlib.Data.Finmap
import Mathlib.Algebra.Order.BigOperators.Group.Multiset

/-!
# Finite maps with totals and set-valued indexes

A program's hash maps are Mathlib's `Finmap` at a constant family: equality is extensional,
`lookup`, `insert` and `erase` compute, and iteration order is not observable.  On top of it
this file keeps three things an accounting development needs.

* The two update laws as one `if`, so that a proof about an updated map is a case split on the
  key and not a choice between two lemmas.
* `FinMap.total`, the sum of a measure over all entries.  Its law is the accounting identity
  behind every conserved quantity: an update changes the total by the new entry's measure less
  the old one's.
* Set-valued indexes (`members`, `addMember`, `removeMember`), which drop a key when its set
  becomes empty, so that an index is determined by its membership relation.
-/

namespace Framework

universe u v w

/-- A finite map from `K` to `V`. -/
abbrev FinMap (K : Type u) (V : Type v) := Finmap fun _ : K => V

namespace FinMap

variable {K : Type u} {V : Type v} [DecidableEq K]

/-! ## Reading -/

/-- The value at a key, or a default: what a read of an absent key yields. -/
def getD (m : FinMap K V) (k : K) (d : V) : V := (m.lookup k).getD d

lemma lookup_insert_ite (m : FinMap K V) (a b : K) (v : V) :
    (m.insert a v).lookup b = if b = a then some v else m.lookup b := by
  by_cases h : b = a
  · subst h; simp
  · simp [h]

/-- An entry of a map with one more is that one, or was there under another key. -/
lemma lookup_insert_cases {m : FinMap K V} {a b : K} {v w : V}
    (h : (m.insert a v).lookup b = some w) : b = a ∧ v = w ∨ b ≠ a ∧ m.lookup b = some w := by
  rw [lookup_insert_ite] at h
  split_ifs at h with hb
  · exact .inl ⟨hb, Option.some.inj h⟩
  · exact .inr ⟨hb, h⟩

/-- What the added entry and the others have, every entry has. -/
lemma forall_insert {m : FinMap K V} {a : K} {v : V} {P : K → V → Prop} (hnew : P a v)
    (hold : ∀ b w, m.lookup b = some w → P b w) (b : K) (w : V)
    (h : (m.insert a v).lookup b = some w) : P b w := by
  obtain ⟨rfl, rfl⟩ | ⟨-, h⟩ := lookup_insert_cases h
  · exact hnew
  · exact hold b w h

/-- An entry stays when another key is written. -/
lemma lookup_insert_kept {m : FinMap K V} {a b : K} {v w : V} (h : m.lookup b = some w)
    (ha : m.lookup a ≠ some w) : (m.insert a v).lookup b = some w := by
  rw [lookup_insert_ite, if_neg, h]
  rintro rfl
  exact ha h

lemma lookup_erase_ite (m : FinMap K V) (a b : K) :
    (m.erase a).lookup b = if b = a then none else m.lookup b := by
  by_cases h : b = a
  · subst h; simp
  · simp [h]

/-- An entry of a map with one less was there under another key. -/
lemma lookup_erase_cases {m : FinMap K V} {a b : K} {w : V} (h : (m.erase a).lookup b = some w) :
    b ≠ a ∧ m.lookup b = some w := by
  rw [lookup_erase_ite] at h
  split_ifs at h with hb
  exact ⟨hb, h⟩

lemma getD_insert (m : FinMap K V) (a b : K) (v d : V) :
    FinMap.getD (m.insert a v) b d = if b = a then v else m.getD b d := by
  unfold getD
  rw [lookup_insert_ite]
  split_ifs <;> rfl

lemma getD_erase (m : FinMap K V) (a b : K) (d : V) :
    FinMap.getD (m.erase a) b d = if b = a then d else m.getD b d := by
  unfold getD
  rw [lookup_erase_ite]
  split_ifs <;> rfl

/-- Writing back what a read yields changes no read. -/
lemma getD_insert_getD (m : FinMap K V) (a b : K) (d : V) :
    FinMap.getD (m.insert a (m.getD a d)) b d = m.getD b d := by
  rw [getD_insert]
  split_ifs with h
  · rw [h]
  · rfl

variable {m : FinMap K V} {k : K}

lemma getD_of_lookup {v : V} (d : V) (h : m.lookup k = some v) : m.getD k d = v := by
  simp [getD, h]

lemma getD_of_none (d : V) (h : m.lookup k = none) : m.getD k d = d := by
  simp [getD, h]

@[simp] lemma getD_empty (k : K) (d : V) : (∅ : FinMap K V).getD k d = d := rfl

/-! ## Removing many keys -/

/-- The map without the keys of a list. -/
def eraseAll (m : FinMap K V) (l : List K) : FinMap K V := l.foldl (fun n a => n.erase a) m

lemma eraseAll_cons (m : FinMap K V) (a : K) (l : List K) :
    m.eraseAll (a :: l) = eraseAll (m.erase a) l := rfl

lemma lookup_eraseAll (m : FinMap K V) (l : List K) (b : K) :
    (m.eraseAll l).lookup b = if b ∈ l then none else m.lookup b := by
  induction l generalizing m with
  | nil => simp [eraseAll]
  | cons a l ih =>
    rw [eraseAll_cons, ih, lookup_erase_ite]
    by_cases hb : b ∈ l <;> by_cases ha : b = a <;> simp [hb, ha]

/-! ## Size -/

/-- The number of entries. -/
def size (m : FinMap K V) : ℕ := m.keys.card

lemma size_eq_zero_iff : m.size = 0 ↔ ∀ k, m.lookup k = none := by
  rw [size, Finset.card_eq_zero, Finset.eq_empty_iff_forall_notMem]
  exact forall_congr' fun k => by rw [Finmap.mem_keys, Finmap.lookup_eq_none]

/-! ## Conditions on all entries -/

/-- Every value meets a condition. -/
def Every (P : V → Prop) (m : FinMap K V) : Prop := ∀ k ∈ m.keys, ∀ v ∈ m.lookup k, P v

instance {P : V → Prop} [DecidablePred P] (m : FinMap K V) : Decidable (m.Every P) :=
  inferInstanceAs (Decidable (∀ k ∈ m.keys, ∀ v ∈ m.lookup k, P v))

lemma every_iff {P : V → Prop} : m.Every P ↔ ∀ k v, m.lookup k = some v → P v := by
  refine ⟨fun h k v hk => h k ?_ v hk, fun h k _ v hv => h k v hv⟩
  exact Finmap.mem_keys.mpr (Finmap.mem_iff.mpr ⟨v, hk⟩)

/-! ## Totals -/

variable {M : Type w}

/-- The sum of a measure over all entries. -/
def total [AddCommMonoid M] (f : K → V → M) (m : FinMap K V) : M :=
  (m.entries.map fun e => f e.1 e.2).sum

omit [DecidableEq K] in
@[simp] lemma total_empty [AddCommMonoid M] (f : K → V → M) : total f (∅ : FinMap K V) = 0 := rfl

lemma total_insert_of_notMem [AddCommMonoid M] (f : K → V → M) (v : V) (h : m.lookup k = none) :
    total f (m.insert k v) = f k v + total f m := by
  rw [total, total, Finmap.entries_insert_of_notMem (Finmap.lookup_eq_none.mp h),
    Multiset.map_cons, Multiset.sum_cons]

/-- Splitting off one entry: the total is the entry's measure plus the rest. -/
lemma total_eq_add_erase [AddCommMonoid M] (f : K → V → M) {v : V} (h : m.lookup k = some v) :
    total f m = f k v + total f (m.erase k) := by
  have hm : (m.erase k).insert k v = m := by
    refine Finmap.ext_lookup fun b => ?_
    rw [lookup_insert_ite, lookup_erase_ite]
    split_ifs with hb
    · rw [hb, h]
    · rfl
  conv_lhs => rw [← hm]
  exact total_insert_of_notMem f v (Finmap.lookup_erase k m)

lemma total_erase [AddCommGroup M] (f : K → V → M) (m : FinMap K V) (k : K) :
    total f (m.erase k) = total f m - ((m.lookup k).map (f k)).getD 0 := by
  cases h : m.lookup k with
  | none =>
    have hm : m.erase k = m := by
      refine Finmap.ext_lookup fun b => ?_
      rw [lookup_erase_ite]
      split_ifs with hb
      · rw [hb, h]
      · rfl
    simp [hm]
  | some v => simp [total_eq_add_erase f h]

/-- The accounting identity: an update moves the total by the new measure less the old. -/
lemma total_insert [AddCommGroup M] (f : K → V → M) (m : FinMap K V) (k : K) (v : V) :
    total f (m.insert k v) = total f m + f k v - ((m.lookup k).map (f k)).getD 0 := by
  have hsplit := total_eq_add_erase f (Finmap.lookup_insert (a := k) (b := v) m)
  have hrest : (m.insert k v).erase k = m.erase k := by
    refine Finmap.ext_lookup fun b => ?_
    rw [lookup_erase_ite, lookup_erase_ite, lookup_insert_ite]
    split_ifs <;> rfl
  rw [hsplit, hrest, total_erase, ← add_sub_assoc, add_comm (f k v)]

lemma total_nonneg {f : K → V → ℤ} (h : ∀ k v, m.lookup k = some v → 0 ≤ f k v) :
    0 ≤ total f m := by
  refine Multiset.sum_nonneg fun x hx => ?_
  obtain ⟨⟨k, v⟩, he, rfl⟩ := Multiset.mem_map.mp hx
  exact h k v (Finmap.lookup_eq_some_iff.mpr he)

omit [DecidableEq K] in
lemma total_le_total {f g : K → V → ℤ} (h : ∀ e ∈ m.entries, f e.1 e.2 ≤ g e.1 e.2) :
    total f m ≤ total g m :=
  Multiset.sum_map_le_sum_map _ _ h

/-- One entry of a nonnegative total is at most the total. -/
lemma le_total {f : K → V → ℤ} {v : V} (h : ∀ k v, m.lookup k = some v → 0 ≤ f k v)
    (hk : m.lookup k = some v) :
    f k v ≤ total f m := by
  have hrest : 0 ≤ total f (m.erase k) := by
    refine total_nonneg fun b w hb => ?_
    rw [lookup_erase_ite] at hb
    split_ifs at hb
    exact h b w hb
  rw [total_eq_add_erase f hk]
  omega

lemma total_eq_zero [AddCommMonoid M] {f : K → V → M} (h : ∀ k v, m.lookup k = some v → f k v = 0) :
    total f m = 0 := by
  refine Multiset.sum_eq_zero fun x hx => ?_
  obtain ⟨⟨k, v⟩, he, rfl⟩ := Multiset.mem_map.mp hx
  exact h k v (Finmap.lookup_eq_some_iff.mpr he)

/-! ## Set-valued indexes -/

variable {A : Type w} [DecidableEq A]

/-- The set held under a key, empty when the key is absent. -/
def members (m : FinMap K (Finset A)) (k : K) : Finset A := m.getD k ∅

/-- Put a member under a key. -/
def addMember (m : FinMap K (Finset A)) (k : K) (a : A) : FinMap K (Finset A) :=
  m.insert k (insert a (m.members k))

/-- Take a member from a key, and the key from the map with its last member. -/
def removeMember (m : FinMap K (Finset A)) (k : K) (a : A) : FinMap K (Finset A) :=
  let rest := (m.members k).erase a
  if rest = ∅ then m.erase k else m.insert k rest

omit [DecidableEq A] in
@[simp] lemma members_empty (k : K) : members (∅ : FinMap K (Finset A)) k = ∅ := rfl

lemma members_addMember (m : FinMap K (Finset A)) (k j : K) (a : A) :
    (m.addMember k a).members j = if j = k then insert a (m.members k) else m.members j := by
  rw [addMember, members, getD_insert]
  rfl

lemma members_removeMember (m : FinMap K (Finset A)) (k j : K) (a : A) :
    (m.removeMember k a).members j =
      if j = k then (m.members k).erase a else m.members j := by
  simp only [removeMember]
  split_ifs with he hj hj
  · rw [members, getD_erase, if_pos hj, he]
  · rw [members, getD_erase, if_neg hj, members]
  · rw [members, getD_insert, if_pos hj]
  · rw [members, getD_insert, if_neg hj, members]

variable {m : FinMap K (Finset A)}

lemma mem_addMember {j : K} {a b : A} :
    b ∈ (m.addMember k a).members j ↔ (j = k ∧ b = a) ∨ b ∈ m.members j := by
  rw [members_addMember]
  split_ifs with hj
  · simp [hj]
  · simp [hj]

lemma mem_removeMember {j : K} {a b : A} :
    b ∈ (m.removeMember k a).members j ↔ b ∈ m.members j ∧ ¬ (j = k ∧ b = a) := by
  rw [members_removeMember]
  split_ifs with hj
  · simp [hj, and_comm]
  · simp [hj]

/-- No key is kept for an empty set. -/
def Tight (m : FinMap K (Finset A)) : Prop := ∀ k s, m.lookup k = some s → s.Nonempty

omit [DecidableEq A] in
lemma tight_empty : Tight (∅ : FinMap K (Finset A)) := by
  intro k s h
  simp at h

lemma Tight.addMember (h : m.Tight) (k : K) (a : A) : (m.addMember k a).Tight := by
  intro j s hs
  rw [FinMap.addMember, lookup_insert_ite] at hs
  split_ifs at hs
  · cases hs
    exact Finset.insert_nonempty _ _
  · exact h j s hs

lemma Tight.removeMember (h : m.Tight) (k : K) (a : A) : (m.removeMember k a).Tight := by
  intro j s hs
  simp only [FinMap.removeMember] at hs
  split_ifs at hs with he
  · rw [lookup_erase_ite] at hs
    split_ifs at hs
    exact h j s hs
  · rw [lookup_insert_ite] at hs
    split_ifs at hs
    · cases hs
      exact Finset.nonempty_iff_ne_empty.mpr he
    · exact h j s hs

end FinMap

end Framework
