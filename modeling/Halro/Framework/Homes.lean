import Halro.Framework.FinMap

/-!
# A map kept in two places

A store may keep some of its entries at hand and shelve the others: what is looked up is then the
entry at hand or a shelved one.  `Homes` says that the two places together hold exactly the entries
of one map, each entry in one place under its own key.  Entering and changing an entry at hand,
moving entries to the shelf and rearranging the shelf keep it so.
-/

namespace Framework

variable {K V : Type} [DecidableEq K]

/-- The entries of `whole` are those held and those shelved, which are different ones. -/
structure Homes (key : V → K) (held : FinMap K V) (shelved : V → Prop) (whole : FinMap K V) :
    Prop where
  keyed : ∀ k v, held.lookup k = some v → key v = k
  lookup : ∀ k v, whole.lookup k = some v ↔ held.lookup k = some v ∨ (shelved v ∧ key v = k)
  apart : ∀ v, shelved v → held.lookup (key v) = none

namespace Homes

variable {key : V → K} {held whole : FinMap K V} {shelved : V → Prop} {k : K} {v : V}

lemma empty (key : V → K) : Homes key (∅ : FinMap K V) (fun _ => False) ∅ where
  keyed k v hv := by simp at hv
  lookup k v := by simp
  apart v hv := hv.elim

section

variable (h : Homes key held shelved whole)

include h

/-- What is held is found. -/
lemma of_held (hv : held.lookup k = some v) : whole.lookup k = some v :=
  (h.lookup k v).mpr (Or.inl hv)

/-- What is shelved is found. -/
lemma of_shelved (hv : shelved v) : whole.lookup (key v) = some v :=
  (h.lookup (key v) v).mpr (Or.inr ⟨hv, rfl⟩)

/-- An entry set at a key that nothing shelved has. -/
lemma insert (hkey : key v = k) (hfree : ∀ u, shelved u → key u ≠ k) :
    Homes key (held.insert k v) shelved (whole.insert k v) where
  keyed := FinMap.forall_insert hkey h.keyed
  lookup j u := by
    rw [FinMap.lookup_insert_ite, FinMap.lookup_insert_ite]
    split_ifs with hj
    · refine ⟨Or.inl, fun hu => hu.elim id fun ⟨hs, hk⟩ => ?_⟩
      exact absurd (hk.trans hj) (hfree u hs)
    · exact h.lookup j u
  apart u hu := by
    rw [FinMap.lookup_insert_ite, if_neg (hfree u hu)]
    exact h.apart u hu

/-- A new entry. -/
lemma enter (hkey : key v = k) (hnone : whole.lookup k = none) :
    Homes key (held.insert k v) shelved (whole.insert k v) := by
  refine h.insert hkey fun u hu hk => ?_
  have hfound := h.of_shelved hu
  rw [hk, hnone] at hfound
  cases hfound

/-- A changed entry. -/
lemma change {old : V} (hkey : key v = k) (hold : held.lookup k = some old) :
    Homes key (held.insert k v) shelved (whole.insert k v) := by
  refine h.insert hkey fun u hu hk => ?_
  have hnone := h.apart u hu
  rw [hk, hold] at hnone
  cases hnone

/-- Entries moved from the one place to the other. -/
lemma move {held' : FinMap K V} {shelved' : V → Prop} (gone : V → Prop)
    (hheld : ∀ k v, held'.lookup k = some v ↔ held.lookup k = some v ∧ ¬ gone v)
    (hshlv : ∀ v, shelved' v ↔ shelved v ∨ (held.lookup (key v) = some v ∧ gone v)) :
    Homes key held' shelved' whole where
  keyed k v hv := h.keyed k v ((hheld k v).mp hv).1
  lookup k v := by
    rw [h.lookup, hheld, hshlv]
    constructor
    · rintro (hv | ⟨hv, hk⟩)
      · by_cases hg : gone v
        · have hk := h.keyed k v hv
          exact Or.inr ⟨Or.inr ⟨by rw [hk]; exact hv, hg⟩, hk⟩
        · exact Or.inl ⟨hv, hg⟩
      · exact Or.inr ⟨Or.inl hv, hk⟩
    · rintro (⟨hv, -⟩ | ⟨hv | ⟨hv, -⟩, rfl⟩)
      · exact Or.inl hv
      · exact Or.inr ⟨hv, rfl⟩
      · exact Or.inl hv
  apart v hv := by
    cases hl : held'.lookup (key v) with
    | none => rfl
    | some u =>
      obtain ⟨hu, hng⟩ := (hheld _ _).mp hl
      rcases (hshlv v).mp hv with hv | ⟨hv, hg⟩
      · rw [h.apart v hv] at hu
        cases hu
      · rw [hv] at hu
        obtain rfl := Option.some.inj hu
        exact absurd hg hng

/-- The shelf may be arranged otherwise. -/
lemma congr {shelved' : V → Prop}
    (hs : ∀ v, shelved' v ↔ shelved v) : Homes key held shelved' whole := by
  have heq : shelved' = shelved := funext fun v => propext (hs v)
  rw [heq]
  exact h

end

end Homes

end Framework
