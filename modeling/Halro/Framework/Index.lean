import Halro.Framework.Entries

/-!
# Secondary indexes of a finite map

A secondary index files the keys of a primary map under a value computed from each entry.
`Indexes file index m` says that `index` files exactly the keys of `m`, those whose entry has a
place to be filed, and keeps no empty set; `Lists file index m` says the same of an index that
keeps each set as a list without repetition.

The rules are stated through `filed`, the place of a key, so that one rule covers insertion,
replacement and removal: it is enough to say how the place of the one changed key moves.
-/

namespace Framework

namespace FinMap

variable {K A V : Type} [DecidableEq A]

/-! ## The place of a key -/

/-- Where a key of the primary map is filed. -/
def filed (file : V → Option K) (m : FinMap A V) (a : A) : Option K := (m.lookup a).bind file

variable {file : V → Option K} {m : FinMap A V}

lemma filed_of_lookup {a : A} {v : V} (h : m.lookup a = some v) : m.filed file a = file v := by
  rw [filed, h, Option.bind_some]

lemma filed_of_none {a : A} (h : m.lookup a = none) : m.filed file a = none := by
  rw [filed, h, Option.bind_none]

lemma filed_insert {a b : A} {v : V} :
    filed file (m.insert a v) b = if b = a then file v else m.filed file b := by
  rw [filed, lookup_insert_ite]
  split_ifs <;> rfl

lemma filed_erase {a b : A} :
    filed file (m.erase a) b = if b = a then none else m.filed file b := by
  rw [filed, lookup_erase_ite]
  split_ifs <;> rfl

variable [DecidableEq K]

/-! ## Set-valued indexes -/

/-- The index files exactly the keys that have a place, each at its place. -/
structure Indexes (file : V → Option K) (index : FinMap K (Finset A)) (m : FinMap A V) :
    Prop where
  tight : index.Tight
  mem : ∀ k a, a ∈ index.members k ↔ m.filed file a = some k

namespace Indexes

variable {file : V → Option K} {index : FinMap K (Finset A)} {m m' : FinMap A V} {k : K} {a : A}

lemma empty : Indexes file (∅ : FinMap K (Finset A)) (∅ : FinMap A V) := by
  refine ⟨tight_empty, fun k a => ?_⟩
  simp [members_empty, filed]

section

variable (h : Indexes file index m)

include h

/-- Nothing moved. -/
lemma same (hm : ∀ b, m'.filed file b = m.filed file b) : Indexes file index m' :=
  ⟨h.tight, fun k b => by rw [h.mem, hm]⟩

/-- One key gets a place. -/
lemma add (ha : ∀ j, m.filed file a = some j → j = k)
    (hm : ∀ b, m'.filed file b = if b = a then some k else m.filed file b) :
    Indexes file (index.addMember k a) m' := by
  refine ⟨h.tight.addMember k a, fun j b => ?_⟩
  rw [mem_addMember, hm, h.mem]
  by_cases hb : b = a
  · subst hb
    simp only [and_true, if_true, Option.some.injEq]
    exact ⟨fun hj => hj.elim Eq.symm fun hf => (ha j hf).symm, fun hj => Or.inl hj.symm⟩
  · simp [hb]

/-- One key loses its place. -/
lemma remove (ha : ∀ j, m.filed file a = some j → j = k)
    (hm : ∀ b, m'.filed file b = if b = a then none else m.filed file b) :
    Indexes file (index.removeMember k a) m' := by
  refine ⟨h.tight.removeMember k a, fun j b => ?_⟩
  rw [mem_removeMember, hm, h.mem]
  by_cases hb : b = a
  · subst hb
    simp only [and_true, if_true]
    exact ⟨fun hj => absurd (ha j hj.1) hj.2, fun hj => by cases hj⟩
  · simp [hb]

/-- A place with no member is the place of no key. -/
lemma members_eq_empty_iff : index.members k = ∅ ↔ ∀ a, m.filed file a ≠ some k := by
  rw [Finset.eq_empty_iff_forall_notMem]
  exact forall_congr' fun a => not_congr (h.mem k a)

end

end Indexes

/-! ## List-valued indexes -/

/-- The index lists exactly the keys of the primary map, each once and at its place. -/
structure Lists (file : V → K) (index : FinMap K (List A)) (m : FinMap A V) : Prop where
  tight : ∀ k l, index.lookup k = some l → l ≠ []
  nodup : ∀ k, (index.getD k []).Nodup
  mem : ∀ k a, a ∈ index.getD k [] ↔ (m.lookup a).map file = some k

namespace Lists

variable {file : V → K} {index : FinMap K (List A)} {m m' : FinMap A V} {k : K} {a : A} {v : V}

lemma empty : Lists file (∅ : FinMap K (List A)) (∅ : FinMap A V) := by
  refine ⟨fun k l h => by simp at h, fun k => ?_, fun k a => ?_⟩ <;> simp [getD_empty]

section

variable (h : Lists file index m)

include h

/-- Nothing moved. -/
lemma same (hm : ∀ b, (m'.lookup b).map file = (m.lookup b).map file) : Lists file index m' :=
  ⟨h.tight, h.nodup, fun k b => by rw [h.mem, hm]⟩

lemma lookup_of_mem (ha : a ∈ index.getD k []) : ∃ v, m.lookup a = some v ∧ file v = k :=
  Option.map_eq_some_iff.mp ((h.mem k a).mp ha)

/-- A new key is appended to the list of its place. -/
lemma append (ha : m.lookup a = none) :
    Lists file (index.insert (file v) (index.getD (file v) [] ++ [a])) (m.insert a v) := by
  have hnot : ∀ j, a ∉ index.getD j [] := by simp [h.mem, ha]
  refine ⟨fun j l hl => ?_, fun j => ?_, fun j b => ?_⟩
  · rw [lookup_insert_ite] at hl
    split_ifs at hl
    · cases hl
      simp
    · exact h.tight j l hl
  · rw [getD_insert]
    split_ifs
    · rw [List.nodup_append]
      refine ⟨h.nodup _, List.nodup_singleton a, fun x hx y hy => ?_⟩
      rw [List.mem_singleton.mp hy]
      rintro rfl
      exact hnot _ hx
    · exact h.nodup j
  · rw [getD_insert, lookup_insert_ite]
    by_cases hb : b = a
    · subst hb
      rw [if_pos rfl, Option.map_some, Option.some.injEq]
      by_cases hj : j = file v
      · simp [hj]
      · rw [if_neg hj]
        exact ⟨fun hm => absurd hm (hnot j), fun hm => absurd hm.symm hj⟩
    · rw [if_neg hb, ← h.mem]
      by_cases hj : j = file v
      · simp [hj, hb]
      · rw [if_neg hj]

/-- All keys of one place leave together. -/
lemma drop (hm : ∀ b, m'.lookup b = if b ∈ index.getD k [] then none else m.lookup b) :
    Lists file (index.erase k) m' := by
  refine ⟨fun j l hl => ?_, fun j => ?_, fun j b => ?_⟩
  · rw [lookup_erase_ite] at hl
    split_ifs at hl
    exact h.tight j l hl
  · rw [getD_erase]
    split_ifs
    · exact List.nodup_nil
    · exact h.nodup j
  · rw [getD_erase, hm]
    by_cases hb : b ∈ index.getD k []
    · rw [if_pos hb, Option.map_none]
      by_cases hj : j = k
      · simp [hj]
      · rw [if_neg hj]
        have := (h.mem k b).mp hb
        rw [h.mem, this, Option.some.injEq]
        exact ⟨fun heq => absurd heq.symm hj, fun heq => by cases heq⟩
    · rw [if_neg hb, ← h.mem]
      by_cases hj : j = k
      · simp [hj, hb]
      · rw [if_neg hj]

/-- Erasing the keys of one place leaves the entries of the others. -/
lemma lookup_eraseAll {l : List A} (hl : ∀ a, a ∈ l ↔ a ∈ index.getD k []) (a : A) :
    (m.eraseAll l).lookup a = (m.lookup a).filter fun v => file v ≠ k := by
  have hmem := (hl a).trans (h.mem k a)
  rw [FinMap.lookup_eraseAll]
  cases hv : m.lookup a with
  | none => simp
  | some v =>
    rw [hv, Option.map_some, Option.some.injEq] at hmem
    by_cases hk : file v = k
    · rw [if_pos (hmem.mpr hk), Option.filter_some_neg (by simpa using hk)]
    · rw [if_neg (fun hc => hk (hmem.mp hc)), Option.filter_some_pos (by simpa using hk)]

end

end Lists

/-! ## Building an index -/

/-- An index built by visiting the entries of a list one by one. -/
def indexOf (file : V → Option K) (l : List (A × V)) : FinMap K (Finset A) :=
  l.foldl (fun index entry =>
    match file entry.2 with
    | some k => index.addMember k entry.1
    | none => index) ∅

/-- Lists built by visiting the entries of a list one by one. -/
def listsOf (file : V → K) (l : List (A × V)) : FinMap K (List A) :=
  l.foldl (fun index entry =>
    index.insert (file entry.2) (index.getD (file entry.2) [] ++ [entry.1])) ∅

variable {l : List (A × V)}

/-- The condition under which visiting entries enters each key once. -/
lemma notMem_of_nodup_cons {a : A} {v : V} {n : FinMap A V}
    (hnodup : (((a, v) :: l).map Prod.fst).Nodup)
    (hfresh : ∀ b ∈ ((a, v) :: l).map Prod.fst, n.lookup b = none) :
    n.lookup a = none ∧ (l.map Prod.fst).Nodup ∧
      ∀ b ∈ l.map Prod.fst, (n.insert a v).lookup b = none := by
  rw [List.map_cons, List.nodup_cons] at hnodup
  refine ⟨hfresh a List.mem_cons_self, hnodup.2, fun b hb => ?_⟩
  have hne : b ≠ a := fun hc => hnodup.1 (hc ▸ hb)
  rw [lookup_insert_ite, if_neg hne]
  exact hfresh b (List.mem_cons_of_mem a hb)

lemma indexes_indexOf (hl : (l.map Prod.fst).Nodup) :
    Indexes file (indexOf file l) (ofList Prod.fst Prod.snd l) := by
  have fold : ∀ (l : List (A × V)) index (n : FinMap A V), Indexes file index n →
      (l.map Prod.fst).Nodup → (∀ b ∈ l.map Prod.fst, n.lookup b = none) →
      Indexes file (l.foldl (fun index entry =>
        match file entry.2 with
        | some k => index.addMember k entry.1
        | none => index) index) (l.foldl (fun m w => m.insert w.1 w.2) n) := by
    intro l
    induction l with
    | nil => exact fun _ _ h _ _ => h
    | cons entry l ih =>
      intro index n h hnodup hfresh
      obtain ⟨hnone, hrest, hlater⟩ := notMem_of_nodup_cons hnodup hfresh
      refine ih _ _ ?_ hrest hlater
      simp only
      cases hf : file entry.2 with
      | some k =>
        exact h.add (by simp [filed_of_none hnone]) fun b => by rw [filed_insert, hf]
      | none =>
        refine h.same fun b => ?_
        rw [filed_insert, hf]
        split_ifs with hb
        · rw [hb, filed_of_none hnone]
        · rfl
  exact fold l ∅ ∅ .empty hl fun b _ => by simp

lemma lists_listsOf {file : V → K} (hl : (l.map Prod.fst).Nodup) :
    Lists file (listsOf file l) (ofList Prod.fst Prod.snd l) := by
  have fold : ∀ (l : List (A × V)) index (n : FinMap A V), Lists file index n →
      (l.map Prod.fst).Nodup → (∀ b ∈ l.map Prod.fst, n.lookup b = none) →
      Lists file (l.foldl (fun index entry =>
        index.insert (file entry.2) (index.getD (file entry.2) [] ++ [entry.1])) index)
        (l.foldl (fun m w => m.insert w.1 w.2) n) := by
    intro l
    induction l with
    | nil => exact fun _ _ h _ _ => h
    | cons entry l ih =>
      intro index n h hnodup hfresh
      obtain ⟨hnone, hrest, hlater⟩ := notMem_of_nodup_cons hnodup hfresh
      exact ih _ _ (h.append hnone) hrest hlater
  exact fold l ∅ ∅ .empty hl fun b _ => by simp

end FinMap

end Framework
