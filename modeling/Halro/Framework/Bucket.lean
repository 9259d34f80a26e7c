import Mathlib.Data.List.Lex
import Mathlib.Data.List.Pairwise
import Mathlib.Data.List.Sort
import Halro.Framework.Bytes

/-!
# Ordered buckets and their cursors

A bucket keeps its entries in strictly increasing key order, and a cursor moves along them.  The
walk a reader makes who seeks a key, steps back if it went past it and goes on stepping back is
`Bucket.walkBack`; `walkBack_eq` says which entries it visits and in which order, and that is all a
proof about such a reader needs.

The order of byte strings is the one of their bytes, so that numbers written big-endian in a fixed
width are ordered as numbers (`lt_iff_uint_lt`).
-/

namespace Framework

/-! ## The order of byte strings -/

instance byteOrder : LinearOrder UInt8 where
  le_refl := UInt8.le_refl
  le_trans _ _ _ := UInt8.le_trans
  le_antisymm _ _ := UInt8.le_antisymm
  le_total := UInt8.le_total
  lt_iff_le_not_ge a b := by
    rw [UInt8.lt_iff_toNat_lt, UInt8.le_iff_toNat_le, UInt8.le_iff_toNat_le]
    omega
  toDecidableLE := inferInstance

lemma uint_cons (x : UInt8) (b : Bytes) : uint (x :: b) = x.toNat * 256 ^ b.length + uint b := by
  induction b using List.reverseRecOn with
  | nil => simp [uint]
  | append_singleton b y ih =>
    rw [← List.cons_append, uint_concat, ih, uint_concat, List.length_append, List.length_singleton]
    ring

lemma uint_append (a b : Bytes) : uint (a ++ b) = uint a * 256 ^ b.length + uint b := by
  induction a with
  | nil => simp [uint]
  | cons x a ih =>
    rw [List.cons_append, uint_cons, ih, uint_cons, List.length_append, pow_add]
    ring

/-- The leading digit decides. -/
private lemma digit_lt {x y a b p : ℕ} (hxy : x < y) (ha : a < p) : x * p + a < y * p + b :=
  calc x * p + a < x * p + p := by omega
    _ = (x + 1) * p := by ring
    _ ≤ y * p := Nat.mul_le_mul_right p hxy
    _ ≤ y * p + b := Nat.le_add_right _ _

/-- Byte strings of one length are ordered as the numbers they stand for. -/
lemma lt_iff_uint_lt {a b : Bytes} (h : a.length = b.length) : a < b ↔ uint a < uint b := by
  induction a generalizing b with
  | nil =>
    have hb : b = [] := List.eq_nil_of_length_eq_zero h.symm
    simp [hb]
  | cons x a ih =>
    cases b with
    | nil => simp at h
    | cons y b =>
      have hlen : a.length = b.length := by simpa using h
      have ha : uint a < 256 ^ b.length := hlen ▸ uint_lt a
      have hb : uint b < 256 ^ b.length := uint_lt b
      rw [List.cons_lt_cons_iff, ih hlen, uint_cons, uint_cons, hlen, UInt8.lt_iff_toNat_lt,
        ← UInt8.toNat_inj]
      rcases Nat.lt_trichotomy x.toNat y.toNat with hxy | hxy | hxy
      · exact ⟨fun _ => digit_lt hxy ha, fun _ => Or.inl hxy⟩
      · rw [hxy]
        omega
      · have hgt : y.toNat * 256 ^ b.length + uint b < x.toNat * 256 ^ b.length + uint a :=
          digit_lt hxy hb
        omega

/-! ## Buckets -/

/-- The entries of a bucket in key order, each key once. -/
structure Bucket (K V : Type) [LinearOrder K] where
  entries : List (K × V)
  sorted : entries.Pairwise fun a b => a.1 < b.1

namespace Bucket

variable {K V : Type} [LinearOrder K]

instance [DecidableEq V] : DecidableEq (Bucket K V) := fun a b =>
  decidable_of_iff (a.entries = b.entries) ⟨fun h => by cases a; cases b; cases h; rfl,
    fun h => h ▸ rfl⟩

def empty : Bucket K V := ⟨[], List.Pairwise.nil⟩

def get (b : Bucket K V) (k : K) : Option V := (b.entries.find? fun e => e.1 = k).map Prod.snd

variable {b : Bucket K V} {k : K}

/-- Two entries of one key are one entry. -/
lemma eq_of_key {v w : V} (hv : (k, v) ∈ b.entries) (hw : (k, w) ∈ b.entries) : v = w := by
  by_contra hne
  have : Std.Symm fun a b : K × V => a.1 ≠ b.1 := ⟨fun _ _ h => h.symm⟩
  have hapart : b.entries.Pairwise fun a b => a.1 ≠ b.1 := b.sorted.imp fun hlt => hlt.ne
  exact hapart.forall hv hw (fun heq => hne (Prod.ext_iff.mp heq).2) rfl

lemma get_eq_some {v : V} : b.get k = some v ↔ (k, v) ∈ b.entries := by
  unfold get
  constructor
  · intro h
    obtain ⟨⟨j, w⟩, hfind, hw⟩ := Option.map_eq_some_iff.mp h
    have hj : j = k := by simpa using List.find?_some hfind
    cases hj
    cases hw
    exact List.mem_of_find?_eq_some hfind
  · intro h
    cases hfind : b.entries.find? fun e => decide (e.1 = k) with
    | none =>
      have hnone := List.find?_eq_none.mp hfind (k, v) h
      simp at hnone
    | some e =>
      have hj : e.1 = k := by simpa using List.find?_some hfind
      have hmem : (k, e.2) ∈ b.entries := hj ▸ List.mem_of_find?_eq_some hfind
      rw [Option.map_some, eq_of_key h hmem]

lemma get_eq_none : b.get k = none ↔ ∀ v, (k, v) ∉ b.entries := by
  rw [Option.eq_none_iff_forall_ne_some]
  exact forall_congr' fun v => not_congr get_eq_some

/-! ### Writing -/

/-- The entry in its place; an entry of the same key is replaced. -/
def place (k : K) (v : V) : List (K × V) → List (K × V)
  | [] => [(k, v)]
  | e :: rest =>
    if k < e.1 then (k, v) :: e :: rest
    else if e.1 < k then e :: place k v rest
    else (k, v) :: rest

lemma mem_place {v : V} {l : List (K × V)} (hl : l.Pairwise fun a b => a.1 < b.1)
    {e : K × V} : e ∈ place k v l ↔ e = (k, v) ∨ e ∈ l ∧ e.1 ≠ k := by
  induction l with
  | nil => simp [place]
  | cons d rest ih =>
    obtain ⟨hd, hrest⟩ := List.pairwise_cons.mp hl
    rw [place]
    split_ifs with hlt hgt
    · have hne : ∀ x ∈ d :: rest, x.1 ≠ k := by
        intro x hx
        rcases List.mem_cons.mp hx with rfl | hx
        · exact hlt.ne'
        · exact (hlt.trans (hd x hx)).ne'
      rw [List.mem_cons]
      exact or_congr_right ⟨fun hx => ⟨hx, hne e hx⟩, And.left⟩
    · rw [List.mem_cons, ih hrest, List.mem_cons]
      constructor
      · rintro (rfl | rfl | ⟨hx, hk⟩)
        · exact Or.inr ⟨Or.inl rfl, hgt.ne⟩
        · exact Or.inl rfl
        · exact Or.inr ⟨Or.inr hx, hk⟩
      · rintro (rfl | ⟨rfl | hx, hk⟩)
        · exact Or.inr (Or.inl rfl)
        · exact Or.inl rfl
        · exact Or.inr (Or.inr ⟨hx, hk⟩)
    · have hk : d.1 = k := le_antisymm (not_lt.mp hlt) (not_lt.mp hgt)
      rw [List.mem_cons, List.mem_cons]
      constructor
      · rintro (rfl | hx)
        · exact Or.inl rfl
        · exact Or.inr ⟨Or.inr hx, hk ▸ (hd e hx).ne'⟩
      · rintro (rfl | ⟨rfl | hx, hne⟩)
        · exact Or.inl rfl
        · exact absurd hk hne
        · exact Or.inr hx

lemma sorted_place {v : V} {l : List (K × V)} (hl : l.Pairwise fun a b => a.1 < b.1) :
    (place k v l).Pairwise fun a b => a.1 < b.1 := by
  induction l with
  | nil => exact List.pairwise_singleton _ _
  | cons d rest ih =>
    obtain ⟨hd, hrest⟩ := List.pairwise_cons.mp hl
    rw [place]
    split_ifs with hlt hgt
    · refine List.pairwise_cons.mpr ⟨fun x hx => ?_, hl⟩
      rcases List.mem_cons.mp hx with rfl | hx
      · exact hlt
      · exact hlt.trans (hd x hx)
    · refine List.pairwise_cons.mpr ⟨fun x hx => ?_, ih hrest⟩
      rcases (mem_place hrest).mp hx with rfl | ⟨hx, -⟩
      · exact hgt
      · exact hd x hx
    · have hk : d.1 = k := le_antisymm (not_lt.mp hlt) (not_lt.mp hgt)
      exact List.pairwise_cons.mpr ⟨fun x hx => hk ▸ hd x hx, hrest⟩

def put (b : Bucket K V) (k : K) (v : V) : Bucket K V := ⟨place k v b.entries, sorted_place b.sorted⟩

lemma mem_put {v : V} {e : K × V} :
    e ∈ (b.put k v).entries ↔ e = (k, v) ∨ e ∈ b.entries ∧ e.1 ≠ k := mem_place b.sorted

/-- Writing under an unused key adds one entry and keeps the others. -/
lemma mem_put_of_unused {v : V} (h : b.get k = none) {e : K × V} :
    e ∈ (b.put k v).entries ↔ e = (k, v) ∨ e ∈ b.entries := by
  rw [mem_put]
  refine or_congr_right ⟨And.left, fun he => ⟨he, fun hk => ?_⟩⟩
  exact get_eq_none.mp h e.2 (hk ▸ he)

/-! ### Cursors -/

/-- A cursor: the entries behind it, the nearest first, and those from its place on. -/
structure Cursor (K V : Type) where
  behind : List (K × V)
  ahead : List (K × V)

/-- A cursor at the first entry whose key is not below `k`, or past the last entry. -/
def seek (b : Bucket K V) (k : K) : Cursor K V where
  behind := (b.entries.takeWhile fun e => e.1 < k).reverse
  ahead := b.entries.dropWhile fun e => e.1 < k

/-- The entry a cursor is at. -/
def Cursor.item (c : Cursor K V) : Option (K × V) := c.ahead.head?

/-- What a reader visits who seeks `k`, steps back once if the cursor is past `k`, and goes on
stepping back to the first entry. -/
def walkBack (b : Bucket K V) (k : K) : List (K × V) :=
  let cursor := b.seek k
  match cursor.item with
  | none => cursor.behind
  | some e => if k < e.1 then cursor.behind else e :: cursor.behind

/-- The entries up to `k`, the last one first. -/
theorem walkBack_eq (b : Bucket K V) (k : K) :
    b.walkBack k = (b.entries.filter fun e => e.1 ≤ k).reverse := by
  obtain ⟨l, hl⟩ := b
  unfold walkBack Cursor.item seek
  dsimp only
  have key : ∀ l : List (K × V), l.Pairwise (fun a b => a.1 < b.1) →
      l.filter (fun e => decide (e.1 ≤ k)) = l.takeWhile (fun e => decide (e.1 < k)) ++
        (match (l.dropWhile fun e => decide (e.1 < k)).head? with
          | none => []
          | some e => if k < e.1 then [] else [e]) := by
    intro l hl
    induction l with
    | nil => rfl
    | cons d rest ih =>
      obtain ⟨hd, hrest⟩ := List.pairwise_cons.mp hl
      by_cases hlt : d.1 < k
      · rw [List.filter_cons_of_pos (by simpa using hlt.le),
          List.takeWhile_cons_of_pos (by simpa using hlt),
          List.dropWhile_cons_of_pos (by simpa using hlt), List.cons_append, ih hrest]
      · -- the cursor stops here; what follows lies past the key
        have hpast : rest.filter (fun e => decide (e.1 ≤ k)) = [] := by
          refine List.filter_eq_nil_iff.mpr fun e he => ?_
          simpa using (not_lt.mp hlt).trans_lt (hd e he)
        rw [List.takeWhile_cons_of_neg (by simpa using hlt),
          List.dropWhile_cons_of_neg (by simpa using hlt), List.nil_append, List.head?_cons,
          List.filter_cons, hpast]
        by_cases hgt : k < d.1
        · simp [hgt]
        · simp [hgt, not_lt.mp hgt]
  rw [key l hl]
  cases (l.dropWhile fun e => decide (e.1 < k)).head? with
  | none => simp
  | some e =>
    dsimp only
    split_ifs with hgt
    · simp
    · simp

end Bucket

end Framework
