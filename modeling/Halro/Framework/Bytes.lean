import Mathlib.Data.List.Induction
import Mathlib.Tactic.Ring

/-!
# Byte strings with fields at fixed offsets

The records of a binary protocol are fields laid one after the other: big-endian numbers of a fixed
width, digests, and variable parts at the end.  An encoder concatenates them; a decoder reads each
one back at its offset.  `slice_flatten` is the one fact both sides meet in, and `uint_bigEndian`
reads a number back from its bytes.
-/

namespace Framework

/-- A byte string. -/
abbrev Bytes := List UInt8

instance lawfulBEqBytes : LawfulBEq Bytes := inferInstance

/-! ## Numbers -/

/-- The number a byte string stands for, most significant byte first. -/
def uint (b : Bytes) : ℕ := b.foldl (fun n x => n * 256 + x.toNat) 0

/-- `n` in `w` bytes, most significant byte first, cut to that width. -/
def bigEndian : ℕ → ℕ → Bytes
  | 0, _ => []
  | w + 1, n => bigEndian w (n / 256) ++ [UInt8.ofNat n]

@[simp] lemma length_bigEndian (w n : ℕ) : (bigEndian w n).length = w := by
  induction w generalizing n with
  | zero => rfl
  | succ w ih => simp [bigEndian, ih]

lemma uint_concat (b : Bytes) (x : UInt8) : uint (b ++ [x]) = uint b * 256 + x.toNat := by
  simp [uint]

/-- A number that fits its width is read back from its bytes. -/
lemma uint_bigEndian {w n : ℕ} (hn : n < 256 ^ w) : uint (bigEndian w n) = n := by
  induction w generalizing n with
  | zero =>
    have hzero : n = 0 := by simpa using hn
    simp [bigEndian, uint, hzero]
  | succ w ih =>
    have hdiv : n / 256 < 256 ^ w := by
      rw [Nat.div_lt_iff_lt_mul (by decide)]
      rwa [pow_succ] at hn
    have hbyte : (UInt8.ofNat n).toNat = n % 256 := by simp
    rw [bigEndian, uint_concat, ih hdiv, hbyte]
    exact Nat.div_add_mod' n 256

/-- The number of a byte string of `w` bytes fits `w` bytes. -/
lemma uint_lt (b : Bytes) : uint b < 256 ^ b.length := by
  induction b using List.reverseRecOn with
  | nil => simp [uint]
  | append_singleton b x ih =>
    have hx : x.toNat < 256 := x.toNat_lt
    rw [uint_concat, List.length_append, List.length_singleton, pow_succ]
    calc uint b * 256 + x.toNat < uint b * 256 + 256 := by omega
      _ = (uint b + 1) * 256 := by ring
      _ ≤ 256 ^ b.length * 256 := Nat.mul_le_mul_right _ ih

/-! ## Fields -/

/-- The `n` bytes at offset `o`. -/
def slice (b : Bytes) (o n : ℕ) : Bytes := (b.drop o).take n

lemma length_slice {b : Bytes} {o n : ℕ} (h : o + n ≤ b.length) : (slice b o n).length = n := by
  simp only [slice, List.length_take, List.length_drop]
  omega

/-- A first part and the next chunk after it are a longer first part. -/
lemma take_append_chunk (b : Bytes) (o n : ℕ) :
    b.take o ++ (b.drop o).take n = b.take (o + ((b.drop o).take n).length) := by
  rw [List.take_add, List.length_take, ← List.take_eq_take_min]

/-- Parts laid one after the other are read back at the offsets where they start. -/
lemma slice_flatten {parts : List Bytes} {i : ℕ} (hi : i < parts.length) {o n : ℕ}
    (ho : (parts.take i).flatten.length = o) (hn : parts[i].length = n) :
    slice parts.flatten o n = parts[i] := by
  have hsplit : parts.flatten =
      (parts.take i).flatten ++ (parts[i] ++ (parts.drop (i + 1)).flatten) := by
    conv_lhs => rw [← List.take_append_drop i parts, List.drop_eq_getElem_cons hi]
    rw [List.flatten_append, List.flatten_cons]
  rw [slice, hsplit, ← ho, List.drop_left, ← hn, List.take_left]

end Framework
