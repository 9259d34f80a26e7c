import Mathlib.Tactic.Linarith

/-!
# Redaction: the width of a match

`maxMatchBytes` walks a parsed expression and answers how many bytes a match can take, or a
negative number where there is no bound; the streaming window is sized by it.  The expressions
are those of `regexp/syntax`, and `Matches` says from which byte to which byte of a text an
expression can match, with the decoding of UTF-8 that the matcher does.  The table of case
variants (`unicode.SimpleFold`) is the parameter `fold`.

A literal is counted by the encoding of its own runes, also where it is read without regard to
case.  The width is therefore a bound as long as no rune of such a literal has a variant with a
longer encoding, and only as long as that.
-/

namespace Halro.Redaction

def maxBoundedMatchBytes : Int := 4096

/-- A parsed expression, with one constructor for each operator. A negative `max` of a repetition
stands for no upper end. -/
inductive Regexp where
  | noMatch
  | emptyMatch
  | literal (rune : List Nat) (foldCase : Bool)
  | charClass (rune : List (Nat × Nat))
  | anyCharNotNL
  | anyChar
  | beginLine
  | endLine
  | beginText
  | endText
  | wordBoundary
  | noWordBoundary
  | capture (sub : Regexp)
  | star (sub : Regexp)
  | plus (sub : Regexp)
  | quest (sub : Regexp)
  | repeated (sub : Regexp) (min : Nat) (max : Int)
  | concat (sub : List Regexp)
  | alternate (sub : List Regexp)

/-- `utf8.RuneLen`. -/
def runeLen (r : Nat) : Int :=
  if r ≤ 0x7f then 1
  else if r ≤ 0x7ff then 2
  else if 0xd800 ≤ r ∧ r ≤ 0xdfff then -1
  else if r ≤ 0xffff then 3
  else if r ≤ 0x10ffff then 4
  else -1

/-- `utf8.UTFMax`. -/
def utfMax : Int := 4

namespace Regexp

mutual

def maxMatchBytes : Regexp → Int
  | noMatch | emptyMatch | beginLine | endLine | beginText | endText | wordBoundary
  | noWordBoundary => 0
  | literal rune _ => (rune.map runeLen).sum
  | charClass _ | anyCharNotNL | anyChar => utfMax
  | capture sub => sub.maxMatchBytes
  | concat sub => concatBytes sub 0
  | alternate sub => alternateBytes sub 0
  | quest sub => sub.maxMatchBytes
  | star _ | plus _ => -1
  | repeated sub _ max' =>
    if max' < 0 then -1
    else if sub.maxMatchBytes < 0 ∨ sub.maxMatchBytes > maxBoundedMatchBytes / max max' 1 then -1
    else sub.maxMatchBytes * max'

/-- The loop over the children of a concatenation. -/
def concatBytes : List Regexp → Int → Int
  | [], total => total
  | child :: rest, total =>
    if child.maxMatchBytes < 0 ∨ total > maxBoundedMatchBytes - child.maxMatchBytes then -1
    else concatBytes rest (total + child.maxMatchBytes)

/-- The loop over the children of an alternation. -/
def alternateBytes : List Regexp → Int → Int
  | [], result => result
  | child :: rest, result =>
    if child.maxMatchBytes < 0 then -1
    else alternateBytes rest (max result child.maxMatchBytes)

end

mutual

/-- The runes of an expression's literals that are read without regard to case. -/
def foldedRunes : Regexp → List Nat
  | literal rune foldCase => if foldCase then rune else []
  | capture sub | star sub | plus sub | quest sub | repeated sub _ _ => sub.foldedRunes
  | concat sub | alternate sub => foldedRunesOf sub
  | _ => []

def foldedRunesOf : List Regexp → List Nat
  | [] => []
  | child :: rest => child.foldedRunes ++ foldedRunesOf rest

end

/-- The operators that read one rune. -/
def accepts : Regexp → Nat → Bool
  | charClass rune, r => rune.any fun range => range.1 ≤ r && r ≤ range.2
  | anyCharNotNL, r => r != 10
  | anyChar, _ => true
  | _, _ => false

end Regexp

section Matching

variable (fold : Char → Char) (text : ByteArray)

/-- `unicode.SimpleFold`: the next case variant; what is no character is its own. -/
def simpleFold (r : Nat) : Nat :=
  if h : r.isValidChar then (fold (Char.ofNatAux r h)).toNat else r

/-- `utf8.DecodeRune` at a position: the rune and its width. A byte that starts no character is
read as the replacement character, alone. -/
def decodeRune (i : Nat) : Nat × Nat :=
  match text.utf8DecodeChar? i with
  | some c => (c.toNat, c.utf8Size)
  | none => (0xfffd, 1)

/-- A text can be read as the runes of a literal between two positions. -/
def Reads (foldCase : Bool) : List Nat → Nat → Nat → Prop
  | [], i, j => i = j
  | r :: rest, i, j => i < text.size ∧
      (∃ k, (foldCase = true ∨ k = 0) ∧ (decodeRune text i).1 = (simpleFold fold)^[k] r) ∧
      Reads foldCase rest (i + (decodeRune text i).2) j

/-- The byte at a position is part of a word; outside the text none is. -/
def wordByte (i : Nat) : Bool :=
  text.data[i]?.any fun b => b == 95 || (48 ≤ b && b ≤ 57) || (65 ≤ b && b ≤ 90) ||
    (97 ≤ b && b ≤ 122)

/-- The operators that read nothing. -/
def assertsAt : Regexp → Nat → Bool
  | .emptyMatch, _ => true
  | .beginLine, i => i == 0 || text.data[i - 1]? == some 10
  | .endLine, i => i == text.size || text.data[i]? == some 10
  | .beginText, i => i == 0
  | .endText, i => i == text.size
  | .wordBoundary, i => (i != 0 && wordByte text (i - 1)) != wordByte text i
  | .noWordBoundary, i => (i != 0 && wordByte text (i - 1)) == wordByte text i
  | _, _ => false

/-- An expression can match a text from one position to another. -/
inductive Matches : Regexp → Nat → Nat → Prop
  | empty {e i} (h : assertsAt text e i) : Matches e i i
  | rune {e i} (hin : i < text.size) (h : e.accepts (decodeRune text i).1) :
      Matches e i (i + (decodeRune text i).2)
  | literal {rune foldCase i j} (h : Reads fold text foldCase rune i j) :
      Matches (.literal rune foldCase) i j
  | capture {e i j} (h : Matches e i j) : Matches (.capture e) i j
  | starNil {e i} : Matches (.star e) i i
  | starCons {e i j k} (h : Matches e i j) (hmore : Matches (.star e) j k) :
      Matches (.star e) i k
  | plus {e i j k} (h : Matches e i j) (hmore : Matches (.star e) j k) : Matches (.plus e) i k
  | questNone {e i} : Matches (.quest e) i i
  | questSome {e i j} (h : Matches e i j) : Matches (.quest e) i j
  | repeatDone {e max i} : Matches (.repeated e 0 max) i i
  | repeatMore {e min max i j k} (hmax : max ≠ 0) (h : Matches e i j)
      (hmore : Matches (.repeated e (min - 1) (max - 1)) j k) : Matches (.repeated e min max) i k
  | concatNil {i} : Matches (.concat []) i i
  | concatCons {e es i j k} (h : Matches e i j) (hmore : Matches (.concat es) j k) :
      Matches (.concat (e :: es)) i k
  | alternate {e es i j} (hmem : e ∈ es) (h : Matches e i j) : Matches (.alternate es) i j

end Matching

/-! ## Runes -/

lemma runeLen_toNat (c : Char) : runeLen c.toNat = c.utf8Size := by
  have hvalid := c.valid
  simp only [runeLen, Char.utf8Size, Char.toNat, UInt32.le_iff_toNat_le, UInt32.toNat_ofNatLT]
  split_ifs <;> first | rfl | omega

lemma decodeRune_width (text : ByteArray) (i : Nat) :
    ((decodeRune text i).2 : Int) ≤ runeLen (decodeRune text i).1 ∧
      ((decodeRune text i).2 : Int) ≤ utfMax := by
  unfold decodeRune
  split
  · rename_i c _
    exact ⟨(runeLen_toNat c).ge, Int.ofNat_le.mpr c.utf8Size_le_four⟩
  · decide

/-- The variants of a character are characters. -/
lemma iterate_simpleFold_toNat (fold : Char → Char) (k : Nat) (c : Char) :
    ∃ c' : Char, (simpleFold fold)^[k] c.toNat = c'.toNat := by
  induction k generalizing c with
  | zero => exact ⟨c, rfl⟩
  | succ k ih =>
    obtain ⟨c', hc'⟩ := ih (fold (Char.ofNatAux c.toNat c.valid))
    refine ⟨c', ?_⟩
    rw [Function.iterate_succ_apply, ← hc']
    exact congrArg _ (dif_pos c.valid)

variable {fold : Char → Char} {text : ByteArray}

lemma iterate_simpleFold_invalid {r : Nat} (hr : ¬ r.isValidChar) (k : Nat) :
    (simpleFold fold)^[k] r = r :=
  Function.iterate_fixed (f := simpleFold fold) (dif_neg hr) k

/-- None of the case variants of a rune takes more bytes than the rune. -/
def Narrow (fold : Char → Char) (r : Nat) : Prop :=
  ∀ k, runeLen ((simpleFold fold)^[k] r) ≤ runeLen r

lemma Reads.le_width {foldCase : Bool} {rune : List Nat}
    (hnarrow : foldCase = true → ∀ r ∈ rune, Narrow fold r) {i j : Nat}
    (h : Reads fold text foldCase rune i j) : (j : Int) ≤ i + (rune.map runeLen).sum := by
  induction rune generalizing i with
  | nil => simp [show i = j from h]
  | cons r rest ih =>
    obtain ⟨-, ⟨k, hk, hread⟩, hrest⟩ := h
    have htail := ih (fun hfold x hx => hnarrow hfold x (List.mem_cons_of_mem _ hx)) hrest
    have hwidth := (decodeRune_width text i).1
    have hvariant : runeLen ((simpleFold fold)^[k] r) ≤ runeLen r := by
      rcases hk with hfold | rfl
      · exact hnarrow hfold r List.mem_cons_self k
      · exact le_rfl
    rw [hread] at hwidth
    rw [List.map_cons, List.sum_cons]
    push_cast at htail
    linarith

/-! ## The two loops -/

namespace Regexp

lemma concatBytes_add {es : List Regexp} {a b : Int} (ha : 0 ≤ a) (h : 0 ≤ concatBytes es (a + b)) :
    concatBytes es (a + b) = a + concatBytes es b ∧ (0 ≤ b → 0 ≤ concatBytes es b) := by
  induction es generalizing b with
  | nil => exact ⟨rfl, id⟩
  | cons e es ih =>
    simp only [concatBytes] at h ⊢
    split at h
    · omega
    · rename_i hgo
      rw [if_neg hgo, if_neg (by omega)]
      rw [add_assoc] at h ⊢
      exact ⟨(ih h).1, fun hb => (ih h).2 (by omega)⟩

lemma le_alternateBytes {es : List Regexp} {result : Int} (h : 0 ≤ alternateBytes es result) :
    result ≤ alternateBytes es result ∧
      ∀ e ∈ es, 0 ≤ e.maxMatchBytes ∧ e.maxMatchBytes ≤ alternateBytes es result := by
  induction es generalizing result with
  | nil => exact ⟨le_rfl, fun _ he => absurd he List.not_mem_nil⟩
  | cons e es ih =>
    simp only [alternateBytes] at h ⊢
    split at h
    · omega
    · rename_i hwidth
      rw [if_neg hwidth]
      obtain ⟨hresult, hrest⟩ := ih h
      refine ⟨(le_max_left _ _).trans hresult, List.forall_mem_cons.mpr ⟨⟨by omega, ?_⟩, hrest⟩⟩
      exact (le_max_right _ _).trans hresult

lemma mem_foldedRunesOf {e : Regexp} {es : List Regexp} (he : e ∈ es) {r : Nat}
    (hr : r ∈ e.foldedRunes) : r ∈ foldedRunesOf es := by
  induction es with
  | nil => cases he
  | cons e' es ih =>
    rw [foldedRunesOf, List.mem_append]
    rcases List.mem_cons.mp he with rfl | he
    · exact .inl hr
    · exact .inr (ih he)

end Regexp

/-- What one more round of a repetition leaves for the others. -/
lemma repeated_rest {e : Regexp} {min : Nat} {max' : Int} (hmax : max' ≠ 0)
    (h : 0 ≤ (Regexp.repeated e min max').maxMatchBytes) :
    0 ≤ e.maxMatchBytes ∧ 0 ≤ (Regexp.repeated e (min - 1) (max' - 1)).maxMatchBytes ∧
      (Regexp.repeated e min max').maxMatchBytes =
        e.maxMatchBytes + (Regexp.repeated e (min - 1) (max' - 1)).maxMatchBytes := by
  simp only [Regexp.maxMatchBytes] at h ⊢
  split at h
  · omega
  · rename_i hneg
    split at h
    · omega
    · rename_i hgo
      push Not at hgo
      have hless : e.maxMatchBytes ≤ maxBoundedMatchBytes / max (max' - 1) 1 := by
        have hall := (Int.le_ediv_iff_mul_le (by omega)).mp hgo.2
        have hfewer : max (max' - 1) 1 ≤ max max' 1 := by omega
        exact (Int.le_ediv_iff_mul_le (by omega)).mpr
          ((mul_le_mul_of_nonneg_left hfewer hgo.1).trans hall)
      rw [if_neg hneg, if_neg (by omega), if_neg (by omega), if_neg (by omega)]
      exact ⟨hgo.1, mul_nonneg hgo.1 (by omega), by rw [mul_sub_one]; omega⟩

/-- The induction over a match: each operator takes at most what it was counted for. -/
lemma Matches.le_width {e : Regexp} {i j : Nat} (h : Matches fold text e i j)
    (hnarrow : ∀ r ∈ e.foldedRunes, Narrow fold r) (hwidth : 0 ≤ e.maxMatchBytes) :
    (j : Int) ≤ i + e.maxMatchBytes := by
  induction h with
  | empty | starNil | questNone | repeatDone | concatNil => omega
  | @rune e i _ h =>
    have hmax := (decodeRune_width text i).2
    have hbytes : e.maxMatchBytes = utfMax := by
      cases e <;> first | rfl | simp [Regexp.accepts] at h
    omega
  | @literal rune foldCase i j h =>
    refine h.le_width fun hfold r hr => hnarrow r ?_
    simpa [Regexp.foldedRunes, hfold] using hr
  | capture _ ih | questSome _ ih => exact ih hnarrow hwidth
  | starCons | plus => exact absurd hwidth (by simp [Regexp.maxMatchBytes])
  | repeatMore hmax _ _ ih ihmore =>
    obtain ⟨hfirst, hrest, hsum⟩ := repeated_rest hmax hwidth
    have h₁ := ih hnarrow hfirst
    have h₂ := ihmore hnarrow hrest
    omega
  | @concatCons e es i j k _ _ ih ihmore =>
    simp only [Regexp.foldedRunes, Regexp.foldedRunesOf, List.forall_mem_append] at hnarrow
    simp only [Regexp.maxMatchBytes, Regexp.concatBytes] at hwidth ihmore ⊢
    split at hwidth
    · omega
    · rename_i hgo
      rw [zero_add, ← add_zero e.maxMatchBytes] at hwidth ⊢
      obtain ⟨hsum, hrest⟩ := Regexp.concatBytes_add (by omega) hwidth
      have h₁ := ih hnarrow.1 (by omega)
      have h₂ := ihmore hnarrow.2 (hrest le_rfl)
      omega
  | @alternate e es i j hmem _ ih =>
    obtain ⟨hfirst, hle⟩ := (Regexp.le_alternateBytes hwidth).2 e hmem
    exact (ih (fun r hr => hnarrow r (Regexp.mem_foldedRunesOf hmem hr)) hfirst).trans
      (by simpa [Regexp.maxMatchBytes] using hle)

/-- A single rune read without regard to case matches each of its variants. -/
lemma Matches.variant {r k : Nat} {c : Char} (hc : (simpleFold fold)^[k] r = c.toNat) :
    Matches fold (String.utf8EncodeChar c).toByteArray (.literal [r] true) 0 c.utf8Size := by
  have hdecode : decodeRune (String.utf8EncodeChar c).toByteArray 0 = (c.toNat, c.utf8Size) := by
    have h := ByteArray.utf8DecodeChar?_utf8EncodeChar_append (b := .empty) (c := c)
    rw [ByteArray.append_empty] at h
    simp [decodeRune, h]
  refine .literal ⟨?_, ⟨k, .inl rfl, ?_⟩, ?_⟩
  · simpa using c.utf8Size_pos
  · rw [hdecode, hc]
  · simp [Reads, hdecode]

/-- The variants of the letter K: the small letter and the Kelvin sign. -/
def foldK : Char → Char
  | 'K' => 'k'
  | 'k' => '\u212a'
  | '\u212a' => 'K'
  | c => c

end Halro.Redaction
