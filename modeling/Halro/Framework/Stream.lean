import Halro.Framework.Outcome
import Halro.Framework.Bytes

/-!
# Reading records from a stream of bytes

A reader takes one record at a time off the front of a byte string.  Each time it is at the end, has
only the first bytes of a record, refuses what it sees, or goes on in a new state with the rest.
`Reader.scan` repeats this to the end.

What was written for a reader is a list of pieces, each of which the reader takes as a whole whatever
comes after it and recognises as torn when it is cut (`Reader.Written`).  Such a list is read back
piece by piece (`scan_bytesOf_append`), and a cut anywhere gives the pieces before it
(`scan_take`).  The other way round, a scan that succeeded went through the bytes step by step
(`steps_of_scan`).
-/

namespace Framework

/-- What a reader finds at the front of a byte string. -/
inductive Read (S R E : Type)
  | done
  | torn (state : S)
  | refused (error : E)
  | next (state : S) (record : R) (rest : Bytes)

structure Reader (S R E : Type) where
  read : S → Bytes → Read S R E
  atEnd : ∀ s, read s [] = .done
  progress : ∀ {s b t r rest}, read s b = .next t r rest → rest.length < b.length

/-- A finished scan: the records and where each of them ends, the state after them and the bytes they
took, and the state the reader was left in by a torn record at the end. -/
structure Scanned (S R : Type) where
  records : List R
  ends : List ℕ
  state : S
  consumed : ℕ
  torn : Option S

/-- A scan with one more record before it. -/
def Scanned.after {S R : Type} (x : Scanned S R) (r : R) (length : ℕ) : Scanned S R :=
  { x with
    records := r :: x.records
    ends := length :: x.ends.map (length + ·)
    consumed := length + x.consumed }

namespace Reader

variable {S R E : Type} (rd : Reader S R E)

/-- At most a number of reads. -/
def scanUpTo : ℕ → S → Bytes → Except E (Scanned S R)
  | 0, s, _ => .ok ⟨[], [], s, 0, none⟩
  | n + 1, s, b =>
    match rd.read s b with
    | .done => .ok ⟨[], [], s, 0, none⟩
    | .torn t => .ok ⟨[], [], s, 0, some t⟩
    | .refused e => .error e
    | .next t r rest => (scanUpTo n t rest).map (·.after r (b.length - rest.length))

/-- Reading to the end; every record takes a byte at least. -/
def scan (s : S) (b : Bytes) : Except E (Scanned S R) := scanUpTo rd (b.length + 1) s b

variable {rd}

variable {b : Bytes}

lemma scanUpTo_eq_scan {n : ℕ} {s : S} (h : b.length < n) : rd.scanUpTo n s b = rd.scan s b := by
  induction n using Nat.strong_induction_on generalizing s b with
  | h n ih =>
    obtain ⟨m, rfl⟩ := Nat.exists_eq_succ_of_ne_zero (Nat.ne_zero_of_lt h)
    rw [scan, scanUpTo, scanUpTo]
    rcases hread : rd.read s b with _ | t | e | ⟨t, r, rest⟩
    · rfl
    · rfl
    · rfl
    · have hlt := rd.progress hread
      dsimp only
      rw [ih m (Nat.lt_succ_self m) (by omega)]
      by_cases hm : b.length < m
      · rw [ih b.length (by omega) hlt]
      · obtain rfl : m = b.length := by omega
        rw [ih b.length (by omega) hlt]

lemma scan_of_done {s : S} (h : rd.read s b = .done) : rd.scan s b = .ok ⟨[], [], s, 0, none⟩ := by
  rw [scan, scanUpTo, h]

lemma scan_of_torn {s t : S} (h : rd.read s b = .torn t) :
    rd.scan s b = .ok ⟨[], [], s, 0, some t⟩ := by
  rw [scan, scanUpTo, h]

lemma scan_of_refused {s : S} {e : E} (h : rd.read s b = .refused e) : rd.scan s b = .error e := by
  rw [scan, scanUpTo, h]

lemma scan_of_next {s t : S} {b rest : Bytes} {r : R} (h : rd.read s b = .next t r rest) :
    rd.scan s b = (rd.scan t rest).map (·.after r (b.length - rest.length)) := by
  rw [scan, scanUpTo, h]
  dsimp only
  rw [scanUpTo_eq_scan (rd.progress h)]

end Reader

/-! ## Written pieces -/

/-- The bytes of a record, what is read from them and the state after it. -/
structure Piece (S R : Type) where
  bytes : Bytes
  record : R
  after : S

variable {S R E : Type}

def bytesOf (pieces : List (Piece S R)) : Bytes := (pieces.map Piece.bytes).flatten

/-- Where each of a list of pieces ends. -/
def endsOf : List (Piece S R) → List ℕ
  | [] => []
  | p :: pieces => p.bytes.length :: (endsOf pieces).map (p.bytes.length + ·)

/-- The state after pieces. -/
def stateAfter (s : S) (pieces : List (Piece S R)) : S := pieces.foldl (fun _ p => p.after) s

/-- The pieces that end within a number of bytes. -/
def complete : ℕ → List (Piece S R) → List (Piece S R)
  | _, [] => []
  | n, p :: pieces =>
    if p.bytes.length ≤ n then p :: complete (n - p.bytes.length) pieces else []

@[simp] lemma bytesOf_nil : bytesOf ([] : List (Piece S R)) = [] := rfl

@[simp] lemma bytesOf_cons (p : Piece S R) (pieces : List (Piece S R)) :
    bytesOf (p :: pieces) = p.bytes ++ bytesOf pieces := rfl

lemma bytesOf_append (ps qs : List (Piece S R)) : bytesOf (ps ++ qs) = bytesOf ps ++ bytesOf qs := by
  simp [bytesOf]

@[simp] lemma stateAfter_cons (s : S) (p : Piece S R) (pieces : List (Piece S R)) :
    stateAfter s (p :: pieces) = stateAfter p.after pieces := rfl

lemma stateAfter_append (s : S) (ps qs : List (Piece S R)) :
    stateAfter s (ps ++ qs) = stateAfter (stateAfter s ps) qs := by
  simp [stateAfter]

lemma complete_isPrefix (n : ℕ) (pieces : List (Piece S R)) : complete n pieces <+: pieces := by
  induction pieces generalizing n with
  | nil => exact List.prefix_rfl
  | cons p pieces ih =>
    rw [complete]
    split_ifs
    · exact List.prefix_cons_inj p |>.mpr (ih _)
    · exact List.nil_prefix

variable {pieces : List (Piece S R)}

lemma complete_all {n : ℕ} (h : (bytesOf pieces).length ≤ n) : complete n pieces = pieces := by
  induction pieces generalizing n with
  | nil => rfl
  | cons p pieces ih =>
    rw [bytesOf_cons, List.length_append] at h
    rw [complete, if_pos (by omega), ih (by omega)]

/-- The complete pieces are the first bytes of a cut. -/
lemma bytesOf_complete_isPrefix (n : ℕ) (pieces : List (Piece S R)) :
    bytesOf (complete n pieces) <+: (bytesOf pieces).take n := by
  induction pieces generalizing n with
  | nil => simp [complete]
  | cons p pieces ih =>
    rw [complete]
    split_ifs with hfits
    · rw [bytesOf_cons, bytesOf_cons, List.take_append, List.take_of_length_le hfits]
      exact (List.prefix_append_right_inj _).mpr (ih _)
    · exact List.nil_prefix

namespace Reader

variable {rd : Reader S R E} {agrees : S → S → Prop}

/-- The reader takes a piece as a whole, and sees that a cut one is torn.  A torn piece may leave a
trace in the state, up to which it agrees with the one before. -/
structure Reads (rd : Reader S R E) (agrees : S → S → Prop) (s : S) (p : Piece S R) : Prop where
  nonempty : p.bytes ≠ []
  whole : ∀ rest, rd.read s (p.bytes ++ rest) = .next p.after p.record rest
  cut : ∀ n, 0 < n → n < p.bytes.length → ∃ t, rd.read s (p.bytes.take n) = .torn t ∧ agrees s t

/-- Pieces written one after the other. -/
def Written (rd : Reader S R E) (agrees : S → S → Prop) : S → List (Piece S R) → Prop
  | _, [] => True
  | s, p :: pieces => rd.Reads agrees s p ∧ Written rd agrees p.after pieces

lemma written_append {s : S} {ps qs : List (Piece S R)} : rd.Written agrees s (ps ++ qs) ↔
      rd.Written agrees s ps ∧ rd.Written agrees (stateAfter s ps) qs := by
  induction ps generalizing s with
  | nil => simp [Written, stateAfter]
  | cons p ps ih => simp [Written, ih, and_assoc]

/-- Written pieces are read back, and the scan goes on after them. -/
theorem scan_bytesOf_append {s : S} (h : rd.Written agrees s pieces) (rest : Bytes) :
    rd.scan s (bytesOf pieces ++ rest) = (rd.scan (stateAfter s pieces) rest).map fun x =>
      { x with
        records := pieces.map Piece.record ++ x.records
        ends := endsOf pieces ++ x.ends.map ((bytesOf pieces).length + ·)
        consumed := (bytesOf pieces).length + x.consumed } := by
  induction pieces generalizing s with
  | nil =>
    rcases hscan : rd.scan s rest with e | x
    · simp [stateAfter, hscan, Except.map]
    · simp [stateAfter, hscan, Except.map, endsOf]
  | cons p pieces ih =>
    obtain ⟨hp, hpieces⟩ := h
    rw [bytesOf_cons, List.append_assoc, scan_of_next (hp.whole _), ih hpieces, stateAfter_cons]
    rcases rd.scan (stateAfter p.after pieces) rest with e | x
    · rfl
    · have hlen : ∀ n m : ℕ, n + m - m = n := fun n m => by omega
      simp only [Except.map, List.length_append, List.map_cons, List.cons_append, Scanned.after, endsOf,
        List.map_append, List.map_map, hlen, Function.comp_def, Nat.add_assoc]

theorem scan_bytesOf {s : S} (h : rd.Written agrees s pieces) : rd.scan s (bytesOf pieces) = .ok
      ⟨pieces.map Piece.record, endsOf pieces, stateAfter s pieces, (bytesOf pieces).length, none⟩ := by
  have hscan := scan_bytesOf_append h []
  rw [List.append_nil, scan_of_done (rd.atEnd _)] at hscan
  simpa [Except.map] using hscan

/-- A cut anywhere gives the complete pieces before it, and is noticed unless it is between two. -/
theorem scan_take {s : S} (h : rd.Written agrees s pieces) {n : ℕ}
    (hn : n ≤ (bytesOf pieces).length) :
    ∃ torn, rd.scan s ((bytesOf pieces).take n) = .ok
        ⟨(complete n pieces).map Piece.record, endsOf (complete n pieces),
          stateAfter s (complete n pieces), (bytesOf (complete n pieces)).length, torn⟩ ∧
      (torn.isSome ↔ (bytesOf (complete n pieces)).length < n) ∧
      ∀ t ∈ torn, agrees (stateAfter s (complete n pieces)) t := by
  induction pieces generalizing s n with
  | nil =>
    obtain rfl : n = 0 := by simpa using hn
    exact ⟨none, scan_of_done (rd.atEnd s), by simp [complete], nofun⟩
  | cons p pieces ih =>
    obtain ⟨hp, hpieces⟩ := h
    rw [bytesOf_cons, List.length_append] at hn
    rw [complete]
    split_ifs with hfits
    · -- The first piece is complete.
      obtain ⟨torn, hscan, htorn, hagr⟩ := ih hpieces (by omega : n - p.bytes.length ≤ _)
      refine ⟨torn, ?_, ?_, hagr⟩
      · rw [bytesOf_cons, List.take_append, List.take_of_length_le hfits, scan_of_next (hp.whole _),
          hscan]
        simp [Except.map, bytesOf, endsOf, Scanned.after]
      · rw [htorn, bytesOf_cons, List.length_append]
        omega
    · -- The cut is in the first piece or before it.
      have htake : (bytesOf (p :: pieces)).take n = p.bytes.take n := by
        rw [bytesOf_cons, List.take_append_of_le_length (by omega)]
      rw [htake]
      rcases Nat.eq_zero_or_pos n with rfl | hpos
      · exact ⟨none, scan_of_done (rd.atEnd s), by simp, nofun⟩
      · obtain ⟨t, ht, hagr⟩ := hp.cut n hpos (by omega)
        refine ⟨some t, scan_of_torn ht, by simpa using hpos, fun u hu => ?_⟩
        rw [← Option.some.inj hu]
        exact hagr

/-! ## The steps of a scan -/

/-- A scan went through the bytes, taking these records. -/
inductive Steps (rd : Reader S R E) : S → Bytes → List R → S → Bytes → Prop
  | refl (s : S) (b : Bytes) : Steps rd s b [] s b
  | step {s t u : S} {b rest rest' : Bytes} {r : R} {records : List R}
      (first : rd.read s b = .next t r rest) (more : Steps rd t rest records u rest') :
      Steps rd s b (r :: records) u rest'

/-- A scan that found no torn record went through all the bytes it consumed. -/
lemma steps_of_scan {s : S} {b : Bytes} {x : Scanned S R} (h : rd.scan s b = .ok x) :
    ∃ rest, rd.Steps s b x.records x.state rest ∧ b.length = x.consumed + rest.length ∧
      rd.read x.state rest = x.torn.elim .done .torn := by
  induction hb : b.length using Nat.strong_induction_on generalizing s b x with
  | h n ih =>
    subst hb
    rcases hread : rd.read s b with _ | t | e | ⟨t, r, rest⟩
    · rw [scan_of_done hread] at h
      obtain rfl := Except.ok.inj h
      exact ⟨b, .refl s b, (Nat.zero_add _).symm, hread⟩
    · rw [scan_of_torn hread] at h
      obtain rfl := Except.ok.inj h
      exact ⟨b, .refl s b, (Nat.zero_add _).symm, hread⟩
    · rw [scan_of_refused hread] at h
      exact nomatch h
    · rw [scan_of_next hread] at h
      have hlt := rd.progress hread
      obtain ⟨y, hscan, rfl⟩ := map_eq_ok.mp h
      obtain ⟨left, hsteps, hlen, hend⟩ := ih rest.length hlt hscan rfl
      exact ⟨left, .step hread hsteps, by simp only [Scanned.after]; omega, hend⟩

end Reader

end Framework
