import Halro.Framework.Run
import Halro.Ledger.Files

/-!
# What the files of the ledger hold

The files stand for a list of sealed generations and the frames of the active one.  `Laid` says so
for the two states a stop may leave: at rest, with or without the intent of a roll whose rename was
not made, and after the rename of a roll that was not finished.
-/

namespace Halro

open Framework

namespace Ledger

namespace Files

variable {k : Codec}

/-! ## Chains -/

/-- The head after frames. -/
def headAfter (k : Codec) (head : Head) (frames : List Frame) : Head :=
  frames.foldl (fun _ f => Head.next k f) head

/-- Frames that a scan from a head accepts. -/
def Linked (k : Codec) (head : Head) (frames : List Frame) : Prop :=
  scan k head frames = .ok (headAfter k head frames)

lemma headAfter_append (head : Head) (xs ys : List Frame) :
    headAfter k head (xs ++ ys) = headAfter k (headAfter k head xs) ys := by
  simp [headAfter]

variable {frames : List Frame}

lemma linked_cons {head : Head} {f : Frame} : Linked k head (f :: frames) ↔
      (head.sequence < f.sequence ∧ f.previousHash = head.hash ∧
        f.mac = k.mac f.sequence f.payload f.previousHash) ∧ Linked k (Head.next k f) frames := by
  simp only [Linked, scan, guard_eq_ok, not_le, not_not, headAfter, List.foldl_cons, and_assoc]

lemma linked_append {head : Head} {xs ys : List Frame} :
    Linked k head (xs ++ ys) ↔ Linked k head xs ∧ Linked k (headAfter k head xs) ys := by
  induction xs generalizing head with
  | nil => simp [Linked, scan, headAfter]
  | cons f xs ih => simp [linked_cons, ih, and_assoc, headAfter]

/-- A batch is linked to the head it was made for, and so is what landed of it. -/
lemma linked_encodeBatch (head : Head) (payloads : List Bytes) :
    Linked k head (encodeBatch k head payloads) := by
  induction payloads generalizing head with
  | nil => rfl
  | cons payload payloads ih =>
    rw [encodeBatch, linked_cons]
    exact ⟨⟨Nat.lt_succ_self _, rfl, rfl⟩, ih _⟩

lemma Linked.take {head : Head} (h : Linked k head frames) (n : ℕ) :
    Linked k head (frames.take n) := by
  rw [← List.take_append_drop n frames, linked_append] at h
  exact h.1

/-! ## Generations -/

lemma plainLength_pos (h : frames ≠ []) : 0 < plainLength frames := by
  obtain ⟨f, fs, rfl⟩ := List.exists_cons_of_ne_nil h
  simp only [plainLength, List.map_cons, List.sum_cons, Frame.length, chainHeaderSize]
  omega

lemma storedLength_pos (h : frames ≠ []) (name : SegmentFile) : 0 < storedLength k name frames := by
  cases name with
  | plain generation => exact plainLength_pos h
  | compressed generation => exact k.compressedLength_pos frames

/-- A segment describes the frames of its generation after a head. -/
structure Segment.Describes (k : Codec) (segment : Segment) (number : ℕ) (head : Head)
    (frames : List Frame) : Prop where
  generation : segment.generation = number
  file : segment.file = if segment.compressed then .compressed number else .plain number
  start : segment.startHash = head.hash
  tail : (⟨segment.endHash, segment.lastSequence⟩ : Head) = headAfter k head frames
  length : segment.length = plainLength frames
  plainChecksum : segment.plainChecksum = k.plainChecksum frames
  storedLength : segment.storedLength = Files.storedLength k segment.file frames
  nonempty : frames ≠ []

/-- Segments describe the generations after a number of others, one by one. -/
def Describe (k : Codec) : ℕ → Head → List Segment → List (List Frame) → Prop
  | _, _, [], [] => True
  | n, head, segment :: segments, frames :: generations =>
    segment.Describes k (n + 1) head frames ∧
      Describe k (n + 1) (headAfter k head frames) segments generations
  | _, _, _, _ => False

variable {n : ℕ} {head : Head} {segments : List Segment} {gens : List (List Frame)}

lemma Describe.length (h : Describe k n head segments gens) : segments.length = gens.length := by
  induction segments generalizing n head gens with
  | nil => cases gens <;> simp_all [Describe]
  | cons segment segments ih =>
    cases gens with
    | nil => exact h.elim
    | cons frames gens => simp [ih h.2]

variable {segment : Segment}

lemma describe_concat : Describe k n head (segments ++ [segment]) (gens ++ [frames]) ↔
      Describe k n head segments gens ∧
        segment.Describes k (n + gens.length + 1) (headAfter k head gens.flatten)
          frames := by
  induction segments generalizing n head gens with
  | nil =>
    cases gens with
    | nil => simp [Describe, headAfter]
    | cons gs gens => cases gens <;> simp [Describe]
  | cons s segments ih =>
    cases gens with
    | nil => cases segments <;> simp [Describe]
    | cons gs gens =>
      rw [List.cons_append, List.cons_append, Describe, Describe, ih, List.flatten_cons,
        headAfter_append, List.length_cons, and_assoc,
        show n + 1 + gens.length + 1 = n + (gens.length + 1) + 1 by omega]

/-- The segment at a place describes the generation at that place. -/
lemma Describe.at (h : Describe k n head segments gens) {i : ℕ} (hi : segments[i]? = some segment) :
    ∃ frames head, gens[i]? = some frames ∧ segment.Describes k (n + i + 1) head frames := by
  induction segments generalizing n head gens i with
  | nil => simp at hi
  | cons s segments ih =>
    cases gens with
    | nil => exact h.elim
    | cons gs gens =>
      cases i with
      | zero =>
        obtain rfl : s = segment := by simpa using hi
        exact ⟨gs, head, rfl, h.1⟩
      | succ i =>
        obtain ⟨frames, head', hfrs, hdescs⟩ := ih h.2 (by simpa using hi)
        refine ⟨frames, head', by simpa using hfrs, ?_⟩
        rw [show n + (i + 1) + 1 = n + 1 + i + 1 by omega]
        exact hdescs

lemma Describe.firstGap (h : Describe k n head segments gens) : firstGap n segments = none := by
  induction segments generalizing n head gens with
  | nil => rfl
  | cons s segments ih =>
    cases gens with
    | nil => exact h.elim
    | cons gs gens =>
      rw [Files.firstGap, if_neg (not_not.mpr h.1.generation)]
      exact ih h.2

/-- What the last segment says of the active file. -/
lemma Describe.tail (h : Describe k 0 {} segments generations) :
    activeGeneration segments = generations.length + 1 ∧
      sealedTail segments = headAfter k {} generations.flatten := by
  rcases List.eq_nil_or_concat segments with rfl | ⟨init, last, rfl⟩
  · cases generations with
    | nil => exact ⟨rfl, rfl⟩
    | cons gs generations => exact h.elim
  rcases List.eq_nil_or_concat generations with rfl | ⟨gens, frames, rfl⟩
  · simpa using h.length
  simp only [List.concat_eq_append] at h ⊢
  obtain ⟨-, hlast⟩ := describe_concat.mp h
  simp only [activeGeneration, sealedTail, List.getLast?_concat]
  refine ⟨by simp [hlast.generation], ?_⟩
  rw [hlast.tail, List.flatten_concat, headAfter_append]

/-! ## Sealed files -/

def SegmentFile.generation : SegmentFile → ℕ
  | .plain generation => generation
  | .compressed generation => generation

/-- Every sealed file, plain or compressed, holds the generation it is named for. -/
def Stored (files : FinMap SegmentFile (List Frame)) (generations : List (List Frame)) : Prop :=
  ∀ name frames, files.lookup name = some frames →
    ∃ i, name.generation = i + 1 ∧ generations[i]? = some frames

variable {files : FinMap SegmentFile (List Frame)}

lemma Segment.Describes.file_generation {number : ℕ} (h : segment.Describes k number head frames) :
    segment.file.generation = number := by
  rw [h.file]
  split_ifs <;> rfl

section

variable (h : Stored files gens)

include h

/-- The file of a segment holds what the segment describes. -/
lemma Stored.lookup (hs : Describe k 0 {} segments gens)
    {i : ℕ} (hi : segments[i]? = some segment) (hfrs : files.lookup segment.file = some frames) :
    gens[i]? = some frames := by
  obtain ⟨described, head, -, hdescs⟩ := hs.at hi
  obtain ⟨j, hj, hfrs⟩ := h _ _ hfrs
  have hsame : j = i := by
    have hnum := hdescs.file_generation
    omega
  rw [← hsame]
  exact hfrs

lemma Stored.concat (frames : List Frame) :
    Stored files (gens ++ [frames]) := by
  intro name stored hstor
  obtain ⟨i, hi, hat⟩ := h name stored hstor
  have hlt := (List.getElem?_eq_some_iff.mp hat).1
  exact ⟨i, hi, by rw [List.getElem?_append_left hlt]; exact hat⟩

lemma Stored.insert {name : SegmentFile} {i : ℕ}
    (hname : name.generation = i + 1) (hat : gens[i]? = some frames) :
    Stored (files.insert name frames) gens :=
  FinMap.forall_insert ⟨i, hname, hat⟩ h

lemma Stored.erase (name : SegmentFile) :
    Stored (files.erase name) gens :=
  fun other stored hstor => h other stored (FinMap.lookup_erase_cases hstor).2

/-- No file is beyond the gens. -/
lemma Stored.beyond {name : SegmentFile}
    (hname : gens.length < name.generation) : files.lookup name = none := by
  rcases hlook : files.lookup name with _ | frames
  · rfl
  · obtain ⟨i, hi, hat⟩ := h _ _ hlook
    have hlt := (List.getElem?_eq_some_iff.mp hat).1
    omega

end

/-- Every file of a list of segments is there. -/
def Present (files : FinMap SegmentFile (List Frame)) (segments : List Segment) : Prop :=
  ∀ segment ∈ segments, files.lookup segment.file ≠ none

variable {s : Directory}

lemma checkSegmentsPresent_ok :
    checkSegmentsPresent k s segments = .ok () ↔ ∀ segment ∈ segments, ∃ frames,
      s.files.lookup segment.file = some frames ∧ segment.storedLength ≠ 0 ∧
        storedLength k segment.file frames = segment.storedLength := by
  induction segments with
  | nil => simp [checkSegmentsPresent]
  | cons segment segments ih =>
    rw [checkSegmentsPresent, List.forall_mem_cons]
    rcases hlook : s.files.lookup segment.file with _ | frames
    · simp
    · simp only [guard_eq_ok, not_or, not_not, ih, Option.some.injEq, exists_eq_left', ne_eq]

/-- Files that hold what they are named for have the recorded sizes, so only a missing one is
noticed. -/
lemma checkSegmentsPresent_iff (hstor : Stored s.files gens) (hs : Describe k 0 {} segments gens) :
    checkSegmentsPresent k s segments = .ok () ↔ Present s.files segments := by
  rw [checkSegmentsPresent_ok]
  constructor
  · intro h segment hseg
    obtain ⟨frames, hfrs, -⟩ := h segment hseg
    simp [hfrs]
  · intro h segment hseg
    obtain ⟨i, hi⟩ := List.mem_iff_getElem?.mp hseg
    obtain ⟨frames, hfrs⟩ := Option.ne_none_iff_exists'.mp (h segment hseg)
    obtain ⟨described, head, hat, hdescs⟩ := hs.at hi
    have hheld := hstor.lookup hs hi hfrs
    obtain rfl : described = frames := Option.some.inj (hat.symm.trans hheld)
    refine ⟨described, hfrs, ?_, hdescs.storedLength.symm⟩
    rw [hdescs.storedLength]
    exact (storedLength_pos hdescs.nonempty _).ne'

/-! ## The two states of the directory -/

def Directory.saved (s : Directory) : Manifest := s.manifest.getD {}

def Directory.tail (s : Directory) : ActiveFile := s.active.getD {}

/-- The files at rest: the manifest describes the sealed generations, and what it says of a roll is
an intent whose rename was not made. -/
structure AtRest (k : Codec) (s : Directory) (generations : List (List Frame))
    (frames : List Frame) : Prop where
  describe : Describe k 0 {} s.saved.segments generations
  pending : ∀ p ∈ s.saved.pending, p.generation = generations.length + 1 ∧
    p.file = .plain (generations.length + 1)
  stored : Stored s.files generations
  active : s.tail.frames = frames

/-- The files after the rename of a roll: the intent describes the rolled file, and the active file
is missing or empty. -/
structure Renamed (k : Codec) (s : Directory) (generations : List (List Frame))
    (frames : List Frame) : Prop where
  describe : Describe k 0 {} s.saved.segments generations
  pending : ∃ p, s.saved.pending = some p ∧ p.compressed = false ∧
    p.Describes k (generations.length + 1) (headAfter k {} generations.flatten) frames
  stored : Stored s.files (generations ++ [frames])
  rolled : s.files.lookup (.plain (generations.length + 1)) = some frames
  active : s.tail = {}

/-- The files stand for generations and the frames after them, which are one chain. -/
structure Laid (k : Codec) (s : Directory) (generations : List (List Frame)) (frames : List Frame) :
    Prop where
  linked : Linked k {} (generations.flatten ++ frames)
  shape : AtRest k s generations frames ∨ Renamed k s generations frames

/-- The manifest of files in either state is read. -/
lemma loadSegmentManifest_ok (hdesc : Describe k 0 {} s.saved.segments gens)
    (hpend : ∀ p ∈ s.saved.pending, p.generation = gens.length + 1) :
    loadSegmentManifest s.manifest = .ok s.saved := by
  have hgap : firstGap 0 (s.manifest.getD {}).segments = none := hdesc.firstGap
  simp only [loadSegmentManifest, hgap]
  rcases hp : s.saved.pending with _ | p
  · have hsaved : (s.manifest.getD {}).pending = none := hp
    simp only [hsaved]
    rfl
  · have hsaved : (s.manifest.getD {}).pending = some p := hp
    have hlen : (s.manifest.getD {}).segments.length = gens.length := hdesc.length
    simp only [hsaved, hlen, hpend p (by simp [hp]), ne_eq, not_true_eq_false, if_false]
    rfl

/-- Resolving the manifest: an intent at rest is dropped, one after its rename is finished. -/
lemma AtRest.resolveSegments (h : AtRest k s gens frames) :
    ∃ hadPending, resolveSegments k s = .ok (s.saved.segments, hadPending) ∧
      (hadPending = false → s.saved.pending = none) := by
  have hload := loadSegmentManifest_ok h.describe fun p hp => (h.pending p hp).1
  rcases hp : s.saved.pending with _ | p
  · exact ⟨false, by simp [Files.resolveSegments, hload, hp], fun _ => rfl⟩
  · have habsent : s.files.lookup p.file = none := by
      rw [(h.pending p (by simp [hp])).2]
      exact h.stored.beyond (Nat.lt_succ_self _)
    exact ⟨true, by simp [Files.resolveSegments, hload, hp, habsent], nofun⟩

lemma Renamed.resolveSegments (h : Renamed k s gens frames) :
    ∃ p, resolveSegments k s = .ok (s.saved.segments ++ [p], true) ∧
      s.files.lookup p.file = some frames ∧
      Describe k 0 {} (s.saved.segments ++ [p]) (gens ++ [frames]) := by
  obtain ⟨p, hp, hplain, hdescs⟩ := h.pending
  have hload := loadSegmentManifest_ok h.describe (by
    intro q hq
    obtain rfl : p = q := Option.some.inj (hp.symm.trans hq)
    exact hdescs.generation)
  have hfile : p.file = .plain (gens.length + 1) := by
    rw [hdescs.file, hplain]
    rfl
  have hroll : s.files.lookup p.file = some frames := by
    rw [hfile]
    exact h.rolled
  refine ⟨p, ?_, hroll, describe_concat.mpr ⟨h.describe, by simpa using hdescs⟩⟩
  simp [Files.resolveSegments, hload, hp, hroll, hdescs.length, hdescs.plainChecksum]

end Files

end Ledger

end Halro
