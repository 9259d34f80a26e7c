import Halro.Ledger.FilesSafety

/-!
# Replaying the ledger (`internal/ledger/log.go`, `segment.go`)

A watermark names a generation, a byte offset in it and a sequence.  `replay` walks the sealed
generations from there and then the active file, whatever has become of the file the watermark
pointed into: it may have been renamed, sealed and compressed since.

The reader refuses an event without the timezone of its period, and appending does not ask for it.
In a run without faults a replay visits exactly what was appended when every event carries one, and
fails when one does not (`replays_appended`).
-/

namespace Halro

open Framework Framework.Program Replication

namespace Ledger

namespace Files

/-- A position after a frame. -/
structure Watermark where
  generation : ℕ := 0
  offset : ℕ := 0
  sequence : ℕ := 0
  deriving DecidableEq

/-- What a replay visits: a frame and the position after it. -/
structure Record where
  watermark : Watermark
  frame : Frame
  deriving DecidableEq

/-! ## The reader -/

section Reader

variable (k : Codec) (periodTimezone : Bytes → String)

/-- Going to an offset of a file.  Behind the end there is nothing to read; inside a frame there is
no magic. -/
def seek : ℕ → List Frame → Except LedgerError (List Frame)
  | 0, frames => .ok frames
  | _ + 1, [] => .ok []
  | offset + 1, f :: frames =>
    if f.length ≤ offset + 1 then seek (offset + 1 - f.length) frames else .error .frameMagic

/-- Reading frames to the end of a file, with the running hash of a verifier if there is one.  The
timezone is that of the event a payload encodes. -/
def scanFrom : Watermark → Option Digest → List Frame →
    Except LedgerError (List Record × Watermark × Option Digest)
  | head, verifier, [] => .ok ([], head, verifier)
  | head, verifier, f :: frames =>
    if f.sequence ≤ head.sequence then .error .sequenceOrder
    else if verifier.any (f.previousHash ≠ ·) then .error .chainLink
    else if verifier.isSome ∧ f.mac ≠ k.mac f.sequence f.payload f.previousHash then
      .error .chainCode
    else if periodTimezone f.payload = "" then .error .periodIdentity
    else do
      let next : Watermark := ⟨head.generation, head.offset + f.length, f.sequence⟩
      let (records, last, verifier) ← scanFrom next (verifier.map fun _ => k.hash f.mac) frames
      pure (⟨next, f⟩ :: records, last, verifier)

/-- Only a generation that is entered at its start can be verified. -/
def sealedVerifier (segment : Segment) (offset : ℕ) : Option Digest :=
  if offset = 0 then some segment.startHash else none

/-- One sealed generation, read from an offset: its records and its last sequence. -/
def replaySegment (files : FinMap SegmentFile (List Frame)) (segment : Segment)
    (offset sequence : ℕ) : Except LedgerError (List Record × ℕ) :=
  match files.lookup segment.file with
  | none => .error (.segmentMissing segment.generation)
  | some frames => do
    let tail ← seek offset frames
    let (records, head, hash) ← scanFrom k periodTimezone ⟨segment.generation, offset, sequence⟩
      (sealedVerifier segment offset) tail
    if head.offset ≠ segment.length ∨ head.sequence ≠ segment.lastSequence then
      .error (.sealedEnd segment.generation)
    else if hash.any (· ≠ segment.endHash) then .error (.sealedHead segment.generation)
    else pure (records, head.sequence)

/-- The sealed generations from the one a watermark names.  The answer is whether it was found, the
last sequence and the records. -/
def replaySegments (files : FinMap SegmentFile (List Frame)) (start : Watermark) :
    Bool → ℕ → List Segment → Except LedgerError (Bool × ℕ × List Record)
  | started, sequence, [] => .ok (started, sequence, [])
  | started, sequence, segment :: segments =>
    if started = false ∧ segment.generation ≠ start.generation then
      replaySegments files start false sequence segments
    else
      let offset := if segment.generation = start.generation then start.offset else 0
      if segment.length ≤ offset then
        replaySegments files start true (max sequence segment.lastSequence) segments
      else do
        let (records, sequence) ← replaySegment k periodTimezone files segment offset sequence
        let (started, sequence, more) ← replaySegments files start true sequence segments
        pure (started, sequence, records ++ more)

def replay (s : Directory) (start : Watermark) : Except LedgerError (List Record × Watermark) :=
  match s.log with
  | none => .error .closed
  | some l =>
    if l.generation < start.generation then .error (.unsupportedGeneration start.generation)
    else do
      let (started, sequence, records) ← replaySegments k periodTimezone s.files start
        (start.generation = 0) start.sequence l.segments
      if started = false ∧ start.generation ≠ l.generation then
        .error (.unknownGeneration start.generation)
      else
        let offset := if start.generation = l.generation then start.offset else 0
        let active := s.active.getD {}
        let tail ← seek offset active.frames
        let (live, head, _) ← scanFrom k periodTimezone ⟨l.generation, offset, sequence⟩ none tail
        if 0 < active.torn then .error .partialTail else pure (records ++ live, head)

/-- The records a replay visits. -/
def visits (s : Directory) (start : Watermark) : Except LedgerError (List Record) :=
  (replay k periodTimezone s start).map Prod.fst

end Reader

/-! ## Records in their places -/

/-- The records of frames that follow each other in a generation. -/
def recordsFrom (generation : ℕ) : ℕ → List Frame → List Record
  | _, [] => []
  | offset, f :: frames =>
    ⟨⟨generation, offset + f.length, f.sequence⟩, f⟩ :: recordsFrom generation (offset + f.length) frames

/-- The records of generations after a number of others. -/
def placed : ℕ → List (List Frame) → List Record
  | _, [] => []
  | n, frames :: generations => recordsFrom (n + 1) 0 frames ++ placed (n + 1) generations

variable {k : Codec} {tz : Bytes → String}

lemma plainLength_append (xs ys : List Frame) :
    plainLength (xs ++ ys) = plainLength xs + plainLength ys := by
  simp [plainLength]

lemma plainLength_cons (f : Frame) (frames : List Frame) :
    plainLength (f :: frames) = f.length + plainLength frames := by
  simp [plainLength]

lemma recordsFrom_append (generation offset : ℕ) (xs ys : List Frame) :
    recordsFrom generation offset (xs ++ ys) =
      recordsFrom generation offset xs ++ recordsFrom generation (offset + plainLength xs) ys := by
  induction xs generalizing offset with
  | nil => rfl
  | cons f xs ih =>
    rw [List.cons_append, recordsFrom, ih, recordsFrom, plainLength_cons, List.cons_append,
      Nat.add_assoc]

lemma placed_concat (n : ℕ) (gens : List (List Frame)) (frames : List Frame) :
    placed n (gens ++ [frames]) = placed n gens ++ recordsFrom (n + gens.length + 1) 0 frames := by
  induction gens generalizing n with
  | nil => exact List.append_nil _
  | cons gs gens ih =>
    rw [List.cons_append, placed, ih, placed, List.append_assoc, List.length_cons,
      show n + 1 + gens.length + 1 = n + (gens.length + 1) + 1 by omega]

variable {record : Record} {offset generation : ℕ}

lemma map_frame_recordsFrom (generation offset : ℕ) (frames : List Frame) :
    (recordsFrom generation offset frames).map (·.frame) = frames := by
  induction frames generalizing offset with
  | nil => rfl
  | cons f frames ih => rw [recordsFrom, List.map_cons, ih]

lemma mem_recordsFrom (generation offset : ℕ) {frames : List Frame} {f : Frame} :
    f ∈ frames ↔ ∃ record ∈ recordsFrom generation offset frames, record.frame = f := by
  rw [← List.mem_map, map_frame_recordsFrom]

lemma generation_recordsFrom {frames : List Frame}
    (h : record ∈ recordsFrom generation offset frames) :
    record.watermark.generation = generation := by
  induction frames generalizing offset with
  | nil => exact absurd h List.not_mem_nil
  | cons f frames ih =>
    rcases List.mem_cons.mp h with rfl | hrest
    · rfl
    · exact ih hrest

lemma generation_placed {n : ℕ} {gens : List (List Frame)} (h : record ∈ placed n gens) :
    n < record.watermark.generation ∧ record.watermark.generation ≤ n + gens.length := by
  induction gens generalizing n with
  | nil => exact absurd h List.not_mem_nil
  | cons frames gens ih =>
    rw [List.length_cons]
    rcases List.mem_append.mp h with hhere | hlater
    · have := generation_recordsFrom hhere
      omega
    · have := ih hlater
      omega

/-- An element of two lists one after the other is in the first one or in the second one. -/
lemma split_append {A : Type} {xs ys before after : List A} {a : A}
    (h : xs ++ ys = before ++ a :: after) :
    (∃ mid, xs = before ++ a :: mid ∧ after = mid ++ ys) ∨ ∃ mid, ys = mid ++ a :: after := by
  rcases List.append_eq_append_iff.mp h with ⟨mid, -, hys⟩ | ⟨mid, hxs, hafter⟩
  · exact .inr ⟨mid, hys⟩
  · cases mid with
    | nil => exact .inr ⟨[], by simpa using hafter.symm⟩
    | cons b mid =>
      obtain ⟨rfl, rfl⟩ := List.cons.inj hafter
      exact .inl ⟨mid, hxs, rfl⟩

variable {before : List Record}

/-- The place of a record among those of its generation, and what comes after it. -/
lemma recordsFrom_split {frames : List Frame} {after : List Record}
    (h : recordsFrom generation offset frames = before ++ record :: after) :
    ∃ xs ys f, frames = xs ++ [f] ++ ys ∧
      record = ⟨⟨generation, offset + plainLength (xs ++ [f]), f.sequence⟩, f⟩ ∧
      after = recordsFrom generation (offset + plainLength (xs ++ [f])) ys := by
  induction frames generalizing offset before with
  | nil => simp [recordsFrom] at h
  | cons g frames ih =>
    cases before with
    | nil =>
      obtain ⟨hrec, hafter⟩ := List.cons.inj h
      refine ⟨[], frames, g, rfl, ?_, ?_⟩
      · rw [← hrec]
        simp [plainLength]
      · rw [← hafter]
        simp [plainLength]
    | cons first before =>
      obtain ⟨-, hrest⟩ := List.cons.inj h
      obtain ⟨xs, ys, f, rfl, hrec, hafter⟩ := ih hrest
      refine ⟨g :: xs, ys, f, rfl, ?_, ?_⟩
      · rw [hrec, List.cons_append, plainLength_cons, Nat.add_assoc]
      · rw [hafter, List.cons_append, plainLength_cons, Nat.add_assoc]

/-! ## What the reader does on linked frames -/

lemma frame_length_pos (f : Frame) : 0 < f.length := by
  simp only [Frame.length, chainHeaderSize]
  omega

lemma seek_plainLength (xs ys : List Frame) : seek (plainLength xs) (xs ++ ys) = .ok ys := by
  induction xs with
  | nil => cases ys <;> rfl
  | cons f xs ih =>
    have hpos := frame_length_pos f
    obtain ⟨n, hn⟩ : ∃ n, plainLength (f :: xs) = n + 1 :=
      Nat.exists_eq_succ_of_ne_zero (by rw [plainLength_cons]; omega)
    rw [plainLength_cons] at hn
    rw [plainLength_cons, hn, List.cons_append, seek, if_pos (by omega),
      show n + 1 - f.length = plainLength xs by omega]
    exact ih

/-- The events of frames carry the timezone of their period. -/
def Stamped (periodTimezone : Bytes → String) (frames : List Frame) : Prop :=
  ∀ f ∈ frames, periodTimezone f.payload ≠ ""

/-- Linked frames are read, with a verifier at their head or without one. -/
lemma scanFrom_linked {head : Head} {frames : List Frame} (h : Linked k head frames)
    (hstmp : Stamped tz frames) {verifier : Option Digest}
    (hvfr : ∀ hash ∈ verifier, hash = head.hash) (generation offset : ℕ) :
    scanFrom k tz ⟨generation, offset, head.sequence⟩ verifier frames =
      .ok (recordsFrom generation offset frames,
        ⟨generation, offset + plainLength frames, (headAfter k head frames).sequence⟩,
        verifier.map fun _ => (headAfter k head frames).hash) := by
  induction frames generalizing head verifier offset with
  | nil =>
    have hsame : (verifier.map fun _ => head.hash) = verifier := by
      cases verifier with
      | none => rfl
      | some hash => rw [hvfr hash rfl]; rfl
    simp [scanFrom, recordsFrom, plainLength, headAfter, hsame]
  | cons f frames ih =>
    obtain ⟨⟨hseq, hlink, hmac⟩, hrest⟩ := linked_cons.mp h
    obtain ⟨hf, hfrs⟩ := List.forall_mem_cons.mp hstmp
    have hany : ¬ verifier.any (f.previousHash ≠ ·) = true := by
      cases verifier with
      | none => simp
      | some hash => simp [hvfr hash rfl, hlink]
    have hnext : ∀ hash ∈ verifier.map fun _ => k.hash f.mac, hash = (Head.next k f).hash := by
      intro hash hhash
      obtain ⟨_, -, rfl⟩ := Option.mem_map.mp hhash
      rfl
    have hread : scanFrom k tz ⟨generation, offset + f.length, f.sequence⟩
        (verifier.map fun _ => k.hash f.mac) frames = _ := ih hrest hfrs hnext (offset + f.length)
    rw [scanFrom, if_neg (not_le.mpr hseq), if_neg hany, if_neg fun hbad => hbad.2 hmac, if_neg hf]
    dsimp only
    rw [hread, recordsFrom, plainLength_cons, ← Nat.add_assoc, Option.map_map]
    rfl

variable {records : List Record}

/-- A reader that reaches the end has seen the timezone of every record. -/
lemma stamped_of_scanFrom {frames : List Frame} {head last : Watermark}
    {verifier hash : Option Digest}
    (h : scanFrom k tz head verifier frames = .ok (records, last, hash)) :
    ∀ record ∈ records, tz record.frame.payload ≠ "" := by
  induction frames generalizing head verifier records with
  | nil =>
    obtain ⟨rfl, -⟩ := Prod.mk.inj (Except.ok.inj h)
    exact fun _ hrec => absurd hrec List.not_mem_nil
  | cons f frames ih =>
    rw [scanFrom] at h
    split_ifs at h with _ _ _ hf
    obtain ⟨⟨more, last', hash'⟩, hrest, hrecs⟩ := bind_eq_ok.mp h
    obtain ⟨rfl, rfl, rfl⟩ : ⟨_, f⟩ :: more = records ∧ last' = last ∧ hash' = hash := by
      simpa [pure, Except.pure] using hrecs
    exact List.forall_mem_cons.mpr ⟨hf, ih hrest⟩

/-! ## Sealed generations -/

/-- The files of segments hold these generations. -/
abbrev Held (files : FinMap SegmentFile (List Frame)) (segments : List Segment)
    (generations : List (List Frame)) : Prop :=
  List.Forall₂ (fun segment frames => files.lookup segment.file = some frames) segments generations

variable {files : FinMap SegmentFile (List Frame)} {segments : List Segment}
  {gens : List (List Frame)} {n : ℕ} {head : Head}

lemma Stored.held (h : Stored files gens)
    (hdescribe : Describe k 0 {} segments gens) (hpres : Present files segments) :
    Held files segments gens := by
  refine List.forall₂_iff_get.mpr ⟨hdescribe.length, fun i hi hg => ?_⟩
  obtain ⟨frames, hfrs⟩ := Option.ne_none_iff_exists'.mp
    (hpres (segments.get ⟨i, hi⟩) (List.get_mem segments ⟨i, hi⟩))
  have hat := h.lookup hdescribe (List.getElem?_eq_getElem hi) hfrs
  rw [hfrs, ← hat, List.getElem?_eq_getElem hg]
  rfl

/-- A sealed generation from a position inside it. -/
lemma replaySegment_held {segment : Segment} {number : ℕ} {xs ys : List Frame}
    (hdescs : segment.Describes k number head (xs ++ ys))
    (hfile : files.lookup segment.file = some (xs ++ ys)) (hlink : Linked k head (xs ++ ys))
    (hstmp : Stamped tz (xs ++ ys)) :
    replaySegment k tz files segment (plainLength xs) (headAfter k head xs).sequence =
      .ok (recordsFrom number (plainLength xs) ys, (headAfter k head (xs ++ ys)).sequence) := by
  have hvfr : ∀ hash ∈ sealedVerifier segment (plainLength xs),
      hash = (headAfter k head xs).hash := by
    intro hash hhash
    rw [sealedVerifier] at hhash
    split_ifs at hhash with hzero
    · obtain rfl : xs = [] := by
        by_contra hne
        exact (plainLength_pos hne).ne' hzero
      rw [← Option.some.inj hhash]
      exact hdescs.start
    · exact nomatch hhash
  have hread := scanFrom_linked (linked_append.mp hlink).2
    (fun f hf => hstmp f (List.mem_append_right _ hf)) hvfr number (plainLength xs)
  have htail := hdescs.tail
  rw [headAfter_append] at htail ⊢
  simp only [replaySegment, hfile, seek_plainLength, hdescs.generation, hread, Except.bind, bind]
  rw [if_neg, if_neg]
  · rfl
  · -- The running hash ends at the recorded one.
    rw [← htail]
    cases sealedVerifier segment (plainLength xs) <;> simp
  · rw [← htail, hdescs.length, plainLength_append]
    simp

section

variable (hdescribe : Describe k n head segments gens)

include hdescribe

/-- The gens after the one a watermark names are read whole. -/
lemma replaySegments_started {start : Watermark}
    (hheld : Held files segments gens) (hlink : Linked k head gens.flatten)
    (hstmp : Stamped tz gens.flatten) (hstart : start.generation ≤ n) :
    replaySegments k tz files start true head.sequence segments =
      .ok (true, (headAfter k head gens.flatten).sequence, placed n gens) := by
  induction hheld generalizing n head with
  | nil => rfl
  | @cons segment frames segments gens hfile hheld ih =>
    obtain ⟨hdescs, hrest⟩ := hdescribe
    rw [List.flatten_cons] at hlink hstmp ⊢
    obtain ⟨hfrs, hlater⟩ := linked_append.mp hlink
    have hread : replaySegment k tz files segment 0 head.sequence =
        .ok (recordsFrom (n + 1) 0 frames, (headAfter k head frames).sequence) :=
      replaySegment_held (show segment.Describes k (n + 1) head ([] ++ frames) from hdescs) hfile
        hfrs fun f hf => hstmp f (List.mem_append_left _ hf)
    have hmore := ih hrest hlater (fun f hf => hstmp f (List.mem_append_right _ hf))
      (Nat.le_succ_of_le hstart)
    have hoffset : (if segment.generation = start.generation then start.offset else 0) = 0 := by
      rw [if_neg]
      rw [hdescs.generation]
      omega
    have hlen : ¬ segment.length ≤ 0 := by
      rw [hdescs.length]
      exact not_le.mpr (plainLength_pos hdescs.nonempty)
    rw [replaySegments, if_neg (fun hskip => Bool.noConfusion hskip.1)]
    simp only [hoffset, if_neg hlen, hread, hmore, bind, Except.bind, pure, Except.pure,
      headAfter_append, placed]

/-- The gens before the one a watermark names are passed over. -/
lemma replaySegments_before {start : Watermark}
    (hstart : n + gens.length < start.generation) (sequence : ℕ) :
    replaySegments k tz files start false sequence segments =
      .ok (false, sequence, []) := by
  induction segments generalizing n head gens with
  | nil => rfl
  | cons segment segments ih =>
    cases gens with
    | nil => exact hdescribe.elim
    | cons frames gens =>
      rw [List.length_cons] at hstart
      rw [replaySegments, if_pos ⟨rfl, by rw [hdescribe.1.generation]; omega⟩]
      exact ih hdescribe.2 (by omega)

/-- From the watermark of a record in a sealed generation, the records after it are read. -/
lemma replaySegments_after {after : List Record} (hheld : Held files segments gens)
    (hlink : Linked k head gens.flatten)
    (hstmp : Stamped tz gens.flatten)
    (hrec : placed n gens = before ++ record :: after) :
    replaySegments k tz files record.watermark false record.watermark.sequence segments =
      .ok (true, (headAfter k head gens.flatten).sequence, after) := by
  induction hheld generalizing n head before with
  | nil => simp [placed] at hrec
  | @cons segment frames segments gens hfile hheld ih =>
    obtain ⟨hdescs, hrest⟩ := hdescribe
    rw [List.flatten_cons] at hlink hstmp ⊢
    obtain ⟨hfrs, hlater⟩ := linked_append.mp hlink
    have hstampedLater : Stamped tz gens.flatten := fun f hf => hstmp f (List.mem_append_right _ hf)
    rcases split_append hrec with ⟨mid, hhere, hafter⟩ | ⟨mid, hlaterRecords⟩
    swap
    · -- The record is in a later generation.
      have hmem : record ∈ placed (n + 1) gens := by simp [hlaterRecords]
      have hgen := generation_placed hmem
      rw [replaySegments, if_pos ⟨rfl, by rw [hdescs.generation]; omega⟩, headAfter_append]
      exact ih hrest hlater hstampedLater hlaterRecords
    · obtain ⟨xs, ys, f, rfl, rfl, rfl⟩ := recordsFrom_split hhere
      rw [Nat.zero_add] at hafter ⊢
      have hseq : f.sequence = (headAfter k head (xs ++ [f])).sequence := by
        rw [headAfter_append]
        rfl
      have hlast := congrArg Head.sequence hdescs.tail
      have hmore := replaySegments_started hrest hheld hlater hstampedLater
        (show (⟨n + 1, plainLength (xs ++ [f]), f.sequence⟩ : Watermark).generation ≤ n + 1 from le_rfl)
      rw [replaySegments, if_neg fun hskip => hskip.2 hdescs.generation]
      simp only [if_pos hdescs.generation]
      by_cases hys : ys = []
      · -- The record is the last one of its generation.
        subst hys
        rw [List.append_nil] at hlast hmore hdescs
        have hmax : max f.sequence segment.lastSequence = (headAfter k head (xs ++ [f])).sequence := by
          rw [show segment.lastSequence = _ from hlast, hseq, max_self]
        rw [if_pos hdescs.length.le, hmax, hafter, List.append_nil, headAfter_append _ (xs ++ [f])]
        exact hmore
      · have hread := replaySegment_held hdescs hfile hfrs
          fun g hg => hstmp g (List.mem_append_left _ hg)
        rw [← hseq] at hread
        have hlen : ¬ segment.length ≤ plainLength (xs ++ [f]) := by
          rw [hdescs.length, plainLength_append]
          have := plainLength_pos hys
          omega
        simp only [if_neg hlen, hread, hmore, bind, Except.bind, pure, Except.pure, hafter]
        rw [headAfter_append _ (xs ++ [f] ++ ys)]

end

/-! ## The whole replay -/

section Open

variable {s : Directory} {l : Log} {frames : List Frame}

/-- A process that reported no error, with its history. -/
structure Serving (k : Codec) (s : Directory) (l : Log) (generations : List (List Frame))
    (frames : List Frame) : Prop where
  log : s.log = some l
  kept : KeptAs k True s generations frames

section

variable (h : Serving k s l gens frames)

include h

lemma Serving.running :
    Running k True s l gens frames := h.kept.2.1 l h.log

lemma Serving.healthy : l.healthy = true := h.running.healthy trivial

lemma Serving.ready : Ready k s l gens frames := h.running.ready h.healthy

lemma Serving.describe : Describe k 0 {} l.segments gens := h.running.covers.all h.ready.all

lemma Serving.held : Held s.files l.segments gens :=
  h.ready.rest.stored.held h.describe h.running.covers.present

lemma Serving.linked : Linked k {} gens.flatten ∧ Linked k (headAfter k {} gens.flatten) frames :=
  linked_append.mp h.kept.1.laid.linked

/-- What follows the sealed gens: the active file from a position in it. -/
lemma Serving.visits_live (hstmp : Stamped tz frames) {start : Watermark} {started : Bool}
    {xs ys : List Frame} (hfrs : frames = xs ++ ys) (hle : start.generation ≤ l.generation)
    (hsegs : replaySegments k tz s.files start (start.generation = 0) start.sequence l.segments =
        .ok (started, (headAfter k {} (gens.flatten ++ xs)).sequence, records))
    (hfound : started = false → start.generation = l.generation)
    (hoffset : (if start.generation = l.generation then start.offset else 0) = plainLength xs) :
    visits k tz s start =
      .ok (records ++ recordsFrom (gens.length + 1) (plainLength xs) ys) := by
  subst hfrs
  have hlink : Linked k (headAfter k {} (gens.flatten ++ xs)) ys := by
    rw [headAfter_append]
    exact (linked_append.mp h.linked.2).2
  have hnone : ∀ hash ∈ (none : Option Digest),
      hash = (headAfter k {} (gens.flatten ++ xs)).hash := nofun
  have hread := scanFrom_linked hlink (fun f hf => hstmp f (List.mem_append_right _ hf)) hnone
    l.generation (plainLength xs)
  have hact : s.active.getD {} = ⟨xs ++ ys, 0⟩ := by
    rw [h.ready.active]
    rfl
  have hfound' : ¬ (started = false ∧ start.generation ≠ l.generation) :=
    fun hbad => hbad.2 (hfound hbad.1)
  rw [visits, replay, h.log]
  simp only [if_neg (not_lt.mpr hle), hsegs, bind, Except.bind, if_neg hfound', hoffset, hact,
    seek_plainLength, hread, lt_irrefl, if_false, pure, Except.pure, Except.map]
  rw [h.ready.generation]

/-- From the empty watermark everything is visited. -/
lemma Serving.visits_all (hstmp : Stamped tz (gens.flatten ++ frames)) :
    visits k tz s {} = .ok (placed 0 (gens ++ [frames])) := by
  have hsegs : replaySegments k tz s.files {} true 0 l.segments =
      .ok (true, (headAfter k {} gens.flatten).sequence, placed 0 gens) :=
    replaySegments_started h.describe h.held h.linked.1
      (fun f hf => hstmp f (List.mem_append_left _ hf)) le_rfl
  rw [← List.append_nil gens.flatten] at hsegs
  rw [placed_concat, Nat.zero_add]
  refine h.visits_live (fun f hf => hstmp f (List.mem_append_right _ hf))
    (List.nil_append frames).symm (Nat.zero_le _) hsegs (fun hfound => Bool.noConfusion hfound) ?_
  rw [if_neg (by rw [h.ready.generation]; exact (Nat.succ_ne_zero _).symm)]
  rfl

/-- From the watermark of a record those after it are visited. -/
lemma Serving.visits_after (hstmp : Stamped tz (gens.flatten ++ frames)) {after : List Record}
    (hrec : placed 0 (gens ++ [frames]) = before ++ record :: after) :
    visits k tz s record.watermark = .ok after := by
  have hgen := h.ready.generation
  have hlive : Stamped tz frames := fun f hf => hstmp f (List.mem_append_right _ hf)
  rw [placed_concat, Nat.zero_add] at hrec
  rcases split_append hrec with ⟨mid, hsealed, rfl⟩ | ⟨mid, hact⟩
  · -- The record is in a sealed generation.
    have hmem : record ∈ placed 0 gens := by simp [hsealed]
    have hplace := generation_placed hmem
    have hsegs := replaySegments_after h.describe h.held h.linked.1
      (fun f hf => hstmp f (List.mem_append_left _ hf)) hsealed
    have hzero : decide (record.watermark.generation = 0) = false :=
      decide_eq_false (Nat.ne_of_gt hplace.1)
    rw [← hzero, ← List.append_nil gens.flatten] at hsegs
    refine h.visits_live hlive (List.nil_append frames).symm (by omega) hsegs
      (fun hfound => Bool.noConfusion hfound) ?_
    rw [if_neg (by omega)]
    rfl
  · -- The record is in the active file.
    obtain ⟨xs, ys, f, rfl, rfl, rfl⟩ := recordsFrom_split hact
    rw [Nat.zero_add]
    have hlate : 0 + gens.length <
        (⟨gens.length + 1, plainLength (xs ++ [f]), f.sequence⟩ : Watermark).generation := by
      simp
    have hsegs : replaySegments k tz s.files _ false f.sequence l.segments = _ :=
      replaySegments_before h.describe hlate f.sequence
    have hseq : f.sequence = (headAfter k {} (gens.flatten ++ (xs ++ [f]))).sequence := by
      rw [← List.append_assoc, headAfter_append _ _ [f]]
      rfl
    rw [hseq] at hsegs ⊢
    exact h.visits_live hlive rfl hgen.ge hsegs (fun _ => hgen.symm) (if_pos hgen.symm)

end

end Open

/-! ## Every run without a fault -/

/-- The directory and the records of every append that was answered. -/
structure History where
  directory : Directory
  appended : List Record := []

/-- What the process does; a compaction is in two halves, with the writer released before the
second one. -/
inductive Operation
  | append (payloads : List Bytes)
  | roll (sealedAt : ℤ)
  | compress (generation : ℕ)
  | commitCompaction
  | reopen

section Runs

variable (k : Codec) (periodTimezone : Bytes → String)

/-- The records of a batch with the watermarks its append answers. -/
def receipts (s : Directory) (payloads : List Bytes) : List Record :=
  match s.log with
  | none => []
  | some l =>
    if ¬ l.healthy then []
    else recordsFrom l.generation (plainLength l.committed) (encodeBatch k l.head payloads)

/-- Opening reads the active file, so it refuses an event the reader refuses. -/
def reopen (s : Directory) : Directory :=
  if ∀ f ∈ (s.active.getD {}).frames, periodTimezone f.payload ≠ "" then Files.step k s (.reopen [])
  else s.stopped

def History.step (h : History) : Operation → History
  | .append payloads =>
    { directory := Files.step k h.directory (.append payloads .synced)
      appended := h.appended ++ receipts k h.directory payloads }
  | .roll sealedAt => { h with directory := Files.step k h.directory (.roll sealedAt []) }
  | .compress generation => { h with directory := Files.step k h.directory (.compress generation []) }
  | .commitCompaction => { h with directory := Files.step k h.directory (.commitCompaction []) }
  | .reopen => { h with directory := reopen k periodTimezone h.directory }

/-- A ledger that was opened in an empty directory. -/
def History.start : History := ⟨reopen k periodTimezone {}, []⟩

/-- A replay visits exactly the appended records, and from a watermark exactly the later ones. -/
structure History.Replays (h : History) : Prop where
  all : visits k periodTimezone h.directory {} = .ok h.appended
  after : ∀ (i : ℕ) (record : Record), h.appended[i]? = some record →
    visits k periodTimezone h.directory record.watermark = .ok (h.appended.drop (i + 1))

/-- The events of an append carry the timezone of their period. -/
def Operation.Stamped : Operation → Prop
  | .append payloads => ∀ payload ∈ payloads, periodTimezone payload ≠ ""
  | _ => True

end Runs

/-! ### The invariant -/

lemma placed_rolledTo {gens' : List (List Frame)} {frames frames' : List Frame}
    (h : RolledTo gens frames gens' frames') :
    placed 0 (gens' ++ [frames']) = placed 0 (gens ++ [frames]) := by
  rcases h with ⟨rfl, rfl⟩ | ⟨rfl, rfl⟩
  · rfl
  · rw [placed_concat 0 (gens ++ [frames])]
    exact List.append_nil _

lemma stamped_placed {n : ℕ} : (∀ record ∈ placed n gens, tz record.frame.payload ≠ "") ↔
      Stamped tz gens.flatten := by
  induction gens generalizing n with
  | nil => simp [placed, Stamped]
  | cons frames gens ih =>
    rw [placed, List.flatten_cons, Stamped, List.forall_mem_append, List.forall_mem_append, ih]
    refine and_congr_left fun _ => ⟨fun h f hf => ?_, fun h record hrec => ?_⟩
    · obtain ⟨record, hrec, rfl⟩ := (mem_recordsFrom (n + 1) 0).mp hf
      exact h record hrec
    · exact h _ ((mem_recordsFrom _ _).mpr ⟨_, hrec, rfl⟩)

/-- The invariant: the ledger is open and its history is what was appended. -/
structure History.Kept (k : Codec) (periodTimezone : Bytes → String) (h : History) : Prop where
  serving : ∃ l generations frames, Serving k h.directory l generations frames ∧
    h.appended = placed 0 (generations ++ [frames])
  stamped : ∀ record ∈ h.appended, periodTimezone record.frame.payload ≠ ""

/-- Nothing is reported in a run without faults. -/
lemma not_error_clear : (¬ Fault.error = .clear) = True := eq_true nofun

/-- A program that keeps a history up to a roll, run without faults. -/
lemma serving_after {A : Type} {s : Directory} {frames : List Frame} {p : LedgerProgram A}
    {f : Directory → Directory}
    (hp : Ensures (· = .clear) p s (fun _ t => ServedTo k (· = .clear) gens frames (f t))
      (fun t => ServedTo k (· = .clear) gens frames (f t)) (Halted k (· = .clear))) :
    ∃ l gens' frames', RolledTo gens frames gens' frames' ∧
      Serving k (f (Files.after (p s []))) l gens' frames' := by
  have hpost := (hp [] nofun).1
  rw [Files.after]
  cases hended : (p s []).ended with
  | returned a | failed e =>
    rw [hended] at hpost
    obtain ⟨hruns, gens', frames', hroll, has⟩ := hpost
    obtain ⟨l, hl⟩ := Option.ne_none_iff_exists'.mp hruns
    rw [not_error_clear] at has
    exact ⟨l, gens', frames', hroll, hl, has⟩
  | stopped =>
    rw [hended] at hpost
    cases hpost.1

/-- Opening files that hold a history. -/
lemma serving_reopen {s : Directory} {frames : List Frame} (h : Sound k True s gens frames) :
    ∃ l gens' frames', RolledTo gens frames gens' frames' ∧
      Serving k (Files.step k s (.reopen [])) l gens' frames' := by
  have hsound : Sound k (¬ Fault.error = .clear) s.stopped gens frames := by
    rw [not_error_clear]
    exact h.of_files rfl rfl rfl rfl
  have hpost := (ensures_openLog (F := (· = .clear)) hsound rfl rfl [] (List.forall_mem_nil _)).1
  rw [not_error_clear] at hpost
  rw [Files.step, Files.after]
  cases hended : (openLog k s.stopped []).ended with
  | returned a =>
    rw [hended] at hpost
    obtain ⟨-, l, gens', frames', hroll, hopnd⟩ := hpost
    exact ⟨l, gens', frames', hroll, hopnd.log, hopnd.kept⟩
  | failed e | stopped =>
    rw [hended] at hpost
    cases hpost.1

/-! ### What a step keeps -/

variable {payloads : List Bytes}

lemma map_payload_encodeBatch (head : Head) (payloads : List Bytes) :
    (encodeBatch k head payloads).map (·.payload) = payloads := by
  induction payloads generalizing head with
  | nil => rfl
  | cons payload payloads ih =>
    rw [encodeBatch, List.map_cons, ih]
    rfl

lemma mem_encodeBatch (head : Head) {payload : Bytes} :
    payload ∈ payloads ↔ ∃ f ∈ encodeBatch k head payloads, f.payload = payload := by
  rw [← List.mem_map, map_payload_encodeBatch]

namespace History

variable {h : History}

section

variable (hkept : h.Kept k tz)

include hkept

lemma Kept.stamped_frames {frames : List Frame} (happd : h.appended = placed 0 (gens ++ [frames])) :
    Stamped tz (gens.flatten ++ frames) := by
  have hstmp := hkept.stamped
  rw [happd, stamped_placed, List.flatten_concat] at hstmp
  exact hstmp

/-- The history after a step that appends nothing. -/
lemma Kept.rolled {frames : List Frame}
    (happd : h.appended = placed 0 (gens ++ [frames])) {t : Directory}
    (ht : ∃ l gens' frames', RolledTo gens frames gens' frames' ∧ Serving k t l gens' frames') :
    Kept k tz { h with directory := t } := by
  obtain ⟨l, gens', frames', hroll, hserv⟩ := ht
  exact ⟨⟨l, gens', frames', hserv, by rw [placed_rolledTo hroll]; exact happd⟩, hkept.stamped⟩

lemma Kept.append (hpays : (Operation.append payloads).Stamped tz) :
    Kept k tz (h.step k tz (.append payloads)) := by
  obtain ⟨l, gens, frames, hserv, happd⟩ := hkept.serving
  have hrcpt : receipts k h.directory payloads = recordsFrom (gens.length + 1)
      (plainLength frames) (encodeBatch k l.head payloads) := by
    simp only [receipts, hserv.log, hserv.healthy, not_true_eq_false, if_false,
      hserv.ready.generation, hserv.ready.committed]
  constructor
  · have hlog : ∃ l', (writeBatch k payloads .synced h.directory).log = some l' := by
      simp only [writeBatch, hserv.log, hserv.healthy, not_true_eq_false, if_false]
      exact ⟨_, rfl⟩
    obtain ⟨l', hl'⟩ := hlog
    refine ⟨l', gens, frames ++ encodeBatch k l.head payloads,
      ⟨hl', hserv.kept.synced hserv.log hserv.healthy payloads⟩, ?_⟩
    show h.appended ++ receipts k h.directory payloads = _
    rw [hrcpt, happd, placed_concat, placed_concat, recordsFrom_append, List.append_assoc]
    simp
  · intro record hrec
    rcases List.mem_append.mp hrec with hold | hnew
    · exact hkept.stamped record hold
    · rw [hrcpt] at hnew
      have hframe := (mem_recordsFrom _ _).mpr ⟨_, hnew, rfl⟩
      exact hpays _ ((mem_encodeBatch _).mpr ⟨_, hframe, rfl⟩)

theorem Kept.step {operation : Operation} (hstmp : operation.Stamped tz) :
    Kept k tz (h.step k tz operation) := by
  obtain ⟨l, gens, frames, hserv, happd⟩ := hkept.serving
  have has : ServedAs k (· = .clear) gens frames h.directory := by
    refine ⟨ne_of_eq_of_ne hserv.log nofun, ?_⟩
    rw [not_error_clear]
    exact hserv.kept
  cases operation with
  | append payloads => exact hkept.append hstmp
  | roll sealedAt =>
    exact hkept.rolled happd (serving_after (f := id) (ensures_roll has sealedAt))
  | compress generation =>
    refine hkept.rolled happd ?_
    rw [Files.step]
    split_ifs with hbusy
    · exact ⟨l, gens, frames, .inl ⟨rfl, rfl⟩, hserv⟩
    · exact serving_after (f := id) ((ensures_compress has (by simpa using hbusy) generation).imp
        (fun _ _ => ServedAs.to) (fun _ => ServedAs.to) fun _ => id)
  | commitCompaction =>
    refine hkept.rolled happd ?_
    rw [Files.step]
    rcases hc : h.directory.compacting with _ | c
    · exact ⟨l, gens, frames, .inl ⟨rfl, rfl⟩, hserv⟩
    · have hworks : ∀ l' ∈ h.directory.log, l'.healthy = true := by
        intro l' hl'
        obtain rfl : l = l' := Option.some.inj (hserv.log.symm.trans hl')
        exact hserv.healthy
      exact serving_after (f := Directory.idle) ((ensures_commitCompaction has.2 hc hworks).imp
        (fun _ _ => ServedAs.to) (fun _ => ServedAs.to) fun _ => id)
  | reopen =>
    refine hkept.rolled happd ?_
    have hact : (h.directory.active.getD {}).frames = frames := hserv.ready.rest.active
    have hreadable : ∀ f ∈ (h.directory.active.getD {}).frames, tz f.payload ≠ "" := by
      rw [hact]
      exact fun f hf => hkept.stamped_frames happd f (List.mem_append_right _ hf)
    rw [Files.reopen, if_pos hreadable]
    exact serving_reopen hserv.kept.1

omit hkept in
lemma kept_start : Kept k tz (start k tz) := by
  obtain ⟨l, gens, frames, hroll, hserv⟩ := serving_reopen (keptAs_empty : KeptAs k True {} [] []).1
  have hdir : (start k tz).directory = Files.step k {} (.reopen []) := by
    rw [start, reopen, if_pos nofun]
  refine ⟨⟨l, gens, frames, hdir ▸ hserv, ?_⟩, nofun⟩
  rw [placed_rolledTo hroll]
  rfl

lemma Kept.run {operations : List Operation}
    (hstmp : ∀ operation ∈ operations, operation.Stamped tz) :
    Kept k tz (operations.foldl (History.step k tz) h) :=
  List.foldlRecOn operations _ hkept fun _ hkept operation hin => hkept.step (hstmp operation hin)

/-- What was appended and is stamped is visited. -/
lemma Kept.replays : h.Replays k tz := by
  obtain ⟨l, gens, frames, hserv, happd⟩ := hkept.serving
  have hstmp := hkept.stamped_frames happd
  constructor
  · rw [happd]
    exact hserv.visits_all hstmp
  · intro i record hrec
    obtain ⟨hi, hat⟩ := List.getElem?_eq_some_iff.mp hrec
    have hsplit : h.appended = h.appended.take i ++ record :: h.appended.drop (i + 1) := by
      rw [← hat, List.getElem_cons_drop, List.take_append_drop]
    exact hserv.visits_after hstmp (happd.symm.trans hsplit)

/-! ### What a replay that succeeded says -/

omit hkept in
lemma appended_prefix (operations : List Operation) :
    h.appended <+: (operations.foldl (History.step k tz) h).appended := by
  refine List.foldlRecOn operations (motive := fun t : History => h.appended <+: t.appended) _
    List.prefix_rfl ?_
  intro t hpre operation _
  cases operation with
  | append payloads => exact hpre.trans (List.prefix_append _ _)
  | roll sealedAt | compress generation | commitCompaction | reopen => exact hpre

/-- The events of an append by a ledger that is open are among the records. -/
lemma Kept.stamped_of_step {operation : Operation}
    (hstmp : ∀ record ∈ (h.step k tz operation).appended,
      tz record.frame.payload ≠ "") : operation.Stamped tz := by
  cases operation with
  | append payloads =>
    intro payload hpay
    obtain ⟨l, gens, frames, hserv, -⟩ := hkept.serving
    obtain ⟨f, hf, rfl⟩ := (mem_encodeBatch (k := k) l.head).mp hpay
    obtain ⟨record, hrec, rfl⟩ := (mem_recordsFrom l.generation (plainLength l.committed)).mp hf
    refine hstmp record (List.mem_append_right _ ?_)
    simp only [receipts, hserv.log, hserv.healthy, not_true_eq_false, if_false]
    exact hrec
  | roll sealedAt => trivial
  | compress generation => trivial
  | commitCompaction => trivial
  | reopen => trivial

lemma Kept.stamped_of_run {operations : List Operation}
    (hstmp : ∀ record ∈ (operations.foldl (History.step k tz) h).appended,
      tz record.frame.payload ≠ "") :
    ∀ operation ∈ operations, operation.Stamped tz := by
  induction operations generalizing h with
  | nil => exact nofun
  | cons operation operations ih =>
    have hpre : (h.step k tz operation).appended <+: (operations.foldl
        (History.step k tz) (h.step k tz operation)).appended :=
      appended_prefix operations
    have hfirst := hkept.stamped_of_step fun record hrec => hstmp record (hpre.subset hrec)
    exact List.forall_mem_cons.mpr ⟨hfirst, ih (hkept.step hfirst) hstmp⟩

end

end History

lemma stamped_of_replaySegment {segment : Segment} {sequence last : ℕ}
    (h : replaySegment k tz files segment offset sequence = .ok (records, last)) :
    ∀ record ∈ records, tz record.frame.payload ≠ "" := by
  rw [replaySegment] at h
  split at h
  · exact nomatch h
  · obtain ⟨tail, -, hscan⟩ := bind_eq_ok.mp h
    obtain ⟨⟨read, head, hash⟩, hread, hrest⟩ := bind_eq_ok.mp hscan
    obtain ⟨-, hrest⟩ := guard_eq_ok.mp hrest
    obtain ⟨-, hrest⟩ := guard_eq_ok.mp hrest
    obtain ⟨rfl, -⟩ := Prod.mk.inj (Except.ok.inj hrest)
    exact stamped_of_scanFrom hread

lemma stamped_of_replaySegments {start : Watermark} {started found : Bool} {sequence last : ℕ}
    (h : replaySegments k tz files start started sequence segments = .ok (found, last, records)) :
    ∀ record ∈ records, tz record.frame.payload ≠ "" := by
  induction segments generalizing started sequence records found last with
  | nil =>
    obtain ⟨-, hrest⟩ := Prod.mk.inj (Except.ok.inj h)
    obtain ⟨-, rfl⟩ := Prod.mk.inj hrest
    exact nofun
  | cons segment segments ih =>
    rw [replaySegments] at h
    dsimp only at h
    generalize (if segment.generation = start.generation then start.offset else 0) = offset at h
    split_ifs at h
    · exact ih h
    · exact ih h
    · obtain ⟨⟨read, reached⟩, hread, hrest⟩ := bind_eq_ok.mp h
      obtain ⟨⟨found', last', more⟩, hmore, hall⟩ := bind_eq_ok.mp hrest
      obtain ⟨-, hall⟩ := Prod.mk.inj (Except.ok.inj hall)
      obtain ⟨-, rfl⟩ := Prod.mk.inj hall
      exact List.forall_mem_append.mpr ⟨stamped_of_replaySegment hread, ih hmore⟩

lemma stamped_of_visits {s : Directory} {start : Watermark}
    (h : visits k tz s start = .ok records) :
    ∀ record ∈ records, tz record.frame.payload ≠ "" := by
  obtain ⟨⟨read, last⟩, hrepl, hrecs⟩ : ∃ result, replay k tz s start = .ok result ∧
      result.1 = records := by
    rcases hrepl : replay k tz s start with err | result
    · rw [visits, hrepl] at h
      exact nomatch h
    · rw [visits, hrepl] at h
      exact ⟨result, rfl, Except.ok.inj h⟩
  subst hrecs
  rw [replay] at hrepl
  split at hrepl
  · exact nomatch hrepl
  · obtain ⟨-, hrepl⟩ := guard_eq_ok.mp hrepl
    obtain ⟨⟨started, sequence, sealed⟩, hsegs, hrepl⟩ := bind_eq_ok.mp hrepl
    obtain ⟨-, hrepl⟩ := guard_eq_ok.mp hrepl
    obtain ⟨tail, -, hrepl⟩ := bind_eq_ok.mp hrepl
    obtain ⟨⟨live, head, hash⟩, hlive, hrepl⟩ := bind_eq_ok.mp hrepl
    obtain ⟨-, hrepl⟩ := guard_eq_ok.mp hrepl
    obtain ⟨rfl, -⟩ := Prod.mk.inj (Except.ok.inj hrepl)
    exact List.forall_mem_append.mpr ⟨stamped_of_replaySegments hsegs, stamped_of_scanFrom hlive⟩

/-- **Rolling and compacting are invisible to a replay.**  After any operations without a fault on a
ledger that was opened in an empty directory (batches appended, rolls, the halves of compactions and
openings, in any order), a replay from the empty watermark visits exactly the appended records in
their order, and one from the watermark of a record exactly those after it, if and only if every
appended event carries the timezone of its period. -/
theorem replays_appended (k : Codec) (periodTimezone : Bytes → String)
    (operations : List Operation) :
    (operations.foldl (History.step k periodTimezone) (.start k periodTimezone)).Replays k
        periodTimezone ↔
      ∀ operation ∈ operations, operation.Stamped periodTimezone := by
  constructor
  · intro hreplays
    exact History.kept_start.stamped_of_run (stamped_of_visits hreplays.all)
  · intro hstmp
    exact (History.kept_start.run hstmp).replays

namespace Sample

/-- The event of an empty payload has no timezone. -/
def timezone (payload : Bytes) : String := if payload = [] then "" else "UTC"

end Sample

/-- An event without a timezone is appended, and no replay gets past it. -/
theorem unstamped_event_stops_replay :
    let h := [Operation.append [[1], []]].foldl (History.step Sample.codec Sample.timezone)
      (.start Sample.codec Sample.timezone)
    h.appended.length = 2 ∧
      visits Sample.codec Sample.timezone h.directory {} = .error .periodIdentity := by
  decide +kernel

end Files

end Ledger

end Halro
