import Halro.Framework.Disk
import Halro.Ledger.Wire

/-!
# A ledger file that was cut (`internal/ledger/log.go`)

Batches are written to the end of the active file, and a crash may leave any first part of what was
written.  Opening scans the file and truncates a torn frame; appending goes on from there.

The reader refuses an event without the timezone of its period.  `writeBatch` writes one, so the file
is read back after a cut if every event carries a timezone, and not even without a cut if one does
not (`cut_file_recovers`).
-/

namespace Halro

open Framework Replication

namespace Ledger

namespace Wire

variable {D : Type} {cat : Catalogue D} {k : Codec}

/-! ## Writing and opening -/

/-- The open log: its file, the committed offset and the head of its chain. -/
structure Log where
  file : Bytes
  offset : ℕ
  head : Position

section Log

variable (key : Digest)

/-- The bytes of a batch, and the sequence and the hash after it. -/
def encodeBatch : ℕ → Digest → List (Request k cat) → Bytes × ℕ × Digest
  | sequence, hash, [] => ([], sequence, hash)
  | sequence, hash, r :: batch =>
    let (frame, next) := encodeChainFrameVersion k frameVersionRunAttribution key (sequence + 1)
      r.event.kind r.payload hash
    let (encoded, last) := encodeBatch (sequence + 1) next batch
    (frame ++ encoded, last)

/-- A batch is written at the committed offset. -/
def writeBatch (l : Log) (batch : List (Request k cat)) : Log :=
  let (encoded, sequence, hash) := encodeBatch key l.head.sequence l.head.hash batch
  { file := Disk.overwrite l.file l.offset encoded
    offset := l.offset + encoded.length
    head := ⟨sequence, frameVersionRunAttribution, hash⟩ }

/-- Opening an active file after the head of the sealed generations. -/
def openLog (k : Codec) (anchor : Position) (file : Bytes) : Except ScanError Log :=
  match (frameReader k (some key)).scan anchor file with
  | .error err => .error err
  | .ok x =>
    let verifier := x.torn.getD x.state
    .ok
      { file := if x.torn.isSome then file.take x.consumed else file
        offset := x.consumed
        head := ⟨x.state.sequence, verifier.epoch, verifier.hash⟩ }

end Log

/-- A log over an empty active file. -/
def Log.start (anchor : Position) : Log := ⟨[], 0, anchor⟩

/-- The sequences and the events of requests after a number of others. -/
def numbered : ℕ → List (Request k cat) → List (ℕ × Event)
  | _, [] => []
  | n, r :: requests => (n + 1, r.event) :: numbered (n + 1) requests

def Record.numbered (r : Record) : ℕ × Event := (r.sequence, r.event)

/-! ## What is written -/

section Written

variable {key : Digest} {p : Position} {requests : List (Request k cat)}

lemma encodeBatch_eq (p : Position) (batch : List (Request k cat)) :
    encodeBatch key p.sequence p.hash batch =
      (bytesOf (pieces key p batch), (stateAfter p (pieces key p batch)).sequence,
        (stateAfter p (pieces key p batch)).hash) := by
  induction batch generalizing p with
  | nil => rfl
  | cons r batch ih =>
    have hrest := ih (r.piece key p).after
    simp only [encodeBatch]
    rw [show p.sequence + 1 = (r.piece key p).after.sequence from rfl] at *
    simp only [show (encodeChainFrameVersion k frameVersionRunAttribution key
      (r.piece key p).after.sequence r.event.kind r.payload p.hash).2 = (r.piece key p).after.hash
      from rfl, hrest]
    rfl

/-- A log that is at the end of its file, after a position. -/
structure Log.At (l : Log) (p : Position) : Prop where
  offset : l.offset = l.file.length
  head : SameHead p l.head

lemma Log.At.write {l : Log} (h : l.At p) (batch : List (Request k cat)) :
    (writeBatch key l batch).file = l.file ++ bytesOf (pieces key p batch) ∧
      (writeBatch key l batch).At (stateAfter p (pieces key p batch)) := by
  have hbatch : encodeBatch key l.head.sequence l.head.hash batch = _ :=
    h.head.1 ▸ h.head.2 ▸ encodeBatch_eq p batch
  have hfile : (writeBatch key l batch).file = l.file ++ bytesOf (pieces key p batch) := by
    simp [writeBatch, hbatch, Disk.overwrite, h.offset]
  refine ⟨hfile, ?_, ?_, ?_⟩
  · rw [hfile, List.length_append, ← h.offset]
    simp only [writeBatch, hbatch]
  · simp only [writeBatch, hbatch]
  · simp only [writeBatch, hbatch]

/-- Batches are one after the other in the file. -/
lemma Log.At.writes {l : Log} (h : l.At p) (batches : List (List (Request k cat))) :
    (batches.foldl (writeBatch key) l).file = l.file ++ bytesOf (pieces key p batches.flatten) := by
  induction batches generalizing l p with
  | nil => simp [pieces]
  | cons batch batches ih =>
    obtain ⟨hfile, hat⟩ := h.write batch
    rw [List.foldl_cons, ih hat, hfile, List.flatten_cons, pieces_append, bytesOf_append,
      List.append_assoc]

lemma Log.at_start (anchor : Position) : (Log.start anchor).At anchor := ⟨rfl, rfl, rfl⟩

lemma numbered_pieces (p : Position) (requests : List (Request k cat)) :
    ((pieces key p requests).map Piece.record).map Record.numbered =
      numbered p.sequence requests := by
  induction requests generalizing p with
  | nil => rfl
  | cons r requests ih =>
    rw [pieces, List.map_cons, List.map_cons, ih, numbered]
    rfl

end Written

/-! ## Every cut -/

/-- What a cut after a number of bytes leaves of a file: the complete frames are read, with their
sequences, a torn one is noticed, and appending after opening goes on from there. -/
structure Recovers (key : Digest) (anchor : Position) (requests : List (Request k cat))
    (more : List (List (Request k cat))) (file : Bytes) (n : ℕ) : Prop where
  reads : ∃ x l, (frameReader k (some key)).scan anchor (file.take n) = .ok x ∧
    openLog key k anchor (file.take n) = .ok l ∧
    (let kept := requests.take (complete n (pieces key anchor requests)).length
    x.records.map Record.numbered = numbered anchor.sequence kept ∧
    x.consumed = (bytesOf (pieces key anchor kept)).length ∧
    SameHead (stateAfter anchor (pieces key anchor kept)) x.state ∧
    (x.torn.isSome ↔ x.consumed < n) ∧
    ∃ y, (frameReader k (some key)).scan anchor (more.foldl (writeBatch key) l).file = .ok y ∧
      y.torn = none ∧
      y.records.map Record.numbered = numbered anchor.sequence (kept ++ more.flatten))

section Cut

variable {key : Digest} {anchor : Position} {requests : List (Request k cat)}
  {more : List (List (Request k cat))}

/-- Opening what a cut left. -/
lemma openLog_cut (hwrit : (frameReader k (some key)).Written SameHead anchor
    (pieces key anchor requests)) {n : ℕ} (hn : n ≤ (bytesOf (pieces key anchor requests)).length) :
    let kept := pieces key anchor (requests.take (complete n (pieces key anchor requests)).length)
    ∃ x l, (frameReader k (some key)).scan anchor ((bytesOf (pieces key anchor requests)).take n) =
        .ok x ∧
      openLog key k anchor ((bytesOf (pieces key anchor requests)).take n) = .ok l ∧
      x.records = kept.map Piece.record ∧ x.consumed = (bytesOf kept).length ∧
      x.state = stateAfter anchor kept ∧ (x.torn.isSome ↔ x.consumed < n) ∧
      l.file = bytesOf kept ∧ l.At (stateAfter anchor kept) := by
  intro kept
  -- the pieces that are complete are those of the first requests
  have hkept : complete n (pieces key anchor requests) = kept := by
    obtain ⟨rest, hrest⟩ := complete_isPrefix n (pieces key anchor requests)
    have hlen : (complete n (pieces key anchor requests)).length ≤ requests.length := by
      rw [← length_pieces key anchor]
      exact (complete_isPrefix n (pieces key anchor requests)).length_le
    set m := (complete n (pieces key anchor requests)).length
    have hsplit := pieces_append key anchor (requests.take m) (requests.drop m)
    rw [List.take_append_drop] at hsplit
    have hsame : (pieces key anchor (requests.take m)).length = m := by
      rw [length_pieces, List.length_take, min_eq_left hlen]
    exact (List.append_inj (hrest.trans hsplit) hsame.symm).1
  obtain ⟨torn, hscan, htorn, hagr⟩ := Reader.scan_take hwrit hn
  rw [hkept] at hscan htorn hagr
  have hpre := bytesOf_complete_isPrefix n (pieces key anchor requests)
  rw [hkept] at hpre
  have hopen : openLog key k anchor ((bytesOf (pieces key anchor requests)).take n) = .ok
      { file := if torn.isSome then ((bytesOf (pieces key anchor requests)).take n).take
          (bytesOf kept).length else (bytesOf (pieces key anchor requests)).take n
        offset := (bytesOf kept).length
        head := ⟨(stateAfter anchor kept).sequence, (torn.getD (stateAfter anchor kept)).epoch,
          (torn.getD (stateAfter anchor kept)).hash⟩ } := by
    rw [openLog, hscan]
  -- Without a torn frame the cut is where the complete ones end.
  have hfile : (if torn.isSome then ((bytesOf (pieces key anchor requests)).take n).take
      (bytesOf kept).length else (bytesOf (pieces key anchor requests)).take n) = bytesOf kept := by
    split_ifs with hsome
    · exact (List.prefix_iff_eq_take.mp hpre).symm
    · have hlen : n ≤ (bytesOf kept).length := by
        rw [htorn] at hsome
        omega
      refine (hpre.eq_of_length_le ?_).symm
      rw [List.length_take]
      omega
  refine ⟨_, _, hscan, hopen, rfl, rfl, rfl, htorn, hfile, ?_, rfl, ?_⟩
  · rw [hfile]
  · cases torn with
    | none => rfl
    | some t => exact (hagr t rfl).2

section

variable (hsequence : anchor.sequence + (requests ++ more.flatten).length < 256 ^ 8)

include hsequence

lemma recovers_of_stamped {n : ℕ}
  
    (hzone : ∀ r ∈ requests ++ more.flatten, r.event.periodTimezone ≠ "")
    (hn : n ≤ (bytesOf (pieces key anchor requests)).length) :
    Recovers key anchor requests more (bytesOf (pieces key anchor requests)) n := by
  rw [List.length_append] at hsequence
  have hwrit : (frameReader k (some key)).Written SameHead anchor (pieces key anchor requests) :=
    written_pieces (by omega) fun r hr => hzone r (List.mem_append_left _ hr)
  obtain ⟨x, l, hscan, hopen, hrecs, hcons, hstate, htorn, hfile, hat⟩ := openLog_cut hwrit hn
  set kept := requests.take (complete n (pieces key anchor requests)).length
  have hall : (frameReader k (some key)).Written SameHead anchor
      (pieces key anchor (kept ++ more.flatten)) := by
    refine written_pieces ?_ fun r hr => hzone r ?_
    · have hlen : kept.length ≤ requests.length := List.length_take_le' _ _
      rw [List.length_append]
      omega
    · rcases List.mem_append.mp hr with hold | hnew
      · exact List.mem_append_left _ (List.mem_of_mem_take hold)
      · exact List.mem_append_right _ hnew
  have hagain : (more.foldl (writeBatch key) l).file =
      bytesOf (pieces key anchor (kept ++ more.flatten)) := by
    rw [hat.writes, hfile, pieces_append, bytesOf_append]
  have hread := Reader.scan_bytesOf hall
  rw [← hagain] at hread
  refine ⟨x, l, hscan, hopen, ?_, hcons, ?_, htorn, _, hread, rfl, ?_⟩
  · rw [hrecs, numbered_pieces]
  · rw [hstate]
    exact ⟨rfl, rfl⟩
  · rw [numbered_pieces]

/-- What was read back whole carries its timezones. -/
lemma stamped_of_recovers
    (h : Recovers key anchor requests more (bytesOf (pieces key anchor requests))
      (bytesOf (pieces key anchor requests)).length) :
    ∀ r ∈ requests ++ more.flatten, r.event.periodTimezone ≠ "" := by
  obtain ⟨x, l, hscan, hopen, -, -, -, -, y, hagain, -, -⟩ := h.reads
  rw [List.length_append] at hsequence
  rw [List.take_length] at hscan hopen
  have hreqs : ∀ r ∈ requests, r.event.periodTimezone ≠ "" := by
    rw [← List.append_nil (bytesOf (pieces key anchor requests))] at hscan
    exact stamped_of_scan (by omega) hscan
  -- The first part is written for the reader, so the log that was opened is at its end.
  have hwrit : (frameReader k (some key)).Written SameHead anchor (pieces key anchor requests) :=
    written_pieces (by omega) hreqs
  obtain ⟨-, l', -, hopen', -, -, -, -, hfile, hat⟩ := openLog_cut hwrit le_rfl
  rw [List.take_length] at hopen'
  obtain rfl : l = l' := Except.ok.inj (hopen.symm.trans hopen')
  rw [complete_all le_rfl, length_pieces, List.take_length] at hfile hat
  rw [hat.writes, hfile, ← bytesOf_append, ← pieces_append,
    ← List.append_nil (bytesOf (pieces key anchor (requests ++ more.flatten)))] at hagain
  exact stamped_of_scan (by rw [List.length_append]; omega) hagain

end

end Cut

/-- **A cut ledger file.**  Batches are written under a key after any head of the sealed generations,
and the file is cut after any number of bytes.  Every such cut is read as the complete frames before
it, with their events and sequences, and reports a torn frame exactly if it is inside one; opening
it and appending more batches gives a file that is read as those frames followed by the new ones.
This holds if and only if every event carries the timezone of its period. -/
theorem cut_file_recovers (k : Codec) (cat : Catalogue D) (key : Digest) (anchor : Position)
    (batches more : List (List (Request k cat)))
    (hsequence : anchor.sequence + (batches.flatten ++ more.flatten).length < 256 ^ 8) :
    let file := (batches.foldl (writeBatch key) (Log.start anchor)).file
    (∀ n ≤ file.length, Recovers key anchor batches.flatten more file n) ↔
      ∀ r ∈ batches.flatten ++ more.flatten, r.event.periodTimezone ≠ "" := by
  intro file
  have hfile : file = bytesOf (pieces key anchor batches.flatten) := (Log.at_start anchor).writes batches
  rw [hfile]
  exact ⟨fun h => stamped_of_recovers hsequence (h _ le_rfl),
    fun hzone n hn => recovers_of_stamped hsequence hzone hn⟩

namespace Sample

/-- The settlement of a lease that was never started, as recovery writes it.  The timezone is copied
from the reservation, which has none if it was written before periods had one. -/
def settlement (zone : String) : Event where
  eventID := "evt_recovery_1"
  kind := .attemptSettled
  requestID := "req_1"
  attemptID := "att_1"
  projectID := "prj_1"
  periodID := "2026-08-06"
  periodTimezone := zone
  occurredAt := 1
  committedMicrosUSD := some 0
  tokenUsageSource := .none
  outcome := "recovered_not_started"
  failurePhase := "accounting"

/-- Lengths in the place of the hashes, and payloads for two events. -/
def codec : Codec where
  crc32 b := b.length % 256 ^ 4
  crc32_lt b := Nat.mod_lt _ (by decide)
  hmac _ message := Vector.replicate 32 (UInt8.ofNat message.length)
  sha256 mac := Vector.replicate 32 (mac.toList.headD 0 + 1)
  marshal e :=
    if e = settlement "UTC" then some [1] else if e = settlement "" then some [2] else none
  unmarshal b :=
    if b = [1] then some (settlement "UTC") else if b = [2] then some (settlement "") else none
  unmarshal_marshal e b h := by
    split_ifs at h with hstamped hunstamped
    · rw [← Option.some.inj h, hstamped]
      rfl
    · rw [← Option.some.inj h, hunstamped]
      rfl

def key : Digest := .zero

def stamped : Request codec Catalogue.bare where
  event := settlement "UTC"
  payload := [1]
  encoded := by decide +kernel
  accepted := by decide +kernel
  fits := by decide

def unstamped : Request codec Catalogue.bare where
  event := settlement ""
  payload := [2]
  encoded := by decide +kernel
  accepted := by decide +kernel
  fits := by decide

end Sample

/-- Two batches of one settlement each. -/
theorem cut_file_recovers_settlements :
    let file := ([[Sample.stamped]].foldl (writeBatch Sample.key) (Log.start {})).file
    ∀ n ≤ file.length, Recovers Sample.key {} [Sample.stamped] [[Sample.stamped]] file n := by
  refine (cut_file_recovers Sample.codec Catalogue.bare Sample.key {} [[Sample.stamped]]
    [[Sample.stamped]] (by decide)).mpr fun r hr => ?_
  have hevent : r = Sample.stamped := by simpa using hr
  rw [hevent]
  exact fun h => absurd h (by decide)

/-- A settlement without a timezone is accepted and written, and the file is not opened again. -/
theorem unstamped_settlement_unreadable :
    let file := ([[Sample.unstamped]].foldl (writeBatch Sample.key) (Log.start {})).file
    openLog Sample.key Sample.codec {} file = .error (.periodIdentity frameVersionRunAttribution) := by
  intro file
  have hfile : file = bytesOf (pieces Sample.key {} [Sample.unstamped]) :=
    (Log.at_start {}).writes [[Sample.unstamped]]
  have hread := Sample.unstamped.readFrame_whole Sample.key (show ({} : Position).sequence + 1 < 256 ^ 8 by decide) []
  rw [hfile, openLog]
  simp only [pieces, bytesOf_cons, bytesOf_nil, Request.bytes_piece]
  rw [Reader.scan_of_refused hread]

end Wire

end Ledger

end Halro
