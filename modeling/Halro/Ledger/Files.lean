import Halro.Framework.Faults
import Halro.Framework.FinMap
import Halro.Replication.Frame

/-!
# The files of the ledger (`internal/ledger/log.go`, `segment.go`, `seal.go`)

The write-ahead log is one active file and the generations that were rolled off it, each a file of
its own that is compressed later.  A manifest names the sealed generations, and during a roll the
generation being sealed.  Rolling, compacting and opening are programs over the files whose calls
to the storage may fail or be the last one before the process stops (`Framework.Program`).

Only the frames this build writes are modelled, which carry a chain link and a code.  A file is its
complete frames and the bytes of an incomplete one after them.  The key, the hashes and the size of
a compressed file are parameters; temporary files, which nothing reads, are left out.
-/

namespace Halro

open Framework Framework.Program Replication

namespace Ledger

namespace Files

/-! ## Frames -/

structure Frame where
  sequence : ℕ
  payload : Bytes
  previousHash : Digest
  mac : Digest
  deriving DecidableEq

/-- The code of a frame under the chain key, the hash of a code, and what is measured of files. -/
structure Codec where
  mac : ℕ → Bytes → Digest → Digest
  hash : Digest → Digest
  plainChecksum : List Frame → Digest
  compressedChecksum : List Frame → Digest
  compressedLength : List Frame → ℕ
  compressedLength_pos : ∀ frames, 0 < compressedLength frames

def chainHeaderSize : ℕ := 88

def Frame.length (f : Frame) : ℕ := chainHeaderSize + f.payload.length

/-- The bytes of frames. -/
def plainLength (frames : List Frame) : ℕ := (frames.map Frame.length).sum

/-- Where a chain stands: the hash the next frame links to, and the last sequence. -/
structure Head where
  hash : Digest := .zero
  sequence : ℕ := 0
  deriving DecidableEq

inductive LedgerError
  | closed
  | notHealthy
  | sync
  | stat
  | uncommittedTail (bytes committed : ℕ)
  | onDisk (generation : ℕ)
  | manifestWrite
  | manifestSync
  | manifestClose
  | manifestCommit
  | directorySync
  | rename
  | successor
  | successorSync
  | manifestGap (position generation : ℕ)
  | pendingGap (generation sealed : ℕ)
  | unreadableRoll (generation : ℕ)
  | segmentMissing (generation : ℕ)
  | segmentSize (generation : ℕ)
  | directory
  | openLedger
  | sequenceOrder
  | chainLink
  | chainCode
  | truncate
  | truncateSync
  | seek
  | write
  | notSealed (generation : ℕ)
  | compress
  | notReproduced
  | removeSource (generation : ℕ)
  | unsupportedGeneration (generation : ℕ)
  | unknownGeneration (generation : ℕ)
  | frameMagic
  | periodIdentity
  | sealedEnd (generation : ℕ)
  | sealedHead (generation : ℕ)
  | partialTail
  deriving DecidableEq

def LedgerError.message : LedgerError → String
  | .closed => "ledger is closed"
  | .notHealthy => "accounting is not healthy"
  | .sync => "sync ledger before sealing"
  | .stat => "stat ledger before sealing"
  | .uncommittedTail bytes committed => "ledger is " ++ toString bytes ++ " bytes but " ++
      toString committed ++ " are committed; sealing needs a clean tail"
  | .onDisk generation => "ledger generation " ++ toString generation ++ " is already on disk"
  | .manifestWrite => "write ledger segment manifest"
  | .manifestSync => "sync ledger segment manifest"
  | .manifestClose => "close ledger segment manifest"
  | .manifestCommit => "commit ledger segment manifest"
  | .directorySync => "sync directory"
  | .rename => "seal ledger generation"
  | .successor => "open successor ledger generation"
  | .successorSync => "sync successor ledger generation"
  | .manifestGap position generation => "ledger segment " ++ toString position ++
      " is generation " ++ toString generation ++ "; the sealed history must run from 1 without gaps"
  | .pendingGap generation sealed => "ledger roll intent names generation " ++
      toString generation ++ " after " ++ toString sealed ++ " sealed generations"
  | .unreadableRoll generation => "interrupted ledger roll left generation " ++
      toString generation ++ " unreadable"
  | .segmentMissing generation => "ledger segment is missing: generation " ++ toString generation
  | .segmentSize generation => "generation " ++ toString generation ++
      " does not have its recorded stored size"
  | .directory => "create ledger directory"
  | .openLedger => "open ledger"
  | .sequenceOrder => "non-monotonic sequence"
  | .chainLink => "chain link does not match the running hash"
  | .chainCode => "MAC does not authenticate"
  | .truncate => "truncate partial ledger tail"
  | .truncateSync => "sync repaired ledger tail"
  | .seek => "seek ledger end"
  | .write => "append ledger"
  | .notSealed generation => "ledger generation " ++ toString generation ++ " is not sealed"
  | .compress => "compress ledger generation"
  | .notReproduced => "compressed ledger segment does not reproduce its plaintext"
  | .removeSource generation => "remove compacted ledger generation " ++ toString generation
  | .unsupportedGeneration generation => "unsupported ledger generation " ++ toString generation
  | .unknownGeneration generation => "unknown ledger generation " ++ toString generation
  | .frameMagic => "invalid frame magic"
  | .periodIdentity => "frame is missing its period identity"
  | .sealedEnd generation => "sealed generation " ++ toString generation ++
      " does not end where the manifest says"
  | .sealedHead generation => "sealed generation " ++ toString generation ++
      " does not end at its recorded chain head"
  | .partialTail => "ledger has a partial tail while open"

section Chain

variable (k : Codec)

/-- The frame after a head with its link and its code, and the head after it. -/
def encodeChainFrame (head : Head) (payload : Bytes) : Frame where
  sequence := head.sequence + 1
  payload := payload
  previousHash := head.hash
  mac := k.mac (head.sequence + 1) payload head.hash

def Head.next (f : Frame) : Head := ⟨k.hash f.mac, f.sequence⟩

/-- The frames of a batch. -/
def encodeBatch : Head → List Bytes → List Frame
  | _, [] => []
  | head, payload :: payloads =>
    let frame := encodeChainFrame k head payload
    frame :: encodeBatch (Head.next k frame) payloads

/-- The frames of a file against the head before them. -/
def scan : Head → List Frame → Except LedgerError Head
  | head, [] => .ok head
  | head, f :: frames =>
    if f.sequence ≤ head.sequence then .error .sequenceOrder
    else if f.previousHash ≠ head.hash then .error .chainLink
    else if f.mac ≠ k.mac f.sequence f.payload f.previousHash then .error .chainCode
    else scan (Head.next k f) frames

end Chain

/-! ## Segments and the manifest -/

/-- The name of a sealed file: `ledger-N.wal` or `ledger-N.seg.gz`. -/
inductive SegmentFile
  | plain (generation : ℕ)
  | compressed (generation : ℕ)
  deriving DecidableEq

/-- One sealed generation as the manifest describes it. -/
structure Segment where
  generation : ℕ
  file : SegmentFile
  compressed : Bool := false
  firstSequence : ℕ
  lastSequence : ℕ
  length : ℕ
  storedLength : ℕ
  startHash : Digest
  endHash : Digest
  plainChecksum : Digest
  storedChecksum : Digest
  sealedAt : ℤ
  deriving DecidableEq

structure Manifest where
  segments : List Segment := []
  pending : Option Segment := none
  deriving DecidableEq

/-- The position of the first segment that is not numbered by its place. -/
def firstGap : ℕ → List Segment → Option LedgerError
  | _, [] => none
  | position, s :: segments =>
    if s.generation ≠ position + 1 then some (.manifestGap position s.generation)
    else firstGap (position + 1) segments

/-- A manifest as it was read; a missing file is an empty one. -/
def loadSegmentManifest (stored : Option Manifest) : Except LedgerError Manifest :=
  let manifest := stored.getD {}
  match firstGap 0 manifest.segments with
  | some err => .error err
  | none =>
    match manifest.pending with
    | none => .ok manifest
    | some pending =>
      if pending.generation ≠ manifest.segments.length + 1 then
        .error (.pendingGap pending.generation manifest.segments.length)
      else .ok manifest

def activeGeneration (segments : List Segment) : ℕ :=
  match segments.getLast? with
  | none => 1
  | some last => last.generation + 1

/-- Where the active file picks up. -/
def sealedTail (segments : List Segment) : Head :=
  match segments.getLast? with
  | none => {}
  | some last => ⟨last.endHash, last.lastSequence⟩

def findSegment (segments : List Segment) (generation : ℕ) : Option Segment :=
  segments.find? (·.generation = generation)

/-! ## The files and the open log -/

/-- The active file: its complete frames, and the bytes of an incomplete one. -/
structure ActiveFile where
  frames : List Frame := []
  torn : ℕ := 0
  deriving DecidableEq

def ActiveFile.length (a : ActiveFile) : ℕ := plainLength a.frames + a.torn

/-- The log of a running process.  The committed frames of the active file stand for its offset and
its running checksum. -/
structure Log where
  segments : List Segment
  generation : ℕ
  anchor : Head
  head : Head
  committed : List Frame
  healthy : Bool := true

/-- A compaction whose compressed copy is in place and was measured. -/
structure Compaction where
  generation : ℕ
  storedLength : ℕ
  storedChecksum : Digest
  deriving DecidableEq

/-- The directory of the ledger, the log if a process has it open, the compaction it is in, and the
frames whose append was acknowledged. -/
structure Directory where
  active : Option ActiveFile := none
  files : FinMap SegmentFile (List Frame) := ∅
  manifest : Option Manifest := none
  log : Option Log := none
  compacting : Option Compaction := none
  acknowledged : List Frame := []

/-- A program over the ledger. -/
abbrev LedgerProgram := Program Directory LedgerError

namespace Directory

def putManifest (m : Manifest) (s : Directory) : Directory := { s with manifest := some m }

def putFile (name : SegmentFile) (frames : List Frame) (s : Directory) : Directory :=
  { s with files := s.files.insert name frames }

def removeFile (name : SegmentFile) (s : Directory) : Directory := { s with files := s.files.erase name }

/-- Creating the active file; one that exists is kept. -/
def createActive (s : Directory) : Directory := { s with active := some (s.active.getD {}) }

/-- Renaming the active file to a sealed generation. -/
def renameActive (generation : ℕ) (s : Directory) : Directory :=
  match s.active with
  | none => s
  | some a =>
    { s with files := s.files.insert (.plain generation) a.frames, active := none }

def truncateActive (s : Directory) : Directory :=
  { s with active := s.active.map fun a => { a with torn := 0 } }

def setLog (l : Log) (s : Directory) : Directory := { s with log := some l }

/-- The status of the process that has the log open. -/
def unavailable (s : Directory) : Directory :=
  { s with log := s.log.map fun l => { l with healthy := false } }

end Directory

open Directory

/-! ## Saving and resolving the manifest -/

/-- The manifest is written to a temporary file and renamed over the old one. -/
def saveSegmentManifest (m : Manifest) : LedgerProgram Unit := do
  call id .manifestWrite
  call id .manifestWrite
  call id .manifestSync
  call id .manifestClose
  call (putManifest m) .manifestCommit
  call id .directorySync

section Programs

variable (k : Codec)

/-- The sealed history of a directory, and whether it had an interrupted roll.  The rolled file says
on which side of its rename the roll was. -/
def resolveSegments (s : Directory) : Except LedgerError (List Segment × Bool) :=
  match loadSegmentManifest s.manifest with
  | .error err => .error err
  | .ok manifest =>
    match manifest.pending with
    | none => .ok (manifest.segments, false)
    | some pending =>
      match s.files.lookup pending.file with
      | none => .ok (manifest.segments, true)
      | some frames =>
        if plainLength frames ≠ pending.length ∨ k.plainChecksum frames ≠ pending.plainChecksum then
          .error (.unreadableRoll pending.generation)
        else .ok (manifest.segments ++ [pending], true)

def repairSegments : LedgerProgram (List Segment) := do
  let s ← get
  let (segments, hadPending) ← ofExcept (resolveSegments k s)
  if hadPending then saveSegmentManifest { segments := segments }
  pure segments

/-- The bytes of a sealed file. -/
def storedLength (name : SegmentFile) (frames : List Frame) : ℕ :=
  match name with
  | .plain _ => plainLength frames
  | .compressed _ => k.compressedLength frames

/-- Every generation the manifest names is there with its recorded size. -/
def checkSegmentsPresent (s : Directory) : List Segment → Except LedgerError Unit
  | [] => .ok ()
  | segment :: segments =>
    match s.files.lookup segment.file with
    | none => .error (.segmentMissing segment.generation)
    | some frames =>
      if segment.storedLength = 0 ∨ storedLength k segment.file frames ≠ segment.storedLength then
        .error (.segmentSize segment.generation)
      else checkSegmentsPresent s segments

/-! ## Opening -/

/-- The log over an active file whose tail was scanned. -/
def startLog (segments : List Segment) (head : Head) (committed : List Frame) :
    LedgerProgram Unit := do
  call id .seek
  modify (setLog
    { segments := segments
      generation := activeGeneration segments
      anchor := sealedTail segments
      head := head
      committed := committed })

/-- Opening the ledger in Standalone mode. -/
def openLog : LedgerProgram Unit := do
  call id .directory
  let segments ← repairSegments k
  let s ← get
  ofExcept (checkSegmentsPresent k s segments)
  call createActive .openLedger
  let s ← get
  let active := s.active.getD {}
  let head ← ofExcept (scan k (sealedTail segments) active.frames)
  if active.torn > 0 then
    call truncateActive .truncate
    call id .truncateSync
  startLog segments head active.frames

/-! ## Rolling -/

/-- The generation a roll seals. -/
def pendingSegment (l : Log) (sealedAt : ℤ) : Segment where
  generation := l.generation
  file := .plain l.generation
  firstSequence := l.anchor.sequence + 1
  lastSequence := l.head.sequence
  length := plainLength l.committed
  storedLength := plainLength l.committed
  startHash := l.anchor.hash
  endHash := l.head.hash
  plainChecksum := k.plainChecksum l.committed
  storedChecksum := k.plainChecksum l.committed
  sealedAt := sealedAt

/-- The log after a roll. -/
def Log.rolled (l : Log) (pending : Segment) : Log where
  segments := l.segments ++ [pending]
  generation := l.generation + 1
  anchor := l.head
  head := l.head
  committed := []

/-- What follows the rename of the active file.  The roll is committed by then, so a failure makes
the log unavailable and leaves the intent to the next opening. -/
def finishRoll (l : Log) (pending : Segment) : LedgerProgram Unit := do
  call id .directorySync
  call createActive .successor
  call id .successorSync
  call id .directorySync
  saveSegmentManifest { segments := l.segments ++ [pending] }

/-- The intent first, then the rename and what follows it. -/
def sealGeneration (l : Log) (pending : Segment) : LedgerProgram Bool := do
  saveSegmentManifest { segments := l.segments, pending := some pending }
  call (renameActive l.generation) .rename
  onError (finishRoll l pending) (modify unavailable)
  modify (setLog (l.rolled pending))
  pure true

/-- Sealing the active generation; the answer is whether there was anything to seal. -/
def roll (sealedAt : ℤ) : LedgerProgram Bool := do
  let s ← get
  match s.log with
  | none => fail .closed
  | some l =>
    if ¬ l.healthy then fail .notHealthy
    else if l.committed = [] then pure false
    else
      onError (call id .sync) (modify unavailable)
      call id .stat
      let length := (s.active.getD {}).length
      if length ≠ plainLength l.committed then
        fail (.uncommittedTail length (plainLength l.committed))
      else if (s.files.lookup (.plain l.generation)).isSome then fail (.onDisk l.generation)
      else sealGeneration l (pendingSegment k l sealedAt)

/-! ## Compacting -/

/-- The first half of a compaction, with the writer released: a compressed copy is written to a
temporary file, read back and renamed. -/
def compress (generation : ℕ) : LedgerProgram Unit := do
  let s ← get
  match s.log with
  | none => fail .closed
  | some l =>
    match findSegment l.segments generation with
    | none => fail (.notSealed generation)
    | some segment =>
      if segment.compressed then pure ()
      else
        match s.files.lookup segment.file with
        | none => fail .compress
        | some frames =>
          call id .compress
          if plainLength frames ≠ segment.length ∨ k.plainChecksum frames ≠ segment.plainChecksum then
            fail .notReproduced
          else
            call (putFile (.compressed generation) frames) .compress
            call id .directorySync
            let measured : Compaction :=
              ⟨generation, k.compressedLength frames, k.compressedChecksum frames⟩
            modify fun s => { s with compacting := some measured }

/-- The segment with its compressed copy. -/
def Segment.compacted (segment : Segment) (c : Compaction) : Segment :=
  { segment with
    file := .compressed c.generation
    compressed := true
    storedLength := c.storedLength
    storedChecksum := c.storedChecksum }

/-- The segments with one of them exchanged for another of its generation. -/
def replaceSegment (updated : Segment) : List Segment → List Segment
  | [] => []
  | segment :: segments =>
    if segment.generation = updated.generation then updated :: segments
    else segment :: replaceSegment updated segments

/-- The second half of a compaction, with the writer held: the manifest is switched to the copy and
the plain file is removed.  The manifest is saved without an intent. -/
def commitCompaction (c : Compaction) : LedgerProgram Unit := do
  let s ← get
  let removeCopy := call (removeFile (.compressed c.generation)) .compress
  match s.log with
  | none => do
    removeCopy
    fail .closed
  | some l =>
    match findSegment l.segments c.generation with
    | none => do
      removeCopy
      fail (.notSealed c.generation)
    | some current =>
      if current.compressed then removeCopy
      else
        let segments := replaceSegment (current.compacted c) l.segments
        onError (saveSegmentManifest { segments := segments }) removeCopy
        modify (setLog { l with segments := segments })
        call (removeFile current.file) (.removeSource c.generation)
        call id .directorySync

/-! ## Appending -/

/-- How the write of a batch ends: when it does not succeed, some of its frames are complete and
some bytes of the next one may follow. -/
inductive BatchWrite
  | synced
  | failed (landed torn : ℕ)
  | stopped (landed torn : ℕ)
  deriving DecidableEq

/-- The active file with what landed of a batch. -/
def landed (frames : List Frame) (n torn : ℕ) (s : Directory) : Directory :=
  let old := s.active.getD {}
  let new : ActiveFile :=
    ⟨old.frames ++ frames.take n, if n < frames.length then old.torn + torn else old.torn⟩
  { s with active := some new }

/-- Writing a batch of payloads. -/
def writeBatch (payloads : List Bytes) (write : BatchWrite) (s : Directory) : Directory :=
  match s.log with
  | none => s
  | some l =>
    if ¬ l.healthy then s
    else
      let frames := encodeBatch k l.head payloads
      match write with
      | .failed n torn => unavailable (landed frames n torn s)
      | .stopped n torn => { landed frames n torn s with log := none, compacting := none }
      | .synced =>
        { landed frames frames.length 0 s with
          log := some { l with
            head := frames.foldl (fun _ f => Head.next k f) l.head
            committed := l.committed ++ frames }
          acknowledged := s.acknowledged ++ frames }

/-! ## Runs -/

/-- What a run of a program leaves; a stop leaves only the files. -/
def after {A : Type} (r : Finished Directory LedgerError A) : Directory :=
  match r.ended with
  | .stopped => { r.state with log := none, compacting := none }
  | _ => r.state

/-- The directory without the process. -/
def Directory.stopped (s : Directory) : Directory := { s with log := none, compacting := none }

inductive FileEvent
  | append (payloads : List Bytes) (write : BatchWrite)
  | roll (sealedAt : ℤ) (faults : List Fault)
  | compress (generation : ℕ) (faults : List Fault)
  | commitCompaction (faults : List Fault)
  | reopen (faults : List Fault)

/-- One call of the process, or its restart.  A process runs one compaction at a time; appends and
rolls may come between its halves. -/
def step (s : Directory) : FileEvent → Directory
  | .append payloads write => writeBatch k payloads write s
  | .roll sealedAt faults => after (roll k sealedAt s faults)
  | .compress generation faults =>
    if s.compacting.isSome then s else after (compress k generation s faults)
  | .commitCompaction faults =>
    match s.compacting with
    | none => s
    | some c => { after (commitCompaction c s faults) with compacting := none }
  | .reopen faults => after (openLog k s.stopped faults)

/-- The frames of the log: those of its sealed generations, and those of the active file. -/
def Directory.records (s : Directory) : List Frame :=
  (s.log.elim [] (·.segments)).flatMap (fun segment => (s.files.lookup segment.file).getD []) ++
    (s.active.getD {}).frames

end Programs

end Files

end Ledger

end Halro
