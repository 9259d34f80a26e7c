import Halro.Metadata.Recorder
import Halro.Replication.Frame

/-!
# The frames of the metadata journal (`internal/metadatajournal/frame.go`, `log.go`, `trim.go`)

A journal file opens with the header of an epoch, or with an anchor where its head was cut off, and
goes on with one frame for each recorded transaction.  Every frame carries a code under the
journal's key and the hash of the frame before it.  `scan` reads a file from its start and refuses
everything this writer would not have written; a frame that is cut off at the end of the file is
not an error but a torn tail.

A file is its complete frames and whether an incomplete one follows.  The code, the hash and the
length of a payload are parameters.
-/

namespace Halro

open Replication

namespace Metadata

variable {V : Type}

/-! ## Frames -/

structure EpochHeader where
  epoch : ℕ
  previousEpoch : ℕ
  previousChainHead : Option Digest := none
  reason : String
  deriving DecidableEq

/-- Where the head of a file was cut, and the chain there. -/
structure TrimAnchor where
  epoch : ℕ
  trimmedThrough : ℕ
  chainHeadAtTrim : Digest
  trimmedFrameCount : ℕ
  trimmedByteCount : ℕ
  retainedFromSeqMin : ℕ
  deriving DecidableEq

inductive Payload (V : Type)
  | operations (ops : List (Op V))
  | epoch (header : EpochHeader)
  | trim (anchor : TrimAnchor)

structure Frame (V : Type) where
  payload : Payload V
  epoch : ℕ
  sequence : ℕ
  previous : Digest
  mac : Digest

/-- The operations of a frame; those that open a file have none. -/
def Frame.ops (f : Frame V) : List (Op V) :=
  match f.payload with
  | .operations ops => ops
  | .epoch _ | .trim _ => []

def Frame.isOperations (f : Frame V) : Bool :=
  match f.payload with
  | .operations _ => true
  | .epoch _ | .trim _ => false

/-- The code of a frame under a key, its hash, and the bytes of a payload. -/
structure Codec (V : Type) where
  mac : Digest → Payload V → ℕ → ℕ → Digest → Digest
  hash : Frame V → Digest
  payloadLength : Payload V → ℕ

def frameHeaderSize : ℕ := 60

def frameMACSize : ℕ := 32

def maxPayloadSize : ℕ := 8 * 2 ^ 20

/-- Where a file ends, and the sequence its head was cut at. -/
structure Head where
  epoch : ℕ := 0
  sequence : ℕ := 0
  hash : Digest := .zero
  trimmedThrough : ℕ := 0
  deriving DecidableEq

structure JournalFile (V : Type) where
  frames : List (Frame V)
  torn : Bool := false

section Chain

variable (k : Codec V) (key : Digest)

def encodeFrame (payload : Payload V) (epoch sequence : ℕ) (previous : Digest) : Frame V where
  payload := payload
  epoch := epoch
  sequence := sequence
  previous := previous
  mac := k.mac key payload epoch sequence previous

def frameSize (f : Frame V) : ℕ := frameHeaderSize + k.payloadLength f.payload + frameMACSize

/-- The operations of a frame are those a writer accepts. -/
def validateOps (ops : List (Op V)) : Except StoreError Unit := ops.forM Op.validate

def decodePayload : Payload V → Except StoreError Unit
  | .operations ops => if ops = [] then .error .emptyFrame else validateOps ops
  | .epoch _ | .trim _ => .ok ()

/-- Only the first frame opens a chain, and every other one follows the last. -/
def checkPlacement (head : Head) (first : Bool) (f : Frame V) : Except StoreError Unit :=
  match first, f.payload with
  | true, .epoch _ =>
    if f.sequence ≠ 0 then .error .epochSequence
    else if f.previous ≠ .zero then .error .opensChain
    else .ok ()
  | true, .trim _ => if f.previous ≠ .zero then .error .opensChain else .ok ()
  | true, .operations _ => .error .noHeader
  | false, .epoch _ => .error .misplacedFrame
  | false, .trim _ => .error .misplacedFrame
  | false, .operations _ =>
    if f.epoch ≠ head.epoch then .error (.frameEpoch f.epoch head.epoch)
    else if f.sequence ≠ head.sequence + 1 then .error (.frameSequence f.sequence head.sequence)
    else if f.previous ≠ head.hash then .error .brokenChain
    else .ok ()

/-- The head after a frame; an anchor puts it where the cut was. -/
def Head.after (head : Head) (f : Frame V) : Head :=
  match f.payload with
  | .trim anchor => ⟨f.epoch, anchor.trimmedThrough, anchor.chainHeadAtTrim, anchor.trimmedThrough⟩
  | .epoch _ | .operations _ => ⟨f.epoch, f.sequence, k.hash f, head.trimmedThrough⟩

def scanFrom : Head → Bool → List (Frame V) → Except StoreError Head
  | head, _, [] => .ok head
  | head, first, f :: frames =>
    if f.mac ≠ k.mac key f.payload f.epoch f.sequence f.previous then .error .invalidMAC
    else
      match decodePayload f.payload with
      | .error err => .error err
      | .ok () =>
        match checkPlacement head first f with
        | .error err => .error err
        | .ok () => scanFrom (head.after k f) false frames

/-- The head of a file and whether its last frame is torn. -/
def scan (file : JournalFile V) : Except StoreError (Head × Bool) :=
  if file.frames = [] ∧ ¬ file.torn then .error .noEpochHeader
  else
    match scanFrom k key {} true file.frames with
    | .error err => .error err
    | .ok head => .ok (head, file.torn)

/-- The frames `Replay` visits, and the head after them. -/
def replayFrames (file : JournalFile V) : Except StoreError (Head × List (Frame V)) :=
  match scan k key file with
  | .error err => .error err
  | .ok (head, torn) => if torn then .error .partialFrame else .ok (head, file.frames)

/-! ## Cutting off the head -/

/-- What a cut collects on its way through a file. -/
structure Cut (V : Type) where
  epoch : ℕ := 0
  chainHeadAtTrim : Digest := .zero
  trimmedFrames : ℕ := 0
  trimmedBytes : ℕ := 0
  dropped : List (Frame V) := []
  retained : List (Frame V) := []
  existing : Option TrimAnchor := none

def Cut.visit (through : ℕ) (c : Cut V) (f : Frame V) : Cut V :=
  match f.payload with
  | .epoch _ => { c with epoch := f.epoch, trimmedBytes := c.trimmedBytes + frameSize k f }
  | .trim anchor =>
    { c with
      epoch := f.epoch
      existing := some anchor
      chainHeadAtTrim := anchor.chainHeadAtTrim
      trimmedFrames := anchor.trimmedFrameCount
      trimmedBytes := c.trimmedBytes + anchor.trimmedByteCount + frameSize k f }
  | .operations _ =>
    if f.sequence ≤ through then
      { c with
        trimmedFrames := c.trimmedFrames + 1
        trimmedBytes := c.trimmedBytes + frameSize k f
        chainHeadAtTrim := k.hash f
        dropped := c.dropped ++ [f] }
    else { c with retained := c.retained ++ [f] }

/-- The anchor of a cut. -/
def Cut.anchor (through : ℕ) (c : Cut V) : TrimAnchor where
  epoch := c.epoch
  trimmedThrough := through
  chainHeadAtTrim := c.chainHeadAtTrim
  trimmedFrameCount := c.trimmedFrames
  trimmedByteCount := c.trimmedBytes
  retainedFromSeqMin := (c.retained.head?.map (·.sequence)).getD (through + 1)

/-- The file after a cut: the anchor and what is retained. -/
def Cut.file (through : ℕ) (c : Cut V) : JournalFile V where
  frames := encodeFrame k key (.trim (c.anchor through)) c.epoch through .zero :: c.retained

/-- What `Trim` does to a file: the cut it publishes, if there is one to make. -/
def planTrim (through : ℕ) (file : JournalFile V) : Except StoreError (Option (Cut V)) :=
  match replayFrames k key file with
  | .error err => .error err
  | .ok (head, frames) =>
    if through = 0 then .ok none
    else
      let cut := frames.foldl (Cut.visit k through) {}
      let trimmed := (cut.existing.map (·.trimmedThrough)).getD 0
      if through < trimmed then .error (.alreadyTrimmed trimmed through)
      else if through > head.sequence then .error (.trimBeyondEnd through head.sequence)
      else if cut.existing.isSome ∧ through = trimmed then .ok none
      else .ok (some cut)

end Chain

end Metadata

end Halro
