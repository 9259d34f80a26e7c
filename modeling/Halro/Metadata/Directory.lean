import Halro.Framework.Faults
import Halro.Metadata.Journal
import Halro.Metadata.Replay

/-!
# The metadata database and its journal (`internal/store/bolt/journal_entry.go`, `journal_attach.go`)

A data directory holds the database and the journal file.  An update runs its callbacks in a
transaction, appends what they recorded to the journal, and commits the transaction with the
sequence of the frame in it.  Attaching the journal to an opened store starts a new epoch, when
there is no journal or the opening migrated the database, and otherwise replays what the database
has not applied.  Trimming cuts off the frames the database has applied.

The calls are programs whose calls to the storage may fail or be the last one before the process
stops.  A commit is one call: a transaction is applied as a whole or not at all.  The frame of an
append is written in two calls, so that a stop or an error may leave a part of it in the file.
-/

namespace Halro

open Framework Framework.Program Replication

namespace Metadata

variable {V : Type}

/-! ## The directory -/

/-- The position in the journal that the database records in its bucket `meta`. -/
structure Position where
  epoch : Option ℕ := none
  sequence : Option ℕ := none
  deriving DecidableEq

structure Database (V : Type) where
  tree : Tree V
  position : Position := {}

/-- The journal of a running process.  A log with a terminal error appends nothing more. -/
structure Log where
  head : Head
  afterDurable : Bool := false
  terminal : Bool := false
  deriving DecidableEq

/-- An opened store: its journal once it is attached, and whether the opening migrated the
database. -/
structure Store where
  log : Option Log := none
  migrated : Bool := false
  deriving DecidableEq

/-- The files, the store if a process has it open, the database that the journal's epoch started
from, and the frames of the epoch that were cut off the file.  The last two are what the replication
coordinator was asked: the sequences it was given to order, whose index is their number, and the
indexes that were waited for. -/
structure Directory (V : Type) where
  database : Database V
  file : Option (JournalFile V) := none
  store : Option Store := none
  start : Tree V
  dropped : List (Frame V) := []
  ordered : List ℕ := []
  waited : List ℕ := []

abbrev StoreProgram (V : Type) := Program (Directory V) StoreError

namespace Directory

def setLog (log : Option Log) (s : Directory V) : Directory V :=
  { s with store := s.store.map fun store => { store with log := log } }

/-- An append after an error is refused. -/
def setTerminal (s : Directory V) : Directory V :=
  { s with
    store := s.store.map fun store =>
      { store with log := store.log.map fun log => { log with terminal := true } } }

def setTree (t : Tree V) (s : Directory V) : Directory V :=
  { s with database := { s.database with tree := t } }

/-- A transaction that puts a sequence beside what it wrote. -/
def setApplied (t : Tree V) (sequence : ℕ) (s : Directory V) : Directory V :=
  { s with database := ⟨t, { s.database.position with sequence := some sequence }⟩ }

def setPosition (epoch sequence : ℕ) (s : Directory V) : Directory V :=
  { s with database := { s.database with position := ⟨some epoch, some sequence⟩ } }

/-- A part of a frame is written. -/
def tear (s : Directory V) : Directory V :=
  { s with file := s.file.map fun f => { f with torn := true } }

/-- The rest of a frame is written. -/
def land (frame : Frame V) (s : Directory V) : Directory V :=
  { s with file := s.file.map fun f => ⟨f.frames ++ [frame], false⟩ }

def truncate (s : Directory V) : Directory V :=
  { s with file := s.file.map fun f => { f with torn := false } }

/-- The file of a new epoch takes the place of the old one. -/
def publishEpoch (frame : Frame V) (s : Directory V) : Directory V :=
  { s with file := some ⟨[frame], false⟩, start := s.database.tree, dropped := [] }

def publishCut (file : JournalFile V) (dropped : List (Frame V)) (s : Directory V) : Directory V :=
  { s with file := some file, dropped := s.dropped ++ dropped }

/-- The coordinator orders a durable frame. -/
def order (sequence : ℕ) (s : Directory V) : Directory V :=
  { s with ordered := s.ordered ++ [sequence] }

/-- The coordinator reports an index as confirmed. -/
def confirm (index : ℕ) (s : Directory V) : Directory V :=
  { s with waited := s.waited ++ [index] }

/-- The frames of the epoch that recorded a transaction, also those that were cut off. -/
def history (s : Directory V) : List (Frame V) :=
  s.dropped ++ (s.file.elim [] (·.frames)).filter (·.isOperations)

end Directory

open Directory

section Programs

variable (k : Codec V) (key : Digest) (rule : ConfirmationRule V)

/-! ## The journal file -/

/-- A file is written to a temporary one and renamed into its place. -/
def publish (effect : Directory V → Directory V) : StoreProgram V Unit := do
  call id .createJournal
  call id .writeJournal
  call id .syncJournal
  call id .closeJournal
  call effect .renameJournal
  call id .syncDirectory

/-- `Open`: a torn tail is cut off. -/
def openJournal : StoreProgram V Log := do
  call id .openJournal
  let s ← get
  match s.file with
  | none => fail .openJournal
  | some file =>
    let (head, torn) ← ofExcept (scan k key file)
    onlyIf torn (do
      call truncate .truncateJournal
      call id .syncRepaired)
    call id .seekJournal
    pure { head := head }

/-- Reading a file through, as `Replay` and `Verify` do. -/
def readJournal : StoreProgram V (Head × List (Frame V)) := do
  call id .openJournal
  let s ← get
  match s.file with
  | none => fail .openJournal
  | some file => ofExcept (replayFrames k key file)

/-- Writing the frame of an append. -/
def writeFrame (frame : Frame V) : StoreProgram V Unit := do
  call tear .append
  call (land frame) .append
  call id .sync

/-- The frame after a head. -/
def operationsFrame (head : Head) (ops : List (Op V)) : Frame V :=
  encodeFrame k key (.operations ops) head.epoch (head.sequence + 1) head.hash

/-- The sequence of a frame and the index it was ordered under, which is zero where the log has no
callback. -/
structure AppendReceipt where
  sequence : ℕ := 0
  replicationIndex : ℕ := 0
  deriving DecidableEq

/-- The callback on a durable frame; its answer is the index. -/
def recordDurable (log : Log) (sequence : ℕ) : StoreProgram V ℕ :=
  if log.afterDurable then do
    onError (call (order sequence) .durableCallback) (modify setTerminal)
    let s ← get
    pure s.ordered.length
  else pure 0

def appendWithReceipt (log : Log) (ops : List (Op V)) : StoreProgram V AppendReceipt := do
  failIf (ops = []) .recordsNothing
  ofExcept (validateOps ops)
  let bytes := k.payloadLength (.operations ops)
  failIf (bytes > maxPayloadSize) (.overFrameLimit bytes)
  failIf log.terminal .requiresRestart
  let frame := operationsFrame k key log.head ops
  onError (writeFrame frame) (modify setTerminal)
  modify (setLog (some { log with head := log.head.after k frame }))
  let index ← recordDurable log frame.sequence
  pure ⟨frame.sequence, index⟩

/-! ## Updates -/

/-- The end of a transaction that recorded something: the frame, and then the commit. -/
def commitRecorded (store : Store) (tx : Tx V) : StoreProgram V AppendReceipt := do
  match store.log with
  | none => fail .journalUnavailable
  | some log =>
    let receipt ← appendWithReceipt k key log tx.recorder.ops
    failIf (tx.tree.bucket [bucketMeta] = false) .metadataMissing
    call (setApplied tx.tree receipt.sequence) .commit
    pure receipt

/-- A transaction that recorded nothing is committed without a frame. -/
def commitTx (store : Store) (tx : Tx V) : StoreProgram V AppendReceipt :=
  if tx.recorder.ops = [] then do
    call (setTree tx.tree) .commit
    pure {}
  else commitRecorded k key store tx

/-- What a transaction leaves for its callers. -/
structure Committed where
  receipt : AppendReceipt := {}
  requiresConfirmation : Bool := false
  deriving DecidableEq

/-- `updateAll`; the answer is the receipt and whether it has to be confirmed, or which callback
failed the transaction. -/
def updateAll (callbacks : List (Callback V)) :
    StoreProgram V (Except (ℕ × StoreError) Committed) := do
  let s ← get
  match s.store with
  | none => fail .notOpen
  | some store =>
    if callbacks = [] then pure (.ok {})
    else
      call id .begin
      match runCallbacks rule 0 callbacks ⟨s.database.tree, {}⟩ with
      | .error failed => pure (.error failed)
      | .ok tx =>
        ofExcept tx.recorder.finish
        let receipt ← commitTx k key store tx
        pure (.ok ⟨receipt, tx.recorder.requiresConfirmation⟩)

/-- Waiting for the other members, when there is an index to wait for. -/
def waitConfirmed (committed : Committed) : StoreProgram V Unit := do
  let s ← get
  let attached := (s.store.bind (·.log)).isSome
  let index := committed.receipt.replicationIndex
  onlyIf (committed.requiresConfirmation && attached && index != 0) (call (confirm index) .confirmation)

/-- The end of an update that no callback failed. -/
def confirmUpdate :
    Except (ℕ × StoreError) Committed → StoreProgram V (Except (ℕ × StoreError) Unit)
  | .error failed => pure (.error failed)
  | .ok committed => do
    waitConfirmed committed
    pure (.ok ())

def update (c : Callback V) : StoreProgram V Unit := do
  let result ← updateAll k key rule [c]
  match ← confirmUpdate result with
  | .error (_, err) => fail err
  | .ok () => pure ()

/-- What the callers of a batch hear, each with its number. -/
abbrev Answers := List (ℕ × Except StoreError Unit)

/-- A caller whose callback fails is dropped, and the others are run again.  Every round answers
one caller or all of them. -/
def commitRounds : ℕ → List (ℕ × Callback V) → StoreProgram V Answers
  | 0, _ => pure []
  | n + 1, queued => do
    let result ← attempt (updateAll k key rule (queued.map (·.2)) >>= confirmUpdate)
    match result with
    | .ok (.ok ()) => pure (queued.map fun c => (c.1, .ok ()))
    | .ok (.error (index, err)) => do
      let rest ← commitRounds n (queued.eraseIdx index)
      pure ((queued[index]?.map fun c => (c.1, Except.error err)).toList ++ rest)
    | .error err => pure (queued.map fun c => (c.1, .error err))

def commitBatch (queued : List (ℕ × Callback V)) : StoreProgram V Answers :=
  commitRounds k key rule queued.length queued

/-! ## Attaching -/

structure JournalPosition where
  epoch : ℕ
  sequence : ℕ
  present : Bool
  deriving DecidableEq

def journalPosition (d : Database V) : Except StoreError JournalPosition :=
  if d.tree.bucket [bucketMeta] = false then .error .metadataMissing
  else .ok ⟨d.position.epoch.getD 0, d.position.sequence.getD 0,
    d.position.epoch.isSome && d.position.sequence.isSome⟩

/-- The chain head of the epoch that is replaced, where it can be read. -/
def previousChainHead (stored : JournalPosition) (file : Option (JournalFile V)) : Option Digest :=
  if stored.present then
    match file.map (replayFrames k key) with
    | some (.ok (head, _)) => if head.epoch = stored.epoch then some head.hash else none
    | _ => none
  else none

def epochFrame (header : EpochHeader) : Frame V :=
  encodeFrame k key (.epoch header) header.epoch 0 .zero

/-- A new journal whose starting point is the database as it is.  The file and the position are two
writes. -/
def startEpoch (stored : JournalPosition) (reason : String) : StoreProgram V Unit := do
  let s ← get
  let header : EpochHeader :=
    { epoch := stored.epoch + 1
      previousEpoch := stored.epoch
      previousChainHead := previousChainHead k key stored s.file
      reason := reason }
  failIf (reason = "") .epochReason
  let frame := epochFrame k key header
  publish (publishEpoch frame)
  call id .openJournal
  call id .seekJournal
  call (setPosition header.epoch 0) .commit
  modify (setLog (some { head := Head.after k {} frame }))

/-- The operations of the frames after a sequence. -/
def opsAfter (sequence : ℕ) (frames : List (Frame V)) : List (Op V) :=
  (frames.filter fun f => f.isOperations && decide (sequence < f.sequence)).flatMap Frame.ops

/-- The frames the database has not applied are applied in one transaction. -/
def replayJournal (stored : JournalPosition) (head : Head) : StoreProgram V Unit := do
  let (_, frames) ← readJournal k key
  let s ← get
  let tree ← ofExcept (s.database.tree.applyOps (opsAfter stored.sequence frames))
  failIf (tree.bucket [bucketMeta] = false) .metadataMissing
  call (setApplied tree head.sequence) .commit

def reconcileJournal (head : Head) (stored : JournalPosition) : StoreProgram V Unit :=
  if ¬ stored.present then fail .noPositionRecorded
  else if stored.epoch ≠ head.epoch then fail (.epochDiffers stored.epoch head.epoch)
  else if stored.sequence > head.sequence then fail (.projectionAhead stored.sequence head.sequence)
  else if stored.sequence = head.sequence then pure ()
  else if head.trimmedThrough > stored.sequence then
    fail (.trimmedPast stored.sequence head.trimmedThrough)
  else replayJournal k key stored head

/-- Going on with the epoch of the file. -/
def continueEpoch (stored : JournalPosition) : StoreProgram V Unit := do
  let log ← openJournal k key
  reconcileJournal k key log.head stored
  modify (setLog (some log))

def attachMetadataJournal (reason : String) : StoreProgram V Unit := do
  let s ← get
  match s.store with
  | none => fail .notOpen
  | some store =>
    if store.log.isSome then fail .alreadyAttached
    else
      let stored ← ofExcept (journalPosition s.database)
      call id .stat
      if s.file.isNone || store.migrated then startEpoch k key stored reason
      else continueEpoch k key stored

/-! ## Trimming -/

/-- `Trim` on the closed file. -/
def trimJournal (through : ℕ) : StoreProgram V Unit := do
  call id .openJournal
  let s ← get
  match s.file with
  | none => fail .openJournal
  | some file =>
    let plan ← ofExcept (planTrim k key through file)
    match plan with
    | none => pure ()
    | some cut =>
      publish (publishCut (cut.file k key through) cut.dropped)
      let _ ← readJournal k key
      pure ()

/-- The log is closed, the file is cut, and the log is opened again, without the callback and the
terminal error it had. -/
def trimMetadataJournal (through : ℕ) : StoreProgram V Unit := do
  let s ← get
  match s.store.bind (·.log) with
  | none => fail .journalUnavailable
  | some _ =>
    let applied ← ofExcept (journalPosition s.database)
    failIf (through > applied.sequence) (.trimBeyondApplied through applied.sequence)
    onError (call id .closeJournal) (modify setTerminal)
    modify (setLog none)
    trimJournal k key through
    let log ← openJournal k key
    modify (setLog (some log))

/-! ## Opening -/

/-- A migration rewrites the database as a whole and keeps its layout. -/
structure Migration (V : Type) where
  up : Tree V → Tree V
  plain : ∀ t, t.Plain → (up t).Plain

/-- `Open`: the migrations the database still needs are one transaction. -/
def openStore (migration : Option (Migration V)) : StoreProgram V Unit := do
  let s ← get
  failIf s.store.isSome .alreadyOpen
  call id .openMetadata
  match migration with
  | none => modify fun s => { s with store := some {} }
  | some m =>
    call (setTree (m.up s.database.tree)) .commit
    modify fun s => { s with store := some { migrated := true } }

/-- The HA runtime's callback is installed on an attached log. -/
def setAfterDurable : StoreProgram V Unit := do
  let s ← get
  match s.store.bind (·.log) with
  | none => fail .journalUnavailable
  | some log => modify (setLog (some { log with afterDurable := true }))

/-! ## Runs -/

inductive StoreEvent (V : Type)
  | openStore (migration : Option (Migration V)) (faults : List Fault)
  | attach (reason : String) (faults : List Fault)
  | setAfterDurable
  | update (c : Callback V) (faults : List Fault)
  | batch (queued : List (ℕ × Callback V)) (faults : List Fault)
  | trim (through : ℕ) (faults : List Fault)
  | close

/-- The directory without the process. -/
def Directory.stopped (s : Directory V) : Directory V := { s with store := none }

/-- What a run of a program leaves; a stop leaves only the files. -/
def after {A : Type} (r : Finished (Directory V) StoreError A) : Directory V :=
  match r.ended with
  | .stopped => r.state.stopped
  | .returned _ | .failed _ => r.state

/-- One call, or the end of the process, which closing the store is as well. -/
def step (s : Directory V) : StoreEvent V → Directory V
  | .openStore migration faults => after (openStore migration s faults)
  | .attach reason faults => after (attachMetadataJournal k key reason s faults)
  | .setAfterDurable => after (Metadata.setAfterDurable s [])
  | .update c faults => after (update k key rule c s faults)
  | .batch queued faults => after (commitBatch k key rule queued s faults)
  | .trim through faults => after (trimMetadataJournal k key through s faults)
  | .close => s.stopped

end Programs

end Metadata

end Halro
