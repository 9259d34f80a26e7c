import Halro.Replication.Tracker

/-!
# The primary coordinator (`internal/replication/primary.go`)

The coordinator of a Primary gives every durable frame its index in the global order and waits for a
peer to have it.  `RecordDurable` orders a frame, publishes the durable index and keeps the bytes of
the frame; `Acknowledge` confirms what a peer has, publishes the confirmed index with the metadata
projection at it, and drops the bytes; `WaitConfirmed` tells a store commit when its index is
confirmed.

`Primary` is the coordinator with the journal and the publisher it writes to.  The results of the
writes, and whether the outbound queue takes a record, are inputs of a call.  Telemetry and the ring
of availability transitions are left out.
-/

namespace Halro

open Framework

namespace Replication

structure LocalCommit where
  index : ℕ
  encoded : Bytes
  replicationAvailable : Bool := true
  deriving DecidableEq

/-! ## Errors -/

inductive ProjectionError
  | record (error : OrderingError)
  | metadataStart (first : ℕ)
  | metadataRange
  deriving DecidableEq

def ProjectionError.message : ProjectionError → String
  | .record err => err.message
  | .metadataStart first => "ordering metadata begins at sequence " ++ toString first
  | .metadataRange => "ordering metadata range does not continue its confirmed cursor"

/-- Why replication is unavailable, or why the coordinator has to be restarted. -/
inductive Cause
  | frameQueue
  | noticeQueue
  | notice (error : NoticeError)
  | manual (text : String)
  | register (error : TrackerError)
  | state (error : PublishError)
  | projection (error : ProjectionError)
  deriving DecidableEq

def Cause.message : Cause → String
  | .frameQueue => "queue replication frame"
  | .noticeQueue => "queue commit notice"
  | .notice err => err.message
  | .manual text => text
  | .register err => err.message
  | .state err => err.message
  | .projection err => err.message

inductive PrimaryError
  | nodeIdentity
  | beyondHead (confirmed head : ℕ)
  | behindJournal
  | confirmedRecord (error : OrderingError)
  | tracker (error : TrackerError)
  | cursors (error : OrderingError)
  | suffixCount (expected found : ℕ)
  | suffixIndex (found last : ℕ)
  | suffixFrame (index : ℕ) (error : FrameError)
  | suffixRecord (error : OrderingError)
  | suffixMismatch (index : ℕ)
  | suffixRegister (index : ℕ) (error : TrackerError)
  | recoveredState (error : PublishError)
  | poisoned (cause : Cause)
  | unavailable (cause : Option Cause)
  | frame (error : FrameError)
  | ordering (error : OrderingError)
  | register (error : TrackerError)
  | durableState (error : PublishError)
  | projection (error : ProjectionError)
  | confirmedState (error : PublishError)
  | stepdown (expected head confirmed : ℕ)
  | queue (cause : Cause)
  deriving DecidableEq

def PrimaryError.message : PrimaryError → String
  | .nodeIdentity => "primary coordinator node identity is invalid"
  | .beyondHead confirmed head => "primary coordinator confirmed index " ++ toString confirmed ++
      " exceeds ordering head " ++ toString head
  | .behindJournal => "primary coordinator term is behind its ordering journal"
  | .confirmedRecord err => "read confirmed ordering record: " ++ err.message
  | .tracker err => err.message
  | .cursors err => "reconstruct confirmed primary projection: " ++ err.message
  | .suffixCount expected found => "primary coordinator needs " ++ toString expected ++
      " recovered suffix frames, got " ++ toString found
  | .suffixIndex found last => "recovered frame index " ++ toString found ++
      " does not continue " ++ toString last
  | .suffixFrame index err => "decode recovered frame " ++ toString index ++ ": " ++ err.message
  | .suffixRecord err => err.message
  | .suffixMismatch index => "recovered frame " ++ toString index ++
      " does not match its authenticated ordering record"
  | .suffixRegister index err => "register recovered frame " ++ toString index ++ ": " ++ err.message
  | .recoveredState err => "persist recovered primary member state: " ++ err.message
  | .poisoned cause =>
      "primary coordinator requires restart after an uncertain durable transition: " ++ cause.message
  | .unavailable none => "replication unavailable: <nil>"
  | .unavailable (some cause) => "replication unavailable: " ++ cause.message
  | .frame err => err.message
  | .ordering err => err.message
  | .register err => "register durable frame: " ++ err.message
  | .durableState err => "persist primary durable watermark: " ++ err.message
  | .projection err => "reconstruct confirmed primary projection: " ++ err.message
  | .confirmedState err => "persist confirmed member state: " ++ err.message
  | .stepdown expected head confirmed => "planned stepdown target index " ++ toString expected ++
      " does not match Primary durable/confirmed prefix " ++ toString head ++ "/" ++
      toString confirmed
  | .queue cause => cause.message

/-! ## The metadata projection -/

/-- The projection after one more confirmed record. -/
def ProjectionState.advance (p : ProjectionState) (r : OrderingRecord) :
    Except ProjectionError ProjectionState :=
  if r.kind ≠ .data ∨ r.store ≠ .metadata then .ok p
  else if p.metadataEpoch = 0 ∧ r.storeSequenceFirst ≠ 1 then
    .error (.metadataStart r.storeSequenceFirst)
  else if p.metadataEpoch ≠ 0 ∧ (p.metadataEpoch ≠ r.storeGeneration ∨
      p.metadataSequence + 1 ≠ r.storeSequenceFirst) then
    .error .metadataRange
  else .ok { p with metadataEpoch := r.storeGeneration, metadataSequence := r.storeSequenceLast }

/-- The projection after the records at a list of indexes. -/
def ProjectionState.through (p : ProjectionState) (j : OrderingJournal) :
    List ℕ → Except ProjectionError ProjectionState
  | [] => .ok p
  | index :: rest =>
    match j.record index with
    | .error err => .error (.record err)
    | .ok r =>
      match p.advance r with
      | .error err => .error err
      | .ok next => next.through j rest

/-- The projection at an index, from the store positions there. -/
def ProjectionState.ofCursors (index : ℕ) (cursors : Cursors) : ProjectionState :=
  ⟨index, cursors.metadata.generation, cursors.metadata.sequence⟩

/-! ## The coordinator -/

structure PrimaryCoordinator where
  clusterID : Bytes
  incarnation : Bytes
  nodeID : Bytes
  term : ℕ
  confirmations : ConfirmationTracker
  confirmed : ℕ
  projection : ProjectionState
  available : Bool := true
  unavailable : Option Cause := none
  /-- The bytes of the frames that are not confirmed. -/
  pending : FinMap ℕ Bytes := ∅
  /-- The latest commit notice, until every peer has applied its index. -/
  pendingNotice : Option CommitNotice := none
  failedFrameIndex : ℕ := 0
  peerApplied : FinMap Bytes ℕ
  noticeUnavailable : Bool := false
  manualUnavailable : Option Cause := none
  poisoned : Option Cause := none

namespace PrimaryCoordinator

def noteFrameQueueFailure (c : PrimaryCoordinator) (index : ℕ) : PrimaryCoordinator :=
  { c with
    failedFrameIndex := if index > c.failedFrameIndex then index else c.failedFrameIndex
    available := false
    unavailable := some .frameQueue }

/-- The next commit notice takes the place of the latest one, and is queued. -/
def queueCommitNotice (c : PrimaryCoordinator) (confirmed : ℕ) (queued : Bool) :
    Except Cause Unit × PrimaryCoordinator :=
  let notice : CommitNotice := ⟨c.clusterID, c.incarnation, c.nodeID, c.term, confirmed⟩
  match notice.validate with
  | .error err => (.error (.notice err), c)
  | .ok _ =>
    let c := { c with pendingNotice := some notice }
    if queued then (.ok (), c) else (.error .noticeQueue, c)

def refreshAvailability (c : PrimaryCoordinator) : PrimaryCoordinator :=
  if c.failedFrameIndex = 0 ∧ c.noticeUnavailable = false ∧ c.manualUnavailable = none ∧
      c.poisoned = none then
    { c with available := true, unavailable := none }
  else { c with available := false }

def allPeersApplied (c : PrimaryCoordinator) (index : ℕ) : Prop :=
  c.peerApplied.Every (index ≤ ·)

instance (c : PrimaryCoordinator) (index : ℕ) : Decidable (c.allPeersApplied index) :=
  inferInstanceAs (Decidable (FinMap.Every _ _))

/-- The projection at a newly confirmed index, from the records above the confirmed one. -/
def projectionThrough (c : PrimaryCoordinator) (j : OrderingJournal) (confirmed : ℕ) :
    Except ProjectionError ProjectionState :=
  (c.projection.through j (List.range' (c.confirmed + 1) (confirmed - c.confirmed))).map
    fun p => { p with index := confirmed }

/-- The coordinator after a durable transition whose outcome is not known. -/
def fail (c : PrimaryCoordinator) (cause : Cause) : PrimaryCoordinator :=
  { c with poisoned := some cause, available := false, unavailable := some cause }

/-- Why the coordinator takes neither frames nor acknowledgements. -/
def blocked (c : PrimaryCoordinator) : Option PrimaryError :=
  match c.poisoned with
  | some cause => some (.poisoned cause)
  | none => c.manualUnavailable.map fun cause => .unavailable (some cause)

lemma blocked_eq_none {c : PrimaryCoordinator} :
    c.blocked = none ↔ c.poisoned = none ∧ c.manualUnavailable = none := by
  rcases hpois : c.poisoned with _ | cause <;> simp [blocked, hpois]

/-- A frame with the position the coordinator gives it. -/
def stamp (c : PrimaryCoordinator) (head : ℕ) (f : Frame) : Frame :=
  { f with
    index := head + 1
    term := c.term
    confirmedIndex := c.confirmed
    clusterID := c.clusterID
    incarnation := c.incarnation }

/-- The applied index a peer reports. -/
def noteApplied (c : PrimaryCoordinator) (ack : Acknowledgement) : PrimaryCoordinator :=
  if ack.appliedIndex > FinMap.getD c.peerApplied ack.nodeID 0 then
    { c with peerApplied := c.peerApplied.insert ack.nodeID ack.appliedIndex }
  else c

/-- A notice that every peer has applied is dropped. -/
def dropAppliedNotice (c : PrimaryCoordinator) : PrimaryCoordinator :=
  match c.pendingNotice with
  | none => c
  | some notice =>
    if c.allPeersApplied notice.confirmedIndex then
      { c with pendingNotice := none, noticeUnavailable := false }
    else c

/-- The bytes of confirmed frames are dropped. -/
def confirmThrough (c : PrimaryCoordinator) (confirmed : ℕ) : PrimaryCoordinator :=
  { c with confirmed := confirmed, pending := c.pending.eraseAll (List.range (confirmed + 1)) }

def clearFailedFrame (c : PrimaryCoordinator) : PrimaryCoordinator :=
  if c.failedFrameIndex > 0 ∧ c.confirmed ≥ c.failedFrameIndex then { c with failedFrameIndex := 0 }
  else c

/-- The notice of a newly confirmed index. -/
def announce (c : PrimaryCoordinator) (queued : Bool) : PrimaryCoordinator :=
  match c.queueCommitNotice c.confirmed queued with
  | (.error err, c) => { c with noticeUnavailable := true, unavailable := some err }
  | (.ok _, c) => { c with noticeUnavailable := false }

/-- What an acknowledgement that the tracker accepted leaves, once its confirmed index is
published. -/
def acknowledged (c : PrimaryCoordinator) (ack : Acknowledgement) (confirmed : ℕ)
    (queued : Bool) : PrimaryCoordinator :=
  let settled := ((c.noteApplied ack).dropAppliedNotice.confirmThrough confirmed).clearFailedFrame
  (if confirmed ≠ c.confirmed then settled.announce queued else settled).refreshAvailability

end PrimaryCoordinator

/-! ## The member -/

/-- A Primary: its coordinator, and what the coordinator writes to. -/
structure Primary where
  coordinator : PrimaryCoordinator
  journal : OrderingJournal
  publisher : StatePublisher

/-- The results of the writes of a recorded frame. -/
structure RecordIO where
  append : WriteResult := .synced
  state : StateWrite := .published
  queued : Bool := true

/-- The results of the writes of an acknowledgement. -/
structure AckIO where
  state : StateWrite := .published
  queued : Bool := true

/-- Which frames the outbound queue takes, and whether it takes the notice. -/
structure RetryIO where
  frames : ℕ → Bool := fun _ => true
  notice : Bool := true

namespace Primary

section Recording

variable (k : Crypto)

def recordDurable (s : Primary) (f : Frame) (io : RecordIO) :
    Except PrimaryError LocalCommit × Primary :=
  let c := s.coordinator
  match c.blocked with
  | some err => (.error err, s)
  | none =>
    let f := c.stamp s.journal.head.index f
    match f.marshalBinaryAndDigest k.sha256 with
    | .error err => (.error (.frame err), s)
    | .ok (encoded, digest) =>
      match s.journal.append k (.ofFrame f digest) io.append with
      | (.error err, journal) => (.error (.ordering err), { s with journal := journal })
      | (.ok record, journal) =>
        let s := { s with journal := journal }
        match c.confirmations.register f with
        | .error err =>
          (.error (.register err),
            { s with coordinator := { c with poisoned := some (.register err) } })
        | .ok confirmations =>
          let c := { c with confirmations := confirmations }
          match s.publisher.publishPrimary ⟨f.index, c.confirmed, record.mac, c.projection⟩ io.state with
          | (.error err, publisher) =>
            (.error (.durableState err),
              { s with publisher := publisher, coordinator := c.fail (.state err) })
          | (.ok _, publisher) =>
            let c := { c with pending := c.pending.insert f.index encoded }
            let s := { s with publisher := publisher }
            if io.queued then (.ok ⟨f.index, encoded, c.available⟩, { s with coordinator := c })
            else
              (.ok ⟨f.index, encoded, false⟩,
                { s with coordinator := c.noteFrameQueueFailure f.index })

end Recording

def acknowledge (s : Primary) (ack : Acknowledgement) (io : AckIO) :
    Except PrimaryError ℕ × Primary :=
  let c := s.coordinator
  match c.blocked with
  | some err => (.error err, s)
  | none =>
    match c.confirmations.acknowledge ack with
    | (.error err, confirmations) =>
      (.error (.tracker err), { s with coordinator := { c with confirmations := confirmations } })
    | (.ok confirmed, confirmations) =>
      let c := { c with confirmations := confirmations }
      if confirmed ≠ c.confirmed then
        match c.projectionThrough s.journal confirmed with
        | .error err => (.error (.projection err), { s with coordinator := c.fail (.projection err) })
        | .ok projection =>
          match s.publisher.publishPrimary
              ⟨s.journal.head.index, confirmed, s.journal.head.mac, projection⟩ io.state with
          | (.error err, publisher) =>
            (.error (.confirmedState err),
              { s with publisher := publisher, coordinator := c.fail (.state err) })
          | (.ok _, publisher) =>
            let c := { c with projection := projection }
            (.ok confirmed,
              { s with publisher := publisher
                       coordinator := c.acknowledged ack confirmed io.queued })
      else (.ok confirmed, { s with coordinator := c.acknowledged ack confirmed io.queued })

def markUnavailable (s : Primary) (text : String) : Primary :=
  { s with coordinator :=
    { s.coordinator with
      available := false
      manualUnavailable := some (.manual text)
      unavailable := some (.manual text) } }

def freezeForStepdown (s : Primary) (expectedIndex : ℕ) : Except PrimaryError Unit × Primary :=
  match s.coordinator.poisoned with
  | some cause => (.error (.poisoned cause), s)
  | none =>
    if s.journal.head.index ≠ expectedIndex ∨ s.coordinator.confirmed ≠ expectedIndex then
      (.error (.stepdown expectedIndex s.journal.head.index s.coordinator.confirmed), s)
    else (.ok (), s.markUnavailable "planned stepdown frozen")

/-- Queueing the pending frames from an index on, as long as they follow each other.  There are as
many rounds as there are pending frames. -/
def retryFrames (io : RetryIO) : ℕ → ℕ → PrimaryCoordinator →
    Except PrimaryError Unit × PrimaryCoordinator
  | 0, _, c => (.ok (), c)
  | rounds + 1, index, c =>
    match c.pending.lookup index with
    | none => (.ok (), c)
    | some _ =>
      if io.frames index then retryFrames io rounds (index + 1) c
      else (.error (.queue .frameQueue), c.noteFrameQueueFailure index)

def retryPending (s : Primary) (io : RetryIO) : Except PrimaryError Unit × Primary :=
  let c := s.coordinator
  match retryFrames io c.pending.size (c.confirmed + 1) c with
  | (.error err, c) => (.error err, { s with coordinator := c })
  | (.ok _, c) =>
    let c := { c with failedFrameIndex := 0 }
    match c.pendingNotice with
    | none => (.ok (), { s with coordinator := c.refreshAvailability })
    | some _ =>
      if io.notice then
        (.ok (), { s with coordinator := { c with noticeUnavailable := false }.refreshAvailability })
      else
        (.error (.queue .noticeQueue),
          { s with coordinator :=
            { c with noticeUnavailable := true
                     unavailable := some .noticeQueue }.refreshAvailability })

/-- What a waiter finds each time it looks. -/
inductive Waited
  | confirmed
  | asleep
  deriving DecidableEq

def waitConfirmed (s : Primary) (index : ℕ) : Except PrimaryError Waited :=
  if index ≤ s.coordinator.confirmed then .ok .confirmed
  else if s.coordinator.available = false then .error (.unavailable s.coordinator.unavailable)
  else .ok .asleep

end Primary

/-! ## Construction -/

namespace PrimaryCoordinator

/-- Which recovered frames and notice the outbound queue takes when the coordinator is made, and the
result of publishing the state. -/
structure NewIO where
  state : StateWrite := .published
  frames : ℕ → Bool := fun _ => true
  notice : Bool := true

/-- The frame of a recovered commit is the one its ordering record orders. -/
def Matches (f : Frame) (digest : Digest) (record : OrderingRecord) : Prop :=
  record.term = f.term ∧ record.confirmedIndex = f.confirmedIndex ∧ record.metadata = f.metadata ∧
    record.frameDigest = digest ∧ record.kind = f.kind ∧ record.store = f.store ∧
    record.storeGeneration = f.storeGeneration ∧
    record.storeSequenceFirst = f.storeSequenceFirst ∧
    record.storeSequenceLast = f.storeSequenceLast

instance (f : Frame) (digest : Digest) (record : OrderingRecord) :
    Decidable (Matches f digest record) := inferInstanceAs (Decidable (_ ∧ _))

section Construction

variable (k : Crypto)

/-- Entering one recovered commit. -/
def recover (c : PrimaryCoordinator) (j : OrderingJournal) (expectedIndex : ℕ)
    (commit : LocalCommit) : Except PrimaryError PrimaryCoordinator :=
  if commit.index ≠ expectedIndex then .error (.suffixIndex commit.index (expectedIndex - 1))
  else
    match unmarshalFrameAndDigest k.sha256 commit.encoded with
    | .error err => .error (.suffixFrame commit.index err)
    | .ok (f, digest) =>
      match j.record expectedIndex with
      | .error err => .error (.suffixRecord err)
      | .ok record =>
        if f.index ≠ expectedIndex ∨ f.clusterID ≠ c.clusterID ∨ f.incarnation ≠ c.incarnation ∨
            f.term ≠ c.term ∨ ¬ Matches f digest record then
          .error (.suffixMismatch expectedIndex)
        else
          match c.confirmations.register f with
          | .error err => .error (.suffixRegister expectedIndex err)
          | .ok confirmations =>
            .ok { c with confirmations := confirmations
                         pending := c.pending.insert expectedIndex commit.encoded }

/-- Entering the recovered commits from an index on. -/
def recoverAll (j : OrderingJournal) :
    ℕ → List LocalCommit → PrimaryCoordinator → Except PrimaryError PrimaryCoordinator
  | _, [], c => .ok c
  | expectedIndex, commit :: rest, c =>
    match c.recover k j expectedIndex commit with
    | .error err => .error err
    | .ok c => recoverAll j (expectedIndex + 1) rest c

/-- Queueing the recovered frames: a frame the queue does not take makes replication unavailable. -/
def queueRecovered (c : PrimaryCoordinator) (io : NewIO) (recovered : List LocalCommit) :
    PrimaryCoordinator :=
  recovered.foldl
    (fun c commit => if io.frames commit.index then c else c.noteFrameQueueFailure commit.index) c

/-- The commit notice of the confirmed prefix, when the prefix reaches into the term. -/
def queueEstablished (c : PrimaryCoordinator) (established : Bool) (io : NewIO) :
    PrimaryCoordinator :=
  if c.confirmed > 0 ∧ established then
    match c.queueCommitNotice c.confirmed io.notice with
    | (.error err, c) =>
      { c with noticeUnavailable := true, unavailable := some err, available := false }
    | (.ok _, c) => c
  else c

/-- The confirmed record, if there is one, is of the term. -/
def established (j : OrderingJournal) (term confirmed : ℕ) : Except PrimaryError Bool :=
  if confirmed = 0 then .ok false
  else
    match j.record confirmed with
    | .error err => .error (.confirmedRecord err)
    | .ok record => .ok (decide (record.term = term))

/-- The coordinator before its recovered suffix. -/
def fresh (clusterID incarnation nodeID : Bytes) (term confirmed : ℕ) (peers : List Bytes)
    (j : OrderingJournal) : Except PrimaryError (PrimaryCoordinator × Bool) :=
  if ¬ ValidIdentity nodeID then .error .nodeIdentity
  else if j.head.index < confirmed then .error (.beyondHead confirmed j.head.index)
  else if j.head.term > term then .error .behindJournal
  else
    match established j term confirmed with
    | .error err => .error err
    | .ok termEstablished =>
      match ConfirmationTracker.new clusterID incarnation term confirmed peers termEstablished with
      | .error err => .error (.tracker err)
      | .ok confirmations =>
        match j.storeCursorsThrough confirmed with
        | .error err => .error (.cursors err)
        | .ok cursors =>
          .ok
            ({ clusterID := clusterID
               incarnation := incarnation
               nodeID := nodeID
               term := term
               confirmations := confirmations
               confirmed := confirmed
               projection := .ofCursors confirmed cursors
               peerApplied := peers.foldl (fun m peer => m.insert peer 0) ∅ }, termEstablished)

/-- A coordinator over an open journal, with the exact frames of the suffix above the confirmed
index.  The recovered state is published before anything is queued. -/
def new (clusterID incarnation nodeID : Bytes) (term confirmed : ℕ) (peers : List Bytes)
    (j : OrderingJournal) (p : StatePublisher) (recovered : List LocalCommit) (io : NewIO) :
    Except PrimaryError PrimaryCoordinator × StatePublisher :=
  match fresh clusterID incarnation nodeID term confirmed peers j with
  | .error err => (.error err, p)
  | .ok (c, termEstablished) =>
    if recovered.length ≠ j.head.index - confirmed then
      (.error (.suffixCount (j.head.index - confirmed) recovered.length), p)
    else
      match recoverAll k j (confirmed + 1) recovered c with
      | .error err => (.error err, p)
      | .ok c =>
        match p.publishPrimary ⟨j.head.index, confirmed, j.head.mac, c.projection⟩ io.state with
        | (.error err, p) => (.error (.recoveredState err), p)
        | (.ok _, p) =>
          (.ok ((c.queueRecovered io recovered).queueEstablished termEstablished io), p)

end Construction

end PrimaryCoordinator

end Replication

end Halro
