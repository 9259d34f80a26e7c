import Halro.Replication.Publisher

/-!
# The replica receiver (`internal/replication/receiver.go`)

The receiver takes the frames and commit notices of the Primary, and the promises and adoptions of
terms, one call at a time under its lock.  A frame is made durable in its native store, ordered in
the journal and published in the state file before it is acknowledged.  When one of these writes
fails the receiver refuses every further call until the member is restarted.

`Replica` is the receiver with what it writes to: the ordering journal, the publisher of the state
file and the frames the native stores hold.  The results of the writes are inputs of a call.
-/

namespace Halro

open Framework

namespace Replication

/-! ## Messages -/

structure Acknowledgement where
  clusterID : Bytes
  incarnation : Bytes
  nodeID : Bytes
  index : ℕ
  term : ℕ
  durableIndex : ℕ
  appliedIndex : ℕ
  deriving DecidableEq

inductive AckError
  | identity
  | position
  deriving DecidableEq

def AckError.message : AckError → String
  | .identity => "acknowledgement identities must be 1-64 bytes"
  | .position => "acknowledgement indexes or term are invalid"

def Acknowledgement.validate (a : Acknowledgement) : Except AckError Unit :=
  if ¬ ValidIdentity a.clusterID ∨ ¬ ValidIdentity a.incarnation ∨ ¬ ValidIdentity a.nodeID then
    .error .identity
  else if a.index = 0 ∨ a.term = 0 ∨ a.durableIndex ≠ a.index ∨ a.appliedIndex > a.durableIndex then
    .error .position
  else .ok ()

structure CommitNotice where
  clusterID : Bytes
  incarnation : Bytes
  nodeID : Bytes
  term : ℕ
  confirmedIndex : ℕ
  deriving DecidableEq

inductive NoticeError
  | identity
  | position
  deriving DecidableEq

def NoticeError.message : NoticeError → String
  | .identity => "commit notice identities must be 1-64 bytes"
  | .position => "commit notice term and confirmed index must be positive"

def CommitNotice.validate (n : CommitNotice) : Except NoticeError Unit :=
  if ¬ ValidIdentity n.clusterID ∨ ¬ ValidIdentity n.incarnation ∨ ¬ ValidIdentity n.nodeID then
    .error .identity
  else if n.term = 0 ∨ n.confirmedIndex = 0 then .error .position
  else .ok ()

/-! ## Errors -/

inductive ReceiverError
  | construction
  | projectionIndex
  | behindJournal
  | prefixes
  | cursors (error : OrderingError)
  | primaryIdentity
  | secondPrimary
  | poisoned
  | promisedTerm
  | adoption
  | adoptedTerm
  | frame (error : FrameError)
  | identity
  | belowPromise
  | inactiveTerm
  | confirmsUndurable
  | record (error : OrderingError)
  | differentBytes
  | index (found durable : ℕ)
  | missingAnchor
  | secondAnchor
  | storeStart (store : Store) (first : ℕ)
  | reseed (epoch found : ℕ)
  | storeGeneration (store : Store) (found cursor : ℕ)
  | storeSequence (store : Store) (found cursor : ℕ)
  | rollCursor
  | applied
  | projection
  | notice (error : NoticeError)
  | noticeBelowPromise
  | noticeIdentity
  | noticeUndurable
  | acknowledgement (error : AckError)
  -- The writes.
  | sink
  | ordering (error : OrderingError)
  | progressHead (journal durable : ℕ)
  | progress (error : PublishError)
  | promise (error : PublishError)
  | adopt (error : PublishError)
  deriving DecidableEq

/-- The error reports a write that failed. -/
def ReceiverError.isPersistence : ReceiverError → Bool
  | .sink | .ordering _ | .progressHead .. | .progress _ | .promise _ | .adopt _ => true
  | _ => false

def ReceiverError.message : ReceiverError → String
  | .construction => "replica receiver identity or term is invalid"
  | .projectionIndex => "replica projection index exceeds applied index"
  | .behindJournal => "replica receiver term is behind its ordering journal"
  | .prefixes => "replica receiver applied/confirmed indexes exceed their allowed prefixes"
  | .cursors err => "reconstruct replica ordering cursors: " ++ err.message
  | .primaryIdentity => "replica Primary identity is invalid"
  | .secondPrimary => "replica observed more than one Primary for the active term"
  | .poisoned => "replica receiver requires restart after uncertain persistence"
  | .promisedTerm => "proposed term must be greater than promised_term"
  | .adoption => "replica term adoption requires a Primary and persistence callback"
  | .adoptedTerm => "adopted term must equal the newer durable promise"
  | .frame err => err.message
  | .identity => "replication frame identity does not match this member"
  | .belowPromise => "replication frame term is below this member's durable promise"
  | .inactiveTerm => "replication frame term is not the active replica term"
  | .confirmsUndurable =>
      "replication frame confirms a prefix this member has not durably received"
  | .record err => err.message
  | .differentBytes => "replication index already has different frame bytes"
  | .index found durable => "replication frame index " ++ toString found ++
      " does not continue durable index " ++ toString durable
  | .missingAnchor => "replica term must begin with leadership_established"
  | .secondAnchor => "replica term already has a leadership anchor"
  | .storeStart store first => "replication store " ++ toString store.code ++
      " starts at sequence " ++ toString first ++ " without a seeded cursor"
  | .reseed epoch found => "member requires full reseed: metadata journal epoch changed from " ++
      toString epoch ++ " to " ++ toString found
  | .storeGeneration store found cursor => "replication store " ++ toString store.code ++
      " generation " ++ toString found ++ " does not continue generation " ++ toString cursor
  | .storeSequence store found cursor => "replication store " ++ toString store.code ++
      " sequence " ++ toString found ++ " does not continue " ++ toString cursor
  | .rollCursor => "ledger roll does not match the Replica ledger cursor"
  | .applied =>
      "replica applied index must advance monotonically within the confirmed prefix"
  | .projection =>
      "replica projection must match applied index and advance metadata monotonically"
  | .notice err => err.message
  | .noticeBelowPromise => "commit notice term is below this member's durable promise"
  | .noticeIdentity => "commit notice identity or term does not match the active Primary"
  | .noticeUndurable => "commit notice exceeds the Replica durable prefix"
  | .acknowledgement err => err.message
  | .sink => "persist replicated frame"
  | .ordering err => "persist replicated ordering record: " ++ err.message
  | .progressHead journal durable => "ordering head " ++ toString journal ++
      " does not match replica durable index " ++ toString durable
  | .progress err => "persist replica watermark: " ++ err.message
  | .promise err => "persist Replica promised term: " ++ err.message
  | .adopt err => "persist Replica active term: " ++ err.message

/-! ## The receiver -/

structure ReplicaReceiver where
  clusterID : Bytes
  incarnation : Bytes
  nodeID : Bytes
  primaryNodeID : Bytes := []
  term : ℕ
  promisedTerm : ℕ
  durableIndex : ℕ
  confirmedIndex : ℕ
  appliedIndex : ℕ
  projection : ProjectionState
  anchorSeen : Bool
  storeCursors : Cursors
  poisoned : Bool := false
  deriving DecidableEq

namespace ReplicaReceiver

/-- A receiver over an open journal, at the positions of the member state. -/
def new (state : MemberState) (primaryNodeID : Bytes) (journal : OrderingJournal) :
    Except ReceiverError ReplicaReceiver :=
  if ¬ ValidIdentity state.clusterID ∨ ¬ ValidIdentity state.incarnation ∨
      ¬ ValidIdentity state.nodeID ∨ primaryNodeID.length > maxIdentityBytes ∨
      primaryNodeID = state.nodeID ∨ state.term = 0 ∨ state.promisedTerm < state.term then
    .error .construction
  else if state.projection.index > state.appliedIndex then .error .projectionIndex
  else if journal.head.term > state.term ∨ journal.head.term > state.promisedTerm then
    .error .behindJournal
  else if state.appliedIndex > state.confirmedIndex ∨
      state.confirmedIndex > journal.head.index then
    .error .prefixes
  else
    match journal.storeCursors with
    | .error err => .error (.cursors err)
    | .ok cursors => .ok
        { clusterID := state.clusterID
          incarnation := state.incarnation
          nodeID := state.nodeID
          primaryNodeID := primaryNodeID
          term := state.term
          promisedTerm := state.promisedTerm
          durableIndex := journal.head.index
          confirmedIndex := state.confirmedIndex
          appliedIndex := state.appliedIndex
          projection := state.projection
          anchorSeen := decide (journal.head.term = state.term)
          storeCursors := cursors }

def acknowledgement (r : ReplicaReceiver) : Acknowledgement where
  clusterID := r.clusterID
  incarnation := r.incarnation
  nodeID := r.nodeID
  index := r.durableIndex
  term := r.term
  durableIndex := r.durableIndex
  appliedIndex := r.appliedIndex

/-- The checks every frame passes before its index is looked at. -/
def admits (r : ReplicaReceiver) (f : Frame) : Except ReceiverError Unit :=
  if f.clusterID ≠ r.clusterID ∨ f.incarnation ≠ r.incarnation then .error .identity
  else if f.term < r.promisedTerm then .error .belowPromise
  else if f.term ≠ r.term then .error .inactiveTerm
  else if f.confirmedIndex > r.durableIndex then .error .confirmsUndurable
  else .ok ()

/-- A data frame continues the position of its store. -/
def continuesStore (cursor : StoreCursor) (f : Frame) : Except ReceiverError Unit :=
  if cursor.generation = 0 then
    if f.storeSequenceFirst ≠ 1 then .error (.storeStart f.store f.storeSequenceFirst) else .ok ()
  else if f.storeGeneration ≠ cursor.generation then
    if f.store = .metadata then .error (.reseed cursor.generation f.storeGeneration)
    else .error (.storeGeneration f.store f.storeGeneration cursor.generation)
  else if f.storeSequenceFirst ≠ cursor.sequence + 1 then
    .error (.storeSequence f.store f.storeSequenceFirst cursor.sequence)
  else .ok ()

/-- A frame continues the native stores. -/
def continuesStores (cursors : Cursors) (f : Frame) : Except ReceiverError Unit :=
  match f.kind with
  | .data => continuesStore (cursors.get f.store) f
  | .ledgerRoll =>
    match decodeLedgerRollMetadata f.metadata with
    | .error err => .error (.frame err)
    | .ok roll =>
      if cursors.ledger.generation ≠ roll.generation ∨
          cursors.ledger.sequence ≠ roll.lastSequence then
        .error .rollCursor
      else .ok ()
  | _ => .ok ()

/-- The checks of a frame beyond the durable prefix. -/
def continues (r : ReplicaReceiver) (f : Frame) : Except ReceiverError Unit :=
  if f.index ≠ r.durableIndex + 1 then .error (.index f.index r.durableIndex)
  else if ¬ r.anchorSeen ∧ f.kind ≠ .leadershipEstablished then .error .missingAnchor
  else if r.anchorSeen ∧ f.kind = .leadershipEstablished then .error .secondAnchor
  else continuesStores r.storeCursors f

/-- The positions of the stores after a frame. -/
def cursorsAfter (cursors : Cursors) (f : Frame) : Cursors :=
  match f.kind with
  | .data => cursors.set f.store ⟨f.storeGeneration, f.storeSequenceLast⟩
  | .ledgerRoll =>
    match decodeLedgerRollMetadata f.metadata with
    | .error _ => cursors
    | .ok roll => cursors.set .ledger ⟨roll.generation + 1, roll.lastSequence⟩
  | _ => cursors

end ReplicaReceiver

/-! ## The member -/

/-- A Replica: its receiver, and what the receiver writes to. -/
structure Replica where
  receiver : ReplicaReceiver
  journal : OrderingJournal
  publisher : StatePublisher
  /-- The encoded frames that are durable in the native stores, in index order. -/
  frames : List Bytes := []

/-- The results of the writes of a received frame. -/
structure ReceiveIO where
  sink : Bool := true
  append : WriteResult := .synced
  state : StateWrite := .published

namespace Replica

/-- The member after a write failed. -/
def poison (s : Replica) : Replica := { s with receiver := { s.receiver with poisoned := true } }

def persistProgress (s : Replica) (durableIndex confirmedIndex appliedIndex : ℕ)
    (projection : ProjectionState) (head : Option Digest) (w : StateWrite) :
    Except ReceiverError Unit × Replica :=
  if head = none ∧ s.journal.head.index ≠ durableIndex then
    (.error (.progressHead s.journal.head.index durableIndex), s)
  else
    match s.publisher.publishReplica
        ⟨durableIndex, confirmedIndex, appliedIndex, head.getD s.journal.head.mac, projection⟩ w with
    | (.error err, publisher) => (.error (.progress err), { s with publisher := publisher })
    | (.ok _, publisher) => (.ok (), { s with publisher := publisher })

/-- A frame at an index that is already stored. -/
def receiveStored (s : Replica) (f : Frame) (digest : Digest) (w : StateWrite) :
    Except ReceiverError Acknowledgement × Replica :=
  match s.journal.record f.index with
  | .error err => (.error (.record err), s)
  | .ok record =>
    if record.frameDigest ≠ digest then (.error .differentBytes, s)
    else if f.index > s.receiver.confirmedIndex then
      -- The Primary recorded the frame before it sent it, so the stored copy makes the quorum.
      match s.persistProgress s.receiver.durableIndex f.index s.receiver.appliedIndex
          s.receiver.projection none w with
      | (.error err, s) => (.error err, s.poison)
      | (.ok _, s) =>
        let s := { s with receiver := { s.receiver with confirmedIndex := f.index } }
        (.ok s.receiver.acknowledgement, s)
    else (.ok s.receiver.acknowledgement, s)

section Receiving

variable (k : Crypto)

/-- A frame that continues the durable prefix: its store, the order, the state file. -/
def receiveNext (s : Replica) (encoded : Bytes) (f : Frame) (digest : Digest) (io : ReceiveIO) :
    Except ReceiverError Acknowledgement × Replica :=
  if ¬ io.sink then (.error .sink, s.poison)
  else
    let s := { s with frames := s.frames ++ [encoded] }
    match s.journal.append k (.ofFrame f digest) io.append with
    | (.error err, journal) => (.error (.ordering err), { s with journal := journal }.poison)
    | (.ok record, journal) =>
      match { s with journal := journal }.persistProgress f.index f.index s.receiver.appliedIndex
          s.receiver.projection (some record.mac) io.state with
      | (.error err, s) => (.error err, s.poison)
      | (.ok _, s) =>
        let s := { s with receiver :=
          { s.receiver with
            durableIndex := f.index
            confirmedIndex := f.index
            anchorSeen := s.receiver.anchorSeen || decide (f.kind = .leadershipEstablished)
            storeCursors := ReplicaReceiver.cursorsAfter s.receiver.storeCursors f } }
        (.ok s.receiver.acknowledgement, s)

def receive (s : Replica) (encoded : Bytes) (io : ReceiveIO) :
    Except ReceiverError Acknowledgement × Replica :=
  if s.receiver.poisoned then (.error .poisoned, s)
  else
    match unmarshalFrameAndDigest k.sha256 encoded with
    | .error err => (.error (.frame err), s)
    | .ok (f, digest) =>
      match s.receiver.admits f with
      | .error err => (.error err, s)
      | .ok _ =>
        if f.index ≤ s.receiver.durableIndex then s.receiveStored f digest io.state
        else
          match s.receiver.continues f with
          | .error err => (.error err, s)
          | .ok _ => s.receiveNext k encoded f digest io

end Receiving

def confirm (s : Replica) (notice : CommitNotice) (w : StateWrite) :
    Except ReceiverError Unit × Replica :=
  if s.receiver.poisoned then (.error .poisoned, s)
  else
    match notice.validate with
    | .error err => (.error (.notice err), s)
    | .ok _ =>
      if s.receiver.promisedTerm ≠ s.receiver.term then (.error .noticeBelowPromise, s)
      else if notice.clusterID ≠ s.receiver.clusterID ∨
          notice.incarnation ≠ s.receiver.incarnation ∨
          notice.nodeID ≠ s.receiver.primaryNodeID ∨ notice.term ≠ s.receiver.term then
        (.error .noticeIdentity, s)
      else if notice.confirmedIndex > s.receiver.durableIndex then (.error .noticeUndurable, s)
      else if notice.confirmedIndex > s.receiver.confirmedIndex then
        match s.persistProgress s.receiver.durableIndex notice.confirmedIndex
            s.receiver.appliedIndex s.receiver.projection none w with
        | (.error err, s) => (.error err, s.poison)
        | (.ok _, s) =>
          (.ok (), { s with receiver := { s.receiver with confirmedIndex := notice.confirmedIndex } })
      else (.ok (), s)

/-- Publishing derived-state progress.  `AdvanceApplied` calls it with a projection it has read
under the lock before. -/
def advanceAppliedWithProjection (s : Replica) (index : ℕ) (projection : ProjectionState)
    (w : StateWrite) : Except ReceiverError Unit × Replica :=
  if s.receiver.poisoned then (.error .poisoned, s)
  else if index < s.receiver.appliedIndex ∨ index > s.receiver.confirmedIndex then
    (.error .applied, s)
  else if projection.index ≠ index ∨ ¬ projection.NotBehind s.receiver.projection then
    (.error .projection, s)
  else if index = s.receiver.appliedIndex ∧ projection = s.receiver.projection then (.ok (), s)
  else
    match s.persistProgress s.receiver.durableIndex s.receiver.confirmedIndex index projection none
        w with
    | (.error err, s) => (.error err, s.poison)
    | (.ok _, s) =>
      (.ok (), { s with receiver :=
        { s.receiver with appliedIndex := index, projection := projection } })

section Terms

variable (c : LineCodec)

def promise (s : Replica) (term : ℕ) (io : TransitionIO) : Except ReceiverError Unit × Replica :=
  if s.receiver.poisoned then (.error .poisoned, s)
  else if term ≤ s.receiver.promisedTerm then (.error .promisedTerm, s)
  else
    match s.publisher.promise c term io with
    | (.error err, publisher) => (.error (.promise err), { s with publisher := publisher }.poison)
    | (.ok _, publisher) =>
      (.ok (), { s with publisher := publisher
                        receiver := { s.receiver with promisedTerm := term } })

def adoptTerm (s : Replica) (term : ℕ) (primaryNodeID : Bytes) (io : TransitionIO) :
    Except ReceiverError Unit × Replica :=
  if primaryNodeID = [] ∨ primaryNodeID = s.receiver.nodeID then (.error .adoption, s)
  else if s.receiver.poisoned then (.error .poisoned, s)
  else if term ≤ s.receiver.term ∨ term ≠ s.receiver.promisedTerm then (.error .adoptedTerm, s)
  else
    match s.publisher.adoptHigherTerm c term term io with
    | (.error err, publisher) => (.error (.adopt err), { s with publisher := publisher }.poison)
    | (.ok _, publisher) =>
      (.ok (), { s with publisher := publisher
                        receiver :=
                        { s.receiver with
                          term := term, primaryNodeID := primaryNodeID, anchorSeen := false } })

end Terms

def bindPrimary (s : Replica) (nodeID : Bytes) : Except ReceiverError Unit × Replica :=
  if ¬ ValidIdentity nodeID ∨ nodeID = s.receiver.nodeID then (.error .primaryIdentity, s)
  else if s.receiver.primaryNodeID = [] then
    (.ok (), { s with receiver := { s.receiver with primaryNodeID := nodeID } })
  else if s.receiver.primaryNodeID ≠ nodeID then (.error .secondPrimary, s)
  else (.ok (), s)

/-- The answer to a commit notice. -/
def acknowledge (s : Replica) : Except ReceiverError Acknowledgement :=
  if s.receiver.poisoned then .error .poisoned
  else
    match s.receiver.acknowledgement.validate with
    | .error err => .error (.acknowledgement err)
    | .ok _ => .ok s.receiver.acknowledgement

end Replica

end Replication

end Halro
