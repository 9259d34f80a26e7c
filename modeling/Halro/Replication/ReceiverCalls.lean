import Halro.Replication.Receiver

/-!
# What one call of the replica receiver does

A member serves its calls one at a time.  `Called` lists everything a call can do: refuse and change
nothing, fail in a write and poison the receiver, or succeed in one of the ways the entry points
have.  It is proved once, from the definitions (`called`); the results about whole runs in
`ReceiverSafety.lean` are case analyses over it.
-/

namespace Halro

open Framework Replication.StatePublisher Replication.ReplicaReceiver

namespace Replication

namespace Replica

/-! ## Calls -/

inductive Call
  | receive (encoded : Bytes) (io : ReceiveIO)
  | confirm (notice : CommitNotice) (write : StateWrite)
  | promise (term : ℕ) (io : TransitionIO)
  | adoptTerm (term : ℕ) (primaryNodeID : Bytes) (io : TransitionIO)
  | advanceApplied (index : ℕ) (projection : ProjectionState) (write : StateWrite)
  | bindPrimary (nodeID : Bytes)
  | acknowledge

/-- The answer to a call: an error, or success with an acknowledgement where the call gives one. -/
abbrev Answer := Except ReceiverError (Option Acknowledgement)

variable (k : Crypto) (c : LineCodec)

/-- A call: its answer, and the member after it. -/
def call (s : Replica) : Call → Answer × Replica
  | .receive encoded io => ((s.receive k encoded io).1.map some, (s.receive k encoded io).2)
  | .confirm notice w => ((s.confirm notice w).1.map fun _ => none, (s.confirm notice w).2)
  | .promise term io => ((s.promise c term io).1.map fun _ => none, (s.promise c term io).2)
  | .adoptTerm term primaryNodeID io =>
    ((s.adoptTerm c term primaryNodeID io).1.map fun _ => none, (s.adoptTerm c term primaryNodeID io).2)
  | .advanceApplied index projection w =>
    ((s.advanceAppliedWithProjection index projection w).1.map fun _ => none,
      (s.advanceAppliedWithProjection index projection w).2)
  | .bindPrimary nodeID => ((s.bindPrimary nodeID).1.map fun _ => none, (s.bindPrimary nodeID).2)
  | .acknowledge => (s.acknowledge.map some, s)

/-- The member after a call. -/
def after (s : Replica) (call : Call) : Replica := (s.call k c call).2

/-- The member after a list of calls. -/
def run (s : Replica) (calls : List Call) : Replica := calls.foldl (after k c) s

variable {k c}

/-! ## Writing progress -/

/-- The progress a member publishes. -/
structure Progressed (s : Replica) (progress : ReplicaProgress) (q : StatePublisher) : Prop where
  published : s.publisher.Published q (s.publisher.state.withReplicaProgress progress)
  role : s.publisher.state.role = .replica

variable {s : Replica}

section Progress

variable {t : Replica} {durable confirmed applied : ℕ} {projection : ProjectionState}
  {head : Option Digest} {w : StateWrite}

lemma persistProgress_ok
    (h : s.persistProgress durable confirmed applied projection head w = (.ok (), t)) :
    (head = none → s.journal.head.index = durable) ∧
      ∃ q, t = { s with publisher := q } ∧ Progressed s
        ⟨durable, confirmed, applied, head.getD s.journal.head.mac, projection⟩ q := by
  obtain ⟨hhead, h⟩ := guard_pair_eq_ok.mp h
  split at h <;> cases h
  rename_i q hpub
  obtain ⟨hpubd, hrole⟩ := publishReplica_ok hpub
  refine ⟨fun hnone => ?_, q, rfl, hpubd, hrole⟩
  by_contra hne
  exact hhead ⟨hnone, hne⟩

lemma persistProgress_error {err : ReceiverError}
    (h : s.persistProgress durable confirmed applied projection head w = (.error err, t)) :
    err.isPersistence = true ∧ ∃ q, t = { s with publisher := q } := by
  simp only [persistProgress] at h
  split_ifs at h
  · cases h
    exact ⟨rfl, s.publisher, rfl⟩
  · split at h <;> cases h
    exact ⟨rfl, _, rfl⟩

end Progress

/-! ## The outcomes of a call -/

/-- What a failed write leaves of a member: a poisoned receiver, and the frame and its record as far
as the call had come. -/
inductive Broken (k : Crypto) (s : Replica) : Call → Replica → Prop
  | kept {call : Call} {q : StatePublisher} : Broken k s call { s with publisher := q }.poison
  | unordered {encoded : Bytes} {io : ReceiveIO} {f : Frame} {d : Digest} {err : OrderingError}
      {journal : OrderingJournal} (decodes : unmarshalFrameAndDigest k.sha256 encoded = .ok (f, d))
      (continues : s.receiver.continues f = .ok ())
      (appended : s.journal.append k (.ofFrame f d) io.append = (.error err, journal)) :
      Broken k s (.receive encoded io)
        { s with journal := journal, frames := s.frames ++ [encoded] }.poison
  | unpublished {encoded : Bytes} {io : ReceiveIO} {f : Frame} {d : Digest}
      {record : OrderingRecord} {journal : OrderingJournal} {err : PublishError} {q : StatePublisher}
      (decodes : unmarshalFrameAndDigest k.sha256 encoded = .ok (f, d)) (continues : s.receiver.continues f = .ok ())
      (appended : s.journal.append k (.ofFrame f d) io.append = (.ok record, journal))
      (unpublished : s.publisher.publishReplica ⟨f.index, f.index, s.receiver.appliedIndex,
        record.mac, s.receiver.projection⟩ io.state = (.error err, q)) :
      Broken k s (.receive encoded io)
        { s with journal := journal, publisher := q, frames := s.frames ++ [encoded] }.poison

/-- A frame that continues the durable prefix and is stored, ordered and published. -/
structure Received (k : Crypto) (s : Replica) (encoded : Bytes) (f : Frame) (d : Digest)
    (t : Replica) : Prop where
  decodes : unmarshalFrameAndDigest k.sha256 encoded = .ok (f, d)
  admitted : s.receiver.admits f = .ok ()
  continues : s.receiver.continues f = .ok ()
  appended : ∃ write record journal, s.journal.append k (.ofFrame f d) write = (.ok record, journal) ∧
    ∃ q, Progressed s ⟨f.index, f.index, s.receiver.appliedIndex, record.mac,
      s.receiver.projection⟩ q ∧
      t = { receiver :=
              { s.receiver with
                durableIndex := f.index
                confirmedIndex := f.index
                anchorSeen := s.receiver.anchorSeen || decide (f.kind = .leadershipEstablished)
                storeCursors := ReplicaReceiver.cursorsAfter s.receiver.storeCursors f }
            journal := journal
            publisher := q
            frames := s.frames ++ [encoded] }

/-- A frame at a stored index whose digest is that of the stored frame. -/
structure Stored (k : Crypto) (s : Replica) (encoded : Bytes) (f : Frame) (d : Digest) : Prop where
  decodes : unmarshalFrameAndDigest k.sha256 encoded = .ok (f, d)
  admitted : s.receiver.admits f = .ok ()
  within : f.index ≤ s.receiver.durableIndex
  same : ∃ record, s.journal.record f.index = .ok record ∧ record.frameDigest = d

/-- A commit notice the receiver accepts. -/
structure Noticed (s : Replica) (notice : CommitNotice) : Prop where
  fenced : s.receiver.promisedTerm = s.receiver.term
  term : notice.term = s.receiver.term
  within : notice.confirmedIndex ≤ s.receiver.durableIndex

/-- Everything a call can do. -/
inductive Called (k : Crypto) (s : Replica) : Call → Answer → Replica → Prop
  | refused {call : Call} (err : ReceiverError) (rejected : err.isPersistence = false) :
      Called k s call (.error err) s
  | broken {call : Call} (err : ReceiverError) {t : Replica}
      (failed : err.isPersistence = true) (working : s.receiver.poisoned = false)
      (broken : Broken k s call t) : Called k s call (.error err) t
  | received {encoded : Bytes} {io : ReceiveIO} {f : Frame} {d : Digest} {t : Replica}
      (working : s.receiver.poisoned = false) (received : Received k s encoded f d t) :
      Called k s (.receive encoded io) (.ok (some t.receiver.acknowledgement)) t
  | stored {encoded : Bytes} {io : ReceiveIO} {f : Frame} {d : Digest}
      (working : s.receiver.poisoned = false) (stored : Stored k s encoded f d)
      (confirmed : f.index ≤ s.receiver.confirmedIndex) :
      Called k s (.receive encoded io) (.ok (some s.receiver.acknowledgement)) s
  | storedConfirmed {encoded : Bytes} {io : ReceiveIO} {f : Frame} {d : Digest}
      {q : StatePublisher} (working : s.receiver.poisoned = false) (stored : Stored k s encoded f d)
      (advances : s.receiver.confirmedIndex < f.index)
      (ordered : s.journal.head.index = s.receiver.durableIndex)
      (progressed : Progressed s ⟨s.receiver.durableIndex, f.index, s.receiver.appliedIndex,
        s.journal.head.mac, s.receiver.projection⟩ q) :
      Called k s (.receive encoded io) (.ok (some s.receiver.acknowledgement))
        { s with publisher := q, receiver := { s.receiver with confirmedIndex := f.index } }
  | noticed {notice : CommitNotice} {w : StateWrite} (working : s.receiver.poisoned = false)
      (noticed : Noticed s notice) : Called k s (.confirm notice w) (.ok none) s
  | confirmed {notice : CommitNotice} {w : StateWrite} {q : StatePublisher}
      (working : s.receiver.poisoned = false) (noticed : Noticed s notice)
      (advances : s.receiver.confirmedIndex < notice.confirmedIndex)
      (ordered : s.journal.head.index = s.receiver.durableIndex)
      (progressed : Progressed s ⟨s.receiver.durableIndex, notice.confirmedIndex,
        s.receiver.appliedIndex, s.journal.head.mac, s.receiver.projection⟩ q) :
      Called k s (.confirm notice w) (.ok none)
        { s with publisher := q, receiver := { s.receiver with confirmedIndex := notice.confirmedIndex } }
  | promised {term : ℕ} {io : TransitionIO} {q : StatePublisher}
      (working : s.receiver.poisoned = false) (newer : s.receiver.promisedTerm < term)
      (changed : s.publisher.Changed q
        { s.publisher.state with
          promisedTerm := term, role := s.publisher.state.role.afterPromise }) :
      Called k s (.promise term io) (.ok none)
        { s with publisher := q, receiver := { s.receiver with promisedTerm := term } }
  | adopted {term : ℕ} {primaryNodeID : Bytes} {io : TransitionIO} {q : StatePublisher}
      (working : s.receiver.poisoned = false) (newer : s.receiver.term < term)
      (promised : term = s.receiver.promisedTerm)
      (changed : q = s.publisher ∧ s.publisher.state.term = term ∧
          s.publisher.state.promisedTerm = term ∨
        s.publisher.Changed q
          { s.publisher.state with role := .replica, term := term, promisedTerm := term }) :
      Called k s (.adoptTerm term primaryNodeID io) (.ok none)
        { s with publisher := q
                 receiver :=
                  { s.receiver with
                    term := term, primaryNodeID := primaryNodeID, anchorSeen := false } }
  | unchanged {index : ℕ} {projection : ProjectionState} {w : StateWrite}
      (working : s.receiver.poisoned = false) :
      Called k s (.advanceApplied index projection w) (.ok none) s
  | applied {index : ℕ} {projection : ProjectionState} {w : StateWrite} {q : StatePublisher}
      (working : s.receiver.poisoned = false) (advances : s.receiver.appliedIndex ≤ index)
      (within : index ≤ s.receiver.confirmedIndex) (projected : projection.index = index)
      (ordered : s.journal.head.index = s.receiver.durableIndex)
      (progressed : Progressed s ⟨s.receiver.durableIndex, s.receiver.confirmedIndex, index,
        s.journal.head.mac, projection⟩ q) :
      Called k s (.advanceApplied index projection w) (.ok none)
        { s with publisher := q
                 receiver := { s.receiver with appliedIndex := index, projection := projection } }
  | bound {nodeID primaryNodeID : Bytes} :
      Called k s (.bindPrimary nodeID) (.ok none)
        { s with receiver := { s.receiver with primaryNodeID := primaryNodeID } }
  | acknowledged (working : s.receiver.poisoned = false)
      (valid : s.receiver.acknowledgement.validate = .ok ()) :
      Called k s .acknowledge (.ok (some s.receiver.acknowledgement)) s

/-! ## Every call is one of them -/

variable {f : Frame} {err : ReceiverError}

lemma continuesStore_rejects {cursor : StoreCursor}
    (h : continuesStore cursor f = .error err) : err.isPersistence = false := by
  simp only [continuesStore] at h
  split_ifs at h <;> cases h <;> rfl

lemma continuesStores_rejects {cursors : Cursors}
    (h : continuesStores cursors f = .error err) : err.isPersistence = false := by
  simp only [continuesStores] at h
  split at h
  · exact continuesStore_rejects h
  · split at h
    · cases h
      rfl
    · split_ifs at h
      cases h
      rfl
  · cases h

lemma continues_rejects {r : ReplicaReceiver} (h : r.continues f = .error err) :
    err.isPersistence = false := by
  simp only [continues] at h
  split_ifs at h
  · cases h
    rfl
  · cases h
    rfl
  · cases h
    rfl
  · exact continuesStores_rejects h

section Checks

variable {α : Type} {call : Call} {x : Except ReceiverError α × Replica}
  {g : α → Option Acknowledgement}

/-- A check that refuses the call, or lets it go on. -/
lemma Called.guard {p : Prop} [Decidable p] (herr : err.isPersistence = false)
    (h : ¬ p → Called k s call (x.1.map g) x.2) :
    Called k s call ((if p then (.error err, s) else x).1.map g)
      (if p then (.error err, s) else x).2 := by
  split_ifs with hp
  · exact .refused err herr
  · exact h hp

/-- A poisoned receiver refuses the call. -/
lemma Called.unpoisoned (h : s.receiver.poisoned = false → Called k s call (x.1.map g) x.2) :
    Called k s call ((if s.receiver.poisoned then (.error .poisoned, s) else x).1.map g)
      (if s.receiver.poisoned then (.error .poisoned, s) else x).2 :=
  .guard rfl fun hpois => h (Bool.eq_false_of_not_eq_true hpois)

end Checks

section Receiving

variable {encoded : Bytes} {io : ReceiveIO} {d : Digest} (working : s.receiver.poisoned = false)
  (hdecodes : unmarshalFrameAndDigest k.sha256 encoded = .ok (f, d))
  (hfit : s.receiver.admits f = .ok ())

include working hdecodes hfit

lemma called_receiveStored (hwithin : f.index ≤ s.receiver.durableIndex) :
    Called k s (.receive encoded io) ((s.receiveStored f d io.state).1.map some)
      (s.receiveStored f d io.state).2 := by
  simp only [receiveStored]
  split
  · exact .refused _ rfl
  rename_i record hrec
  refine .guard rfl fun hdig => ?_
  have hstor : Stored k s encoded f d := ⟨hdecodes, hfit, hwithin, record, hrec, not_not.mp hdig⟩
  split_ifs with hconf
  · split <;> rename_i hprog
    · obtain ⟨herr, q, rfl⟩ := persistProgress_error hprog
      exact .broken _ herr working .kept
    · obtain ⟨hhead, q, rfl, hprogd⟩ := persistProgress_ok hprog
      exact .storedConfirmed working hstor hconf (hhead rfl) hprogd
  · exact .stored working hstor (not_lt.mp hconf)

lemma called_receiveNext (hconts : s.receiver.continues f = .ok ()) :
    Called k s (.receive encoded io) ((s.receiveNext k encoded f d io).1.map some)
      (s.receiveNext k encoded f d io).2 := by
  simp only [receiveNext]
  split_ifs
  swap
  · exact .broken .sink rfl working (.kept (q := s.publisher))
  split <;> rename_i happ
  · exact .broken _ rfl working (.unordered hdecodes hconts happ)
  simp only [persistProgress, reduceCtorEq, false_and, if_false, Option.getD_some]
  rcases hpub : s.publisher.publishReplica ⟨f.index, f.index, s.receiver.appliedIndex,
      _, s.receiver.projection⟩ io.state with ⟨err | u, q⟩
  · exact .broken _ rfl working (.unpublished hdecodes hconts happ hpub)
  · obtain ⟨hpubd, hrole⟩ := publishReplica_ok hpub
    exact .received working ⟨hdecodes, hfit, hconts, io.append, _, _, happ, q, ⟨hpubd, hrole⟩, rfl⟩

end Receiving

lemma called_receive (s : Replica) (encoded : Bytes) (io : ReceiveIO) :
    Called k s (.receive encoded io) ((s.receive k encoded io).1.map some)
      (s.receive k encoded io).2 := by
  refine .unpoisoned fun working => ?_
  split
  · exact .refused _ rfl
  rename_i hdec
  split <;> rename_i hfit
  · refine .refused _ ?_
    simp only [admits] at hfit
    split_ifs at hfit <;> cases hfit <;> rfl
  split_ifs with hwithin
  · exact called_receiveStored working hdec hfit hwithin
  split <;> rename_i hconts
  · exact .refused _ (continues_rejects hconts)
  · exact called_receiveNext working hdec hfit hconts

lemma called_confirm (s : Replica) (notice : CommitNotice) (w : StateWrite) :
    Called k s (.confirm notice w) ((s.confirm notice w).1.map fun _ => none)
      (s.confirm notice w).2 := by
  refine .unpoisoned fun working => ?_
  split
  · exact .refused _ rfl
  refine .guard rfl fun hfenced => ?_
  refine .guard rfl fun hidn => ?_
  simp only [not_or, ne_eq, not_not] at hidn hfenced
  refine .guard rfl fun hwithin => ?_
  have hnoticed : Noticed s notice := ⟨hfenced, hidn.2.2.2, not_lt.mp hwithin⟩
  split_ifs with hadvances
  · split <;> rename_i hprog
    · obtain ⟨herr, q, rfl⟩ := persistProgress_error hprog
      exact .broken _ herr working .kept
    · obtain ⟨hhead, q, rfl, hprogd⟩ := persistProgress_ok hprog
      exact .confirmed working hnoticed hadvances (hhead rfl) hprogd
  · exact .noticed working hnoticed

lemma called_advanceApplied (s : Replica) (index : ℕ) (projection : ProjectionState)
    (w : StateWrite) :
    Called k s (.advanceApplied index projection w)
      ((s.advanceAppliedWithProjection index projection w).1.map fun _ => none)
      (s.advanceAppliedWithProjection index projection w).2 := by
  refine .unpoisoned fun working => ?_
  refine .guard rfl fun hindex => ?_
  refine .guard rfl fun hproj => ?_
  split_ifs with hsame
  · exact .unchanged working
  simp only [not_or, not_lt, ne_eq, not_not] at hindex hproj
  split <;> rename_i hprog
  · obtain ⟨herr, q, rfl⟩ := persistProgress_error hprog
    exact .broken _ herr working .kept
  · obtain ⟨hhead, q, rfl, hprogd⟩ := persistProgress_ok hprog
    exact .applied working hindex.1 hindex.2 hproj.1 (hhead rfl) hprogd

lemma called_promise (s : Replica) (term : ℕ) (io : TransitionIO) :
    Called k s (.promise term io) ((s.promise c term io).1.map fun _ => none)
      (s.promise c term io).2 := by
  refine .unpoisoned fun working => ?_
  refine .guard rfl fun hterm => ?_
  split
  · exact .broken _ rfl working .kept
  · rename_i hpub
    refine .promised working (not_le.mp hterm) ?_
    exact publishTransition_ok (guard_pair_eq_ok.mp hpub).2

lemma called_adoptTerm (s : Replica) (term : ℕ) (primaryNodeID : Bytes) (io : TransitionIO) :
    Called k s (.adoptTerm term primaryNodeID io)
      ((s.adoptTerm c term primaryNodeID io).1.map fun _ => none)
      (s.adoptTerm c term primaryNodeID io).2 := by
  refine .guard rfl fun hprimary => ?_
  refine .unpoisoned fun working => ?_
  refine .guard rfl fun hterm => ?_
  simp only [not_or, not_le, ne_eq, not_not] at hterm
  split
  · exact .broken _ rfl working .kept
  · rename_i hpub
    refine .adopted working hterm.1 hterm.2 ?_
    obtain ⟨-, hpub⟩ := guard_pair_eq_ok.mp hpub
    split_ifs at hpub with hsame
    · exact .inl ⟨(Prod.mk.inj hpub).2.symm, hsame.1.symm, hsame.2.1.symm⟩
    · exact .inr (publishTransition_ok hpub)

lemma called_bindPrimary (s : Replica) (nodeID : Bytes) :
    Called k s (.bindPrimary nodeID) ((s.bindPrimary nodeID).1.map fun _ => none)
      (s.bindPrimary nodeID).2 := by
  refine .guard rfl fun hidn => ?_
  split_ifs
  · exact .bound
  · exact .refused _ rfl
  · exact @Called.bound k s nodeID s.receiver.primaryNodeID

lemma called_acknowledge (s : Replica) : Called k s .acknowledge (s.acknowledge.map some) s := by
  simp only [acknowledge]
  split_ifs with hpois
  · exact .refused _ rfl
  split <;> rename_i hvalid
  · exact .refused _ rfl
  · exact .acknowledged (Bool.eq_false_of_not_eq_true hpois) hvalid

/-- **Every call is one of the outcomes.** -/
theorem called (s : Replica) (call : Call) :
    Called k s call (s.call k c call).1 (s.after k c call) := by
  cases call with
  | receive encoded io => exact called_receive s encoded io
  | confirm notice w => exact called_confirm s notice w
  | promise term io => exact called_promise s term io
  | adoptTerm term primaryNodeID io => exact called_adoptTerm s term primaryNodeID io
  | advanceApplied index projection w => exact called_advanceApplied s index projection w
  | bindPrimary nodeID => exact called_bindPrimary s nodeID
  | acknowledge => exact called_acknowledge s

end Replica

end Replication

end Halro
