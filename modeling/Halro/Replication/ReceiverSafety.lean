import Halro.Framework.Run
import Halro.Replication.ReceiverCalls

/-!
# Safety of the replica receiver

Over any calls in any order, with any bytes and any failures of the writes, the watermarks of a
Replica keep their order and never decrease, a promise fences every lower term, a stored index is
acknowledged for its own bytes only, and after a failed write nothing is acknowledged any more.

Two of the watermarks can be apart for a while.  After an ordering record is written and the state
file is not, the receiver stops and its durable index stays one below the head of the journal.  And a
member that is started on a journal ahead of its state file takes its durable index from the journal:
until it publishes the next progress it acknowledges an index that its state file does not have
(`acknowledges_unpublished`).  `receiver_safety` has both conditions in its statement.
-/

namespace Halro

open Framework Replication.OrderingJournal

namespace Replication

namespace Replica

/-! ## The start of a member -/

inductive StartError
  | role
  | journal (error : OrderingError)
  | publisher (error : PublishError)
  | receiver (error : ReceiverError)
  deriving DecidableEq

/-- A Replica on the files of a stopped member (`openReplicaApplication`): the ordering journal is
opened against the state file, then the publisher, then the receiver takes its positions from both.
`frames` are what the native stores hold after their recovery. -/
def start (k : Crypto) (c : LineCodec) (file : MemberState) (segments : List TransitionSegment)
    (ordering : OrderingJournal) (frames : List Bytes) : Except StartError Replica :=
  if file.role ≠ .replica then .error .role
  else
    match ordering.openExisting k file.durableIndex file.orderingHeadMAC with
    | .error err => .error (.journal err)
    | .ok journal =>
      match StatePublisher.openPublisher c file segments with
      | .error err => .error (.publisher err)
      | .ok publisher =>
        match ReplicaReceiver.new file [] journal with
        | .error err => .error (.receiver err)
        | .ok receiver =>
          .ok { receiver := receiver, journal := journal, publisher := publisher, frames := frames }

/-- The first `n` records order the first `n` frames. -/
def Holds (k : Crypto) (frames : List Bytes) (records : List OrderingRecord) (n : ℕ) : Prop :=
  ∀ i < n, ∃ r b f, records[i]? = some r ∧ frames[i]? = some b ∧
    unmarshalFrameAndDigest k.sha256 b = .ok (f, r.frameDigest)

variable {k : Crypto} {c : LineCodec}

variable {frames : List Bytes}

lemma Holds.append {more : List Bytes} {records rest : List OrderingRecord} {n : ℕ}
    (h : Holds k frames records n) : Holds k (frames ++ more) (records ++ rest) n := by
  intro i hi
  obtain ⟨r, b, f, hr, hb, hf⟩ := h i hi
  have hr' : i < records.length := (List.getElem?_eq_some_iff.mp hr).1
  have hb' : i < frames.length := (List.getElem?_eq_some_iff.mp hb).1
  exact ⟨r, b, f, by rwa [List.getElem?_append_left hr'], by rwa [List.getElem?_append_left hb'], hf⟩

variable {f : Frame}

lemma Holds.concat {records : List OrderingRecord} {n : ℕ} (h : Holds k frames records n)
    (hfrs : frames.length = n) (hrecs : records.length = n) {b : Bytes} {r : OrderingRecord}
    (hf : unmarshalFrameAndDigest k.sha256 b = .ok (f, r.frameDigest)) :
    Holds k (frames ++ [b]) (records ++ [r]) (n + 1) := by
  intro i hi
  rcases Nat.lt_succ_iff_lt_or_eq.mp hi with hlt | rfl
  · exact h.append i hlt
  · refine ⟨r, b, f, ?_, ?_, hf⟩
    · rw [← hrecs, List.getElem?_concat_length]
    · rw [← hfrs, List.getElem?_concat_length]

/-! ## The invariant -/

/-- The publisher and its file have what the receiver has, up to the durable index. -/
structure Agrees (s : Replica) : Prop where
  working : s.publisher.poisoned = false
  file : s.publisher.file = s.publisher.state
  role : s.publisher.state.role = .replica
  valid : s.publisher.state.validate = .ok ()
  confirmed : s.publisher.state.confirmedIndex = s.receiver.confirmedIndex
  applied : s.publisher.state.appliedIndex = s.receiver.appliedIndex
  projection : s.publisher.state.projection = s.receiver.projection
  durable : s.publisher.state.durableIndex ≤ s.receiver.durableIndex

/-- What every call preserves. -/
structure Kept (k : Crypto) (s : Replica) : Prop where
  sound : s.journal.Sound k
  applied : s.receiver.appliedIndex ≤ s.receiver.confirmedIndex
  confirmed : s.receiver.confirmedIndex ≤ s.receiver.durableIndex
  ordered : s.receiver.durableIndex ≤ s.journal.head.index
  lead : s.journal.head.index ≤ s.receiver.durableIndex + 1
  fenced : s.receiver.term ≤ s.receiver.promisedTerm
  holds : Holds k s.frames s.journal.records s.journal.head.index
  exact : s.receiver.poisoned = false →
    s.journal.head.index = s.receiver.durableIndex ∧ s.frames.length = s.receiver.durableIndex ∧
      s.journal.poisoned = false
  agrees : s.receiver.poisoned = false → s.Agrees

variable {s t : Replica}

/-- What progress leaves of the agreement. -/
lemma Agrees.progressed {progress : ReplicaProgress} (h : Progressed s progress t.publisher)
    (hconf : progress.confirmedIndex = t.receiver.confirmedIndex)
    (happl : progress.appliedIndex = t.receiver.appliedIndex)
    (hproj : progress.projection = t.receiver.projection)
    (hdur : progress.durableIndex ≤ t.receiver.durableIndex) : t.Agrees where
  working := h.published.unpoisoned
  file := by rw [h.published.file, h.published.state]
  role := h.published.state ▸ h.role
  valid := h.published.state ▸ h.published.valid
  confirmed := h.published.state ▸ hconf
  applied := h.published.state ▸ happl
  projection := h.published.state ▸ hproj
  durable := h.published.state ▸ hdur

lemma continues_index {r : ReplicaReceiver} (h : r.continues f = .ok ()) :
    f.index = r.durableIndex + 1 := by
  exact not_not.mp (guard_eq_ok.mp h).1

/-- The record of a frame that continues the order is the next of the journal. -/
lemma Kept.written {encoded : Bytes} {d : Digest} {write : WriteResult} {record : OrderingRecord}
    {journal : OrderingJournal} (hk : Kept k s) (working : s.receiver.poisoned = false)
    (hdecs : unmarshalFrameAndDigest k.sha256 encoded = .ok (f, d))
    (hconts : s.receiver.continues f = .ok ())
    (happ : s.journal.append k (.ofFrame f d) write = (.ok record, journal)) :
    journal.Sound k ∧ journal.poisoned = false ∧ write = .synced ∧ journal.head.index = f.index ∧
      f.index = s.receiver.durableIndex + 1 ∧
      Holds k (s.frames ++ [encoded]) journal.records f.index := by
  have hindex := continues_index hconts
  obtain ⟨hhead, hfrs, hwork⟩ := hk.exact working
  obtain ⟨hlen, -⟩ := hk.sound.exact hwork
  have hsound := hk.sound.append (.ofFrame f d) write
  have hcases := s.journal.append_cases (k := k) (.ofFrame f d) write
  rw [happ] at hsound hcases
  cases hcases with
  | written hjrnl horder hvalid hsynced =>
    refine ⟨hsound, hjrnl, hsynced, rfl, hindex, ?_⟩
    have hold := hk.holds
    rw [hhead] at hold
    rw [hindex]
    exact hold.concat hfrs (hlen.trans hhead) hdecs

lemma Kept.received {encoded : Bytes} {d : Digest} (hk : Kept k s)
    (working : s.receiver.poisoned = false) (h : Received k s encoded f d t) : Kept k t := by
  obtain ⟨hdecs, hfit, hconts, write, record, journal, happ, q, hprogd, rfl⟩ := h
  obtain ⟨hsound, hjrnl, -, hhead, hindex, hholds⟩ := hk.written working hdecs hconts happ
  refine
    { sound := hsound
      applied := ?_
      confirmed := le_rfl
      ordered := hhead.ge
      lead := hhead.le.trans (Nat.le_succ _)
      fenced := hk.fenced
      holds := hhead ▸ hholds
      exact := fun _ => ⟨hhead, ?_, hjrnl⟩
      agrees := fun _ => Agrees.progressed hprogd rfl rfl rfl le_rfl }
  · show s.receiver.appliedIndex ≤ f.index
    have happl := hk.applied
    have hconf := hk.confirmed
    omega
  · rw [List.length_append, List.length_singleton, (hk.exact working).2.1, hindex]

variable {call : Call}

lemma Kept.broken (hk : Kept k s) (working : s.receiver.poisoned = false) (h : Broken k s call t) :
    Kept k t := by
  cases h with
  | kept =>
    exact { hk with
      exact := fun h => absurd h (by simp [poison])
      agrees := fun h => absurd h (by simp [poison]) }
  | @unordered encoded io f d err journal hdecs hconts happ =>
    have hsound := hk.sound.append (.ofFrame f d) io.append
    have hcases := s.journal.append_cases (k := k) (.ofFrame f d) io.append
    rw [happ] at hsound hcases
    -- The head is where it was; the file may have the record, or a part of it.
    have hkept : journal.head = s.journal.head ∧
        ∃ rest, journal.records = s.journal.records ++ rest := by
      cases hcases with
      | refused => exact ⟨rfl, [], (List.append_nil _).symm⟩
      | failed left _ _ =>
        cases left with
        | nothing | part => exact ⟨rfl, [], (List.append_nil _).symm⟩
        | whole => exact ⟨rfl, _, rfl⟩
    obtain ⟨hsame, rest, hrecs⟩ := hkept
    refine ⟨hsound, hk.applied, hk.confirmed, ?_, ?_, hk.fenced, ?_,
      fun h => absurd h (by simp [poison]), fun h => absurd h (by simp [poison])⟩
    · show s.receiver.durableIndex ≤ journal.head.index
      rw [hsame]
      exact hk.ordered
    · show journal.head.index ≤ s.receiver.durableIndex + 1
      rw [hsame]
      exact hk.lead
    · show Holds k (s.frames ++ [encoded]) journal.records journal.head.index
      rw [hsame, hrecs]
      exact hk.holds.append
  | @unpublished encoded io f d record journal err q hdecs hconts happ hpub =>
    obtain ⟨hsound, -, -, hhead, hindex, hholds⟩ := hk.written working hdecs hconts happ
    refine ⟨hsound, hk.applied, hk.confirmed, ?_, (hhead.trans hindex).le, hk.fenced, hhead ▸ hholds,
      fun h => absurd h (by simp [poison]), fun h => absurd h (by simp [poison])⟩
    show s.receiver.durableIndex ≤ journal.head.index
    omega

/-- A member whose receiver works on, with its journal and its frames as they were. -/
lemma Kept.advanced (hk : Kept k s) (working : s.receiver.poisoned = false)
    (hjrnl : t.journal = s.journal) (hfrs : t.frames = s.frames)
    (hdur : t.receiver.durableIndex = s.receiver.durableIndex)
    (happl : t.receiver.appliedIndex ≤ t.receiver.confirmedIndex)
    (hconf : t.receiver.confirmedIndex ≤ t.receiver.durableIndex)
    (hfenced : t.receiver.term ≤ t.receiver.promisedTerm) (hagr : t.Agrees) : Kept k t where
  sound := by rw [hjrnl]; exact hk.sound
  applied := happl
  confirmed := hconf
  ordered := by rw [hjrnl, hdur]; exact hk.ordered
  lead := by rw [hjrnl, hdur]; exact hk.lead
  fenced := hfenced
  holds := by rw [hjrnl, hfrs]; exact hk.holds
  exact := fun _ => by rw [hjrnl, hfrs, hdur]; exact hk.exact working
  agrees := fun _ => hagr

lemma Agrees.changed {next : MemberState} (hs : s.Agrees) (h : s.publisher.Changed t.publisher next)
    (hrole : next.role = .replica) (hnext : next.confirmedIndex = s.publisher.state.confirmedIndex ∧
      next.appliedIndex = s.publisher.state.appliedIndex ∧
      next.projection = s.publisher.state.projection ∧
      next.durableIndex = s.publisher.state.durableIndex)
    (hrcv : t.receiver.confirmedIndex = s.receiver.confirmedIndex ∧
      t.receiver.appliedIndex = s.receiver.appliedIndex ∧
      t.receiver.projection = s.receiver.projection ∧
      t.receiver.durableIndex = s.receiver.durableIndex) : t.Agrees := by
  obtain ⟨cursor, hstate⟩ := h.state
  obtain ⟨hconf, happl, hproj, hdur⟩ := hnext
  obtain ⟨hconf', happl', hproj', hdur'⟩ := hrcv
  refine ⟨h.unpoisoned, h.file, ?_, h.valid, ?_, ?_, ?_, ?_⟩
  · exact hstate ▸ hrole
  · exact hstate ▸ hconf.trans (hs.confirmed.trans hconf'.symm)
  · exact hstate ▸ happl.trans (hs.applied.trans happl'.symm)
  · exact hstate ▸ hproj.trans (hs.projection.trans hproj'.symm)
  · exact hstate ▸ hdur'.symm ▸ hdur.trans_le hs.durable

variable {answer : Answer}

/-- **Every call keeps the invariant.** -/
lemma Kept.called (hk : Kept k s) (h : Called k s call answer t) : Kept k t := by
  have happl := hk.applied
  have hconf := hk.confirmed
  cases h with
  | refused | stored | noticed | unchanged | acknowledged => exact hk
  | broken err failed working broken => exact hk.broken working broken
  | received working received => exact hk.received working received
  | storedConfirmed working stored advances ordered progressed =>
    exact hk.advanced working rfl rfl rfl (happl.trans advances.le) stored.within hk.fenced
      (.progressed progressed rfl rfl rfl le_rfl)
  | confirmed working noticed advances ordered progressed =>
    exact hk.advanced working rfl rfl rfl (happl.trans advances.le) noticed.within hk.fenced
      (.progressed progressed rfl rfl rfl le_rfl)
  | promised working newer changed =>
    have hagr := hk.agrees working
    refine hk.advanced working rfl rfl rfl happl hconf (hk.fenced.trans newer.le) ?_
    refine hagr.changed changed ?_ ⟨rfl, rfl, rfl, rfl⟩ ⟨rfl, rfl, rfl, rfl⟩
    rw [hagr.role]
    rfl
  | adopted working newer promised changed =>
    have hagr := hk.agrees working
    refine hk.advanced working rfl rfl rfl happl hconf promised.le ?_
    rcases changed with ⟨rfl, -, -⟩ | changed
    · exact { hagr with }
    · exact hagr.changed changed rfl ⟨rfl, rfl, rfl, rfl⟩ ⟨rfl, rfl, rfl, rfl⟩
  | applied working advances within projected ordered progressed =>
    exact hk.advanced working rfl rfl rfl within hconf hk.fenced
      (.progressed progressed rfl rfl rfl le_rfl)
  | bound =>
    exact { hk with agrees := fun hwork => { hk.agrees hwork with } }

lemma Kept.run (hk : Kept k s) (calls : List Call) : Kept k (s.run k c calls) :=
  List.foldlRecOn calls _ hk fun s hk call _ => hk.called (Replica.called s call)

/-! ## The watermarks never decrease -/

/-- No watermark and no term of the second is below that of the first. -/
structure NotBelow (s t : Replica) : Prop where
  applied : s.receiver.appliedIndex ≤ t.receiver.appliedIndex
  confirmed : s.receiver.confirmedIndex ≤ t.receiver.confirmedIndex
  durable : s.receiver.durableIndex ≤ t.receiver.durableIndex
  head : s.journal.head.index ≤ t.journal.head.index
  term : s.receiver.term ≤ t.receiver.term
  promised : s.receiver.promisedTerm ≤ t.receiver.promisedTerm

lemma NotBelow.refl (s : Replica) : NotBelow s s := ⟨le_rfl, le_rfl, le_rfl, le_rfl, le_rfl, le_rfl⟩

lemma NotBelow.trans {u : Replica} (h : NotBelow s t) (g : NotBelow t u) : NotBelow s u :=
  ⟨h.applied.trans g.applied, h.confirmed.trans g.confirmed, h.durable.trans g.durable,
    h.head.trans g.head, h.term.trans g.term, h.promised.trans g.promised⟩

lemma NotBelow.broken (h : Broken k s call t) : NotBelow s t := by
  cases h with
  | kept => exact ⟨le_rfl, le_rfl, le_rfl, le_rfl, le_rfl, le_rfl⟩
  | unordered decodes continues appended | unpublished decodes continues appended =>
    exact ⟨le_rfl, le_rfl, le_rfl, (append_extends appended).head, le_rfl, le_rfl⟩

lemma Kept.notBelow (hk : Kept k s) (h : Called k s call answer t) : NotBelow s t := by
  have hbelow := NotBelow.refl s
  cases h with
  | refused | stored | noticed | unchanged | acknowledged => exact hbelow
  | broken err failed working broken => exact .broken broken
  | @received encoded io f d _ working received =>
    obtain ⟨-, -, hconts, write, record, journal, happ, q, -, rfl⟩ := received
    have hindex := continues_index hconts
    have hconf := hk.confirmed
    refine ⟨le_rfl, ?_, ?_, ?_, le_rfl, le_rfl⟩
    · show s.receiver.confirmedIndex ≤ f.index
      omega
    · show s.receiver.durableIndex ≤ f.index
      omega
    · exact (append_extends happ).head
  | storedConfirmed working stored advances | confirmed working noticed advances =>
    exact { hbelow with confirmed := advances.le }
  | promised working newer => exact { hbelow with promised := newer.le }
  | adopted working newer => exact { hbelow with term := newer.le }
  | applied working advances => exact { hbelow with applied := advances }
  | bound => exact { hbelow with }

lemma Kept.notBelow_run (hk : Kept k s) (calls : List Call) :
    NotBelow s (s.run k c calls) := by
  induction calls generalizing s with
  | nil => exact .refl s
  | cons call calls ih =>
    have hcall := Replica.called (k := k) (c := c) s call
    exact (hk.notBelow hcall).trans (ih (hk.called hcall))

/-! ## Acknowledgements -/

/-- The frame and the ordering record of an index are durable. -/
def Stores (k : Crypto) (s : Replica) (index : ℕ) : Prop :=
  ∃ b f r, s.frames[index - 1]? = some b ∧ s.journal.record index = .ok r ∧
    unmarshalFrameAndDigest k.sha256 b = .ok (f, r.frameDigest)

lemma Kept.stores (hk : Kept k s) {index : ℕ} (hpos : 0 < index)
    (hindex : index ≤ s.journal.head.index) : Stores k s index := by
  obtain ⟨n, rfl⟩ := Nat.exists_eq_add_one.mpr hpos
  obtain ⟨r, b, f, hr, hb, hf⟩ := hk.holds n hindex
  refine ⟨b, f, r, hb, hk.sound.record_succ.mpr ?_, hf⟩
  rw [List.getElem?_take_of_lt hindex, hr]

/-- An acknowledgement names the durable index of a receiver that works. -/
lemma Called.acknowledgement {ack : Acknowledgement} (h : Called k s call (.ok (some ack)) t) :
    ack.index = t.receiver.durableIndex ∧ 0 < ack.index ∧ t.receiver.poisoned = false := by
  cases h with
  | @received encoded io f d _ working received =>
    obtain ⟨-, -, hconts, write, record, journal, happ, q, -, rfl⟩ := received
    have hindex := continues_index hconts
    refine ⟨rfl, ?_, working⟩
    show 0 < f.index
    omega
  | stored working stored | storedConfirmed working stored =>
    obtain ⟨record, hrec, -⟩ := stored.same
    exact ⟨rfl, (getElem_of_record hrec).1.trans_le stored.within, working⟩
  | acknowledged working valid =>
    refine ⟨rfl, ?_, working⟩
    simp only [Acknowledgement.validate, guard_eq_ok] at valid
    exact Nat.pos_of_ne_zero (not_or.mp valid.2.1).1

/-- A frame at a stored index is acknowledged when its digest is that of the stored frame. -/
lemma Called.same_digest {encoded : Bytes} {io : ReceiveIO} {ack : Acknowledgement} {d : Digest}
    (h : Called k s (.receive encoded io) (.ok (some ack)) t)
    (hdec : unmarshalFrameAndDigest k.sha256 encoded = .ok (f, d))
    (hwithin : f.index ≤ s.receiver.durableIndex) :
    ∃ record, s.journal.record f.index = .ok record ∧ record.frameDigest = d := by
  have hsame : ∀ {g : Frame} {e : Digest},
      unmarshalFrameAndDigest k.sha256 encoded = .ok (g, e) → g = f ∧ e = d := by
    intro g e h
    exact Prod.mk.inj (Except.ok.inj (h.symm.trans hdec))
  cases h with
  | received working received =>
    obtain ⟨rfl, rfl⟩ := hsame received.decodes
    have hindex := continues_index received.continues
    omega
  | stored working stored | storedConfirmed working stored =>
    obtain ⟨rfl, rfl⟩ := hsame stored.decodes
    exact stored.same

/-! ## Fencing -/

/-- The term of a frame or a commit notice is at least a bound. -/
def Call.AtLeast (k : Crypto) (term : ℕ) : Call → Prop
  | .receive encoded _ =>
    ∃ f d, unmarshalFrameAndDigest k.sha256 encoded = .ok (f, d) ∧ term ≤ f.term
  | .confirm notice _ => term ≤ notice.term
  | _ => True

/-- A frame or a notice that is accepted is not below the promise. -/
lemma Called.atLeast {answer : Option Acknowledgement} (h : Called k s call (.ok answer) t) :
    call.AtLeast k s.receiver.promisedTerm := by
  have hadmitted : ∀ {f : Frame}, s.receiver.admits f = .ok () →
      s.receiver.promisedTerm ≤ f.term := by
    intro f hf
    simp only [ReplicaReceiver.admits, guard_eq_ok] at hf
    exact not_lt.mp hf.2.1
  cases h with
  | received working received => exact ⟨_, _, received.decodes, hadmitted received.admitted⟩
  | stored working stored | storedConfirmed working stored =>
    exact ⟨_, _, stored.decodes, hadmitted stored.admitted⟩
  | noticed working noticed | confirmed working noticed =>
    exact (noticed.fenced.trans noticed.term.symm).le
  | promised | adopted | unchanged | applied | bound | acknowledged => trivial

lemma Call.AtLeast.mono {low high : ℕ} (h : call.AtLeast k high) (hle : low ≤ high) :
    call.AtLeast k low := by
  cases call with
  | receive encoded io =>
    obtain ⟨f, d, hdec, hterm⟩ := h
    exact ⟨f, d, hdec, hle.trans hterm⟩
  | confirm notice w => exact hle.trans h
  | _ => trivial

lemma Called.promise {term : ℕ} {io : TransitionIO} {answer : Option Acknowledgement}
    (h : Called k s (.promise term io) (.ok answer) t) :
    t.receiver.promisedTerm = term := by
  cases h with
  | promised => rfl

/-! ## A failed write -/

lemma Called.poisoned (h : Called k s call answer t) (hs : s.receiver.poisoned = true) :
    t.receiver.poisoned = true ∧ ∀ ack, answer ≠ .ok (some ack) := by
  cases h with
  | refused | bound => exact ⟨hs, nofun⟩
  | broken _ _ working | received working | stored working | storedConfirmed working
  | noticed working | confirmed working | promised working | adopted working | unchanged working
  | applied working | acknowledged working =>
    rw [working] at hs
    cases hs

lemma poisoned_run (hs : s.receiver.poisoned = true) (calls : List Call) :
    (s.run k c calls).receiver.poisoned = true :=
  List.foldlRecOn calls (motive := (·.receiver.poisoned = true)) _ hs fun s hs call _ =>
    ((Replica.called (k := k) s call).poisoned hs).1

lemma Called.persistence {err : ReceiverError} (h : Called k s call (.error err) t)
    (herr : err.isPersistence = true) :
    t.receiver.poisoned = true := by
  cases h with
  | refused _ rejected =>
    rw [rejected] at herr
    cases herr
  | broken _ failed working broken => cases broken <;> rfl

/-! ## The state file -/

/-- The state file has the durable index of a receiver that works. -/
def Synced (s : Replica) : Prop :=
  s.receiver.poisoned = false → s.publisher.file.durableIndex = s.receiver.durableIndex

lemma Kept.synced (hk : Kept k s) (hs : s.Synced) (h : Called k s call answer t) : t.Synced := by
  have hfile : ∀ {progress : ReplicaProgress} {q : StatePublisher}, Progressed s progress q →
      q.file.durableIndex = progress.durableIndex := by
    intro progress q hq
    rw [hq.published.file]
    rfl
  have hchgd : ∀ {next : MemberState} {q : StatePublisher}, s.publisher.Changed q next →
      next.durableIndex = s.publisher.state.durableIndex → s.receiver.poisoned = false →
      q.file.durableIndex = s.receiver.durableIndex := by
    intro next q hq hnext working
    obtain ⟨cursor, hstate⟩ := hq.state
    rw [hq.file, hstate, ← hs working, (hk.agrees working).file]
    exact hnext
  intro hwork
  cases h with
  | refused | stored | noticed | unchanged | bound | acknowledged => exact hs hwork
  | broken err failed working broken => cases broken <;> cases hwork
  | received working received =>
    obtain ⟨-, -, -, write, record, journal, -, q, hprogd, rfl⟩ := received
    exact hfile hprogd
  | storedConfirmed _ _ _ _ progressed | confirmed _ _ _ _ progressed
  | applied _ _ _ _ _ progressed => exact hfile progressed
  | promised working newer changed => exact hchgd changed rfl working
  | adopted working newer promised changed =>
    rcases changed with ⟨rfl, -, -⟩ | changed
    · exact hs working
    · exact hchgd changed rfl working

lemma Kept.synced_run (hk : Kept k s) (hs : s.Synced) (calls : List Call) :
    (s.run k c calls).Synced := by
  refine (List.foldlRecOn calls (motive := fun s => Kept k s ∧ s.Synced) _ ⟨hk, hs⟩ ?_).2
  intro s ⟨hk, hs⟩ call _
  have hcall := Replica.called (k := k) (c := c) s call
  exact ⟨hk.called hcall, hk.synced hs hcall⟩

/-- The state file is written whenever the ordering record of a frame is. -/
def Call.Whole : Call → Prop
  | .receive _ io => io.append = .synced → io.state = .published
  | _ => True

/-- The head of the journal is the durable index, and the projection stands at the applied index. -/
structure Level (s : Replica) : Prop where
  head : s.journal.head.index = s.receiver.durableIndex
  projected : s.receiver.projection.index = s.receiver.appliedIndex

/-- A frame whose record is ordered is published when its write succeeds. -/
lemma Kept.publishes (hk : Kept k s) (working : s.receiver.poisoned = false)
    (hprojd : s.receiver.projection.index = s.receiver.appliedIndex)
    (hconts : s.receiver.continues f = .ok ()) {mac : Digest} (hmac : mac ≠ .zero) :
    (s.publisher.publishReplica ⟨f.index, f.index, s.receiver.appliedIndex, mac,
      s.receiver.projection⟩ .published).1 = .ok () := by
  have hindex := continues_index hconts
  have hagr := hk.agrees working
  have happl := hk.applied
  have hconf := hk.confirmed
  have hdur := hagr.durable
  refine StatePublisher.publishReplica_published hagr.working hagr.role hagr.valid
    ?_ ?_ hagr.applied.le le_rfl ?_ hprojd ?_ ?_
  · show s.publisher.state.durableIndex ≤ f.index
    omega
  · show s.publisher.state.confirmedIndex ≤ f.index
    rw [hagr.confirmed]
    omega
  · show s.receiver.appliedIndex ≤ f.index
    omega
  · rw [hagr.projection]
    rintro (hlt | ⟨-, hlt⟩) <;> exact lt_irrefl _ hlt
  · rintro (⟨hzero, -⟩ | ⟨-, hzero⟩)
    · have hzero : f.index = 0 := hzero
      omega
    · exact hmac hzero

lemma Kept.level (hk : Kept k s) (hl : s.Level) (hmac : ∀ a b r, k.orderingMAC a b r ≠ .zero)
    (hwhole : call.Whole) (h : Called k s call answer t) : t.Level := by
  obtain ⟨hhead, hprojd⟩ := hl
  cases h with
  | broken err failed working broken =>
    cases broken with
    | kept => exact ⟨hhead, hprojd⟩
    | @unordered encoded io f d err journal hdecs hconts happ =>
      refine ⟨?_, hprojd⟩
      have hcases := s.journal.append_cases (k := k) (.ofFrame f d) io.append
      rw [happ] at hcases
      cases hcases with
      | refused => exact hhead
      | failed left _ _ => cases left <;> exact hhead
    | @unpublished encoded io f d record journal err q hdecs hconts happ hpub =>
      -- The append was synced, so the file was written and the publication did not fail.
      obtain ⟨-, -, hsynced, -⟩ := hk.written working hdecs hconts happ
      have hnonzero : record.mac ≠ .zero := by
        rw [(append_ok happ).sealed]
        exact hmac _ _ _
      have hok := hk.publishes working hprojd hconts hnonzero
      rw [hwhole hsynced] at hpub
      rw [hpub] at hok
      cases hok
  | @received encoded io f d _ working received =>
    obtain ⟨hdecs, -, hconts, write, record, journal, happ, q, -, rfl⟩ := received
    exact ⟨(hk.written working hdecs hconts happ).2.2.2.1, hprojd⟩
  | applied working advances within projected => exact ⟨hhead, projected⟩
  | refused | stored | storedConfirmed | noticed | confirmed | promised | adopted | unchanged
  | bound | acknowledged => exact ⟨hhead, hprojd⟩

lemma Kept.level_run (hk : Kept k s) (hl : s.Level) (hmac : ∀ a b r, k.orderingMAC a b r ≠ .zero)
    {calls : List Call} (hwhole : ∀ call ∈ calls, call.Whole) : (s.run k c calls).Level := by
  refine (List.foldlRecOn calls (motive := fun s => Kept k s ∧ s.Level) _ ⟨hk, hl⟩ ?_).2
  intro s ⟨hk, hl⟩ call hin
  have hcall := Replica.called (k := k) (c := c) s call
  exact ⟨hk.called hcall, hk.level hl hmac (hwhole call hin) hcall⟩

/-! ## Safety -/

/-- What a member is when it is started. -/
structure Started (file : MemberState) (ordering : OrderingJournal) (frames : List Bytes)
    (s : Replica) : Prop where
  publisher : s.publisher.state = file ∧ s.publisher.file = file ∧ s.publisher.poisoned = false
  role : file.role = .replica
  valid : file.validate = .ok ()
  records : s.journal.records = ordering.records
  frames : s.frames = frames
  working : s.receiver.poisoned = false
  durable : s.receiver.durableIndex = s.journal.head.index
  confirmed : s.receiver.confirmedIndex = file.confirmedIndex
  applied : s.receiver.appliedIndex = file.appliedIndex
  projection : s.receiver.projection = file.projection
  fenced : s.receiver.term ≤ s.receiver.promisedTerm
  order : s.receiver.appliedIndex ≤ s.receiver.confirmedIndex ∧
    s.receiver.confirmedIndex ≤ s.receiver.durableIndex

lemma start_started {file : MemberState} {segments : List TransitionSegment}
    {ordering : OrderingJournal} (h : start k c file segments ordering frames = .ok s) :
    Started file ordering frames s ∧ s.journal.Sound k ∧ s.journal.poisoned = false ∧
      file.durableIndex ≤ s.journal.head.index := by
  obtain ⟨hrole, h⟩ := guard_eq_ok.mp h
  split at h
  · cases h
  rename_i journal hjrnl
  split at h
  · cases h
  rename_i publisher hpubr
  split at h
  · cases h
  rename_i receiver hrcv
  obtain ⟨hsound, hwork, hindex, -, hrecs⟩ := openExisting_sound hjrnl
  obtain ⟨hvalid, hopnd⟩ := StatePublisher.openPublisher_ok hpubr
  simp only [ReplicaReceiver.new, guard_eq_ok] at hrcv
  obtain ⟨hconstruction, -, -, hprefixes, hrcv⟩ := hrcv
  split at hrcv <;> cases hrcv
  cases h
  simp only [not_or, not_lt] at hprefixes hconstruction
  refine ⟨?_, hsound, hwork, hindex⟩
  exact
    { publisher := hopnd
      role := not_not.mp hrole
      valid := hvalid
      records := hrecs
      frames := rfl
      working := rfl
      durable := rfl
      confirmed := rfl
      applied := rfl
      projection := rfl
      fenced := hconstruction.2.2.2.2.2.2
      order := hprefixes }

lemma start_kept {file : MemberState} {segments : List TransitionSegment}
    {ordering : OrderingJournal} (h : start k c file segments ordering frames = .ok s)
    (hfrs : frames.length = ordering.records.length)
    (hstores : Holds k frames ordering.records ordering.records.length) : Kept k s := by
  obtain ⟨hs, hsound, hjrnl, hindex⟩ := start_started h
  obtain ⟨hstate, hfile, hpubr⟩ := hs.publisher
  obtain ⟨hlen, -⟩ := hsound.exact hjrnl
  rw [hs.records] at hlen
  refine
    { sound := hsound
      applied := hs.order.1
      confirmed := hs.order.2
      ordered := hs.durable.le
      lead := by rw [hs.durable]; exact Nat.le_succ _
      fenced := hs.fenced
      holds := by rw [hs.records, hs.frames, ← hlen]; exact hstores
      exact := fun _ => ⟨hs.durable.symm, ?_, hjrnl⟩
      agrees := fun _ => ?_ }
  · rw [hs.frames, hfrs, hlen, hs.durable]
  · refine ⟨hpubr, hfile.trans hstate.symm, ?_, ?_, ?_, ?_, ?_, ?_⟩
    · rw [hstate, hs.role]
    · rw [hstate, hs.valid]
    · rw [hstate, hs.confirmed]
    · rw [hstate, hs.applied]
    · rw [hstate, hs.projection]
    · rw [hstate, hs.durable]
      exact hindex

/-- **Safety of the receiver.**  A member is started on any files, whose native stores hold the
frames of the ordering journal, and serves any calls with any failures of its writes. -/
theorem receiver_safety {file : MemberState} {segments : List TransitionSegment}
    {ordering : OrderingJournal} {frames : List Bytes} {s₀ : Replica}
    (hstart : start k c file segments ordering frames = .ok s₀)
    (hframes : frames.length = ordering.records.length)
    (hstores : Holds k frames ordering.records ordering.records.length)
    (calls : List Call) (next : Call) :
    let s := s₀.run k c calls
    let t := s.after k c next
    let answer := (s.call k c next).1
    -- The order of the watermarks.  A receiver that works has the head of the journal as its durable
    -- index; one whose state file failed after the ordering record is stopped one below it.
    s.receiver.appliedIndex ≤ s.receiver.confirmedIndex ∧
    s.receiver.confirmedIndex ≤ s.receiver.durableIndex ∧
    s.receiver.durableIndex ≤ s.journal.head.index ∧
    (s.receiver.poisoned = false → s.receiver.durableIndex = s.journal.head.index) ∧
    (file.projection.index = file.appliedIndex → (∀ a b r, k.orderingMAC a b r ≠ .zero) →
      (∀ call ∈ calls, call.Whole) → s.receiver.durableIndex = s.journal.head.index) ∧
    NotBelow s t ∧
    -- What is acknowledged is durable, in the state file too when the member was started on a state
    -- file that is level with the journal.
    (∀ ack, answer = .ok (some ack) → 0 < ack.index ∧ Stores k t ack.index ∧
      (file.durableIndex = s₀.journal.head.index → ack.index ≤ t.publisher.file.durableIndex)) ∧
    -- A promise fences.
    (∀ before after term io, calls = before ++ .promise term io :: after →
      ((s₀.run k c before).call k c (.promise term io)).1 = .ok none →
      ∀ accepted, answer = .ok accepted → next.AtLeast k term) ∧
    -- A stored index is acknowledged for its own bytes.
    (∀ encoded io f d ack, next = .receive encoded io →
      unmarshalFrameAndDigest k.sha256 encoded = .ok (f, d) → f.index ≤ s.receiver.durableIndex →
      answer = .ok (some ack) → ∃ stored, s.frames[f.index - 1]? = some stored ∧
        ((k.sha256 (digestInput (stored.drop 4)) = k.sha256 (digestInput (encoded.drop 4)) →
          digestInput (stored.drop 4) = digestInput (encoded.drop 4)) → encoded = stored)) ∧
    -- After a failed write nothing is acknowledged.
    (∀ before bad after err, calls = before ++ bad :: after →
      ((s₀.run k c before).call k c bad).1 = .error err → err.isPersistence = true →
      ∀ ack, answer ≠ .ok (some ack)) := by
  intro s t answer
  have hk₀ := start_kept hstart hframes hstores
  obtain ⟨hs₀, -, -, -⟩ := start_started hstart
  have hk : Kept k s := hk₀.run calls
  have hnext : Called k s next answer t := Replica.called s next
  have ht : Kept k t := hk.called hnext
  have hsplit : ∀ before call after, calls = before ++ call :: after →
      s = ((s₀.run k c before).after k c call).run k c after := by
    intro before call after hcalls
    show s₀.run k c calls = _
    rw [hcalls]
    exact List.foldl_append
  refine ⟨hk.applied, hk.confirmed, hk.ordered, fun hwork => (hk.exact hwork).1.symm, ?_,
    hk.notBelow hnext, ?_, ?_, ?_, ?_⟩
  · intro hprojd hmac hwhole
    have hlevel : s₀.Level := ⟨hs₀.durable.symm, by rw [hs₀.projection, hs₀.applied, hprojd]⟩
    exact (hk₀.level_run hlevel hmac hwhole).head.symm
  · intro ack hack
    have hcall := hnext
    rw [hack] at hcall
    obtain ⟨hindex, hpos, hwork⟩ := hcall.acknowledgement
    refine ⟨hpos, ht.stores hpos (hindex.trans_le ht.ordered), ?_⟩
    intro hlevel
    have hsynced : s₀.Synced := by
      intro _
      rw [hs₀.publisher.2.1, hs₀.durable]
      exact hlevel
    have ht' : t.Synced := hk.synced (hk₀.synced_run hsynced calls) hnext
    rw [ht' hwork]
    exact hindex.le
  · intro before after term io hcalls hpromise accepted hacc
    have hbef := hk₀.run (c := c) before
    have hprom := Replica.called (k := k) (c := c) (s₀.run k c before) (.promise term io)
    have hterm : term ≤ s.receiver.promisedTerm := by
      have hbelow := (hbef.called hprom).notBelow_run (c := c) after
      rw [← hsplit before _ after hcalls] at hbelow
      rw [hpromise] at hprom
      exact hprom.promise.ge.trans hbelow.promised
    rw [hacc] at hnext
    exact hnext.atLeast.mono hterm
  · intro encoded io f d ack hreceive hdec hwithin hack
    subst hreceive
    rw [hack] at hnext
    obtain ⟨record, hrec, hdig⟩ := hnext.same_digest hdec hwithin
    obtain ⟨stored, g, r, hstor, hr, hg⟩ :=
      hk.stores (OrderingJournal.getElem_of_record hrec).1 (hwithin.trans hk.ordered)
    obtain rfl : record = r := Except.ok.inj (hrec.symm.trans hr)
    refine ⟨stored, hstor, fun hcoll => ?_⟩
    rw [hdig] at hg
    exact (eq_of_digest_eq (decodes_of_unmarshal hg) (decodes_of_unmarshal hdec) hcoll).symm
  · intro before bad after err hcalls herr hpers
    have hbad := Replica.called (k := k) (c := c) (s₀.run k c before) bad
    rw [herr] at hbad
    have hpois := poisoned_run (k := k) (c := c) (hbad.persistence hpers) after
    rw [← hsplit before bad after hcalls] at hpois
    exact (hnext.poisoned hpois).2

/-! ## A member that was stopped between its ordering record and its state file -/

namespace Sample

/-- A checksum in the place of the hash, and the index of a record in that of its code. -/
def crypto : Crypto where
  sha256 b := Vector.replicate 32 (b.foldl (· + ·) 1)
  orderingMAC _ _ r := Vector.replicate 32 (UInt8.ofNat r.index)

def codec : LineCodec where
  size _ := 1
  mac _ := Vector.replicate 32 1
  size_pos _ := Nat.one_pos

def cluster : Bytes := [99]

def incarnation : Bytes := [105]

/-- A Replica in term 1 that has received nothing. -/
def file : MemberState where
  version := .plain
  clusterID := cluster
  incarnation := incarnation
  nodeID := [98]
  role := .replica
  term := 1
  promisedTerm := 1
  peers := [⟨[97], [49], [115, 104, 97, 50, 53, 54, 58] ++ List.replicate 64 48⟩]

/-- The leadership anchor of term 1. -/
def anchor : Frame where
  kind := .leadershipEstablished
  index := 1
  term := 1
  clusterID := cluster
  incarnation := incarnation

/-- The first frame of the audit store. -/
def entry : Frame where
  kind := .data
  store := .audit
  index := 2
  term := 1
  storeGeneration := 1
  storeSequenceFirst := 1
  storeSequenceLast := 1
  clusterID := cluster
  incarnation := incarnation
  payload := [7]

def anchorBytes : Bytes := anchor.encode crypto.sha256

def entryBytes : Bytes := entry.encode crypto.sha256

def ordering : OrderingJournal where
  header := ⟨cluster, incarnation, {}⟩

/-- The member on its empty files. -/
def member : Except StartError Replica := start crypto codec file [] ordering []

/-- It receives both frames and stops before the state file has the second. -/
def calls : List Call :=
  [.receive anchorBytes {}, .receive entryBytes { state := .failed false }]

/-- The member started again on the files it left. -/
def restarted : Except StartError Replica :=
  match member with
  | .error err => .error err
  | .ok s =>
    let left := s.run crypto codec calls
    start crypto codec left.publisher.file [] left.journal left.frames

end Sample

open Sample in
theorem receiver_safety_sample : ∃ s₀, start crypto codec file [] ordering [] = .ok s₀ ∧
      NotBelow (s₀.run crypto codec calls)
        ((s₀.run crypto codec calls).after crypto codec (.receive anchorBytes {})) := by
  have hstarts : (start crypto codec file [] ordering []).isOk = true := by decide +kernel
  rcases hstart : start crypto codec file [] ordering [] with err | s₀
  · rw [hstart] at hstarts
    cases hstarts
  · have hsafety := receiver_safety hstart rfl nofun calls (.receive anchorBytes {})
    exact ⟨s₀, rfl, hsafety.2.2.2.2.2.1⟩

open Sample in
/-- The restarted member acknowledges index 2 for the retransmitted anchor, and its state file has
index 1. -/
theorem acknowledges_unpublished : (restarted.map fun s =>
      ((s.call crypto codec (.receive anchorBytes {})).1.map (Option.map (·.index)),
        (s.after crypto codec (.receive anchorBytes {})).publisher.file.durableIndex)) =
      .ok (.ok (some 2), 1) := by
  decide +kernel

end Replica

end Replication

end Halro
