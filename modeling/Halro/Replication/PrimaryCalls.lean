import Halro.Replication.Primary

/-!
# What one call of the primary coordinator does

The calls of a Primary are serialised by its lock.  What they do to the part of the coordinator that
carries the confirmed order (`Core`) is listed once in `Called`; availability, the commit notice and
what the peers have applied are left open there, since nothing about the order rests on them.
-/

namespace Halro

open Framework Replication.PrimaryCoordinator

namespace Replication

/-- The part of a coordinator that carries the confirmed order. -/
structure PrimaryCoordinator.Core where
  term : ℕ
  confirmations : ConfirmationTracker
  confirmed : ℕ
  projection : ProjectionState
  pending : FinMap ℕ Bytes
  manualUnavailable : Option Cause
  poisoned : Option Cause

namespace PrimaryCoordinator

def core (c : PrimaryCoordinator) : Core where
  term := c.term
  confirmations := c.confirmations
  confirmed := c.confirmed
  projection := c.projection
  pending := c.pending
  manualUnavailable := c.manualUnavailable
  poisoned := c.poisoned

section

variable (c : PrimaryCoordinator)

include c

@[simp] lemma core_refreshAvailability : c.refreshAvailability.core = c.core := by
  simp only [refreshAvailability]
  split_ifs <;> rfl

@[simp] lemma core_queueCommitNotice (confirmed : ℕ) (queued : Bool) :
    (c.queueCommitNotice confirmed queued).2.core = c.core := by
  simp only [queueCommitNotice]
  split
  · rfl
  · split_ifs <;> rfl

@[simp] lemma core_queueRecovered (io : NewIO)
    (recovered : List LocalCommit) : (c.queueRecovered io recovered).core = c.core := by
  simp only [queueRecovered]
  induction recovered generalizing c with
  | nil => rfl
  | cons commit rest ih =>
    simp only [List.foldl_cons]
    rw [ih]
    split_ifs <;> rfl

@[simp] lemma core_queueEstablished (established : Bool) (io : NewIO) :
    (c.queueEstablished established io).core = c.core := by
  simp only [queueEstablished]
  split_ifs
  · have hkept := core_queueCommitNotice c c.confirmed io.notice
    split <;> rename_i hqueue <;> rw [hqueue] at hkept <;> exact hkept
  · rfl

omit c in
lemma core_retryFrames (io : RetryIO) (rounds index : ℕ) (c : PrimaryCoordinator) :
    (Primary.retryFrames io rounds index c).2.core = c.core := by
  induction rounds generalizing index with
  | zero => rfl
  | succ rounds ih =>
    simp only [Primary.retryFrames]
    split
    · rfl
    · split_ifs
      · exact ih (index + 1)
      · rfl

@[simp] lemma core_noteApplied (ack : Acknowledgement) : (c.noteApplied ack).core = c.core := by
  simp only [noteApplied]
  split_ifs <;> rfl

@[simp] lemma core_dropAppliedNotice : c.dropAppliedNotice.core = c.core := by
  simp only [dropAppliedNotice]
  split
  · rfl
  · split_ifs <;> rfl

@[simp] lemma core_clearFailedFrame : c.clearFailedFrame.core = c.core := by
  simp only [clearFailedFrame]
  split_ifs <;> rfl

@[simp] lemma core_announce (queued : Bool) : (c.announce queued).core = c.core := by
  have hkept := core_queueCommitNotice c c.confirmed queued
  simp only [announce]
  split <;> rename_i hqueue <;> rw [hqueue] at hkept <;> exact hkept

lemma core_confirmThrough (confirmed : ℕ) : (c.confirmThrough confirmed).core =
      { c.core with
        confirmed := confirmed
        pending := c.core.pending.eraseAll (List.range (confirmed + 1)) } := rfl

/-- What an accepted acknowledgement leaves of the order. -/
lemma core_acknowledged (ack : Acknowledgement) (confirmed : ℕ) (queued : Bool) :
    (c.acknowledged ack confirmed queued).core =
      { c.core with
        confirmed := confirmed
        pending := c.core.pending.eraseAll (List.range (confirmed + 1)) } := by
  simp only [acknowledged, core_refreshAvailability]
  split_ifs <;> simp [core_confirmThrough]

end

end PrimaryCoordinator

namespace Primary

/-! ## Calls -/

inductive Call
  | recordDurable (frame : Frame) (io : RecordIO)
  | acknowledge (ack : Acknowledgement) (io : AckIO)
  | retryPending (io : RetryIO)
  | markUnavailable (text : String)
  | freezeForStepdown (expectedIndex : ℕ)
  | waitConfirmed (index : ℕ)

inductive Reply
  | commit (commit : LocalCommit)
  | confirmed (index : ℕ)
  | done
  | waited (found : Waited)
  deriving DecidableEq

abbrev Answer := Except PrimaryError Reply

variable (k : Crypto)

/-- A call: its answer, and the member after it. -/
def call (s : Primary) : Call → Answer × Primary
  | .recordDurable f io => ((s.recordDurable k f io).1.map .commit, (s.recordDurable k f io).2)
  | .acknowledge ack io => ((s.acknowledge ack io).1.map .confirmed, (s.acknowledge ack io).2)
  | .retryPending io => ((s.retryPending io).1.map fun _ => .done, (s.retryPending io).2)
  | .markUnavailable text => (.ok .done, s.markUnavailable text)
  | .freezeForStepdown expectedIndex =>
    ((s.freezeForStepdown expectedIndex).1.map fun _ => .done, (s.freezeForStepdown expectedIndex).2)
  | .waitConfirmed index => ((s.waitConfirmed index).map .waited, s)

/-- The member after a call. -/
def after (s : Primary) (call : Call) : Primary := (s.call k call).2

/-- The member after a list of calls. -/
def run (s : Primary) (calls : List Call) : Primary := calls.foldl (after k) s

variable {k}

/-! ## The outcomes of a call -/

/-- Nothing is recorded and no index is waited for in vain: the answers of the calls that leave the
order as it is. -/
def Answer.Silent (answer : Answer) : Prop := ∀ commit, answer ≠ .ok (.commit commit)

/-- What a durable transition that failed leaves of a member: a coordinator that has to be restarted,
with the order it had, a journal that may have the record, and a state file that may have the
progress. -/
structure Broken (k : Crypto) (s t : Primary) : Prop where
  poisoned : t.coordinator.poisoned ≠ none
  core : ∃ confirmations poisoned, confirmations.Clean ∧
    confirmations.peers = s.coordinator.confirmations.peers ∧
    confirmations.term = s.coordinator.confirmations.term ∧
    t.coordinator.core = { s.coordinator.core with
      confirmations := confirmations, poisoned := poisoned }
  journal : t.journal = s.journal ∨
    ∃ r w record, s.journal.append k r w = (.ok record, t.journal) ∧ r.term = s.coordinator.term
  publisher : t.publisher = s.publisher ∨ ∃ progress w err,
    s.publisher.publishPrimary progress w = (.error err, t.publisher)

/-- A frame that is ordered, published and kept. -/
structure Recorded (k : Crypto) (s : Primary) (f : Frame) (commit : LocalCommit) (t : Primary) :
    Prop where
  working : s.coordinator.poisoned = none ∧ s.coordinator.manualUnavailable = none
  index : commit.index = s.journal.head.index + 1
  valid : (s.coordinator.stamp s.journal.head.index f).validate = .ok ()
  encoded : commit.encoded = (s.coordinator.stamp s.journal.head.index f).encode k.sha256
  recorded : ∃ write record journal confirmations q w,
    s.journal.append k (.ofFrame (s.coordinator.stamp s.journal.head.index f)
      ((s.coordinator.stamp s.journal.head.index f).digest k.sha256)) write = (.ok record, journal) ∧
    s.coordinator.confirmations.register (s.coordinator.stamp s.journal.head.index f) =
      .ok confirmations ∧
    s.publisher.publishPrimary ⟨commit.index, s.coordinator.confirmed, record.mac,
      s.coordinator.projection⟩ w = (.ok (), q) ∧
    t.journal = journal ∧ t.publisher = q ∧
    t.coordinator.core = { s.coordinator.core with
      confirmations := confirmations
      pending := s.coordinator.pending.insert commit.index commit.encoded }

/-- An acknowledgement that confirms more of the order. -/
structure Confirmed (s : Primary) (ack : Acknowledgement) (t : Primary) : Prop where
  working : s.coordinator.poisoned = none ∧ s.coordinator.manualUnavailable = none
  peer : s.coordinator.confirmations.OfPeer ack
  above : s.coordinator.confirmations.confirmed < ack.index
  registered : ack.index ≤ s.coordinator.confirmations.lastRegistered
  journal : t.journal = s.journal
  published : ∃ confirmations projection q w, confirmations.Clean ∧
    confirmations = { s.coordinator.confirmations with
      confirmed := ack.index, pending := confirmations.pending } ∧
    s.coordinator.projectionThrough s.journal ack.index = .ok projection ∧
    s.publisher.publishPrimary ⟨s.journal.head.index, ack.index, s.journal.head.mac, projection⟩ w =
      (.ok (), q) ∧
    t.publisher = q ∧
    t.coordinator.core = { s.coordinator.core with
      confirmations := confirmations
      confirmed := ack.index
      projection := projection
      pending := s.coordinator.pending.eraseAll (List.range (ack.index + 1)) }

/-- Everything a call can do. -/
inductive Called (k : Crypto) (s : Primary) : Call → Answer → Primary → Prop
  | kept {call : Call} {answer : Answer} {t : Primary} (silent : answer.Silent)
      (waits : ∀ index, call = .waitConfirmed index → answer = .ok (.waited .confirmed) →
        index ≤ s.coordinator.confirmed)
      (unfrozen : ∀ index, call = .freezeForStepdown index → ∃ err, answer = .error err)
      (core : t.coordinator.core = s.coordinator.core) (journal : t.journal = s.journal)
      (publisher : t.publisher = s.publisher) : Called k s call answer t
  | unordered {f : Frame} {io : RecordIO} {err : PrimaryError} {t : Primary}
      {r : OrderingRecord} {w : WriteResult} {refusal : OrderingError}
      (working : s.coordinator.poisoned = none ∧ s.coordinator.manualUnavailable = none)
      (appended : s.journal.append k r w = (.error refusal, t.journal))
      (coordinator : t.coordinator = s.coordinator) (publisher : t.publisher = s.publisher) :
      Called k s (.recordDurable f io) (.error err) t
  | broken {call : Call} {err : PrimaryError} {t : Primary}
      (working : s.coordinator.poisoned = none ∧ s.coordinator.manualUnavailable = none)
      (waits : ∀ index, call ≠ .waitConfirmed index)
      (unfrozen : ∀ index, call ≠ .freezeForStepdown index) (broken : Broken k s t) :
      Called k s call (.error err) t
  | recorded {f : Frame} {io : RecordIO} {commit : LocalCommit} {t : Primary}
      (recorded : Recorded k s f commit t) :
      Called k s (.recordDurable f io) (.ok (.commit commit)) t
  | known {ack : Acknowledgement} {io : AckIO} {t : Primary}
      (working : s.coordinator.poisoned = none ∧ s.coordinator.manualUnavailable = none)
      (same : s.coordinator.confirmations.confirmed = s.coordinator.confirmed)
      (core : t.coordinator.core = { s.coordinator.core with
        pending := s.coordinator.pending.eraseAll (List.range (s.coordinator.confirmed + 1)) })
      (journal : t.journal = s.journal) (publisher : t.publisher = s.publisher) :
      Called k s (.acknowledge ack io) (.ok (.confirmed s.coordinator.confirmed)) t
  | confirmed {ack : Acknowledgement} {io : AckIO} {t : Primary} (confirmed : Confirmed s ack t) :
      Called k s (.acknowledge ack io) (.ok (.confirmed ack.index)) t
  | unavailable {call : Call} {t : Primary} {cause : Cause}
      (waits : ∀ index, call ≠ .waitConfirmed index)
      (core : t.coordinator.core = { s.coordinator.core with manualUnavailable := some cause })
      (journal : t.journal = s.journal) (publisher : t.publisher = s.publisher) :
      Called k s call (.ok .done) t

/-! ## Every call is one of them -/

section

variable (s : Primary)

include s

lemma called_recordDurable (hclean : s.coordinator.confirmations.Clean) (f : Frame)
    (io : RecordIO) :
    Called k s (.recordDurable f io) ((s.recordDurable k f io).1.map .commit)
      (s.recordDurable k f io).2 := by
  simp only [recordDurable]
  split
  · exact .kept nofun nofun nofun rfl rfl rfl
  rename_i hblk
  have hwork := blocked_eq_none.mp hblk
  split
  · exact .kept nofun nofun nofun rfl rfl rfl
  rename_i hmsh
  obtain ⟨_, hvalid, hmsh⟩ := map_eq_ok.mp hmsh
  cases hmsh
  split <;> rename_i happ
  · exact .unordered hwork happ rfl rfl
  split <;> rename_i hreg
  · refine .broken hwork nofun nofun ⟨nofun, ?_, ?_, .inl rfl⟩
    · exact ⟨s.coordinator.confirmations, some (.register _), hclean, rfl, rfl, rfl⟩
    · exact .inr ⟨_, _, _, happ, rfl⟩
  have hregd := ConfirmationTracker.register_ok hreg
  split <;> rename_i hpub
  · refine .broken hwork nofun nofun ⟨nofun, ?_, ?_, .inr ⟨_, _, _, hpub⟩⟩
    · refine ⟨_, some (.state _), hregd.clean hclean, ?_, ?_, rfl⟩
      · rw [hregd.eq]
      · rw [hregd.eq]
    · exact .inr ⟨_, _, _, happ, rfl⟩
  split_ifs
  all_goals
    exact .recorded ⟨hwork, rfl, hvalid, rfl, io.append, _, _, _, _, io.state, happ, hreg,
      hpub, rfl, rfl, rfl⟩

lemma called_acknowledge (hclean : s.coordinator.confirmations.Clean)
    (hsame : s.coordinator.poisoned = none →
      s.coordinator.confirmations.confirmed = s.coordinator.confirmed)
    (ack : Acknowledgement) (io : AckIO) :
    Called k s (.acknowledge ack io) ((s.acknowledge ack io).1.map .confirmed)
      (s.acknowledge ack io).2 := by
  simp only [acknowledge]
  split
  · exact .kept nofun nofun nofun rfl rfl rfl
  rename_i hblk
  have hwork := blocked_eq_none.mp hblk
  have hconf := hsame hwork.1
  have hcases := ConfirmationTracker.acknowledge_cases hclean ack
  generalize s.coordinator.confirmations.acknowledge ack = result at hcases
  cases hcases with
  | refused err => exact .kept nofun nofun nofun rfl rfl rfl
  | known peer within =>
    have hstays : ¬ s.coordinator.confirmations.confirmed ≠ s.coordinator.confirmed :=
      not_not.mpr hconf
    simp only [if_neg hstays]
    rw [hconf]
    refine .known hwork hconf ?_ rfl rfl
    exact core_acknowledged s.coordinator ack _ _
  | @advanced tracker peer above registered clean eq =>
    have hadvd : ack.index ≠ s.coordinator.confirmed := by
      rw [← hconf]
      exact Nat.ne_of_gt above
    simp only [if_pos hadvd]
    split <;> rename_i hproj
    · refine .broken hwork nofun nofun ⟨nofun, ?_, .inl rfl, .inl rfl⟩
      exact ⟨tracker, some (.projection _), clean, by rw [eq], by rw [eq], rfl⟩
    · split <;> rename_i hpub
      · refine .broken hwork nofun nofun ⟨nofun, ?_, .inl rfl, .inr ⟨_, _, _, hpub⟩⟩
        exact ⟨tracker, some (.state _), clean, by rw [eq], by rw [eq], rfl⟩
      · refine .confirmed ⟨hwork, peer, above, registered, rfl, tracker, _, _, io.state, clean, eq,
          hproj, hpub, rfl, ?_⟩
        exact core_acknowledged _ ack _ _

/-- A retry leaves the order, the journal and the publisher as they are. -/
lemma retryPending_kept (io : RetryIO) :
    (s.retryPending io).2.coordinator.core = s.coordinator.core ∧
      (s.retryPending io).2.journal = s.journal ∧
      (s.retryPending io).2.publisher = s.publisher := by
  have hcore := core_retryFrames io s.coordinator.pending.size
    (s.coordinator.confirmed + 1) s.coordinator
  simp only [retryPending]
  split <;> rename_i hretry <;> rw [hretry] at hcore
  · exact ⟨hcore, rfl, rfl⟩
  · split
    · exact ⟨(core_refreshAvailability _).trans hcore, rfl, rfl⟩
    · split_ifs <;> exact ⟨(core_refreshAvailability _).trans hcore, rfl, rfl⟩

lemma called_retryPending (io : RetryIO) :
    Called k s (.retryPending io) ((s.retryPending io).1.map fun _ => .done)
      (s.retryPending io).2 := by
  obtain ⟨hcore, hjrnl, hpubr⟩ := retryPending_kept s io
  refine .kept ?_ nofun nofun hcore hjrnl hpubr
  rcases (s.retryPending io).1 with err | u <;> nofun

lemma called_freezeForStepdown (expectedIndex : ℕ) : Called k s (.freezeForStepdown expectedIndex)
      ((s.freezeForStepdown expectedIndex).1.map fun _ => .done)
      (s.freezeForStepdown expectedIndex).2 := by
  simp only [freezeForStepdown]
  split
  · exact .kept nofun nofun (fun _ _ => ⟨_, rfl⟩) rfl rfl rfl
  · split_ifs
    · exact .kept nofun nofun (fun _ _ => ⟨_, rfl⟩) rfl rfl rfl
    · exact .unavailable nofun rfl rfl rfl

lemma called_waitConfirmed (index : ℕ) :
    Called k s (.waitConfirmed index) ((s.waitConfirmed index).map .waited) s := by
  refine .kept ?_ ?_ nofun rfl rfl rfl
  · intro commit
    simp only [waitConfirmed]
    split_ifs <;> nofun
  · intro other heq hans
    cases heq
    simp only [waitConfirmed] at hans
    split_ifs at hans with hle
    · exact hle
    · cases hans
    · cases hans

/-- **Every call is one of the outcomes.** -/
theorem called (hclean : s.coordinator.confirmations.Clean) (hsame : s.coordinator.poisoned = none →
      s.coordinator.confirmations.confirmed = s.coordinator.confirmed) (call : Call) :
    Called k s call (s.call k call).1 (s.after k call) := by
  cases call with
  | recordDurable f io => exact called_recordDurable s hclean f io
  | acknowledge ack io => exact called_acknowledge s hclean hsame ack io
  | retryPending io => exact called_retryPending s io
  | markUnavailable text => exact .unavailable nofun rfl rfl rfl
  | freezeForStepdown expectedIndex => exact called_freezeForStepdown s expectedIndex
  | waitConfirmed index => exact called_waitConfirmed s index

end

end Primary

end Replication

end Halro
