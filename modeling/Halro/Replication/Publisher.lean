import Halro.Replication.Transition

/-!
# The state publisher (`internal/replication/state_publisher.go`, `internal/replication/state_file.go`)

The publisher is the one writer of a member's state file.  It publishes progress, and the three
changes of role and terms: a promise, a promotion and the adoption of a higher term.  A publication
replaces the file by a rename; one that fails may have replaced it or not, and stops the publisher
until it is opened again.
-/

namespace Halro

open Framework

namespace Replication

/-- The result of writing the state file: when it fails, the rename may have been made or not. -/
inductive StateWrite
  | published
  | failed (replaced : Bool)
  deriving DecidableEq

/-- The results of the writes of one change of role or terms, and its time. -/
structure TransitionIO where
  now : ℤ
  intent : TransitionJournal.IntentWrite := .synced
  state : StateWrite := .published

inductive PublishError
  | notPrimary
  | notReplica
  | progress (role : Role)
  | projection (role : Role)
  | head (role : Role)
  | poisoned
  | identity
  | transitionIdentity
  | transitionProgress
  | transitionCursor
  | state (error : StateError)
  | write
  | transition (error : TransitionError)
  | orphanJournal
  | promisedTerm
  | notPromotable
  | changed
  | promotionTerm
  | regress
  deriving DecidableEq

def PublishError.message : PublishError → String
  | .notPrimary => "cannot publish Primary progress for a non-Primary member"
  | .notReplica => "cannot publish Replica progress for a non-Replica member"
  | .progress .primary =>
      "primary member-state progress regressed or crossed its durable prefix"
  | .progress _ => "replica member-state progress regressed or crossed its allowed prefix"
  | .projection .primary =>
      "primary member-state projection regressed or does not match confirmed progress"
  | .projection _ =>
      "replica member-state projection regressed or does not match applied progress"
  | .head .primary => "primary member-state progress has an invalid ordering head"
  | .head _ => "replica member-state progress has an invalid ordering head"
  | .poisoned => "member-state publisher requires restart after ambiguous durable write"
  | .identity =>
      "member-state progress publication cannot change identity, role, term or membership"
  | .transitionIdentity => "member-state transition cannot change identity or membership"
  | .transitionProgress => "member-state transition cannot change progress"
  | .transitionCursor => "member-state transition cannot set its own journal cursor"
  | .state err => err.message
  | .write => "publish member state"
  | .transition err => err.message
  | .orphanJournal =>
      "version-2 member state has a transition journal; finish or recover the offline migration"
  | .notPromotable => "only a Replica may be promoted"
  | .promisedTerm => "proposed term must be greater than promised_term"
  | .changed => "member term or applied index changed after promotion inspection"
  | .promotionTerm =>
      "promotion term must equal a durable promise newer than the current term"
  | .regress => "higher-term adoption would regress term or promised_term"

structure PrimaryProgress where
  durableIndex : ℕ
  confirmedIndex : ℕ
  orderingHeadMAC : Digest
  projection : ProjectionState
  deriving DecidableEq

structure ReplicaProgress where
  durableIndex : ℕ
  confirmedIndex : ℕ
  appliedIndex : ℕ
  orderingHeadMAC : Digest
  projection : ProjectionState
  deriving DecidableEq

/-- The state with new Primary progress.  Native stores of a Primary apply before the order is
confirmed; its state exposes only the quorum-safe prefix as applied. -/
def MemberState.withPrimaryProgress (s : MemberState) (progress : PrimaryProgress) : MemberState :=
  { s with
    durableIndex := progress.durableIndex
    confirmedIndex := progress.confirmedIndex
    appliedIndex := progress.confirmedIndex
    orderingHeadMAC := progress.orderingHeadMAC
    projection := progress.projection }

/-- The state with new Replica progress. -/
def MemberState.withReplicaProgress (s : MemberState) (progress : ReplicaProgress) : MemberState :=
  { s with
    durableIndex := progress.durableIndex
    confirmedIndex := progress.confirmedIndex
    appliedIndex := progress.appliedIndex
    orderingHeadMAC := progress.orderingHeadMAC
    projection := progress.projection }

/-- The publisher: the state it holds, the state its file holds, and the transition journal of a
version-3 member. -/
structure StatePublisher where
  state : MemberState
  file : MemberState
  journal : Option TransitionJournal := none
  poisoned : Bool := false

namespace StatePublisher

/-! ## Writing the file -/

/-- Replacing the state file.  A state that does not validate is not written. -/
def writeState (p : StatePublisher) (next : MemberState) (w : StateWrite) :
    Except PublishError Unit × StatePublisher :=
  match next.validate with
  | .error err => (.error (.state err), p)
  | .ok _ =>
    match w with
    | .published => (.ok (), { p with file := next })
    | .failed replaced => (.error .write, if replaced then { p with file := next } else p)

def SameMemberIdentity (s t : MemberState) : Prop :=
  s.version = t.version ∧ s.clusterID = t.clusterID ∧ s.incarnation = t.incarnation ∧
    s.nodeID = t.nodeID ∧ s.role = t.role ∧ s.term = t.term ∧ s.promisedTerm = t.promisedTerm ∧
    s.transition = t.transition ∧ s.peers = t.peers

instance (s t : MemberState) : Decidable (SameMemberIdentity s t) :=
  inferInstanceAs (Decidable (_ ∧ _))

/-- Publishing progress. -/
def publish (p : StatePublisher) (next : MemberState) (w : StateWrite) :
    Except PublishError Unit × StatePublisher :=
  if p.poisoned then (.error .poisoned, p)
  else if ¬ SameMemberIdentity p.state next then (.error .identity, p)
  else
    match p.writeState next w with
    | (.error err, p) => (.error err, { p with poisoned := true })
    | (.ok _, p) => (.ok (), { p with state := next })

/-- The head of a progress is zero exactly when its durable index is. -/
def ValidHead (durableIndex : ℕ) (head : Digest) : Prop :=
  ¬ (durableIndex = 0 ∧ head ≠ .zero ∨ durableIndex > 0 ∧ head = .zero)

instance (durableIndex : ℕ) (head : Digest) : Decidable (ValidHead durableIndex head) :=
  inferInstanceAs (Decidable (¬ (_ ∨ _)))

/-! ## Progress -/

def publishPrimary (p : StatePublisher) (progress : PrimaryProgress) (w : StateWrite) :
    Except PublishError Unit × StatePublisher :=
  if p.state.role ≠ .primary then (.error .notPrimary, p)
  else if progress.durableIndex < p.state.durableIndex ∨
      progress.confirmedIndex < p.state.confirmedIndex ∨
      progress.confirmedIndex > progress.durableIndex then
    (.error (.progress .primary), p)
  else if progress.projection.index ≠ progress.confirmedIndex ∨
      ¬ progress.projection.NotBehind p.state.projection then
    (.error (.projection .primary), p)
  else if ¬ ValidHead progress.durableIndex progress.orderingHeadMAC then (.error (.head .primary), p)
  else p.publish (p.state.withPrimaryProgress progress) w

def publishReplica (p : StatePublisher) (progress : ReplicaProgress) (w : StateWrite) :
    Except PublishError Unit × StatePublisher :=
  if p.state.role ≠ .replica then (.error .notReplica, p)
  else if progress.durableIndex < p.state.durableIndex ∨
      progress.confirmedIndex < p.state.confirmedIndex ∨
      progress.appliedIndex < p.state.appliedIndex ∨
      progress.confirmedIndex > progress.durableIndex ∨
      progress.appliedIndex > progress.confirmedIndex then
    (.error (.progress .replica), p)
  else if progress.projection.index ≠ progress.appliedIndex ∨
      ¬ progress.projection.NotBehind p.state.projection then
    (.error (.projection .replica), p)
  else if ¬ ValidHead progress.durableIndex progress.orderingHeadMAC then (.error (.head .replica), p)
  else p.publish (p.state.withReplicaProgress progress) w

/-! ## Changes of role and terms -/

section Transitions

variable (c : LineCodec)

/-- The intent of a change in the transition journal, if the member keeps one: the state that names
it, and the publisher with the journal as the write left it. -/
def recordIntent (p : StatePublisher) (next : MemberState) (kind : TransitionKind)
    (io : TransitionIO) : Except PublishError MemberState × StatePublisher :=
  match p.journal with
  | none => (.ok next, p)
  | some journal =>
    match journal.appendIntent c kind next.tuple io.now io.intent with
    | (.error err, journal) => (.error (.transition err), { p with journal := some journal })
    | (.ok cursor, journal) =>
      (.ok { next with transition := cursor }, { p with journal := some journal })

/-- Committing the intent the state names, in memory. -/
def commitIntent (p : StatePublisher) (next : MemberState) : Except PublishError StatePublisher :=
  match p.journal with
  | none => .ok { p with state := next }
  | some journal =>
    match journal.commit next.transition with
    | .error err => .error (.transition err)
    | .ok journal => .ok { p with state := next, journal := some journal }

def publishTransition (p : StatePublisher) (next : MemberState) (kind : TransitionKind)
    (io : TransitionIO) : Except PublishError Unit × StatePublisher :=
  if p.poisoned then (.error .poisoned, p)
  else if p.state.version ≠ next.version ∨ p.state.clusterID ≠ next.clusterID ∨
      p.state.incarnation ≠ next.incarnation ∨ p.state.nodeID ≠ next.nodeID ∨
      p.state.peers ≠ next.peers then
    (.error .transitionIdentity, p)
  else if next.durableIndex ≠ p.state.durableIndex ∨
      next.confirmedIndex ≠ p.state.confirmedIndex ∨ next.appliedIndex ≠ p.state.appliedIndex ∨
      next.orderingHeadMAC ≠ p.state.orderingHeadMAC ∨ next.projection ≠ p.state.projection then
    (.error .transitionProgress, p)
  else if next.transition ≠ p.state.transition then (.error .transitionCursor, p)
  else
    match p.recordIntent c next kind io with
    | (.error err, p) => (.error err, { p with poisoned := true })
    | (.ok next, p) =>
      match p.writeState next io.state with
      | (.error err, p) => (.error err, { p with poisoned := true })
      | (.ok _, p) =>
        match p.commitIntent next with
        | .error err => (.error err, { p with poisoned := true })
        | .ok p => (.ok (), p)

def promise (p : StatePublisher) (term : ℕ) (io : TransitionIO) :
    Except PublishError Unit × StatePublisher :=
  if term ≤ p.state.promisedTerm then (.error .promisedTerm, p)
  else p.publishTransition c
    { p.state with promisedTerm := term, role := p.state.role.afterPromise } .promise io

def promote (p : StatePublisher) (expectedTerm expectedAppliedIndex term : ℕ)
    (io : TransitionIO) : Except PublishError Unit × StatePublisher :=
  if p.state.role ≠ .replica then (.error .notPromotable, p)
  else if p.state.term ≠ expectedTerm ∨ p.state.appliedIndex ≠ expectedAppliedIndex then
    (.error .changed, p)
  else if term ≠ p.state.promisedTerm ∨ term ≤ p.state.term then (.error .promotionTerm, p)
  else p.publishTransition c { p.state with role := .primary, term := term } .promote io

def adoptHigherTerm (p : StatePublisher) (term promisedTerm : ℕ) (io : TransitionIO) :
    Except PublishError Unit × StatePublisher :=
  if term < p.state.term ∨ promisedTerm < term ∨ promisedTerm < p.state.promisedTerm then
    (.error .regress, p)
  else if term = p.state.term ∧ promisedTerm = p.state.promisedTerm ∧ p.state.role = .replica then
    (.ok (), p)
  else p.publishTransition c
    { p.state with role := .replica, term := term, promisedTerm := promisedTerm }
    .adoptHigherTerm io

/-! ## Opening -/

/-- Opening the publisher of a state file, with the files of the transition journal of a version-3
member.  The intent that was not committed is discarded. -/
def openPublisher (file : MemberState) (segments : List TransitionSegment) :
    Except PublishError StatePublisher :=
  match file.validate with
  | .error err => .error (.state err)
  | .ok _ =>
    match file.version with
    | .plain =>
      if segments ≠ [] then .error .orphanJournal else .ok { state := file, file := file }
    | .transition =>
      match TransitionJournal.openJournal c segments file with
      | .error err => .error (.transition err)
      | .ok journal =>
        match journal.resolvePending with
        | .error err => .error (.transition err)
        | .ok journal => .ok { state := file, file := file, journal := some journal }

end Transitions

/-! ## What a publication leaves -/

/-- The state of a publication that succeeded is what the publisher holds and what its file is. -/
structure Published (p q : StatePublisher) (next : MemberState) : Prop where
  working : p.poisoned = false
  state : q.state = next
  file : q.file = next
  valid : next.validate = .ok ()
  unpoisoned : q.poisoned = false

variable {p q : StatePublisher} {next : MemberState} {w : StateWrite}

lemma writeState_ok (h : p.writeState next w = (.ok (), q)) :
    next.validate = .ok () ∧ q = { p with file := next } := by
  simp only [writeState] at h
  split at h
  · cases h
  · rename_i hvalid
    split at h
    · exact ⟨hvalid, (Prod.mk.inj h).2.symm⟩
    · cases h

variable {err : PublishError}

lemma writeState_error (h : p.writeState next w = (.error err, q)) :
    q = p ∨ next.validate = .ok () ∧ q = { p with file := next } := by
  simp only [writeState] at h
  split at h
  · exact .inl (Prod.mk.inj h).2.symm
  · rename_i hvalid
    split at h <;> cases h
    split_ifs
    · exact .inr ⟨hvalid, rfl⟩
    · exact .inl rfl

lemma publish_ok (h : p.publish next w = (.ok (), q)) : Published p q next := by
  simp only [publish, guard_pair_eq_ok] at h
  obtain ⟨hpois, -, h⟩ := h
  split at h <;> cases h
  rename_i hwrite
  obtain ⟨hvalid, rfl⟩ := writeState_ok hwrite
  have hwork : p.poisoned = false := by simpa using hpois
  exact ⟨hwork, rfl, rfl, hvalid, hwork⟩

/-- A publication that failed keeps the state the publisher holds; the file may have the new one. -/
lemma publish_error (h : p.publish next w = (.error err, q)) :
    q.state = p.state ∧ (q.file = p.file ∨ q.file = next) := by
  simp only [publish] at h
  split_ifs at h
  · cases h
    exact ⟨rfl, .inl rfl⟩
  · split at h <;> cases h
    rename_i hwrite
    obtain rfl | ⟨-, rfl⟩ := writeState_error hwrite
    · exact ⟨rfl, .inl rfl⟩
    · exact ⟨rfl, .inr rfl⟩
  · cases h
    exact ⟨rfl, .inl rfl⟩

variable {progress : ReplicaProgress}

lemma publishReplica_ok (h : p.publishReplica progress w = (.ok (), q)) :
    Published p q (p.state.withReplicaProgress progress) ∧ p.state.role = .replica := by
  simp only [publishReplica, guard_pair_eq_ok] at h
  obtain ⟨hrole, -, -, -, h⟩ := h
  exact ⟨publish_ok h, not_not.mp hrole⟩

/-- Progress of a Replica that does not regress is published when its write succeeds. -/
lemma publishReplica_published (hwork : p.poisoned = false) (hrole : p.state.role = .replica)
    (hvalid : p.state.validate = .ok ()) (hdur : p.state.durableIndex ≤ progress.durableIndex)
    (hconf : p.state.confirmedIndex ≤ progress.confirmedIndex)
    (happl : p.state.appliedIndex ≤ progress.appliedIndex)
    (hconf' : progress.confirmedIndex ≤ progress.durableIndex)
    (happl' : progress.appliedIndex ≤ progress.confirmedIndex)
    (hproj : progress.projection.index = progress.appliedIndex)
    (hbehind : progress.projection.NotBehind p.state.projection)
    (hhead : ValidHead progress.durableIndex progress.orderingHeadMAC) :
    (p.publishReplica progress .published).1 = .ok () := by
  have hprog : ¬ (progress.durableIndex < p.state.durableIndex ∨
      progress.confirmedIndex < p.state.confirmedIndex ∨
      progress.appliedIndex < p.state.appliedIndex ∨
      progress.confirmedIndex > progress.durableIndex ∨
      progress.appliedIndex > progress.confirmedIndex) := by omega
  have hprojd : ¬ (progress.projection.index ≠ progress.appliedIndex ∨
      ¬ progress.projection.NotBehind p.state.projection) := by
    rintro (hne | hnot)
    · exact hne hproj
    · exact hnot hbehind
  simp only [publishReplica, hrole, ne_eq, not_true_eq_false, if_false, if_neg hprog,
    if_neg hprojd, hhead]
  have hidn : SameMemberIdentity p.state (p.state.withReplicaProgress progress) :=
    ⟨rfl, rfl, rfl, rfl, rfl, rfl, rfl, rfl, rfl⟩
  have hnext : (p.state.withReplicaProgress progress).validate = .ok () := by
    simp only [MemberState.validate, guard_eq_ok] at hvalid ⊢
    obtain ⟨hplain, hcsr, hidn, hterm, hprom, -, -, -, -, -, hpeers⟩ := hvalid
    obtain ⟨hunexpected, hmiss⟩ := not_or.mp hhead
    exact ⟨hplain, hcsr, hidn, hterm, hprom, not_lt.mpr hconf', not_lt.mpr happl',
      not_lt.mpr hproj.le, hmiss, hunexpected, hpeers⟩
  simp [publish, writeState, hwork, hidn, hnext]

lemma publishPrimary_ok {progress : PrimaryProgress} (h : p.publishPrimary progress w = (.ok (), q)) :
    Published p q (p.state.withPrimaryProgress progress) ∧ p.state.role = .primary := by
  simp only [publishPrimary, guard_pair_eq_ok] at h
  obtain ⟨hrole, -, -, -, h⟩ := h
  exact ⟨publish_ok h, not_not.mp hrole⟩

lemma publishPrimary_error {progress : PrimaryProgress}
    (h : p.publishPrimary progress w = (.error err, q)) :
    q.state = p.state ∧ (q.file = p.file ∨ p.state.confirmedIndex ≤ q.file.confirmedIndex) := by
  simp only [publishPrimary] at h
  split_ifs at h with hrole hprog hproj hhead
  · cases h
    exact ⟨rfl, .inl rfl⟩
  · cases h
    exact ⟨rfl, .inl rfl⟩
  · cases h
    exact ⟨rfl, .inl rfl⟩
  · obtain ⟨hstate, hfile⟩ := publish_error h
    refine ⟨hstate, hfile.imp_right fun hnext => ?_⟩
    rw [hnext]
    show p.state.confirmedIndex ≤ progress.confirmedIndex
    omega
  · cases h
    exact ⟨rfl, .inl rfl⟩

section Outcomes

variable {c : LineCodec}

/-- The state a successful change leaves, up to the cursor of its intent. -/
structure Changed (p q : StatePublisher) (next : MemberState) : Prop where
  working : p.poisoned = false
  state : ∃ cursor, q.state = { next with transition := cursor }
  file : q.file = q.state
  valid : q.state.validate = .ok ()
  unpoisoned : q.poisoned = false

lemma openPublisher_ok {file : MemberState} {segments : List TransitionSegment}
    (h : openPublisher c file segments = .ok p) :
    file.validate = .ok () ∧ p.state = file ∧ p.file = file ∧ p.poisoned = false := by
  simp only [openPublisher] at h
  split at h
  · cases h
  · rename_i hvalid
    refine ⟨hvalid, ?_⟩
    split at h
    · obtain ⟨-, h⟩ := guard_eq_ok.mp h
      cases h
      exact ⟨rfl, rfl, rfl⟩
    · split at h
      · cases h
      · split at h <;> cases h
        exact ⟨rfl, rfl, rfl⟩

variable {kind : TransitionKind} {io : TransitionIO}

lemma recordIntent_ok {named : MemberState} (h : p.recordIntent c next kind io = (.ok named, q)) :
    (∃ cursor, named = { next with transition := cursor }) ∧ q.poisoned = p.poisoned := by
  simp only [recordIntent] at h
  split at h
  · cases h
    exact ⟨⟨next.transition, rfl⟩, rfl⟩
  · split at h <;> cases h
    exact ⟨⟨_, rfl⟩, rfl⟩

lemma commitIntent_ok (h : p.commitIntent next = .ok q) :
    q.state = next ∧ q.file = p.file ∧ q.poisoned = p.poisoned := by
  simp only [commitIntent] at h
  split at h
  · cases h
    exact ⟨rfl, rfl, rfl⟩
  · split at h <;> cases h
    exact ⟨rfl, rfl, rfl⟩

lemma publishTransition_ok (h : p.publishTransition c next kind io = (.ok (), q)) :
    Changed p q next := by
  simp only [publishTransition, guard_pair_eq_ok] at h
  obtain ⟨hpois, -, -, -, h⟩ := h
  split at h
  · cases h
  rename_i named recorded hintent
  split at h
  · cases h
  rename_i hwrite
  split at h <;> cases h
  rename_i hcmt
  obtain ⟨⟨cursor, rfl⟩, hkept⟩ := recordIntent_ok hintent
  obtain ⟨hvalid, rfl⟩ := writeState_ok hwrite
  obtain ⟨hstate, hfile, hpoi⟩ := commitIntent_ok hcmt
  have hwork : p.poisoned = false := by simpa using hpois
  exact
    { working := hwork
      state := ⟨cursor, hstate⟩
      file := by rw [hfile, hstate]
      valid := by rw [hstate]; exact hvalid
      unpoisoned := hpoi.trans (hkept.trans hwork) }

/-- A change that failed keeps the state the publisher holds; the file may have the new one, up to
the cursor of its intent. -/
lemma publishTransition_error (h : p.publishTransition c next kind io = (.error err, q)) :
    q.state = p.state ∧ (q.file = p.file ∨ ∃ cursor, q.file = { next with transition := cursor }) := by
  simp only [publishTransition] at h
  split_ifs at h
  iterate 4
    · cases h
      exact ⟨rfl, .inl rfl⟩
  have hkept : (p.recordIntent c next kind io).2.state = p.state ∧
      (p.recordIntent c next kind io).2.file = p.file := by
    simp only [recordIntent]
    split
    · exact ⟨rfl, rfl⟩
    · split <;> exact ⟨rfl, rfl⟩
  split at h
  · rename_i hintent
    rw [hintent] at hkept
    cases h
    exact ⟨hkept.1, .inl hkept.2⟩
  · rename_i named recorded hintent
    rw [hintent] at hkept
    obtain ⟨⟨cursor, rfl⟩, -⟩ := recordIntent_ok hintent
    split at h
    · rename_i hwrite
      cases h
      obtain rfl | ⟨-, rfl⟩ := writeState_error hwrite
      · exact ⟨hkept.1, .inl hkept.2⟩
      · exact ⟨hkept.1, .inr ⟨cursor, rfl⟩⟩
    · rename_i hwrite
      obtain ⟨-, rfl⟩ := writeState_ok hwrite
      split at h <;> cases h
      exact ⟨hkept.1, .inr ⟨cursor, rfl⟩⟩

/-- What any change of role or terms keeps of the progress. -/
structure SameProgress (p q : StatePublisher) : Prop where
  confirmed : q.state.confirmedIndex = p.state.confirmedIndex
  durable : q.state.durableIndex = p.state.durableIndex
  file : q.file = p.file ∨ q.file.confirmedIndex = p.state.confirmedIndex

lemma publishTransition_progress (p : StatePublisher) (next : MemberState) (kind : TransitionKind)
    (io : TransitionIO) (hconf : next.confirmedIndex = p.state.confirmedIndex)
    (hdur : next.durableIndex = p.state.durableIndex) :
    SameProgress p (p.publishTransition c next kind io).2 := by
  rcases h : p.publishTransition c next kind io with ⟨err | u, q⟩
  · obtain ⟨hstate, hfile⟩ := publishTransition_error h
    refine ⟨by rw [hstate], by rw [hstate], hfile.imp_right ?_⟩
    rintro ⟨cursor, hcsr⟩
    rw [hcsr]
    exact hconf
  · have hchgd := publishTransition_ok h
    obtain ⟨cursor, hstate⟩ := hchgd.state
    refine ⟨?_, ?_, .inr ?_⟩
    · rw [hstate]
      exact hconf
    · rw [hstate]
      exact hdur
    · rw [hchgd.file, hstate]
      exact hconf

lemma promise_progress (p : StatePublisher) (term : ℕ) (io : TransitionIO) :
    SameProgress p (p.promise c term io).2 := by
  simp only [promise]
  split_ifs
  · exact ⟨rfl, rfl, .inl rfl⟩
  · exact publishTransition_progress p _ _ io rfl rfl

lemma adoptHigherTerm_progress (p : StatePublisher) (term promisedTerm : ℕ) (io : TransitionIO) :
    SameProgress p (p.adoptHigherTerm c term promisedTerm io).2 := by
  simp only [adoptHigherTerm]
  split_ifs
  · exact ⟨rfl, rfl, .inl rfl⟩
  · exact ⟨rfl, rfl, .inl rfl⟩
  · exact publishTransition_progress p _ _ io rfl rfl

end Outcomes

end StatePublisher

end Replication

end Halro
