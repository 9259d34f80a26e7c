import Halro.Replication.Member

/-!
# The transition journal (`internal/replication/transition_journal.go`)

A version-3 member records every change of its role and terms as an intent in a journal of its own
before it publishes the state file; the cursor in the state file, not the presence of a record,
commits the change.  This module holds the records, the files of the journal, its opening with the
removal of one intent that was not committed, and the appending and committing of an intent.

A file is the records whose lines are complete and the number of bytes of an incomplete line after
them.  The line of a record, its length and its message authentication code are a parameter.
-/

namespace Halro

open Framework

namespace Replication

/-! ## Records -/

structure TransitionTuple where
  role : Role
  term : ℕ
  promisedTerm : ℕ
  deriving DecidableEq

def MemberState.tuple (s : MemberState) : TransitionTuple := ⟨s.role, s.term, s.promisedTerm⟩

inductive TransitionKind
  | legacyBaseline
  | initialState
  | promise
  | promote
  | adoptHigherTerm
  deriving DecidableEq

structure TransitionRecord where
  journalID : Bytes
  clusterID : Bytes
  incarnation : Bytes
  nodeID : Bytes
  sequence : ℕ
  kind : TransitionKind
  /-- The time of the record; zero is the zero time. -/
  recordedAt : ℤ
  source : TransitionTuple
  target : TransitionTuple
  previousDigest : Option Digest := none
  baselineStateMAC : Option Digest := none
  mac : Digest := .zero
  deriving DecidableEq

/-- The line of a record: its length with the line end, and the code it carries. -/
structure LineCodec where
  size : TransitionRecord → ℕ
  mac : TransitionRecord → Digest
  size_pos : ∀ r, 0 < size r

inductive TransitionError
  | record
  | baseline
  | chain
  | incomplete
  | mac
  | segmentFile
  | segmentStart
  | identity
  | cursor
  | stateCursor
  | state (error : StateError)
  | pendingSuffix
  | baselineDiscard
  | pendingOffset
  | unresolved
  | recordSize
  | segmentSize
  | write
  | commitIntent
  | commitDigest
  deriving DecidableEq

def TransitionError.message : TransitionError → String
  | .record => "transition journal record has invalid identity or state"
  | .baseline => "transition journal baseline is invalid"
  | .chain => "transition journal identity, sequence or tuple chain is invalid"
  | .incomplete => "transition journal record is incomplete or oversized"
  | .mac => "transition journal MAC mismatch"
  | .segmentFile =>
      "transition journal segment must be a nonempty private regular file within its size bound"
  | .segmentStart => "transition journal segment starts at the wrong sequence"
  | .identity => "transition journal does not match member state identity"
  | .cursor => "transition journal committed cursor or pending suffix is invalid"
  | .stateCursor => "transition journal does not match authenticated state cursor"
  | .state err => err.message
  | .pendingSuffix => "transition journal pending suffix is invalid"
  | .baselineDiscard => "transition journal baseline cannot be discarded"
  | .pendingOffset => "transition journal pending offset is invalid"
  | .unresolved => "transition journal has an unresolved intent or is closed"
  | .recordSize => "transition journal record exceeds size bound"
  | .segmentSize => "transition journal record exceeds segment size bound"
  | .write => "write transition journal record"
  | .commitIntent => "transition journal commit does not match pending intent"
  | .commitDigest => "transition journal commit digest mismatch"

def ValidTransitionTuple (t : TransitionTuple) : Prop :=
  t.term ≤ t.promisedTerm ∧ (t.role = .awaitingDecision ∨ 0 < t.term)

instance (t : TransitionTuple) : Decidable (ValidTransitionTuple t) :=
  inferInstanceAs (Decidable (_ ∧ _))

/-- The kinds of an intent; the other two are of a baseline. -/
def TransitionKind.isIntent : TransitionKind → Bool
  | .promise | .promote | .adoptHigherTerm => true
  | _ => false

/-- The role a promise leaves: a Primary becomes a Replica. -/
def Role.afterPromise : Role → Role
  | .primary => .replica
  | role => role

def ValidTransitionChange (kind : TransitionKind) (source target : TransitionTuple) : Prop :=
  match kind with
  | .promise => target.role = source.role.afterPromise ∧ target.term = source.term ∧
      source.promisedTerm < target.promisedTerm
  | .promote => source.role = .replica ∧ target.role = .primary ∧
      target.term = source.promisedTerm ∧ source.term < target.term ∧
      target.promisedTerm = source.promisedTerm
  | .adoptHigherTerm => target.role = .replica ∧ source.term ≤ target.term ∧
      target.term ≤ target.promisedTerm ∧ source.promisedTerm ≤ target.promisedTerm ∧
      target ≠ source
  | _ => False

instance (kind : TransitionKind) (source target : TransitionTuple) :
    Decidable (ValidTransitionChange kind source target) :=
  match kind with
  | .promise => inferInstanceAs (Decidable (_ ∧ _))
  | .promote => inferInstanceAs (Decidable (_ ∧ _))
  | .adoptHigherTerm => inferInstanceAs (Decidable (_ ∧ _))
  | .legacyBaseline => inferInstanceAs (Decidable False)
  | .initialState => inferInstanceAs (Decidable False)

/-- The identity of a record and the tuples it names. -/
def TransitionRecord.Plausible (r : TransitionRecord) : Prop :=
  ValidJournalID r.journalID ∧ r.clusterID ≠ [] ∧ r.incarnation ≠ [] ∧ r.nodeID ≠ [] ∧
    r.recordedAt ≠ 0 ∧ ValidTransitionTuple r.target ∧ ValidTransitionTuple r.source

instance (r : TransitionRecord) : Decidable r.Plausible := inferInstanceAs (Decidable (_ ∧ _))

/-- The shape of the first record of a journal. -/
def TransitionRecord.IsBaseline (r : TransitionRecord) : Prop :=
  r.sequence = 0 ∧ r.previousDigest = none ∧ r.source = r.target ∧ r.baselineStateMAC ≠ none ∧
    ¬ r.kind.isIntent

instance (r : TransitionRecord) : Decidable r.IsBaseline := inferInstanceAs (Decidable (_ ∧ _))

/-- A record continues the one before it. -/
def TransitionRecord.Continues (r prior : TransitionRecord) : Prop :=
  r.journalID = prior.journalID ∧ r.clusterID = prior.clusterID ∧
    r.incarnation = prior.incarnation ∧ r.nodeID = prior.nodeID ∧
    r.sequence = prior.sequence + 1 ∧ r.previousDigest = some prior.mac ∧
    r.source = prior.target ∧ r.kind.isIntent ∧ ValidTransitionChange r.kind r.source r.target ∧
    prior.recordedAt ≤ r.recordedAt ∧ r.baselineStateMAC = none

instance (r prior : TransitionRecord) : Decidable (r.Continues prior) :=
  inferInstanceAs (Decidable (_ ∧ _))

def validateJournalRecord (r : TransitionRecord) (prior : Option TransitionRecord) :
    Except TransitionError Unit :=
  if ¬ r.Plausible then .error .record
  else
    match prior with
    | none => if ¬ r.IsBaseline then .error .baseline else .ok ()
    | some prior => if ¬ r.Continues prior then .error .chain else .ok ()

/-! ## Files -/

def maxTransitionRecordBytes : ℕ := 4096
def maxTransitionJournalBytes : ℕ := 67108864

/-- One file of the journal: the sequence in its name, its complete lines, and the bytes of an
incomplete line after them. -/
structure TransitionSegment where
  start : ℕ
  records : List TransitionRecord
  torn : ℕ := 0
  deriving DecidableEq

def TransitionSegment.bytes (c : LineCodec) (s : TransitionSegment) : ℕ :=
  (s.records.map c.size).sum + s.torn

section Reading

variable (c : LineCodec)

/-- The lines of a file against the record before them. -/
def readRecords : Option TransitionRecord → List TransitionRecord →
    Except TransitionError (Option TransitionRecord)
  | prior, [] => .ok prior
  | prior, r :: rs =>
    if c.size r > maxTransitionRecordBytes then .error .incomplete
    else if r.mac ≠ c.mac { r with mac := .zero } then .error .mac
    else
      match validateJournalRecord r prior with
      | .error err => .error err
      | .ok _ => readRecords (some r) rs

/-- The files of a journal, in the order of their first sequence. -/
def readSegments : Option TransitionRecord → List TransitionSegment →
    Except TransitionError (Option TransitionRecord)
  | prior, [] => .ok prior
  | prior, s :: ss =>
    if s.bytes c = 0 ∨ s.bytes c > maxTransitionJournalBytes then .error .segmentFile
    else if ∃ r ∈ s.records.head?, r.sequence ≠ s.start then .error .segmentStart
    else
      match readRecords c prior s.records with
      | .error err => .error err
      | .ok last => if s.torn > 0 then .error .incomplete else readSegments last ss

end Reading

/-- The records of the files, in order. -/
def journalRecords (segments : List TransitionSegment) : List TransitionRecord :=
  segments.flatMap (·.records)

/-! ## The journal -/

structure TransitionJournal where
  segments : List TransitionSegment
  committedRec : TransitionRecord
  pending : Option TransitionRecord := none
  segmentLimit : ℕ := maxTransitionJournalBytes
  recordCount : ℕ
  committed : ℕ

namespace TransitionJournal

variable (c : LineCodec)

/-- Opening the journal of a version-3 state: the chain of all files, and the record the state's
cursor names, after which one uncommitted intent may stand. -/
def openJournal (segments : List TransitionSegment) (state : MemberState) :
    Except TransitionError TransitionJournal :=
  match state.validate with
  | .error err => .error (.state err)
  | .ok _ =>
    match readSegments c none segments with
    | .error err => .error err
    | .ok _ =>
      let records := journalRecords segments
      match records.head? with
      | none => .error .identity
      | some baseline =>
        if baseline.journalID ≠ state.transition.journalID ∨ baseline.clusterID ≠ state.clusterID ∨
            baseline.incarnation ≠ state.incarnation ∨ baseline.nodeID ≠ state.nodeID then
          .error .identity
        else
          match records[state.transition.sequence]? with
          | none => .error .cursor
          | some committedRec =>
            if records.length - state.transition.sequence > 2 then .error .cursor
            else if committedRec.mac ≠ state.transition.digest ∨
                committedRec.target ≠ state.tuple then
              .error .stateCursor
            else .ok
              { segments := segments
                committedRec := committedRec
                pending := records[state.transition.sequence + 1]?
                recordCount := records.length
                committed := state.transition.sequence }

def cursor (j : TransitionJournal) : TransitionCursor :=
  ⟨j.committedRec.journalID, j.committedRec.sequence, j.committedRec.mac⟩

/-- Discarding one authenticated intent that the state file does not name.  Either way the file
system is changed by one atomic step: the removal of a file, or the renaming of a copy without the
intent over it. -/
def resolvePending (j : TransitionJournal) : Except TransitionError TransitionJournal :=
  match j.pending with
  | none => .ok j
  | some pending =>
    if pending.sequence ≠ j.committed + 1 ∨ j.recordCount ≠ j.committed + 2 then
      .error .pendingSuffix
    else
      match j.segments.getLast? with
      | none => .error .pendingSuffix
      | some active =>
        if active.start = j.committed + 1 ∧ j.segments.length < 2 then .error .baselineDiscard
        else if active.start = j.committed + 1 then
          .ok { j with segments := j.segments.dropLast, pending := none
                       recordCount := j.committed + 1 }
        else if active.records.length ≤ 1 then .error .pendingOffset
        else
          let kept := { active with records := active.records.dropLast }
          .ok { j with segments := j.segments.dropLast ++ [kept], pending := none
                       recordCount := j.committed + 1 }

/-- The result of writing and syncing an intent: when it fails, nothing is left, or the file exists
and holds some bytes of the line. -/
inductive IntentWrite
  | synced
  | failed (left : Option ℕ)
  deriving DecidableEq

/-- The intent of a change, before it has its code. -/
def intent (j : TransitionJournal) (kind : TransitionKind) (target : TransitionTuple) (now : ℤ) :
    TransitionRecord where
  journalID := j.committedRec.journalID
  clusterID := j.committedRec.clusterID
  incarnation := j.committedRec.incarnation
  nodeID := j.committedRec.nodeID
  sequence := j.committedRec.sequence + 1
  kind := kind
  recordedAt := now
  source := j.committedRec.target
  target := target
  previousDigest := some j.committedRec.mac

/-- The intent with its code. -/
def sealIntent (r : TransitionRecord) : TransitionRecord := { r with mac := c.mac r }

/-- A file with the first bytes of a record's line after its lines. -/
def TransitionSegment.withBytes (s : TransitionSegment) (r : TransitionRecord) (n : ℕ) :
    TransitionSegment :=
  if n < c.size r then { s with torn := s.torn + n } else { s with records := s.records ++ [r] }

/-- The files after `n` bytes of the line of a record are written, to the last file or to a new
one. -/
def writeBytes (segments : List TransitionSegment) (fresh : Bool) (r : TransitionRecord) (n : ℕ) :
    List TransitionSegment :=
  if fresh then
    segments ++ [TransitionSegment.withBytes c { start := r.sequence, records := [] } r n]
  else
    match segments.getLast? with
    | none => segments
    | some active => segments.dropLast ++ [TransitionSegment.withBytes c active r n]

/-- The line of the record does not fit the last file. -/
def needsSegment (j : TransitionJournal) (r : TransitionRecord) : Bool :=
  decide (((j.segments.getLast?).elim 0 (·.bytes c)) + c.size r > j.segmentLimit)

def appendIntent (j : TransitionJournal) (kind : TransitionKind) (target : TransitionTuple)
    (now : ℤ) (write : IntentWrite) : Except TransitionError TransitionCursor × TransitionJournal :=
  if ¬ kind.isIntent ∨ j.pending ≠ none ∨ j.recordCount ≠ j.committed + 1 then
    (.error .unresolved, j)
  else
    let record := j.intent kind target now
    match validateJournalRecord record (some j.committedRec) with
    | .error err => (.error err, j)
    | .ok _ =>
      let record := sealIntent c record
      if c.size record > maxTransitionRecordBytes then (.error .recordSize, j)
      else if c.size record > j.segmentLimit then (.error .segmentSize, j)
      else
        match write with
        | .failed none => (.error .write, j)
        | .failed (some n) =>
          (.error .write, { j with segments := writeBytes c j.segments (j.needsSegment c record) record n })
        | .synced =>
          (.ok ⟨record.journalID, record.sequence, record.mac⟩,
            { j with segments := writeBytes c j.segments (j.needsSegment c record) record (c.size record)
                     pending := some record
                     recordCount := j.recordCount + 1 })

def commit (j : TransitionJournal) (cursor : TransitionCursor) :
    Except TransitionError TransitionJournal :=
  match j.pending with
  | none => .error .commitIntent
  | some pending =>
    if pending.sequence ≠ j.committed + 1 ∨ pending.sequence ≠ cursor.sequence ∨
        j.cursor.journalID ≠ cursor.journalID then
      .error .commitIntent
    else if pending.mac ≠ cursor.digest then .error .commitDigest
    else .ok { j with committedRec := pending, pending := none, committed := j.committed + 1 }

end TransitionJournal

end Replication

end Halro
