import Halro.Replication.Publisher

/-!
# The files of the transition journal

What a reader of the files accepts, as a chain of records and a condition on each file, and what
opening a publisher needs of the state file and the journal beside it.  `Recorded` is that condition
without the wholeness of the files, which is what every stop of a publisher leaves
(`openPublisher_iff`).
-/

namespace Halro

open Framework Replication.TransitionSegment

namespace Replication

variable {c : LineCodec}

/-! ## Chains of records -/

/-- A line of the journal that its reader accepts after the record before it. -/
structure Readable (c : LineCodec) (prior : Option TransitionRecord) (r : TransitionRecord) :
    Prop where
  size : c.size r ≤ maxTransitionRecordBytes
  mac : r.mac = c.mac { r with mac := .zero }
  valid : validateJournalRecord r prior = .ok ()

/-- Lines that the reader accepts one after the other. -/
def Chained (c : LineCodec) : Option TransitionRecord → List TransitionRecord → Prop
  | _, [] => True
  | prior, r :: rs => Readable c prior r ∧ Chained c (some r) rs

variable {rs : List TransitionRecord} {prior last : Option TransitionRecord} {r : TransitionRecord}

lemma readRecords_cons : readRecords c prior (r :: rs) = .ok last ↔
      Readable c prior r ∧ readRecords c (some r) rs = .ok last := by
  simp only [readRecords, guard_eq_ok, not_lt, not_not]
  rcases hvalid : validateJournalRecord r prior with err | u
  · exact ⟨fun ⟨_, _, h⟩ => (nomatch h), fun ⟨h, _⟩ => (nomatch hvalid.symm.trans h.valid)⟩
  · exact ⟨fun ⟨hsize, hmac, h⟩ => ⟨⟨hsize, hmac, hvalid⟩, h⟩, fun ⟨h, hs⟩ => ⟨h.size, h.mac, hs⟩⟩

lemma readRecords_ok :
    readRecords c prior rs = .ok last ↔ Chained c prior rs ∧ last = rs.getLast?.or prior := by
  induction rs generalizing prior with
  | nil => simp [readRecords, Chained, eq_comm]
  | cons r rs ih =>
    rw [readRecords_cons, ih, Chained, and_assoc]
    cases rs <;> simp [List.getLast?_cons]

lemma chained_append {ts : List TransitionRecord} :
    Chained c prior (rs ++ ts) ↔ Chained c prior rs ∧ Chained c (rs.getLast?.or prior) ts := by
  induction rs generalizing prior with
  | nil => simp [Chained]
  | cons r rs ih =>
    rw [List.cons_append, Chained, Chained, ih, and_assoc]
    cases rs <;> simp [List.getLast?_cons]

lemma Readable.continues {prior : TransitionRecord} (h : Readable c (some prior) r) :
    r.Continues prior := by
  have hvalid := h.valid
  simp only [validateJournalRecord, guard_eq_ok] at hvalid
  exact not_not.mp hvalid.2.1

/-- The sequence and the journal of a record are given by its place in the chain. -/
lemma Chained.after {prior : TransitionRecord} (h : Chained c (some prior) rs) {i : ℕ}
    (hr : rs[i]? = some r) :
    r.sequence = prior.sequence + 1 + i ∧ r.journalID = prior.journalID := by
  induction rs generalizing prior i with
  | nil => simp at hr
  | cons q rs ih =>
    obtain ⟨hid, -, -, -, hseq, -⟩ := h.1.continues
    cases i with
    | zero =>
      obtain rfl : q = r := by simpa using hr
      exact ⟨hseq, hid⟩
    | succ i =>
      obtain ⟨hr, hjrnl⟩ := ih h.2 (by simpa using hr)
      exact ⟨by omega, hjrnl.trans hid⟩

lemma Chained.at (h : Chained c none rs) {i : ℕ} (hr : rs[i]? = some r) :
    r.sequence = i ∧ ∃ b, rs.head? = some b ∧ r.journalID = b.journalID := by
  cases rs with
  | nil => simp at hr
  | cons b rs =>
    have hvalid := h.1.valid
    simp only [validateJournalRecord, guard_eq_ok] at hvalid
    have hzero : b.sequence = 0 := (not_not.mp hvalid.2.1).1
    cases i with
    | zero =>
      obtain rfl : b = r := by simpa using hr
      exact ⟨hzero, b, rfl, rfl⟩
    | succ i =>
      obtain ⟨hseq, hjrnl⟩ := h.2.after (i := i) (by simpa using hr)
      exact ⟨by omega, b, rfl, hjrnl⟩

/-! ## Files -/

/-- A file that holds a line, and nothing after its lines. -/
def TransitionSegment.Whole (s : TransitionSegment) : Prop := s.records ≠ [] ∧ s.torn = 0

instance (s : TransitionSegment) : Decidable s.Whole := inferInstanceAs (Decidable (_ ∧ _))

/-- A file within its size bound whose name is the sequence of its first record. -/
structure TransitionSegment.Named (c : LineCodec) (s : TransitionSegment) : Prop where
  bytes : s.bytes c ≤ maxTransitionJournalBytes
  start : ∀ r ∈ s.records.head?, r.sequence = s.start

lemma TransitionSegment.bytes_pos {s : TransitionSegment} (h : s.records ≠ []) : 0 < s.bytes c := by
  obtain ⟨r, rs, hrs⟩ := List.exists_cons_of_ne_nil h
  have hsize := c.size_pos r
  simp only [bytes, hrs, List.map_cons, List.sum_cons]
  omega

lemma readSegments_ok {segments : List TransitionSegment} :
    readSegments c prior segments = .ok last ↔ (∀ s ∈ segments, s.Whole ∧ s.Named c) ∧
        readRecords c prior (journalRecords segments) = .ok last := by
  induction segments generalizing prior with
  | nil => simp [readSegments, journalRecords, readRecords]
  | cons s ss ih =>
    have hrecs : journalRecords (s :: ss) = s.records ++ journalRecords ss := rfl
    simp only [readSegments, guard_eq_ok, not_or, not_lt, hrecs, readRecords_ok,
      chained_append, List.forall_mem_cons]
    constructor
    · rintro ⟨⟨hbytes, hbound⟩, hstart, h⟩
      rcases hread : readRecords c prior s.records with err | next
      · simp [hread] at h
      simp only [hread, guard_eq_ok, not_lt, Nat.le_zero] at h
      obtain ⟨htorn, hrest⟩ := h
      have hne : s.records ≠ [] := by
        rintro hnil
        simp [bytes, hnil, htorn] at hbytes
      obtain ⟨hchain, rfl⟩ := readRecords_ok.mp hread
      obtain ⟨hfiles, hrest⟩ := ih.mp hrest
      obtain ⟨hrest, hlast⟩ := readRecords_ok.mp hrest
      refine ⟨⟨⟨⟨hne, htorn⟩, hbound, ?_⟩, hfiles⟩, ⟨hchain, hrest⟩, ?_⟩
      · intro r hr
        exact not_not.mp fun hnot => hstart ⟨r, hr, hnot⟩
      · rw [hlast, List.getLast?_append, Option.or_assoc]
    · rintro ⟨⟨⟨hwhole, hnamed⟩, hfiles⟩, ⟨hchain, hrest⟩, hlast⟩
      refine ⟨⟨(bytes_pos hwhole.1).ne', hnamed.bytes⟩, ?_, ?_⟩
      · rintro ⟨r, hr, hne⟩
        exact hne (hnamed.start r hr)
      · have hread : readRecords c prior s.records = .ok (s.records.getLast?.or prior) :=
          readRecords_ok.mpr ⟨hchain, rfl⟩
        simp only [hread, guard_eq_ok, not_lt, Nat.le_zero]
        refine ⟨hwhole.2, ih.mpr ⟨hfiles, readRecords_ok.mpr ⟨hrest, ?_⟩⟩⟩
        rw [hlast, List.getLast?_append, Option.or_assoc]

/-- The records of files with one more file, or with another last file. -/
lemma journalRecords_concat (segments : List TransitionSegment) (s : TransitionSegment) :
    journalRecords (segments ++ [s]) = journalRecords segments ++ s.records := by
  simp [journalRecords]

/-! ## What opening needs -/

/-- A version-3 state file and the journal files beside it, as any stop of the publisher leaves them:
the complete lines are a chain, the state file names the last of them or the one before, and the
files are named and bounded. -/
structure Recorded (c : LineCodec) (file : MemberState) (segments : List TransitionSegment) :
    Prop where
  version : file.version = .transition
  valid : file.validate = .ok ()
  chained : Chained c none (journalRecords segments)
  files : ∀ s ∈ segments, s.Named c
  baseline : ∃ b, (journalRecords segments).head? = some b ∧
    b.journalID = file.transition.journalID ∧ b.clusterID = file.clusterID ∧
    b.incarnation = file.incarnation ∧ b.nodeID = file.nodeID
  committed : ∃ r, (journalRecords segments)[file.transition.sequence]? = some r ∧
    r.mac = file.transition.digest ∧ r.target = file.tuple
  suffix : (journalRecords segments).length ≤ file.transition.sequence + 2

/-- A journal with no intent of its own, whose last record is the one the state file names. -/
structure TransitionJournal.Settled (j : TransitionJournal) (sequence : ℕ) : Prop where
  pending : j.pending = none
  committed : j.committed = sequence
  count : j.recordCount = sequence + 1
  limit : j.segmentLimit = maxTransitionJournalBytes
  length : (journalRecords j.segments).length = sequence + 1
  record : (journalRecords j.segments)[sequence]? = some j.committedRec
  whole : ∀ s ∈ j.segments, s.Whole

namespace TransitionJournal

/-- The files without the intent that the state file does not name. -/
lemma resolvePending_ok {j : TransitionJournal} (hpend : j.pending = some r)
    (hcount : j.recordCount = j.committed + 2)
    (hlen : (journalRecords j.segments).length = j.committed + 2)
    (hr : (journalRecords j.segments)[j.committed + 1]? = some r)
    (hchain : Chained c none (journalRecords j.segments))
    (hfiles : ∀ s ∈ j.segments, s.Whole ∧ s.Named c) :
    ∃ segments, j.resolvePending =
        .ok { j with segments := segments, pending := none, recordCount := j.committed + 1 } ∧
      journalRecords segments = (journalRecords j.segments).take (j.committed + 1) ∧
      ∀ s ∈ segments, s.Whole ∧ s.Named c := by
  have hseq : r.sequence = j.committed + 1 := (hchain.at hr).1
  rcases List.eq_nil_or_concat j.segments with hnil | ⟨init, active, hsegs⟩
  · simp [hnil, journalRecords] at hlen
  rw [List.concat_eq_append] at hsegs
  rw [hsegs] at hchain hlen hfiles hr ⊢
  obtain ⟨hwhole, hnamed⟩ := hfiles active (by simp)
  -- The first sequence of the last file is the number of records before it.
  have hstart : active.start = (journalRecords init).length := by
    obtain ⟨r, rs, hrs⟩ := List.exists_cons_of_ne_nil hwhole.1
    rw [← hnamed.start r (by simp [hrs])]
    refine (hchain.at (i := (journalRecords init).length) ?_).1
    simp [journalRecords_concat, hrs]
  have hpos := List.length_pos_iff.mpr hwhole.1
  have hinit : ∀ s ∈ init, s.Whole ∧ s.Named c := fun s hs => hfiles s (by simp [hs])
  simp only [journalRecords_concat, List.length_append] at hlen
  by_cases halone : active.start = j.committed + 1
  · -- The intent is the only line of the last file, which is removed.
    have hmore : init ≠ [] := by
      rintro rfl
      simp [journalRecords, halone] at hstart
    refine ⟨init, ?_, ?_, hinit⟩
    · simp [resolvePending, hpend, hseq, hcount, hsegs, halone, hmore, Nat.one_le_iff_ne_zero]
    · rw [journalRecords_concat, List.take_append_of_le_length (by omega), List.take_of_length_le]
      omega
  · have htwo : ¬ active.records.length ≤ 1 := by omega
    refine ⟨init ++ [{ active with records := active.records.dropLast }], ?_, ?_, ?_⟩
    · simp [resolvePending, hpend, hseq, hcount, hsegs, halone, htwo]
    · have hkept : j.committed + 1 - (journalRecords init).length = active.records.length - 1 := by
        omega
      rw [journalRecords_concat, journalRecords_concat, List.take_append, hkept,
        List.take_of_length_le (by omega), List.dropLast_eq_take]
    · intro s hs
      rcases List.mem_append.mp hs with hs | hs
      · exact hinit s hs
      obtain rfl := List.mem_singleton.mp hs
      obtain ⟨q, qs, hqs⟩ := List.exists_cons_of_ne_nil hwhole.1
      have hlong : qs ≠ [] := by
        rintro rfl
        simp [hqs] at htwo
      have hdrop : active.records.dropLast = q :: qs.dropLast := by
        rw [hqs, List.dropLast_cons_of_ne_nil hlong]
      refine ⟨⟨by simp [hdrop], hwhole.2⟩, ?_, ?_⟩
      · have hbytes := hnamed.bytes
        rw [bytes, ← List.dropLast_concat_getLast hwhole.1, List.map_append,
          List.sum_append] at hbytes
        simp only [bytes]
        omega
      · intro r hr
        refine hnamed.start r ?_
        rw [hqs]
        simpa [hdrop] using hr

end TransitionJournal

/-! ## The committed transitions -/

/-- A transition as the member reports it. -/
structure MemberTransitionEvent where
  sequence : ℕ
  recordedAt : ℤ
  kind : TransitionKind
  source : TransitionTuple
  target : TransitionTuple
  deriving DecidableEq

def TransitionRecord.event (r : TransitionRecord) : MemberTransitionEvent :=
  ⟨r.sequence, r.recordedAt, r.kind, r.source, r.target⟩

/-- The transitions up to a sequence; the record before the first of them is the baseline. -/
def eventsThrough (segments : List TransitionSegment) (sequence : ℕ) :
    List MemberTransitionEvent :=
  ((journalRecords segments).take (sequence + 1)).tail.map (·.event)

/-- The transitions the state file has committed.  The source collects them page by page and reads
every record of a page again. -/
def TransitionJournal.committedEvents (j : TransitionJournal) : List MemberTransitionEvent :=
  eventsThrough j.segments j.committed

lemma eventsThrough_congr {segments segments' : List TransitionSegment} {sequence : ℕ}
    (h : (journalRecords segments').take (sequence + 1) =
      (journalRecords segments).take (sequence + 1)) :
    eventsThrough segments' sequence = eventsThrough segments sequence := by
  rw [eventsThrough, h, eventsThrough]

/-! ## Opening a publisher -/

/-- The files of the journal of a publisher. -/
def StatePublisher.segments (p : StatePublisher) : List TransitionSegment :=
  p.journal.elim [] (·.segments)

/-- A publisher of a version-3 member that works: it holds what its file holds, and its journal ends
with the record the file names. -/
structure StatePublisher.Ready (c : LineCodec) (p : StatePublisher) : Prop where
  recorded : Recorded c p.file p.segments
  state : p.state = p.file
  journal : ∃ j, p.journal = some j ∧ j.Settled p.file.transition.sequence

variable {file : MemberState}

lemma Recorded.take {segments segments' : List TransitionSegment} (h : Recorded c file segments)
    (hrecs : journalRecords segments' =
      (journalRecords segments).take (file.transition.sequence + 1))
    (hfiles : ∀ s ∈ segments', s.Named c) : Recorded c file segments' := by
  obtain ⟨r, hr, hcmtd⟩ := h.committed
  have hsplit := List.take_append_drop (file.transition.sequence + 1) (journalRecords segments)
  have hchain := h.chained
  rw [← hsplit, ← hrecs, chained_append] at hchain
  refine
    { version := h.version
      valid := h.valid
      chained := hchain.1
      files := hfiles
      baseline := ?_
      committed := ⟨r, ?_, hcmtd⟩
      suffix := ?_ }
  · simpa [hrecs, List.head?_take] using h.baseline
  · rw [hrecs, List.getElem?_take_of_lt (Nat.lt_succ_self _)]
    exact hr
  · rw [hrecs, List.length_take]
    omega

/-- The journal of recorded files that are whole is opened. -/
lemma Recorded.openJournal {segments : List TransitionSegment} (h : Recorded c file segments)
    (hwhole : ∀ s ∈ segments, s.Whole) :
    ∃ r, (journalRecords segments)[file.transition.sequence]? = some r ∧
      TransitionJournal.openJournal c segments file = .ok
        { segments := segments
          committedRec := r
          pending := (journalRecords segments)[file.transition.sequence + 1]?
          recordCount := (journalRecords segments).length
          committed := file.transition.sequence } := by
  obtain ⟨b, hb, hidn⟩ := h.baseline
  obtain ⟨r, hr, hmac, htgt⟩ := h.committed
  have hread : readSegments c none segments = .ok ((journalRecords segments).getLast?.or none) :=
    readSegments_ok.mpr ⟨fun s hs => ⟨hwhole s hs, h.files s hs⟩,
      readRecords_ok.mpr ⟨h.chained, rfl⟩⟩
  have hsuffix : ¬ (journalRecords segments).length - file.transition.sequence > 2 := by
    have hbound := h.suffix
    omega
  simp [TransitionJournal.openJournal, h.valid, hread, hb, hidn, hr, hsuffix, hmac, htgt]

/-- A publisher opens on recorded files that are whole; what it holds is the state file, and the
transitions it reports are those the state file has committed. -/
lemma Recorded.openPublisher {segments : List TransitionSegment} (h : Recorded c file segments)
    (hwhole : ∀ s ∈ segments, s.Whole) :
    ∃ p, StatePublisher.openPublisher c file segments = .ok p ∧ p.file = file ∧ p.Ready c ∧
      eventsThrough p.segments file.transition.sequence =
        eventsThrough segments file.transition.sequence := by
  obtain ⟨r, hr, hopen⟩ := h.openJournal hwhole
  have hsuffix := h.suffix
  have hwithin := (List.getElem?_eq_some_iff.mp hr).1
  cases hpend : (journalRecords segments)[file.transition.sequence + 1]? with
  | none =>
    have hlen : (journalRecords segments).length = file.transition.sequence + 1 := by
      have hbeyond := List.getElem?_eq_none_iff.mp hpend
      omega
    rw [hpend] at hopen
    refine ⟨_, by simp [StatePublisher.openPublisher, h.valid, h.version, hopen,
      TransitionJournal.resolvePending]; rfl, rfl, ⟨h, rfl, _, rfl, ?_⟩, rfl⟩
    exact ⟨rfl, rfl, hlen, rfl, hlen, hr, hwhole⟩
  | some q =>
    have hlen : (journalRecords segments).length = file.transition.sequence + 2 := by
      have hbeyond := (List.getElem?_eq_some_iff.mp hpend).1
      omega
    rw [hpend] at hopen
    obtain ⟨segments', hrslv, hrecs, hfiles⟩ := TransitionJournal.resolvePending_ok (c := c)
        (j := ⟨segments, r, some q, maxTransitionJournalBytes, (journalRecords segments).length,
          file.transition.sequence⟩) rfl hlen hlen hpend h.chained
        (fun s hs => ⟨hwhole s hs, h.files s hs⟩)
    have hnext := h.take hrecs (fun s hs => (hfiles s hs).2)
    refine ⟨_, by simp [StatePublisher.openPublisher, h.valid, h.version, hopen, hrslv]; rfl,
      rfl, ⟨hnext, rfl, _, rfl, ?_⟩, eventsThrough_congr ?_⟩
    · refine ⟨rfl, rfl, rfl, rfl, ?_, ?_, fun s hs => (hfiles s hs).1⟩
      · rw [hrecs, List.length_take, hlen]
        simp
      · rw [hrecs, List.getElem?_take_of_lt (Nat.lt_succ_self _)]
        exact hr
    · show (journalRecords segments').take _ = _
      rw [hrecs, List.take_take, min_self]

/-- What an opened journal needs of the files. -/
lemma recorded_of_openPublisher {segments : List TransitionSegment} {p : StatePublisher}
    (hver : file.version = .transition)
    (h : StatePublisher.openPublisher c file segments = .ok p) :
    Recorded c file segments ∧ ∀ s ∈ segments, s.Whole := by
  simp only [StatePublisher.openPublisher, hver] at h
  split at h
  · cases h
  rename_i hvalid
  split at h
  · cases h
  rename_i hopen
  simp only [TransitionJournal.openJournal, hvalid] at hopen
  split at hopen
  · cases hopen
  rename_i hread
  obtain ⟨hfiles, hrecs⟩ := readSegments_ok.mp hread
  split at hopen
  · cases hopen
  rename_i b hb
  obtain ⟨hidn, hopen⟩ := guard_eq_ok.mp hopen
  split at hopen
  · cases hopen
  rename_i r hr
  simp only [guard_eq_ok] at hopen
  obtain ⟨hsuffix, hcsr, -⟩ := hopen
  simp only [not_or, not_not] at hidn hcsr
  refine ⟨?_, fun s hs => (hfiles s hs).1⟩
  exact
    { version := hver
      valid := hvalid
      chained := (readRecords_ok.mp hrecs).1
      files := fun s hs => (hfiles s hs).2
      baseline := ⟨b, hb, hidn⟩
      committed := ⟨r, hr, hcsr⟩
      suffix := by omega }

end Replication

end Halro
