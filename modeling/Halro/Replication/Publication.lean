import Halro.Replication.TransitionFiles

/-!
# Publications across stops of the process

A version-3 member makes promises, promotions, adoptions and progress publications, is stopped at
any point of one of them, and is opened again.  A stop inside a publication is a write of it that
fails with what it left; a publisher that is not opened again answers nothing, so nothing it would
hold in memory matters.

Beside the publisher a run keeps two lists that the process does not have: the transitions whose
state file was published, and the terms that calls which returned without error have established.
-/

namespace Halro

namespace Replication

variable {c : LineCodec}

/-! ## The machine -/

inductive Publication
  | promise (term : ℕ) (io : TransitionIO)
  | promote (expectedTerm expectedAppliedIndex term : ℕ) (io : TransitionIO)
  | adoptHigherTerm (term promisedTerm : ℕ) (io : TransitionIO)
  | publishPrimary (progress : PrimaryProgress) (write : StateWrite)
  | publishReplica (progress : ReplicaProgress) (write : StateWrite)

/-- A change of role and terms: its kind, its time and what it leads to. -/
structure Change where
  kind : TransitionKind
  now : ℤ
  target : TransitionTuple
  deriving DecidableEq

namespace Publication

def call (c : LineCodec) (p : StatePublisher) :
    Publication → Except PublishError Unit × StatePublisher
  | .promise term io => p.promise c term io
  | .promote expectedTerm expectedAppliedIndex term io =>
    p.promote c expectedTerm expectedAppliedIndex term io
  | .adoptHigherTerm term promisedTerm io => p.adoptHigherTerm c term promisedTerm io
  | .publishPrimary progress write => p.publishPrimary progress write
  | .publishReplica progress write => p.publishReplica progress write

/-- The change a publication asks for in a state. -/
def change (state : MemberState) : Publication → Option Change
  | .promise term io => some ⟨.promise, io.now, ⟨state.role.afterPromise, state.term, term⟩⟩
  | .promote _ _ term io => some ⟨.promote, io.now, ⟨.primary, term, state.promisedTerm⟩⟩
  | .adoptHigherTerm term promisedTerm io =>
    some ⟨.adoptHigherTerm, io.now, ⟨.replica, term, promisedTerm⟩⟩
  | .publishPrimary _ _ | .publishReplica _ _ => none

end Publication

inductive PublisherEvent
  | publication (call : Publication)
  /-- The process is stopped, if it still runs, and opened again. -/
  | restart

/-- A member over the lifetimes of its processes. -/
structure PublishedMember where
  publisher : StatePublisher
  running : Bool := true
  completed : List MemberTransitionEvent
  established : List TransitionTuple := []

namespace PublishedMember

def file (m : PublishedMember) : MemberState := m.publisher.file

def segments (m : PublishedMember) : List TransitionSegment := m.publisher.segments

/-- Opening the publisher on the files as they are. -/
def reopen (c : LineCodec) (m : PublishedMember) : Except PublishError StatePublisher :=
  StatePublisher.openPublisher c m.file m.segments

/-- The transitions after a publication: one more if the state file has new role or terms. -/
def complete (m : PublishedMember) (change : Option Change) (file : MemberState) :
    List MemberTransitionEvent :=
  match change with
  | none => m.completed
  | some change =>
    if file.tuple = m.file.tuple then m.completed
    else m.completed ++
      [⟨m.completed.length + 1, change.now, change.kind, m.file.tuple, file.tuple⟩]

/-- What calls that returned without error have established. -/
def establish (m : PublishedMember) (change : Option Change) (reply : Except PublishError Unit) :
    List TransitionTuple :=
  match change, reply with
  | some change, .ok _ => m.established ++ [change.target]
  | _, _ => m.established

def publish (c : LineCodec) (m : PublishedMember) (call : Publication) : PublishedMember :=
  let (reply, publisher) := call.call c m.publisher
  let change := call.change m.publisher.state
  { m with
    publisher := publisher
    completed := m.complete change publisher.file
    established := m.establish change reply }

def step (c : LineCodec) (m : PublishedMember) : PublisherEvent → PublishedMember
  | .publication call => if m.running then m.publish c call else m
  | .restart =>
    match m.reopen c with
    | .error _ => { m with running := false }
    | .ok publisher => { m with publisher := publisher, running := true }

def run (c : LineCodec) (m : PublishedMember) (events : List PublisherEvent) : PublishedMember :=
  events.foldl (step c) m

/-- A member as a process finds it: the transitions so far are those its state file has. -/
def opened (p : StatePublisher) : PublishedMember where
  publisher := p
  completed := eventsThrough p.segments p.file.transition.sequence

/-- Every file of the journal holds whole lines, and at least one. -/
def Whole (m : PublishedMember) : Prop := ∀ s ∈ m.segments, s.Whole

instance (m : PublishedMember) : Decidable m.Whole :=
  inferInstanceAs (Decidable (∀ s ∈ m.segments, s.Whole))

end PublishedMember

/-! ## Writing an intent -/

namespace TransitionJournal

lemma withBytes_bytes (s : TransitionSegment) (r : TransitionRecord) (n : ℕ) :
    (TransitionSegment.withBytes c s r n).bytes c ≤ s.bytes c + c.size r := by
  simp only [TransitionSegment.withBytes]
  split_ifs with hn
  · simp only [TransitionSegment.bytes]
    omega
  · simp only [TransitionSegment.bytes, List.map_append, List.sum_append, List.map_singleton,
      List.sum_singleton]
    omega

lemma withBytes_records (s : TransitionSegment) (r : TransitionRecord) (n : ℕ) :
    (TransitionSegment.withBytes c s r n).records =
      s.records ++ if n < c.size r then [] else [r] := by
  simp only [TransitionSegment.withBytes]
  split_ifs <;> simp

/-- The sealed intent of a change, as its line has it. -/
def record (c : LineCodec) (j : TransitionJournal) (kind : TransitionKind)
    (target : TransitionTuple) (now : ℤ) : TransitionRecord :=
  sealIntent c (j.intent kind target now)

/-- The files after some bytes of an intent were written: the line counts when it is complete. -/
structure Intended (c : LineCodec) (segments : List TransitionSegment) (r : TransitionRecord) (n : ℕ)
    (segments' : List TransitionSegment) : Prop where
  records : journalRecords segments' =
    journalRecords segments ++ if n < c.size r then [] else [r]
  files : ∀ s ∈ segments', s.Named c
  whole : c.size r ≤ n → ∀ s ∈ segments', s.Whole

/-- Bytes of an intent at the end of the last file. -/
lemma intended_concat {segments base : List TransitionSegment} {s : TransitionSegment}
    {r : TransitionRecord} {n : ℕ}
    (hrecs : journalRecords segments = journalRecords base ++ s.records)
    (hfiles : ∀ t ∈ base, t.Named c) (hwhole : ∀ t ∈ base, t.Whole) (htorn : s.torn = 0)
    (hroom : s.bytes c + c.size r ≤ maxTransitionJournalBytes)
    (hstart : ∀ q ∈ (s.records ++ [r]).head?, q.sequence = s.start) :
    Intended c segments r n (base ++ [TransitionSegment.withBytes c s r n]) := by
  refine ⟨?_, fun t ht => ?_, fun hcomplete t ht => ?_⟩
  · rw [journalRecords_concat, withBytes_records, hrecs, List.append_assoc]
  · rcases List.mem_append.mp ht with ht | ht
    · exact hfiles t ht
    obtain rfl := List.mem_singleton.mp ht
    refine ⟨(withBytes_bytes s r n).trans hroom, fun q hq => ?_⟩
    have hq' : q ∈ (s.records ++ [r]).head? := by
      rw [withBytes_records] at hq
      cases hs : s.records <;> split_ifs at hq <;> simp_all
    rw [hstart q hq']
    simp only [TransitionSegment.withBytes]
    split_ifs <;> rfl
  · rcases List.mem_append.mp ht with ht | ht
    · exact hwhole t ht
    obtain rfl := List.mem_singleton.mp ht
    simp [TransitionSegment.withBytes, TransitionSegment.Whole, not_lt.mpr hcomplete, htorn]

lemma writeBytes_intended {segments : List TransitionSegment} {r : TransitionRecord} {fresh : Bool}
    (hne : segments ≠ []) (hfiles : ∀ s ∈ segments, s.Named c) (hwhole : ∀ s ∈ segments, s.Whole)
    (hsize : c.size r ≤ maxTransitionJournalBytes)
    (hroom : fresh = false → ∀ s ∈ segments.getLast?,
      s.bytes c + c.size r ≤ maxTransitionJournalBytes) (n : ℕ) :
    Intended c segments r n (writeBytes c segments fresh r n) := by
  cases fresh with
  | true =>
    refine intended_concat (by simp) hfiles hwhole rfl ?_ fun q hq => ?_
    · simpa [TransitionSegment.bytes] using hsize
    · obtain rfl : r = q := by simpa using hq
      rfl
  | false =>
    rcases List.eq_nil_or_concat segments with hnil | ⟨init, active, hsegs⟩
    · exact absurd hnil hne
    rw [List.concat_eq_append] at hsegs
    subst hsegs
    have hact := hwhole active (by simp)
    simp only [writeBytes, Bool.false_eq_true, if_false, List.getLast?_concat, List.dropLast_concat]
    refine intended_concat (journalRecords_concat _ _) (fun s hs => hfiles s (by simp [hs]))
      (fun s hs => hwhole s (by simp [hs])) hact.2 (hroom rfl active (by simp)) fun q hq => ?_
    obtain ⟨a, as, has⟩ := List.exists_cons_of_ne_nil hact.1
    rw [has] at hq
    exact (hfiles active (by simp)).start q (by rw [has]; exact hq)

/-- What appending an intent to a settled journal does. -/
inductive Appended (c : LineCodec) (j : TransitionJournal) (r : TransitionRecord) :
    Except TransitionError TransitionCursor → TransitionJournal → Prop
  | refused {err : TransitionError} : Appended c j r (.error err) j
  | stopped {err : TransitionError} {n : ℕ} {segments : List TransitionSegment}
      (readable : Readable c (some j.committedRec) r)
      (intended : Intended c j.segments r n segments) :
      Appended c j r (.error err) { j with segments := segments }
  | synced {segments : List TransitionSegment} (readable : Readable c (some j.committedRec) r)
      (intended : Intended c j.segments r (c.size r) segments) :
      Appended c j r (.ok ⟨r.journalID, r.sequence, r.mac⟩)
        { j with segments := segments, pending := some r, recordCount := j.recordCount + 1 }

lemma appendIntent_appended {j : TransitionJournal} {sequence : ℕ} (hj : j.Settled sequence)
    (hfiles : ∀ s ∈ j.segments, s.Named c) (kind : TransitionKind) (target : TransitionTuple)
    (now : ℤ) (write : IntentWrite) :
    Appended c j (j.record c kind target now) (j.appendIntent c kind target now write).1
      (j.appendIntent c kind target now write).2 := by
  have hne : j.segments ≠ [] := by
    intro hnil
    have hlen := hj.length
    simp [hnil, journalRecords] at hlen
  rcases hvalid : validateJournalRecord (j.intent kind target now) (some j.committedRec) with err | u
  · simp only [appendIntent, hvalid]
    split_ifs <;> exact .refused
  simp only [appendIntent, hvalid]
  split_ifs with hguard hsize hlimit
  · exact .refused
  · exact .refused
  · exact .refused
  have hreadable : Readable c (some j.committedRec) (j.record c kind target now) :=
    ⟨not_lt.mp hsize, rfl, hvalid⟩
  have hintd : ∀ n, Intended c j.segments (j.record c kind target now) n
      (writeBytes c j.segments (j.needsSegment c (j.record c kind target now))
        (j.record c kind target now) n) := by
    refine writeBytes_intended hne hfiles hj.whole ?_ ?_
    · rw [hj.limit] at hlimit
      exact not_lt.mp hlimit
    · intro hfits s hs
      simp only [needsSegment, decide_eq_false_iff_not, not_lt, Option.mem_def.mp hs,
        hj.limit] at hfits
      exact hfits
  cases write with
  | failed left =>
    cases left with
    | none => exact .refused
    | some n => exact .stopped hreadable (hintd n)
  | synced => exact .synced hreadable (hintd _)

/-- The intent a journal has pending is committed by its own cursor. -/
lemma commit_pending {j : TransitionJournal} {r : TransitionRecord}
    {segments : List TransitionSegment} {count : ℕ} (hseq : r.sequence = j.committed + 1)
    (hjrnl : j.committedRec.journalID = r.journalID) :
    ({ j with segments := segments, pending := some r, recordCount := count } :
        TransitionJournal).commit ⟨r.journalID, r.sequence, r.mac⟩ =
      .ok { j with segments := segments, pending := none, recordCount := count
                   committedRec := r, committed := j.committed + 1 } := by
  simp [commit, cursor, hseq, hjrnl]

end TransitionJournal

/-! ## One change of role and terms -/

section Changing

variable {file : MemberState} {segments segments' : List TransitionSegment} {r : TransitionRecord}
  {n : ℕ}

/-- An intent, whole or not, keeps the files recorded for the state file that does not name it. -/
lemma Recorded.intended (h : Recorded c file segments)
    (hlen : (journalRecords segments).length = file.transition.sequence + 1)
    (hreadable : Readable c (journalRecords segments).getLast? r)
    (hi : TransitionJournal.Intended c segments r n segments') :
    Recorded c file segments' ∧ (journalRecords segments').take (file.transition.sequence + 1) =
      (journalRecords segments).take (file.transition.sequence + 1) := by
  obtain ⟨b, hb, hidn⟩ := h.baseline
  obtain ⟨q, hq, hcmtd⟩ := h.committed
  have hwithin := (List.getElem?_eq_some_iff.mp hq).1
  refine ⟨?_, by rw [hi.records, List.take_append_of_le_length hlen.ge]⟩
  refine
    { version := h.version
      valid := h.valid
      chained := ?_
      files := hi.files
      baseline := ⟨b, by rw [hi.records, List.head?_append, hb]; rfl, hidn⟩
      committed := ⟨q, by rw [hi.records, List.getElem?_append_left hwithin]; exact hq, hcmtd⟩
      suffix := ?_ }
  · rw [hi.records, chained_append, Option.or_none]
    refine ⟨h.chained, ?_⟩
    split_ifs
    · trivial
    · exact ⟨hreadable, trivial⟩
  · rw [hi.records, List.length_append, hlen]
    split_ifs
    · simp
    · simp

/-- A state file that names the intent commits it. -/
lemma Recorded.named {next : MemberState} (h : Recorded c file segments)
    (hlen : (journalRecords segments).length = file.transition.sequence + 1)
    (hreadable : Readable c (journalRecords segments).getLast? r)
    (hi : TransitionJournal.Intended c segments r (c.size r) segments')
    (hvalid : next.validate = .ok ()) (hver : next.version = file.version)
    (hclus : next.clusterID = file.clusterID) (hinc : next.incarnation = file.incarnation)
    (hnode : next.nodeID = file.nodeID) (htuple : next.tuple = r.target)
    (hcsr : next.transition = ⟨r.journalID, r.sequence, r.mac⟩) :
    next.transition.sequence = file.transition.sequence + 1 ∧ Recorded c next segments' ∧
      (journalRecords segments').length = next.transition.sequence + 1 ∧
      (journalRecords segments')[next.transition.sequence]? = some r ∧
      eventsThrough segments' next.transition.sequence =
        eventsThrough segments file.transition.sequence ++ [r.event] := by
  obtain ⟨hrecd, -⟩ := h.intended hlen hreadable hi
  obtain ⟨b, hb, hidn⟩ := hrecd.baseline
  have hrecs : journalRecords segments' = journalRecords segments ++ [r] := by
    simpa using hi.records
  have hlast : (journalRecords segments')[file.transition.sequence + 1]? = some r := by
    rw [hrecs, List.getElem?_append_right hlen.le, hlen]
    simp
  obtain ⟨hseq, b', hb', hjrnl⟩ := hrecd.chained.at hlast
  obtain rfl : b = b' := Option.some.inj (hb.symm.trans hb')
  have hnext : next.transition.sequence = file.transition.sequence + 1 := by
    rw [hcsr]
    exact hseq
  refine ⟨hnext, ?_, ?_, by rw [hnext]; exact hlast, ?_⟩
  · refine
      { version := hver.trans h.version
        valid := hvalid
        chained := hrecd.chained
        files := hi.files
        baseline := ⟨b, hb, ?_, hidn.2.1.trans hclus.symm,
          hidn.2.2.1.trans hinc.symm, hidn.2.2.2.trans hnode.symm⟩
        committed := ⟨r, by rw [hnext]; exact hlast, by rw [hcsr], htuple.symm⟩
        suffix := ?_ }
    · rw [hcsr]
      exact hjrnl.symm
    · rw [hrecs, hnext, List.length_append, hlen]
      simp
  · rw [hrecs, hnext, List.length_append, hlen, List.length_singleton]
  · have hne : journalRecords segments ≠ [] := by
      intro hnil
      simp [hnil] at hlen
    rw [eventsThrough, eventsThrough, hrecs, hnext, List.take_of_length_le (by simp [hlen]),
      List.take_of_length_le hlen.le, List.tail_append_of_ne_nil hne, List.map_append,
      List.map_singleton]

end Changing

/-- The terms of a tuple are not above those of another. -/
def TransitionTuple.AtMost (t u : TransitionTuple) : Prop :=
  t.term ≤ u.term ∧ t.promisedTerm ≤ u.promisedTerm

lemma TransitionTuple.AtMost.refl (t : TransitionTuple) : t.AtMost t := ⟨le_rfl, le_rfl⟩

lemma TransitionTuple.AtMost.trans {t u v : TransitionTuple} (h : t.AtMost u) (h' : u.AtMost v) :
    t.AtMost v := ⟨h.1.trans h'.1, h.2.trans h'.2⟩

/-- A change leads to other terms or another role, and never to lower terms. -/
lemma ValidTransitionChange.higher {kind : TransitionKind} {source target : TransitionTuple}
    (h : ValidTransitionChange kind source target) : target ≠ source ∧ source.AtMost target := by
  cases kind with
  | legacyBaseline => exact h.elim
  | initialState => exact h.elim
  | promise =>
    obtain ⟨-, hterm, hprom⟩ := h
    refine ⟨?_, hterm.ge, hprom.le⟩
    rintro rfl
    exact hprom.false
  | promote =>
    obtain ⟨-, -, -, hterm, hprom⟩ := h
    refine ⟨?_, hterm.le, hprom.ge⟩
    rintro rfl
    exact hterm.false
  | adoptHigherTerm =>
    obtain ⟨-, hterm, -, hprom, hne⟩ := h
    exact ⟨hne, hterm, hprom⟩

namespace StatePublisher

/-- What a change does to a publisher that works: it leaves the state file, or replaces it. -/
inductive Outcome (c : LineCodec) (p : StatePublisher) (change : Change) :
    Except PublishError Unit → StatePublisher → Prop
  | kept {err : PublishError} {q : StatePublisher} (file : q.file = p.file)
      (state : q.state = p.state) (recorded : Recorded c p.file q.segments)
      (events : eventsThrough q.segments p.file.transition.sequence =
        eventsThrough p.segments p.file.transition.sequence)
      (stopped : q = p ∨ q.poisoned = true) : Outcome c p change (.error err) q
  | replaced {reply : Except PublishError Unit} {q : StatePublisher}
      (tuple : q.file.tuple = change.target) (recorded : Recorded c q.file q.segments)
      (higher : change.target ≠ p.file.tuple ∧ p.file.tuple.AtMost change.target)
      (events : eventsThrough q.segments q.file.transition.sequence =
        eventsThrough p.segments p.file.transition.sequence ++
          [⟨p.file.transition.sequence + 1, change.now, change.kind, p.file.tuple, change.target⟩])
      (after : reply = .ok () ∧ q.Ready c ∧ q.poisoned = false ∨
        reply ≠ .ok () ∧ q.state = p.state ∧ q.poisoned = true) :
      Outcome c p change reply q

variable {p : StatePublisher}

lemma publishTransition_outcome (hp : p.Ready c) (hwork : p.poisoned = false)
    (next : MemberState) (kind : TransitionKind) (io : TransitionIO) :
    Outcome c p ⟨kind, io.now, next.tuple⟩ (p.publishTransition c next kind io).1
      (p.publishTransition c next kind io).2 := by
  have hkept : ∀ err, Outcome c p ⟨kind, io.now, next.tuple⟩ (.error err) p :=
    fun err => .kept rfl rfl hp.recorded rfl (.inl rfl)
  simp only [publishTransition, hwork, Bool.false_eq_true, if_false]
  split_ifs with hidn hprog hcsr
  · exact hkept _
  · exact hkept _
  · exact hkept _
  obtain ⟨j, hjrnl, hj⟩ := hp.journal
  have hsegs : p.segments = j.segments := by rw [segments, hjrnl]; rfl
  have hrecd : Recorded c p.file j.segments := hsegs ▸ hp.recorded
  have hlast : (journalRecords j.segments).getLast? = some j.committedRec := by
    rw [List.getLast?_eq_getElem?, hj.length]
    exact hj.record
  obtain ⟨last, hat, -, hsource⟩ := hrecd.committed
  obtain rfl : j.committedRec = last := Option.some.inj (hj.record.symm.trans hat)
  have hseq := (hrecd.chained.at hj.record).1
  set r := j.record c kind next.tuple io.now
  have hevent : r.event =
      ⟨p.file.transition.sequence + 1, io.now, kind, p.file.tuple, next.tuple⟩ := by
    rw [← hsource, ← hseq]
    rfl
  have happd := TransitionJournal.appendIntent_appended hj hrecd.files kind next.tuple io.now
    io.intent
  rcases happ : j.appendIntent c kind next.tuple io.now io.intent with ⟨reply, j'⟩
  rw [happ] at happd
  simp only [recordIntent, hjrnl, happ]
  cases happd with
  | refused => exact .kept rfl rfl hrecd (by rw [hsegs]; rfl) (.inr rfl)
  | stopped readable intended =>
    obtain ⟨hnext, htake⟩ := hrecd.intended hj.length (hlast ▸ readable) intended
    refine .kept rfl rfl hnext ?_ (.inr rfl)
    rw [hsegs]
    exact eventsThrough_congr htake
  | @synced segments readable intended =>
    obtain ⟨hintd, htake⟩ := hrecd.intended hj.length (hlast ▸ readable) intended
    have hevs : eventsThrough segments p.file.transition.sequence =
        eventsThrough p.segments p.file.transition.sequence := by
      rw [hsegs]
      exact eventsThrough_congr htake
    simp only [not_or, not_not] at hidn
    obtain ⟨hver, hclus, hinc, hnode, -⟩ := hidn
    rw [hp.state] at hver hclus hinc hnode
    have hhigher := (readable.continues.2.2.2.2.2.2.2.2.1).higher
    rw [show r.source = p.file.tuple from hsource] at hhigher
    have hcmt : r.sequence = j.committed + 1 := by
      rw [hj.committed, ← hseq]
      rfl
    have hnames := fun hvalid : ({ next with transition := ⟨r.journalID, r.sequence, r.mac⟩ } :
        MemberState).validate = .ok () =>
      hrecd.named hj.length (hlast ▸ readable) intended hvalid hver.symm hclus.symm
        hinc.symm hnode.symm rfl rfl
    rw [hevent, ← hsegs] at hnames
    dsimp only
    split <;> rename_i hwrite
    · obtain rfl | ⟨hvalid, rfl⟩ := writeState_error hwrite
      · exact .kept rfl rfl hintd hevs (.inr rfl)
      · obtain ⟨-, hnamed, -, -, hgrown⟩ := hnames hvalid
        exact .replaced rfl hnamed hhigher hgrown (.inr ⟨by simp, rfl, rfl⟩)
    · obtain ⟨hvalid, rfl⟩ := writeState_ok hwrite
      obtain ⟨hnext, hnamed, hlen, hat, hgrown⟩ := hnames hvalid
      simp only [commitIntent, TransitionJournal.commit_pending (r := j.record c kind next.tuple io.now)
        hcmt rfl]
      refine .replaced rfl hnamed hhigher hgrown (.inl ⟨rfl, ⟨hnamed, rfl, _, rfl, ?_⟩, hwork⟩)
      exact
        { pending := rfl
          committed := by rw [← hcmt]
          count := by rw [hj.count, ← hnext]
          limit := hj.limit
          length := hlen
          record := hat
          whole := intended.whole le_rfl }

/-! ## Every publication -/

/-- What a publication does to a publisher that works. -/
inductive Called (c : LineCodec) (p : StatePublisher) (call : Publication) :
    Except PublishError Unit → StatePublisher → Prop
  | changed {change : Change} {reply : Except PublishError Unit} {q : StatePublisher}
      (asks : call.change p.state = some change) (outcome : Outcome c p change reply q) :
      Called c p call reply q
  /-- The adoption of the terms the member has. -/
  | same {change : Change} (asks : call.change p.state = some change)
      (target : change.target = p.state.tuple) : Called c p call (.ok ()) p
  | progress {reply : Except PublishError Unit} {q : StatePublisher}
      (asks : call.change p.state = none) (tuple : q.file.tuple = p.file.tuple)
      (cursor : q.file.transition = p.file.transition) (journal : q.journal = p.journal)
      (recorded : Recorded c q.file q.segments) (state : q.state.tuple = p.state.tuple)
      (after : q.state = q.file ∧ q.poisoned = false ∨ q.poisoned = true) :
      Called c p call reply q

/-- Publishing progress. -/
lemma publish_called (hp : p.Ready c) (hwork : p.poisoned = false) {call : Publication}
    (hasks : call.change p.state = none) (next : MemberState) (w : StateWrite) :
    Called c p call (p.publish next w).1 (p.publish next w).2 := by
  have hkept : ∀ reply, Called c p call reply p := fun reply =>
    .progress hasks rfl rfl rfl hp.recorded rfl (.inl ⟨hp.state, hwork⟩)
  simp only [publish, hwork, Bool.false_eq_true, if_false]
  split_ifs with hidn
  swap
  · exact hkept _
  obtain ⟨hver, hclus, hinc, hnode, hrole, hterm, hprom, hcsr, -⟩ := hidn
  have htuple : p.state.tuple = next.tuple := by
    simp only [MemberState.tuple, hrole, hterm, hprom]
  rw [hp.state] at hver hclus hinc hnode hcsr
  have hrecd (hvalid : next.validate = .ok ()) : Recorded c next p.segments :=
    { version := hver.symm.trans hp.recorded.version
      valid := hvalid
      chained := hp.recorded.chained
      files := hp.recorded.files
      baseline := by
        rw [← hclus, ← hinc, ← hnode, ← hcsr]
        exact hp.recorded.baseline
      committed := by
        rw [← hcsr, ← htuple, hp.state]
        exact hp.recorded.committed
      suffix := by
        rw [← hcsr]
        exact hp.recorded.suffix }
  have hfile : next.tuple = p.file.tuple := by rw [← htuple, hp.state]
  split <;> rename_i hwrite
  · obtain rfl | ⟨hvalid, rfl⟩ := writeState_error hwrite
    · exact .progress hasks rfl rfl rfl hp.recorded rfl (.inr rfl)
    · exact .progress hasks hfile hcsr.symm rfl (hrecd hvalid) rfl (.inr rfl)
  · obtain ⟨hvalid, rfl⟩ := writeState_ok hwrite
    exact .progress hasks hfile hcsr.symm rfl (hrecd hvalid) htuple.symm (.inl ⟨rfl, hwork⟩)

theorem called (hp : p.Ready c) (hwork : p.poisoned = false) (call : Publication) :
    Called c p call (call.call c p).1 (call.call c p).2 := by
  have href : ∀ err change, Outcome c p change (.error err) p :=
    fun err change => .kept rfl rfl hp.recorded rfl (.inl rfl)
  have hkept : ∀ reply, call.change p.state = none → Called c p call reply p := fun reply hasks =>
    .progress hasks rfl rfl rfl hp.recorded rfl (.inl ⟨hp.state, hwork⟩)
  cases call with
  | promise term io =>
    simp only [Publication.call, promise]
    split_ifs with hterm
    · exact .changed rfl (href _ _)
    · exact .changed (by rfl) (publishTransition_outcome hp hwork _ .promise io)
  | promote expectedTerm expectedAppliedIndex term io =>
    simp only [Publication.call, promote]
    split_ifs with hrole hchgd hterm
    iterate 3 · exact .changed rfl (href _ _)
    exact .changed (by rfl) (publishTransition_outcome hp hwork _ .promote io)
  | adoptHigherTerm term promisedTerm io =>
    simp only [Publication.call, adoptHigherTerm]
    split_ifs with hregress hsame
    · exact .changed rfl (href _ _)
    · refine .same rfl ?_
      simp only [MemberState.tuple, hsame]
    · exact .changed (by rfl) (publishTransition_outcome hp hwork _ .adoptHigherTerm io)
  | publishPrimary progress write =>
    simp only [Publication.call, publishPrimary]
    split_ifs
    all_goals first | exact hkept _ rfl | exact publish_called hp hwork rfl _ write
  | publishReplica progress write =>
    simp only [Publication.call, publishReplica]
    split_ifs
    all_goals first | exact hkept _ rfl | exact publish_called hp hwork rfl _ write

/-- A publisher that is poisoned does nothing; only the adoption of the terms it has succeeds. -/
lemma called_poisoned (h : p.poisoned = true) (call : Publication) :
    (call.call c p).2 = p ∧ ∀ change, call.change p.state = some change →
      (call.call c p).1 = .ok () → change.target = p.state.tuple := by
  cases call with
  | promise term io =>
    simp only [Publication.call, promise, publishTransition, h, if_true]
    split_ifs <;> refine ⟨rfl, fun _ _ hok => ?_⟩ <;> cases hok
  | promote expectedTerm expectedAppliedIndex term io =>
    simp only [Publication.call, promote, publishTransition, h, if_true]
    split_ifs <;> refine ⟨rfl, fun _ _ hok => ?_⟩ <;> cases hok
  | adoptHigherTerm term promisedTerm io =>
    simp only [Publication.call, adoptHigherTerm, publishTransition, h, if_true]
    split_ifs with hregress hsame
    · exact ⟨rfl, fun _ _ hok => by cases hok⟩
    · refine ⟨rfl, fun change hasks _ => ?_⟩
      cases hasks
      simp only [MemberState.tuple, hsame]
    · exact ⟨rfl, fun _ _ hok => by cases hok⟩
  | publishPrimary progress write =>
    simp only [Publication.call, publishPrimary, publish, h, if_true]
    split_ifs <;> refine ⟨rfl, fun _ hasks => ?_⟩ <;> cases hasks
  | publishReplica progress write =>
    simp only [Publication.call, publishReplica, publish, h, if_true]
    split_ifs <;> refine ⟨rfl, fun _ hasks => ?_⟩ <;> cases hasks

end StatePublisher

/-! ## Every run -/

namespace PublishedMember

/-- What holds in every state of a run. -/
structure Kept (c : LineCodec) (m : PublishedMember) : Prop where
  recorded : Recorded c m.file m.segments
  completed : m.completed = eventsThrough m.segments m.file.transition.sequence
  established : ∀ t ∈ m.established, t.AtMost m.file.tuple
  state : m.running = true → m.publisher.state.tuple.AtMost m.file.tuple
  ready : m.running = true → m.publisher.poisoned = false → m.publisher.Ready c

variable {m : PublishedMember}

section

variable (h : Kept c m)

include h

/-- There is one transition for every sequence. -/
lemma Kept.length : m.completed.length = m.file.transition.sequence := by
  obtain ⟨r, hr, -⟩ := h.recorded.committed
  have hwithin := (List.getElem?_eq_some_iff.mp hr).1
  rw [h.completed, eventsThrough, List.length_map, List.length_tail, List.length_take]
  omega

/-- The role and terms after a publication are those before it or those it asks for. -/
def Between (m : PublishedMember) (call : Publication) (t : TransitionTuple) : Prop :=
  t = m.file.tuple ∨ ∃ change, call.change m.publisher.state = some change ∧ t = change.target

/-- What a publication keeps, from what it does to the publisher. -/
lemma Kept.replace {q : StatePublisher} {change : Option Change}
    {reply : Except PublishError Unit} (hrecd : Recorded c q.file q.segments)
    (hcompleted : m.complete change q.file = eventsThrough q.segments q.file.transition.sequence)
    (hmost : m.file.tuple.AtMost q.file.tuple)
    (hnew : reply = .ok () → ∀ asked, change = some asked → asked.target.AtMost q.file.tuple)
    (hstate : q.state.tuple.AtMost q.file.tuple) (hready : q.poisoned = false → q.Ready c) :
    Kept c { m with publisher := q, completed := m.complete change q.file
                    established := m.establish change reply } where
  recorded := hrecd
  completed := hcompleted
  established := by
    intro t ht
    cases change with
    | none => exact (h.established t ht).trans hmost
    | some asked =>
      cases reply with
      | error err => exact (h.established t ht).trans hmost
      | ok u =>
        rcases List.mem_append.mp ht with hold | hask
        · exact (h.established t hold).trans hmost
        · rw [List.mem_singleton.mp hask]
          exact hnew rfl asked rfl
  state _ := hstate
  ready _ := hready

omit h in
lemma complete_same {change : Option Change} {file : MemberState} (h : file.tuple = m.file.tuple) :
    m.complete change file = m.completed := by
  cases change with
  | none => rfl
  | some change => rw [complete, if_pos h]

/-- A publication of a member whose publisher works. -/
lemma Kept.called (hruns : m.running = true)
    (hwork : m.publisher.poisoned = false) {call : Publication}
    {reply : Except PublishError Unit} {q : StatePublisher}
    (hcall : StatePublisher.Called c m.publisher call reply q) :
    Kept c { m with publisher := q
                    completed := m.complete (call.change m.publisher.state) q.file
                    established := m.establish (call.change m.publisher.state) reply } ∧
      m.Between call q.file.tuple := by
  have hready := h.ready hruns hwork
  have hstate : m.publisher.state.tuple = m.file.tuple := by rw [hready.state]; rfl
  cases hcall with
  | @changed change reply q asks outcome =>
    cases outcome with
    | @kept err q file state recorded events stopped =>
      have htuple : q.file.tuple = m.file.tuple := by rw [file]; rfl
      refine ⟨h.replace (by rw [file]; exact recorded) ?_ (htuple ▸ .refl _) nofun ?_ ?_, .inl htuple⟩
      · rw [complete_same htuple, h.completed, file]
        exact events.symm
      · rw [state, hstate, htuple]
        exact .refl _
      · intro hq
        rcases stopped with rfl | hpois
        · exact hready
        · simp [hpois] at hq
    | replaced tuple recorded higher events after =>
      have hmost : m.file.tuple.AtMost q.file.tuple := tuple ▸ higher.2
      refine ⟨h.replace recorded ?_ hmost (fun _ asked hasked => ?_) ?_ ?_, .inr ⟨change, asks, tuple⟩⟩
      · have hne : ¬ q.file.tuple = m.file.tuple := tuple ▸ higher.1
        rw [asks, complete, if_neg hne, h.length, h.completed, tuple]
        exact events.symm
      · obtain rfl : change = asked := Option.some.inj (asks.symm.trans hasked)
        exact tuple ▸ .refl _
      · rcases after with ⟨-, hq, -⟩ | ⟨-, hkept, -⟩
        · rw [hq.state]
          exact .refl _
        · rw [hkept, hstate]
          exact hmost
      · intro hq
        rcases after with ⟨-, hnext, -⟩ | ⟨-, -, hpois⟩
        · exact hnext
        · simp [hpois] at hq
  | @same change asks target =>
    refine ⟨h.replace h.recorded ((complete_same rfl).trans h.completed) (.refl _)
      (fun _ asked hasked => ?_) (hstate ▸ .refl _) (fun _ => hready), .inl rfl⟩
    obtain rfl : change = asked := Option.some.inj (asks.symm.trans hasked)
    rw [target, hstate]
    exact .refl _
  | progress asks tuple cursor journal recorded state after =>
    have hsegs : q.segments = m.segments := by
      rw [StatePublisher.segments, journal]
      rfl
    refine ⟨h.replace recorded ?_ (tuple ▸ .refl _)
      (fun _ asked hasked => by rw [asks] at hasked; cases hasked) ?_ ?_, .inl tuple⟩
    · rw [complete_same tuple, h.completed, hsegs, cursor]
      rfl
    · rw [state, tuple, hstate]
      exact .refl _
    · intro hq
      rcases after with ⟨hfile, -⟩ | hpois
      · obtain ⟨j, hj, hset⟩ := hready.journal
        exact ⟨recorded, hfile, j, journal.trans hj, cursor ▸ hset⟩
      · simp [hpois] at hq

/-- A publication of a member that runs. -/
lemma Kept.publish (hruns : m.running = true) (call : Publication) :
    Kept c (m.publish c call) ∧ m.Between call (m.publish c call).file.tuple := by
  cases hpois : m.publisher.poisoned with
  | false =>
    exact h.called hruns hpois (StatePublisher.called (h.ready hruns hpois) hpois call)
  | true =>
    obtain ⟨hsame, hasked⟩ := StatePublisher.called_poisoned (c := c) hpois call
    have hnone : ¬ m.publisher.poisoned = false := by simp [hpois]
    simp only [PublishedMember.publish, hsame]
    refine ⟨h.replace h.recorded ((complete_same rfl).trans h.completed) (.refl _)
      (fun hok asked hchg => ?_) (h.state hruns) (absurd · hnone), .inl rfl⟩
    rw [hasked asked hchg hok]
    exact h.state hruns

/-- Opening succeeds exactly on whole files, and what is opened is the state file with the
transitions it has committed. -/
lemma Kept.reopen : ((∃ p, m.reopen c = .ok p) ↔ m.Whole) ∧ ∀ p, m.reopen c = .ok p →
      p.file = m.file ∧ p.Ready c ∧
        eventsThrough p.segments m.file.transition.sequence = m.completed := by
  have hopens : m.Whole → ∃ p, m.reopen c = .ok p ∧ p.file = m.file ∧ p.Ready c ∧
      eventsThrough p.segments m.file.transition.sequence = m.completed := by
    intro hwhole
    obtain ⟨p, hp, hfile, hready, hevs⟩ := h.recorded.openPublisher hwhole
    exact ⟨p, hp, hfile, hready, hevs.trans h.completed.symm⟩
  have hwhole : ∀ p, m.reopen c = .ok p → m.Whole := fun p hp =>
    (recorded_of_openPublisher h.recorded.version hp).2
  refine ⟨⟨fun ⟨p, hp⟩ => hwhole p hp, fun hw => ?_⟩, fun p hp => ?_⟩
  · obtain ⟨p, hp, -⟩ := hopens hw
    exact ⟨p, hp⟩
  · obtain ⟨p', hp', hopnd⟩ := hopens (hwhole p hp)
    obtain rfl : p = p' := Except.ok.inj (hp.symm.trans hp')
    exact hopnd

lemma Kept.step (event : PublisherEvent) :
    Kept c (m.step c event) := by
  cases event with
  | publication call =>
    simp only [PublishedMember.step]
    split_ifs with hruns
    · exact (h.publish hruns call).1
    · exact h
  | restart =>
    simp only [PublishedMember.step]
    split
    · exact { h with state := nofun, ready := nofun }
    · rename_i p hreopen
      obtain ⟨hfile, hready, hevs⟩ := h.reopen.2 p hreopen
      refine
        { recorded := hready.recorded
          completed := ?_
          established := ?_
          state := fun _ => ?_
          ready := fun _ _ => hready }
      · show m.completed = eventsThrough p.segments p.file.transition.sequence
        rw [hfile]
        exact hevs.symm
      · show ∀ t ∈ m.established, t.AtMost p.file.tuple
        rw [hfile]
        exact h.established
      · rw [hready.state]
        exact .refl _

lemma Kept.run (events : List PublisherEvent) : Kept c (m.run c events) :=
  List.foldlRecOn events _ h fun _ h event _ => h.step event

end

lemma kept_opened {file : MemberState} {segments : List TransitionSegment} {p : StatePublisher}
    (hver : file.version = .transition)
    (h : StatePublisher.openPublisher c file segments = .ok p) : Kept c (opened p) := by
  obtain ⟨hrecd, hwhole⟩ := recorded_of_openPublisher hver h
  obtain ⟨p', hp', hfile, hready, -⟩ := hrecd.openPublisher hwhole
  obtain rfl : p = p' := Except.ok.inj (h.symm.trans hp')
  refine ⟨hready.recorded, rfl, nofun, fun _ => ?_, fun _ _ => hready⟩
  show p.state.tuple.AtMost p.file.tuple
  rw [hready.state]
  exact .refl _

/-- **Publication across stops.**  A version-3 member is opened on any files, and publishes and is
stopped and opened again in any order; then one more publication is made, with any of its writes
stopped at any byte. -/
theorem publication_crash_safe {file : MemberState} {segments : List TransitionSegment}
    {p : StatePublisher} (hversion : file.version = .transition)
    (hopen : StatePublisher.openPublisher c file segments = .ok p)
    (events : List PublisherEvent) (call : Publication) :
    let m := (opened p).run c events
    let t := m.step c (.publication call)
    -- The member comes back exactly when no file of its journal was left empty or with a part of a
    -- line.
    ((∃ q, t.reopen c = .ok q) ↔ t.Whole) ∧
    ∀ q, t.reopen c = .ok q → m.Between call q.state.tuple ∧
      (∀ e ∈ t.established, e.AtMost q.state.tuple) ∧
      ∃ j, q.journal = some j ∧ j.committedEvents = t.completed ∧
        Chained c none (journalRecords j.segments) ∧
        (journalRecords j.segments).length = t.completed.length + 1 := by
  intro m t
  have hm : Kept c m := (kept_opened hversion hopen).run events
  have ht : Kept c t := hm.step (.publication call)
  refine ⟨ht.reopen.1, fun q hq => ?_⟩
  obtain ⟨hfile, hready, hcmtd⟩ := ht.reopen.2 q hq
  obtain ⟨j, hj, hset⟩ := hready.journal
  have hsegs : q.segments = j.segments := by rw [StatePublisher.segments, hj]; rfl
  rw [hready.state, hfile]
  refine ⟨?_, ht.established, j, hj, ?_, ?_, ?_⟩
  · by_cases hruns : m.running = true
    · have hstep : t = m.publish c call := if_pos hruns
      rw [hstep]
      exact (hm.publish hruns call).2
    · have hstep : t = m := if_neg hruns
      rw [hstep]
      exact .inl rfl
  · rw [TransitionJournal.committedEvents, hset.committed, ← hsegs, hfile]
    exact hcmtd
  · rw [← hsegs]
    exact hready.recorded.chained
  · rw [hset.length, hfile, ht.length]

/-! ## A stop inside the line of a promise -/

namespace Sample

/-- Lines of two bytes, with one code for all of them. -/
def codec : LineCodec where
  size _ := 2
  mac _ := Vector.replicate 32 1
  size_pos _ := Nat.two_pos

/-- The journal of a Replica in term 1 that has made no change. -/
def baseline : TransitionRecord where
  journalID := List.replicate 32 48
  clusterID := [99]
  incarnation := [105]
  nodeID := [98]
  sequence := 0
  kind := .initialState
  recordedAt := 1
  source := ⟨.replica, 1, 1⟩
  target := ⟨.replica, 1, 1⟩
  baselineStateMAC := some (Vector.replicate 32 1)
  mac := Vector.replicate 32 1

def state : MemberState where
  version := .transition
  clusterID := [99]
  incarnation := [105]
  nodeID := [98]
  role := .replica
  term := 1
  promisedTerm := 1
  peers := [⟨[97], [49], [115, 104, 97, 50, 53, 54, 58] ++ List.replicate 64 48⟩]
  transition := ⟨List.replicate 32 48, 0, Vector.replicate 32 1⟩

def journalFiles : List TransitionSegment := [{ start := 0, records := [baseline] }]

def founded : Except PublishError StatePublisher :=
  StatePublisher.openPublisher codec state journalFiles

/-- It promises term 2 and is stopped after the first byte of the record. -/
def stopped : Publication := .promise 2 { now := 2, intent := .failed (some 1) }

end Sample

open Sample in
theorem publication_crash_safe_sample : ∃ p, founded = .ok p ∧
      ∃ q, ((opened p).step codec (.publication (.promise 2 { now := 2 }))).reopen codec = .ok q ∧
        (opened p).Between (.promise 2 { now := 2 }) q.state.tuple := by
  have hopens : founded.isOk = true := by decide +kernel
  rcases hopen : founded with err | p
  · rw [hopen] at hopens
    cases hopens
  · have hsafe := publication_crash_safe rfl hopen [] (.promise 2 { now := 2 })
    have hwhole : (founded.map fun p =>
        decide ((opened p).step codec (.publication (.promise 2 { now := 2 }))).Whole) =
          .ok true := by decide +kernel
    rw [hopen] at hwhole
    obtain ⟨q, hq⟩ := hsafe.1.mpr (of_decide_eq_true (Except.ok.inj hwhole))
    exact ⟨p, rfl, q, hq, (hsafe.2 q hq).1⟩

open Sample in
/-- The member does not come back from a stop inside the line of its promise. -/
theorem stopped_inside_record : (founded.map fun p =>
      ((opened p).step codec (.publication stopped)).reopen codec |>.map fun q => q.state.tuple) =
      .ok (.error (.transition .incomplete)) := by
  decide +kernel

end PublishedMember

end Replication

end Halro
