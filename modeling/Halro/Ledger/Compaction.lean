import Halro.Framework.Disk
import Halro.Ledger.FilesSafety

/-!
# Compactions beside each other (`internal/ledger/seal.go`, `segment.go`)

`Compact` finds its segment under the log's mutex, compresses the file with the mutex released, and
takes the mutex again to switch the manifest to the copy.  Here any number of compactions run beside
appends, rolls and the closing of the log: every call to the file system between the two critical
sections is a step of its own, and each critical section is one.  No call fails.

The second critical section removes the copy when the log was closed or when the segment has been
compressed in the meantime.  The name it removes is the one the other compaction has put into the
manifest.
-/

namespace Halro

open Framework Replication Framework.FinMap

namespace Ledger

namespace Compacting

open Files (Head Manifest Segment SegmentFile findSegment replaceSegment)

/-! ## The process -/

/-- The compression and the checksum of a file. -/
structure Gzip where
  compress : Bytes → Bytes
  expand : Bytes → Option Bytes
  expand_compress : ∀ b, expand (compress b) = some b
  sha256 : Bytes → Digest

inductive FileName
  | active
  | segment (file : SegmentFile)
  | temporary (generation : ℕ)
  deriving DecidableEq

/-- Where a call of `Compact` is.  The temporary file is an open inode, and what has been written of
it a number of bytes. -/
inductive Phase
  | found (segment : Segment)
  | opened (segment : Segment) (plain : Bytes)
  | writing (segment : Segment) (plain : Bytes) (inode written : ℕ)
  | closed (segment : Segment)
  | verified (segment : Segment)
  | renamed (segment : Segment)
  | measured (segment : Segment) (checksum : Digest) (length : ℕ)
  | returned

/-- The segment a call that has not returned works on. -/
def Phase.segment : Phase → Option Segment
  | .found s | .opened s _ | .writing s _ _ _ | .closed s | .verified s | .renamed s
  | .measured s _ _ => some s
  | .returned => none

/-- The directory, the saved manifest, the log and the compactions of the process by a number. -/
structure Process where
  disk : Disk FileName
  manifest : Manifest
  segments : List Segment
  generation : ℕ
  anchor : Head
  head : Head
  closed : Bool := false
  calls : FinMap ℕ Phase := ∅

inductive Event
  | append (frames : Bytes) (head : Head)
  | roll (sealedAt : ℤ)
  | close
  | compact (call generation : ℕ)
  | advance (call bytes : ℕ)

section Steps

variable (z : Gzip)

def writeBatch (frames : Bytes) (head : Head) (p : Process) : Process :=
  match p.closed, p.disk.names.lookup .active with
  | false, some i =>
    { p with disk := p.disk.writeAt i (p.disk.inodes i).length frames, head := head }
  | _, _ => p

/-- The segment of the active file. -/
def pendingSegment (p : Process) (plain : Bytes) (sealedAt : ℤ) : Segment where
  generation := p.generation
  file := .plain p.generation
  firstSequence := p.anchor.sequence + 1
  lastSequence := p.head.sequence
  length := plain.length
  storedLength := plain.length
  startHash := p.anchor.hash
  endHash := p.head.hash
  plainChecksum := z.sha256 plain
  storedChecksum := z.sha256 plain
  sealedAt := sealedAt

/-- A roll holds the mutex all the time.  It seals an active file with frames whose name as a segment
is free. -/
def roll (sealedAt : ℤ) (p : Process) : Process :=
  match p.closed, p.disk.read .active, p.disk.read (.segment (.plain p.generation)) with
  | false, some (b :: bytes), none =>
    let segments := p.segments ++ [pendingSegment z p (b :: bytes) sealedAt]
    { p with
      disk := (p.disk.rename .active (.segment (.plain p.generation))).create .active
      manifest := { segments := segments }
      segments := segments
      generation := p.generation + 1
      anchor := p.head }
  | _, _, _ => p

/-- The first critical section of `Compact`. -/
def findCall (p : Process) (generation : ℕ) : Phase :=
  match findSegment p.segments generation with
  | none => .returned
  | some segment => if segment.compressed then .returned else .found segment

/-- A copy reproduces the plain bytes of a segment. -/
def reproduces (segment : Segment) (stored : Bytes) : Bool :=
  match z.expand stored with
  | none => false
  | some plain => plain.length = segment.length && z.sha256 plain = segment.plainChecksum

/-- The second critical section of `Compact`. -/
def commitCompaction (segment : Segment) (checksum : Digest) (length : ℕ) (p : Process) : Process :=
  let copy : FileName := .segment (.compressed segment.generation)
  let removed := { p with disk := p.disk.remove copy }
  if p.closed then removed
  else
    match findSegment p.segments segment.generation with
    | none => removed
    | some current =>
      if current.compressed then removed
      else
        let segments := replaceSegment
          (current.compacted ⟨segment.generation, length, checksum⟩) p.segments
        { p with
          disk := p.disk.remove (.segment segment.file)
          manifest := { segments := segments }
          segments := segments }

/-- The next call to the file system of a compaction, or its second critical section.  A write takes a
number of bytes. -/
def advance (bytes : ℕ) (p : Process) : Phase → Process × Phase
  | .found segment =>
    match p.disk.read (.segment segment.file) with
    | none => (p, .returned)
    | some plain => (p, .opened segment plain)
  | .opened segment plain =>
    let disk := p.disk.create (.temporary segment.generation)
    match disk.names.lookup (.temporary segment.generation) with
    | none => (p, .returned)
    | some i => ({ p with disk := disk }, .writing segment plain i 0)
  | .writing segment plain i written =>
    let chunk := ((z.compress plain).drop written).take (bytes + 1)
    if chunk = [] then (p, .closed segment)
    else
      ({ p with disk := p.disk.writeAt i written chunk },
        .writing segment plain i (written + chunk.length))
  | .closed segment =>
    match p.disk.read (.temporary segment.generation) with
    | none => (p, .returned)
    | some stored =>
      if reproduces z segment stored then (p, .verified segment)
      else ({ p with disk := p.disk.remove (.temporary segment.generation) }, .returned)
  | .verified segment =>
    match p.disk.read (.temporary segment.generation) with
    | none => (p, .returned)
    | some _ =>
      ({ p with
          disk := p.disk.rename (.temporary segment.generation)
            (.segment (.compressed segment.generation)) }, .renamed segment)
  | .renamed segment =>
    match p.disk.read (.segment (.compressed segment.generation)) with
    | none => (p, .returned)
    | some stored => (p, .measured segment (z.sha256 stored) stored.length)
  | .measured segment checksum length => (commitCompaction segment checksum length p, .returned)
  | .returned => (p, .returned)

def setCall (call : ℕ) (phase : Phase) (p : Process) : Process :=
  { p with calls := p.calls.insert call phase }

/-- Every interleaving is a list of such steps. -/
def step (p : Process) : Event → Process
  | .append frames head => writeBatch frames head p
  | .roll sealedAt => roll z sealedAt p
  | .close => { p with closed := true }
  | .compact call generation =>
    match p.calls.lookup call with
    | some _ => p
    | none => setCall call (findCall p generation) p
  | .advance call bytes =>
    match p.calls.lookup call with
    | none => p
    | some phase => setCall call (advance z bytes p phase).2 (advance z bytes p phase).1

end Steps

/-! ## What the manifest promises -/

section Promise

variable (z : Gzip)

/-- The plain bytes of a segment that was stored. -/
def plainBytes (segment : Segment) (stored : Bytes) : Option Bytes :=
  if segment.compressed then z.expand stored else some stored

/-- The file of a segment is there and has the recorded bytes. -/
def Held (d : Disk FileName) (segment : Segment) : Prop :=
  ∃ stored plain, d.read (.segment segment.file) = some stored ∧
    plainBytes z segment stored = some plain ∧ plain.length = segment.length ∧
    z.sha256 plain = segment.plainChecksum

/-- What an opening leaves: a sound disk on which every segment is held, and no compaction. -/
structure Opened (p : Process) : Prop where
  sound : p.disk.Sound
  saved : p.manifest.segments = p.segments
  numbered : p.segments.map (·.generation) = List.range' 1 p.segments.length
  generation : p.generation = p.segments.length + 1
  named : ∀ s ∈ p.segments,
    s.file = if s.compressed then .compressed s.generation else .plain s.generation
  held : ∀ s ∈ p.segments, Held z p.disk s
  idle : p.calls = ∅

end Promise

/-- The compaction that starts is the only one of its generation. -/
def Alone (p : Process) : Event → Prop
  | .compact _ generation => ∀ call phase segment, p.calls.lookup call = some phase →
      phase.segment = some segment → segment.generation ≠ generation
  | _ => True

/-! ## Segments -/

section Segments

variable {segments : List Segment} {updated other : Segment} {generation : ℕ}

lemma map_generation_replaceSegment (updated : Segment) (segments : List Segment) :
    (replaceSegment updated segments).map (·.generation) = segments.map (·.generation) := by
  induction segments with
  | nil => rfl
  | cons s segments ih =>
    rw [replaceSegment]
    split_ifs with hsame
    · rw [List.map_cons, List.map_cons, hsame]
    · rw [List.map_cons, List.map_cons, ih]

lemma findSegment_replaceSegment (hne : generation ≠ updated.generation) :
    findSegment (replaceSegment updated segments) generation = findSegment segments generation := by
  induction segments with
  | nil => rfl
  | cons s segments ih =>
    rw [replaceSegment, findSegment, findSegment]
    rw [findSegment, findSegment] at ih
    split_ifs with hsame
    · have hs : ¬ s.generation = generation := fun h => hne (h ▸ hsame)
      rw [List.find?_cons_of_neg (by simpa using Ne.symm hne), List.find?_cons_of_neg (by simpa using hs)]
    · by_cases hs : s.generation = generation
      · rw [List.find?_cons_of_pos (by simpa using hs), List.find?_cons_of_pos (by simpa using hs)]
      · rw [List.find?_cons_of_neg (by simpa using hs), List.find?_cons_of_neg (by simpa using hs), ih]

end Segments

/-! ## What a process keeps -/

section Kept

variable (z : Gzip)

/-- The segment of a compaction is the log's, which is not compressed. -/
structure Current (segments : List Segment) (s : Segment) : Prop where
  found : findSegment segments s.generation = some s
  plain : s.compressed = false
  file : s.file = .plain s.generation

structure Describes (s : Segment) (plain : Bytes) : Prop where
  length : plain.length = s.length
  checksum : z.sha256 plain = s.plainChecksum

/-- What a phase knows of the disk. -/
def Progress (segments : List Segment) (d : Disk FileName) : Phase → Prop
  | .returned => True
  | .found s => Current segments s
  | .opened s plain => Current segments s ∧ Describes z s plain
  | .writing s plain i written => Current segments s ∧ Describes z s plain ∧
      d.names.lookup (.temporary s.generation) = some i ∧
      d.inodes i = (z.compress plain).take written ∧ written ≤ (z.compress plain).length
  | .closed s | .verified s => Current segments s ∧
      ∃ plain, Describes z s plain ∧ d.read (.temporary s.generation) = some (z.compress plain)
  | .renamed s | .measured s _ _ => Current segments s ∧
      ∃ plain, Describes z s plain ∧
        d.read (.segment (.compressed s.generation)) = some (z.compress plain)

structure Kept (p : Process) : Prop where
  sound : p.disk.Sound
  saved : p.manifest.segments = p.segments
  numbered : p.segments.map (·.generation) = List.range' 1 p.segments.length
  generation : p.generation = p.segments.length + 1
  named : ∀ s ∈ p.segments,
    s.file = if s.compressed then .compressed s.generation else .plain s.generation
  held : ∀ s ∈ p.segments, Held z p.disk s
  progress : ∀ call phase, p.calls.lookup call = some phase → Progress z p.segments p.disk phase
  alone : ∀ {call call' phase phase' s s'}, p.calls.lookup call = some phase →
    p.calls.lookup call' = some phase' → phase.segment = some s → phase'.segment = some s' →
    s.generation = s'.generation → call = call'

end Kept

variable {z : Gzip} {p : Process} {d : Disk FileName} {segments : List Segment} {s : Segment}
  {phase : Phase} {call : ℕ}

lemma Progress.current (h : Progress z segments d phase) (hs : phase.segment = some s) :
    Current segments s := by
  cases phase <;> simp only [Phase.segment, Option.some.injEq, reduceCtorEq] at hs <;> subst hs
  · exact h
  all_goals exact h.1

variable {d' : Disk FileName}

/-- A phase sees two files of its generation. -/
lemma Progress.frame {segments' : List Segment} (h : Progress z segments d phase)
    (hsegs : ∀ s, phase.segment = some s →
      findSegment segments' s.generation = findSegment segments s.generation)
    (htemp : ∀ s, phase.segment = some s → Disk.Same d d' (.temporary s.generation))
    (hcopy : ∀ s, phase.segment = some s → Disk.Same d d' (.segment (.compressed s.generation))) :
    Progress z segments' d' phase := by
  have hcur : ∀ s, phase.segment = some s → Current segments s → Current segments' s :=
    fun s hs hc => ⟨(hsegs s hs).trans hc.found, hc.plain, hc.file⟩
  cases phase with
  | returned => trivial
  | found s => exact hcur s rfl h
  | opened s plain => exact ⟨hcur s rfl h.1, h.2⟩
  | writing s plain i written =>
    obtain ⟨hc, hdescs, hname, hcont, hle⟩ := h
    have hsame := htemp s rfl
    exact ⟨hcur s rfl hc, hdescs, hsame.name.trans hname, (hsame.contents i hname).trans hcont, hle⟩
  | closed s | verified s =>
    obtain ⟨hc, plain, hdescs, hread⟩ := h
    exact ⟨hcur s rfl hc, plain, hdescs, (htemp s rfl).read.trans hread⟩
  | renamed s | measured s checksum length =>
    obtain ⟨hc, plain, hdescs, hread⟩ := h
    exact ⟨hcur s rfl hc, plain, hdescs, (hcopy s rfl).read.trans hread⟩

lemma Held.frame (h : Held z d s) (hsame : Disk.Same d d' (.segment s.file)) : Held z d' s := by
  obtain ⟨stored, plain, hread, hplain, hlen, hcsum⟩ := h
  exact ⟨stored, plain, hsame.read.trans hread, hplain, hlen, hcsum⟩

lemma Kept.nodup (h : Kept z p) : (p.segments.map (·.generation)).Nodup := by
  rw [h.numbered]
  exact List.nodup_range'

/-- The log has one segment of each generation. -/
lemma Kept.found (h : Kept z p) (hs : s ∈ p.segments) : findSegment p.segments s.generation = some s := by
  have hnodup := h.nodup
  generalize p.segments = segments at hs hnodup
  induction segments with
  | nil => exact nomatch hs
  | cons first rest ih =>
    rw [List.map_cons, List.nodup_cons] at hnodup
    rcases List.mem_cons.mp hs with rfl | hrest
    · simp [findSegment]
    · have hne : ¬ first.generation = s.generation := fun heq =>
        hnodup.1 (heq ▸ List.mem_map_of_mem hrest)
      have hfound := ih hrest hnodup.2
      rw [findSegment] at hfound ⊢
      rw [List.find?_cons_of_neg (by simpa using hne), hfound]

lemma Kept.generation_le (h : Kept z p) (hs : s ∈ p.segments) : s.generation < p.generation := by
  have hmem : s.generation ∈ p.segments.map (·.generation) := List.mem_map_of_mem hs
  rw [h.numbered, List.mem_range'_1] at hmem
  rw [h.generation]
  omega

lemma Current.mem (h : Current segments s) : s ∈ segments := List.mem_of_find?_eq_some h.found

/-- A call that moves to another phase is still the only one of its generation. -/
lemma Kept.alone_insert (h : Kept z p) (hnew : ∀ {other ph s t}, other ≠ call →
      p.calls.lookup other = some ph → ph.segment = some t → phase.segment = some s →
      t.generation ≠ s.generation) {c c' : ℕ} {ph ph' : Phase} {t t' : Segment}
    (hc : (p.calls.insert call phase).lookup c = some ph)
    (hc' : (p.calls.insert call phase).lookup c' = some ph') (ht : ph.segment = some t)
    (ht' : ph'.segment = some t') (heq : t.generation = t'.generation) : c = c' := by
  rcases lookup_insert_cases hc with ⟨rfl, rfl⟩ | ⟨hne, hold⟩
  · rcases lookup_insert_cases hc' with ⟨rfl, -⟩ | ⟨hne', hold'⟩
    · rfl
    · exact absurd heq.symm (hnew hne' hold' ht' ht)
  · rcases lookup_insert_cases hc' with ⟨-, rfl⟩ | ⟨-, hold'⟩
    · exact absurd heq (hnew hne hold ht ht')
    · exact h.alone hold hold' ht ht' heq

/-! ## The calls of a compaction -/

/-- A call to the file system keeps to the two files of its compaction. -/
structure Touches (generation : ℕ) (d d' : Disk FileName) : Prop where
  sound : d'.Sound
  same : ∀ n, n ≠ .temporary generation → n ≠ .segment (.compressed generation) → Disk.Same d d' n

/-- The step of a compaction that keeps to its files. -/
lemma Kept.touch {phase' : Phase} (h : Kept z p)
    (hcall : p.calls.lookup call = some phase) (hs : phase.segment = some s)
    (htch : Touches s.generation p.disk d') (hprog : Progress z p.segments d' phase')
    (hseg : phase'.segment = none ∨ phase'.segment = some s) :
    Kept z (setCall call phase' { p with disk := d' }) := by
  have hcur := (h.progress call phase hcall).current hs
  have hgen : ∀ {other ph t}, other ≠ call → p.calls.lookup other = some ph →
      ph.segment = some t → t.generation ≠ s.generation :=
    fun hne hother ht heq => hne (h.alone hother hcall ht hs heq)
  refine ⟨htch.sound, h.saved, h.numbered, h.generation, h.named, fun t ht => ?_,
    fun other ph hother => ?_, ?_⟩
  · -- The segment being compacted is read from its plain file.
    refine (h.held t ht).frame (htch.same _ nofun fun hname => ?_)
    have hfile := h.named t ht
    rw [FileName.segment.inj hname] at hfile
    split_ifs at hfile with hcmpr
    have hfound := h.found ht
    rw [← SegmentFile.compressed.inj hfile, hcur.found] at hfound
    rw [← Option.some.inj hfound, hcur.plain] at hcmpr
    exact nomatch hcmpr
  · rcases lookup_insert_cases hother with ⟨rfl, rfl⟩ | ⟨hne, hother⟩
    · exact hprog
    · refine (h.progress other ph hother).frame (fun _ _ => rfl) (fun t ht => ?_) fun t ht => ?_
      · have hne := hgen hne hother ht
        exact htch.same _ (fun heq => hne (FileName.temporary.inj heq)) nofun
      · have hne := hgen hne hother ht
        exact htch.same _ nofun fun heq =>
          hne (SegmentFile.compressed.inj (FileName.segment.inj heq))
  · refine h.alone_insert fun hne hother ht ht' => ?_
    obtain rfl := Option.some.inj (ht'.symm.trans (hseg.resolve_left (ne_of_eq_of_ne ht' nofun)))
    exact hgen hne hother ht

lemma touches_self (hd : d.Sound) (generation : ℕ) : Touches generation d d :=
  ⟨hd, fun _ _ _ => ⟨rfl, fun _ _ => rfl⟩⟩

variable {plain : Bytes}

/-- The switch of the manifest to the copy. -/
lemma Kept.switch {checksum : Digest} {length : ℕ} (h : Kept z p)
    (hcall : p.calls.lookup call = some phase) (hs : phase.segment = some s)
    (hdescs : Describes z s plain)
    (hread : p.disk.read (.segment (.compressed s.generation)) = some (z.compress plain)) :
    let segments := replaceSegment (s.compacted ⟨s.generation, length, checksum⟩) p.segments
    Kept z (setCall call .returned
      { p with
        disk := p.disk.remove (.segment s.file)
        manifest := { segments := segments }
        segments := segments }) := by
  intro segments
  set updated := s.compacted ⟨s.generation, length, checksum⟩ with hupd
  have hcur := (h.progress call phase hcall).current hs
  have hsame : ∀ n, n ≠ FileName.segment (.plain s.generation) →
      Disk.Same p.disk (p.disk.remove (.segment s.file)) n := by
    intro n hn
    rw [hcur.file]
    exact Disk.same_remove hn
  have hmem : ∀ t ∈ segments, t = updated ∨ t ∈ p.segments ∧ t.generation ≠ s.generation :=
    fun t ht => Files.mem_replaceSegment h.nodup ht
  have hmap : segments.map (·.generation) = p.segments.map (·.generation) :=
    map_generation_replaceSegment updated p.segments
  have hlen : segments.length = p.segments.length := by
    simpa using congrArg List.length hmap
  have hothers : ∀ {other ph t}, (p.calls.insert call .returned).lookup other = some ph →
      ph.segment = some t → other ≠ call ∧ p.calls.lookup other = some ph := by
    intro other ph t hother ht
    obtain ⟨-, rfl⟩ | hold := lookup_insert_cases hother
    · exact nomatch ht
    · exact hold
  refine ⟨h.sound.remove _, rfl, ?_, ?_, fun t ht => ?_, fun t ht => ?_, fun other ph hother => ?_, ?_⟩
  · show segments.map (·.generation) = List.range' 1 segments.length
    rw [hmap, h.numbered, hlen]
  · show p.generation = segments.length + 1
    rw [h.generation, hlen]
  · rcases hmem t ht with rfl | ⟨hold, -⟩
    · rfl
    · exact h.named t hold
  · rcases hmem t ht with rfl | ⟨hold, hne⟩
    · exact Held.frame ⟨_, plain, hread, z.expand_compress plain, hdescs.length, hdescs.checksum⟩
        (hsame _ nofun)
    · refine (h.held t hold).frame (hsame _ fun hname => hne ?_)
      have hfile := h.named t hold
      rw [FileName.segment.inj hname] at hfile
      split_ifs at hfile
      exact (SegmentFile.plain.inj hfile).symm
  · by_cases hseg : ∃ t, ph.segment = some t
    · obtain ⟨t, ht⟩ := hseg
      obtain ⟨hne, hold⟩ := hothers hother ht
      refine (h.progress other ph hold).frame (fun u hu => findSegment_replaceSegment fun heq => hne ?_)
        (fun _ _ => hsame _ nofun) fun _ _ => hsame _ nofun
      exact h.alone hold hcall hu hs heq
    · have hretd : ph = .returned := by
        cases ph with
        | returned => rfl
        | _ => exact absurd ⟨_, rfl⟩ hseg
      rw [hretd]
      trivial
  · exact h.alone_insert fun _ _ _ hs => by cases hs

lemma Kept.commitCompaction {checksum : Digest} {length : ℕ} (h : Kept z p)
    (hcall : p.calls.lookup call = some phase) (hs : phase.segment = some s)
    (hdescs : Describes z s plain)
    (hread : p.disk.read (.segment (.compressed s.generation)) = some (z.compress plain)) :
    Kept z (setCall call .returned (commitCompaction s checksum length p)) := by
  have hcur := (h.progress call phase hcall).current hs
  have hrem : Kept z (setCall call .returned
      { p with disk := p.disk.remove (.segment (.compressed s.generation)) }) :=
    h.touch hcall hs ⟨h.sound.remove _, fun n _ hcopy => Disk.same_remove hcopy⟩ trivial (.inl rfl)
  unfold Compacting.commitCompaction
  split_ifs
  · exact hrem
  · rw [hcur.found]
    dsimp only
    rw [hcur.plain, if_neg Bool.false_ne_true]
    exact h.switch hcall hs hdescs hread

lemma reproduces_compress (h : Describes z s plain) : reproduces z s (z.compress plain) = true := by
  rw [reproduces, z.expand_compress]
  simp [h.length, h.checksum]

lemma Kept.advance (bytes : ℕ) (h : Kept z p) (hcall : p.calls.lookup call = some phase) :
    Kept z (setCall call (advance z bytes p phase).2 (advance z bytes p phase).1) := by
  have hprog := h.progress call phase hcall
  have hstay : ∀ phase' s, phase.segment = some s → Progress z p.segments p.disk phase' →
      (phase'.segment = none ∨ phase'.segment = some s) → Kept z (setCall call phase' p) :=
    fun phase' s hs hprog' hseg =>
      h.touch hcall hs (touches_self h.sound _) hprog' hseg
  cases phase with
  | found s =>
    -- The file the manifest promises is read.
    obtain ⟨stored, plain, hread, hplain, hlen, hcsum⟩ := h.held s hprog.mem
    rw [plainBytes, hprog.plain, if_neg Bool.false_ne_true] at hplain
    obtain rfl := Option.some.inj hplain
    simp only [Compacting.advance, hread]
    exact hstay _ s rfl ⟨hprog, hlen, hcsum⟩ (.inr rfl)
  | opened s plain =>
    obtain ⟨i, hname, hcont⟩ := p.disk.exists_lookup_create (.temporary s.generation)
    simp only [Compacting.advance, hname]
    refine h.touch hcall rfl ⟨h.sound.create _, fun n htemp _ => ?_⟩ ?_ (.inr rfl)
    · exact Disk.same_create h.sound htemp
    · exact ⟨hprog.1, hprog.2, hname, by rw [hcont, List.take_zero], Nat.zero_le _⟩
  | writing s plain i written =>
    obtain ⟨hc, hdescs, hname, hcont, hle⟩ := hprog
    simp only [Compacting.advance]
    split_ifs with hdone
    · have hall : (z.compress plain).length ≤ written := by
        have hlen := congrArg List.length hdone
        rw [List.length_take, List.length_drop, List.length_nil] at hlen
        omega
      refine hstay _ s rfl ⟨hc, plain, hdescs, ?_⟩ (.inr rfl)
      rw [Disk.read_of_lookup hname, hcont, List.take_of_length_le hall]
    · have hlen : written = (p.disk.inodes i).length := by
        rw [hcont, List.length_take]
        omega
      refine h.touch hcall rfl ⟨h.sound.writeAt _ _ _, fun n htemp _ => ?_⟩ ?_ (.inr rfl)
      · exact Disk.same_writeAt h.sound hname htemp _ _
      · refine ⟨hc, hdescs, hname, ?_, ?_⟩
        · nth_rewrite 1 [hlen]
          rw [Disk.inodes_writeAt_end, hcont, take_append_chunk]
        · rw [List.length_take, List.length_drop]
          omega
  | closed s =>
    obtain ⟨hc, plain, hdescs, hread⟩ := hprog
    simp only [Compacting.advance, hread, reproduces_compress hdescs, if_true]
    exact hstay _ s rfl ⟨hc, plain, hdescs, hread⟩ (.inr rfl)
  | verified s =>
    obtain ⟨hc, plain, hdescs, hread⟩ := hprog
    simp only [Compacting.advance, hread]
    refine h.touch hcall rfl ⟨h.sound.rename _ _, fun n htemp hcopy => ?_⟩ ?_ (.inr rfl)
    · exact Disk.same_rename htemp hcopy
    · exact ⟨hc, plain, hdescs, Disk.read_rename hread⟩
  | renamed s =>
    obtain ⟨hc, plain, hdescs, hread⟩ := hprog
    simp only [Compacting.advance, hread]
    exact hstay _ s rfl ⟨hc, plain, hdescs, hread⟩ (.inr rfl)
  | measured s checksum length =>
    obtain ⟨-, plain, hdescs, hread⟩ := hprog
    exact h.commitCompaction hcall rfl hdescs hread
  | returned =>
    refine { h with progress := fun other ph hother => ?_, alone := h.alone_insert fun _ _ _ hs => by cases hs }
    obtain ⟨-, rfl⟩ | ⟨-, hold⟩ := lookup_insert_cases hother
    · trivial
    · exact h.progress other ph hold

/-! ## Appends, rolls and new compactions -/

/-- A change that no compaction and no segment sees. -/
lemma Kept.unseen {p' : Process} (h : Kept z p) (hsound : p'.disk.Sound)
    (hsame : ∀ n, n ≠ .active → Disk.Same p.disk p'.disk n)
    (hman : p'.manifest = p.manifest) (hsegs : p'.segments = p.segments)
    (hgen : p'.generation = p.generation) (hcalls : p'.calls = p.calls) : Kept z p' where
  sound := hsound
  saved := by rw [hman, hsegs, h.saved]
  numbered := by rw [hsegs, h.numbered]
  generation := by rw [hgen, hsegs, h.generation]
  named := by
    rw [hsegs]
    exact h.named
  held := by
    rw [hsegs]
    exact fun s hs => (h.held s hs).frame (hsame _ nofun)
  progress := by
    rw [hcalls, hsegs]
    exact fun call phase hcall => (h.progress call phase hcall).frame (fun _ _ => rfl)
      (fun _ _ => hsame _ nofun) fun _ _ => hsame _ nofun
  alone := by
    rw [hcalls]
    exact h.alone

lemma Kept.writeBatch (h : Kept z p) (frames : Bytes) (head : Head) :
    Kept z (writeBatch frames head p) := by
  unfold Compacting.writeBatch
  split
  · next i hact =>
    exact h.unseen (h.sound.writeAt _ _ _)
      (fun n hn => Disk.same_writeAt h.sound hact hn _ _) rfl rfl rfl rfl
  · exact h

lemma Kept.roll (h : Kept z p) (sealedAt : ℤ) : Kept z (roll z sealedAt p) := by
  unfold Compacting.roll
  split
  swap
  · exact h
  next b bytes _ hact _ =>
  set pending := pendingSegment z p (b :: bytes) sealedAt with hpend
  set d := (p.disk.rename .active (.segment (.plain p.generation))).create .active with hd
  have hsound : d.Sound := (h.sound.rename _ _).create _
  have hsame : ∀ n, n ≠ FileName.active → n ≠ .segment (.plain p.generation) →
      Disk.Same p.disk d n := by
    intro n hn hplain
    have hrename := Disk.same_rename (d := p.disk) hn hplain
    have hcre := Disk.same_create (h.sound.rename .active (.segment (.plain p.generation))) hn
    exact ⟨hcre.name.trans hrename.name, fun i hi =>
      (hcre.contents i (hrename.name.trans hi)).trans (hrename.contents i hi)⟩
  have hread : d.read (.segment (.plain p.generation)) = some (b :: bytes) := by
    have hcre : Disk.Same (p.disk.rename .active (.segment (.plain p.generation))) d
        (.segment (.plain p.generation)) := Disk.same_create (h.sound.rename _ _) nofun
    exact hcre.read.trans (Disk.read_rename hact)
  have hother : ∀ s ∈ p.segments, Disk.Same p.disk d (.segment s.file) := by
    intro s hs
    refine hsame _ nofun fun hname => ?_
    have hfile := h.named s hs
    rw [FileName.segment.inj hname] at hfile
    split_ifs at hfile
    exact absurd (SegmentFile.plain.inj hfile).symm (h.generation_le hs).ne
  refine ⟨hsound, rfl, ?_, ?_, fun s hs => ?_, fun s hs => ?_, fun call phase hcall => ?_, h.alone⟩
  · rw [List.map_append, h.numbered, List.length_append, List.length_singleton, List.range'_concat]
    show _ ++ [p.generation] = _
    rw [h.generation]
    congr 2
    omega
  · rw [List.length_append, List.length_singleton, h.generation]
  · rcases List.mem_append.mp hs with hold | hnew
    · exact h.named s hold
    · rw [List.mem_singleton.mp hnew]
      rfl
  · rcases List.mem_append.mp hs with hold | hnew
    · exact (h.held s hold).frame (hother s hold)
    · rw [List.mem_singleton.mp hnew]
      exact ⟨b :: bytes, b :: bytes, hread, rfl, rfl, rfl⟩
  · have hprog := h.progress call phase hcall
    refine hprog.frame (fun s hs => ?_) (fun _ _ => hsame _ nofun nofun)
      fun _ _ => hsame _ nofun nofun
    have hfound := (hprog.current hs).found
    rw [hfound, findSegment, List.find?_append]
    rw [findSegment] at hfound
    rw [hfound]
    rfl

lemma Kept.compact {generation : ℕ} (h : Kept z p) (halone : Alone p (.compact call generation)) :
    Kept z (setCall call (findCall p generation) p) := by
  have hfound : ∀ s, (findCall p generation).segment = some s →
      Current p.segments s ∧ s.generation = generation ∧ findCall p generation = .found s := by
    intro s hs
    unfold findCall at hs ⊢
    cases hfind : findSegment p.segments generation with
    | none =>
      rw [hfind] at hs
      exact nomatch hs
    | some segment =>
      rw [hfind] at hs
      obtain ⟨hmem, hgen⟩ := Files.findSegment_some hfind
      dsimp only at hs ⊢
      split_ifs at hs ⊢ with hcmpr
      · exact nomatch hs
      · obtain rfl := Option.some.inj hs
        rw [Bool.not_eq_true] at hcmpr
        refine ⟨⟨h.found hmem, hcmpr, ?_⟩, hgen, rfl⟩
        have hfile := h.named segment hmem
        rwa [hcmpr, if_neg Bool.false_ne_true] at hfile
  refine { h with progress := fun other ph hother => ?_, alone := ?_ }
  · rcases lookup_insert_cases hother with ⟨-, rfl⟩ | ⟨-, hold⟩
    · cases hseg : (findCall p generation).segment with
      | none =>
        cases hphase : findCall p generation with
        | returned => trivial
        | _ =>
          rw [hphase] at hseg
          exact nomatch hseg
      | some s =>
        obtain ⟨hcur, -, hphase⟩ := hfound s hseg
        rw [hphase]
        exact hcur
    · exact h.progress other ph hold
  · refine h.alone_insert fun _ hother ht hs => ?_
    rw [(hfound _ hs).2.1]
    exact halone _ _ _ hother ht

lemma Kept.step (event : Event) (h : Kept z p) (halone : Alone p event) :
    Kept z (step z p event) := by
  cases event with
  | append frames head => exact h.writeBatch frames head
  | roll sealedAt => exact h.roll sealedAt
  | close => exact h.unseen h.sound (fun _ _ => ⟨rfl, fun _ _ => rfl⟩) rfl rfl rfl rfl
  | compact call generation =>
    show Kept z (match p.calls.lookup call with | some _ => p | none => _)
    cases hcall : p.calls.lookup call with
    | some phase => exact h
    | none => exact h.compact halone
  | advance call bytes =>
    show Kept z (match p.calls.lookup call with | none => p | some phase => _)
    cases hcall : p.calls.lookup call with
    | none => exact h
    | some phase => exact h.advance bytes hcall

lemma Opened.kept (h : Opened z p) : Kept z p where
  __ := h
  progress := by
    rw [h.idle]
    exact nofun
  alone := by
    rw [h.idle]
    exact nofun

/-- **Compactions lose no generation.**  From an opened log, in every interleaving of appends, rolls, a
closing and any number of compactions in which no compaction starts while another one of its
generation is running, every segment the last saved manifest names has its file, and the file has the
recorded bytes. -/
theorem compactions_lose_nothing (z : Gzip) (p : Process) (events : List Event) (hp : Opened z p)
    (halone : Along (step z) Alone p events) :
    ∀ s ∈ (events.foldl (step z) p).manifest.segments, Held z (events.foldl (step z) p).disk s := by
  have hkept : Kept z (events.foldl (step z) p) :=
    halone.invariant (fun _ event hk ha => hk.step event ha) hp.kept
  rw [hkept.saved]
  exact hkept.held

/-! ## Two compactions of one generation -/

namespace Sample

/-- A mark in front of the bytes in the place of a compression, and a sum in the place of a hash. -/
def gzip : Gzip where
  compress b := 31 :: b
  expand := fun
    | 31 :: b => some b
    | _ => none
  expand_compress _ := rfl
  sha256 b := Vector.replicate 32 (b.foldl (· + ·) 1)

/-- A log that was just opened in an empty directory. -/
def opened : Process where
  disk := Disk.create .active {}
  manifest := {}
  segments := []
  generation := 1
  anchor := {}
  head := {}

lemma opened_opened : Opened gzip opened where
  sound := Disk.sound_empty.create _
  saved := rfl
  numbered := rfl
  generation := rfl
  named := nofun
  held := nofun
  idle := rfl

/-- A generation with one frame is sealed. -/
def rolled : List Event := [.append [7] ⟨.zero, 1⟩, .roll 0]

/-- The calls of a compaction up to its second critical section. -/
def compressed (call : ℕ) : List Event := List.replicate 7 (.advance call 1)

/-- The files the manifest names after a run, and what they hold. -/
def files (events : List Event) : List (SegmentFile × Option Bytes) :=
  let p := events.foldl (step gzip) opened
  p.manifest.segments.map fun s => (s.file, p.disk.read (.segment s.file))

end Sample

theorem compactions_lose_nothing_one :
    let events := Sample.rolled ++ .compact 0 1 :: Sample.compressed 0 ++ [.roll 1, .advance 0 1]
    Sample.files events = [(.compressed 1, some [31, 7])] ∧
      ∀ s ∈ (events.foldl (step Sample.gzip) Sample.opened).manifest.segments,
        Held Sample.gzip (events.foldl (step Sample.gzip) Sample.opened).disk s := by
  refine ⟨by decide +kernel, compactions_lose_nothing Sample.gzip Sample.opened _
    Sample.opened_opened ?_⟩
  refine ⟨trivial, trivial, fun call phase segment hcall => ?_, trivial, trivial, trivial, trivial,
    trivial, trivial, trivial, trivial, trivial, trivial⟩
  exact nomatch hcall

/-- Both compactions have their copy in place when the first one switches the manifest to it; the
second one then removes it. -/
theorem second_compaction_removes_copy :
    let events := Sample.rolled ++ [.compact 0 1, .compact 1 1] ++ Sample.compressed 0 ++
      Sample.compressed 1 ++ [.advance 0 0, .advance 1 0]
    Sample.files events = [(.compressed 1, none)] := by
  decide +kernel

end Compacting

end Ledger

end Halro
