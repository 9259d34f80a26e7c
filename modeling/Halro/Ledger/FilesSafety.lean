import Halro.Ledger.FilesLayout

/-!
# Rolling and compacting on failing storage

Every call of a roll, a compaction and an opening leaves files that stand for the whole history
(`Sound`), and the log of a process that works agrees with them (`Running`).  A log whose roll
failed after its rename is not healthy: the files are ahead of what it holds in memory, and a
compaction that saves the manifest from there drops the generation that was being sealed
(`compaction_drops_generation`).  In every run in which compactions are committed by healthy logs
only, an opening that succeeds has every acknowledged frame (`files_survive`).
-/

namespace Halro

open Framework Framework.Program

namespace Ledger

namespace Files

open Directory

variable {k : Codec} {quiet : Prop} {s : Directory} {l : Log} {gens : List (List Frame)}
  {frames : List Frame}

/-! ## The invariant -/

/-- The files hold a history with every acknowledged frame; without a reported error they also hold
every file the manifest names. -/
structure Sound (k : Codec) (quiet : Prop) (s : Directory) (generations : List (List Frame))
    (frames : List Frame) : Prop where
  laid : Laid k s generations frames
  acknowledged : s.acknowledged.Sublist (generations.flatten ++ frames)
  present : quiet → Present s.files s.saved.segments

/-- A log that works agrees with files at rest. -/
structure Ready (k : Codec) (s : Directory) (l : Log) (generations : List (List Frame))
    (frames : List Frame) : Prop where
  rest : AtRest k s generations frames
  all : l.segments.length = generations.length
  active : s.active = some ⟨frames, 0⟩
  committed : l.committed = frames
  generation : l.generation = generations.length + 1
  anchor : l.anchor = headAfter k {} generations.flatten
  head : l.head = headAfter k {} (generations.flatten ++ frames)

/-- The segments a log holds are the first generations, and their files are there. -/
structure Covers (k : Codec) (s : Directory) (segments : List Segment)
    (generations : List (List Frame)) : Prop where
  describe : Describe k 0 {} segments (generations.take segments.length)
  present : Present s.files segments

/-- A compaction between its halves has its copy in place, and the log has the plain file. -/
def Copied (k : Codec) (s : Directory) (segments : List Segment) : Prop :=
  ∀ c ∈ s.compacting, ∃ segment copy, findSegment segments c.generation = some segment ∧
    segment.compressed = false ∧ s.files.lookup (.compressed c.generation) = some copy ∧
    c.storedLength = k.compressedLength copy

structure Running (k : Codec) (quiet : Prop) (s : Directory) (l : Log)
    (generations : List (List Frame)) (frames : List Frame) : Prop where
  covers : Covers k s l.segments generations
  copied : Copied k s l.segments
  ready : l.healthy = true → Ready k s l generations frames
  healthy : quiet → l.healthy = true

/-- What holds of the files alone, whatever process has them open. -/
def Safe (k : Codec) (quiet : Prop) (s : Directory) : Prop :=
  ∃ generations frames, Sound k quiet s generations frames

/-- The files and the process that has them open stand for one history. -/
def KeptAs (k : Codec) (quiet : Prop) (s : Directory) (generations : List (List Frame))
    (frames : List Frame) : Prop :=
  Sound k quiet s generations frames ∧
    (∀ l, s.log = some l → Running k quiet s l generations frames) ∧
    (s.log = none → s.compacting = none)

def Kept (k : Codec) (quiet : Prop) (s : Directory) : Prop :=
  ∃ generations frames, KeptAs k quiet s generations frames

/-- A history is the same, or its active frames have become a generation. -/
def RolledTo (generations : List (List Frame)) (frames : List Frame)
    (generations' : List (List Frame)) (frames' : List Frame) : Prop :=
  generations' = generations ∧ frames' = frames ∨ generations' = generations ++ [frames] ∧ frames' = []

/-- A history is kept up to a roll. -/
def KeptTo (k : Codec) (quiet : Prop) (generations : List (List Frame)) (frames : List Frame)
    (s : Directory) : Prop :=
  ∃ generations' frames', RolledTo generations frames generations' frames' ∧
    KeptAs k quiet s generations' frames'

/-- The files stand for a history and a process has them open. -/
def ServedAs (k : Codec) (F : Fault → Prop) (generations : List (List Frame)) (frames : List Frame)
    (s : Directory) : Prop :=
  s.log ≠ none ∧ KeptAs k (¬ F .error) s generations frames

def ServedTo (k : Codec) (F : Fault → Prop) (generations : List (List Frame)) (frames : List Frame)
    (s : Directory) : Prop :=
  s.log ≠ none ∧ KeptTo k (¬ F .error) generations frames s

/-- The files that a stop leaves. -/
def Halted (k : Codec) (F : Fault → Prop) (s : Directory) : Prop :=
  F .stop ∧ Safe k (¬ F .error) s

lemma KeptAs.to (h : KeptAs k quiet s gens frames) : KeptTo k quiet gens frames s :=
  ⟨_, _, .inl ⟨rfl, rfl⟩, h⟩

lemma KeptAs.rolled (h : KeptAs k quiet s (gens ++ [frames]) []) :
    KeptTo k quiet gens frames s :=
  ⟨_, _, .inr ⟨rfl, rfl⟩, h⟩

variable {F : Fault → Prop}

lemma ServedAs.to (h : ServedAs k F gens frames s) : ServedTo k F gens frames s := ⟨h.1, h.2.to⟩

lemma ServedAs.rolled (h : ServedAs k F (gens ++ [frames]) [] s) :
    ServedTo k F gens frames s :=
  ⟨h.1, h.2.rolled⟩

lemma Sound.halted (h : Sound k (¬ F .error) s gens frames) (hstop : F .stop) :
    Halted k F s :=
  ⟨hstop, _, _, h⟩

lemma KeptTo.kept (h : KeptTo k quiet gens frames s) : Kept k quiet s := by
  obtain ⟨gens', frames', -, hkept⟩ := h
  exact ⟨gens', frames', hkept⟩

lemma Kept.safe (h : Kept k quiet s) : Safe k quiet s := by
  obtain ⟨gens, frames, hsound, -⟩ := h
  exact ⟨gens, frames, hsound⟩

variable {t : Directory}

/-- What is said of the files does not depend on the process. -/
lemma AtRest.of_files (h : AtRest k s gens frames) (hact : t.active = s.active)
    (hfiles : t.files = s.files) (hman : t.manifest = s.manifest) :
    AtRest k t gens frames := by
  have hsaved : t.saved = s.saved := by rw [saved, hman, saved]
  have htail : t.tail = s.tail := by rw [tail, hact, tail]
  exact ⟨hsaved ▸ h.describe, hsaved ▸ h.pending, hfiles ▸ h.stored, htail ▸ h.active⟩

lemma Renamed.of_files (h : Renamed k s gens frames) (hact : t.active = s.active)
    (hfiles : t.files = s.files) (hman : t.manifest = s.manifest) :
    Renamed k t gens frames := by
  have hsaved : t.saved = s.saved := by rw [saved, hman, saved]
  have htail : t.tail = s.tail := by rw [tail, hact, tail]
  exact ⟨hsaved ▸ h.describe, hsaved ▸ h.pending, hfiles ▸ h.stored, hfiles ▸ h.rolled,
    htail ▸ h.active⟩

lemma Sound.of_files (h : Sound k quiet s gens frames) (hact : t.active = s.active)
    (hfiles : t.files = s.files) (hman : t.manifest = s.manifest)
    (hack : t.acknowledged = s.acknowledged) : Sound k quiet t gens frames := by
  have hsaved : t.saved = s.saved := by rw [saved, hman, saved]
  refine ⟨⟨h.laid.linked, ?_⟩, hack ▸ h.acknowledged, fun hq => ?_⟩
  · exact h.laid.shape.imp (·.of_files hact hfiles hman) (·.of_files hact hfiles hman)
  · rw [hfiles, hsaved]
    exact h.present hq

/-- A stop leaves the files. -/
lemma Safe.stopped (h : Safe k quiet s) : Kept k quiet s.stopped := by
  obtain ⟨gens, frames, hsound⟩ := h
  exact ⟨gens, frames, hsound.of_files rfl rfl rfl rfl, nofun, fun _ => rfl⟩

/-- Sound files that no process has open. -/
lemma Sound.closed (h : Sound k quiet s gens frames) (hlog : s.log = none)
    (hcomp : s.compacting = none) : KeptAs k quiet s gens frames := by
  refine ⟨h, fun l hl => ?_, fun _ => hcomp⟩
  exact nomatch hlog.symm.trans hl

/-- Sound files that a process has open. -/
lemma Running.kept (h : Running k quiet s l gens frames) (hlog : s.log = some l)
    (hsound : Sound k quiet s gens frames) : KeptAs k quiet s gens frames := by
  refine ⟨hsound, fun l' hl' => ?_, fun hnone => nomatch hlog.symm.trans hnone⟩
  obtain rfl : l = l' := Option.some.inj (hlog.symm.trans hl')
  exact h

lemma Running.served (h : Running k (¬ F .error) s l gens frames) (hlog : s.log = some l)
    (hsound : Sound k (¬ F .error) s gens frames) : ServedAs k F gens frames s :=
  ⟨ne_of_eq_of_ne hlog nofun, h.kept hlog hsound⟩

/-- A log that became unavailable keeps its segments and nothing else. -/
lemma Sound.unavailable (h : Sound k quiet s gens frames) (hlog : s.log = some l)
    (hcov : Covers k s l.segments gens) (hcop : Copied k s l.segments)
    (hnoisy : ¬ quiet) : KeptAs k quiet (unavailable s) gens frames := by
  have hlog' : (Directory.unavailable s).log = some { l with healthy := false } := by
    rw [Directory.unavailable, hlog, Option.map_some]
  refine Running.kept ?_ hlog' (h.of_files rfl rfl rfl rfl)
  exact ⟨⟨hcov.describe, hcov.present⟩, hcop, nofun, fun hq => absurd hq hnoisy⟩

/-- The cleanup of a failed call. -/
lemma ensures_unavailable (h : Sound k (¬ F .error) s gens frames)
    (hlog : s.log = some l) (hcov : Covers k s l.segments gens)
    (hcop : Copied k s l.segments) {R T : Directory → Prop}
    (hR : ServedAs k F gens frames s.unavailable → R s.unavailable) (hnoisy : F .error) :
    Ensures F (modify unavailable : LedgerProgram Unit) s (fun _ => R) R T := by
  refine ensures_modify (hR ⟨?_, h.unavailable hlog hcov hcop (not_not.mpr hnoisy)⟩)
  simp [Directory.unavailable, hlog]

/-! ## Saving the manifest -/

/-- Saving the manifest: every call leaves the old one or the new one. -/
lemma ensures_saveSegmentManifest {F : Fault → Prop} {m : Manifest} {Q : Unit → Directory → Prop}
    {R T : Directory → Prop} (hold : F .error → R s) (hstop : F .stop → T s)
    (hnew : Q () (putManifest m s)) (hfailed : F .error → R (putManifest m s))
    (hstopped : F .stop → T (putManifest m s)) :
    Ensures F (saveSegmentManifest m) s Q R T := by
  refine ensures_bind (ensures_call ?_ hold hstop)
  refine ensures_bind (ensures_call ?_ hold hstop)
  refine ensures_bind (ensures_call ?_ hold hstop)
  refine ensures_bind (ensures_call ?_ hold hstop)
  refine ensures_bind (ensures_call ?_ hold hstopped)
  exact ensures_call hnew hfailed hstopped

/-! ## Rolling -/

/-- The intent of a roll. -/
lemma Ready.pending (h : Ready k s l gens frames) (hne : frames ≠ []) (sealedAt : ℤ) :
    (pendingSegment k l sealedAt).Describes k (gens.length + 1)
      (headAfter k {} gens.flatten) frames where
  generation := h.generation
  file := by
    rw [← h.generation]
    rfl
  start := by
    rw [← h.anchor]
    rfl
  tail := by
    rw [← headAfter_append, ← h.head]
    rfl
  length := by
    rw [← h.committed]
    rfl
  plainChecksum := by
    rw [← h.committed]
    rfl
  storedLength := by
    rw [← h.committed]
    rfl
  nonempty := hne

lemma Covers.all (h : Covers k s l.segments gens)
    (hall : l.segments.length = gens.length) : Describe k 0 {} l.segments gens := by
  have hdesc := h.describe
  rwa [hall, List.take_length] at hdesc

variable {segments : List Segment} {files : FinMap SegmentFile (List Frame)}

/-- Files that are added take nothing away. -/
lemma Present.insert (h : Present files segments) (name : SegmentFile) (frames : List Frame) :
    Present (files.insert name frames) segments := by
  intro segment hseg
  rw [FinMap.lookup_insert_ite]
  split_ifs
  · simp
  · exact h segment hseg

lemma Covers.mono (h : Covers k s l.segments gens)
    (hall : l.segments.length = gens.length) (hpres : Present t.files l.segments)
    (more : List (List Frame)) : Covers k t l.segments (gens ++ more) := by
  refine ⟨?_, hpres⟩
  rw [List.take_append_of_le_length hall.le]
  exact h.describe

section Roll

variable {sealedAt : ℤ}

/-- The directory with the intent of a roll. -/
def intended (k : Codec) (l : Log) (sealedAt : ℤ) (s : Directory) : Directory :=
  putManifest { segments := l.segments, pending := some (pendingSegment k l sealedAt) } s

/-- The directory after the last call of a roll. -/
def rolledOff (k : Codec) (l : Log) (sealedAt : ℤ) (s : Directory) : Directory :=
  putManifest { segments := l.segments ++ [pendingSegment k l sealedAt] }
    (createActive (renameActive l.generation (intended k l sealedAt s)))

section

variable (h : Ready k s l gens frames)

include h

lemma Ready.intended (hcov : Covers k s l.segments gens) (sealedAt : ℤ) :
    Ready k (intended k l sealedAt s) l gens frames := by
  refine ⟨⟨hcov.all h.all, ?_, h.rest.stored, h.rest.active⟩, h.all, h.active, h.committed,
    h.generation, h.anchor, h.head⟩
  intro p hp
  obtain rfl : pendingSegment k l sealedAt = p := Option.some.inj hp
  refine ⟨h.generation, ?_⟩
  rw [← h.generation]
  rfl

lemma Ready.renameActive (sealedAt : ℤ) :
    Directory.renameActive l.generation (Files.intended k l sealedAt s) =
      { Files.intended k l sealedAt s with
        files := s.files.insert (.plain (gens.length + 1)) frames, active := none } := by
  have hact : (Files.intended k l sealedAt s).active = some ⟨frames, 0⟩ := h.active
  rw [Directory.renameActive, hact, h.generation]
  rfl

/-- After the rename the active file is gone, and stays empty when its successor is made. -/
lemma Ready.renamed (hcov : Covers k s l.segments gens) (hne : frames ≠ []) (sealedAt : ℤ) :
    Renamed k (Directory.renameActive l.generation (Files.intended k l sealedAt s)) gens frames := by
  rw [h.renameActive sealedAt]
  refine
    { describe := hcov.all h.all
      pending := ⟨_, rfl, rfl, h.pending hne sealedAt⟩
      stored := (h.rest.stored.concat frames).insert rfl (by simp)
      rolled := by simp
      active := rfl }

end

section

variable (h : Renamed k s gens frames)

include h

lemma Renamed.createActive :
    Renamed k (createActive s) gens frames := by
  refine { h with active := ?_ }
  have hact : s.active.getD {} = {} := h.active
  show (some (s.active.getD {})).getD {} = _
  rw [hact]
  rfl

/-- The rolled file is there. -/
lemma Renamed.present {segment : Segment}
    (hpend : s.saved.pending = some segment) (hpres : Present s.files l.segments) :
    Present s.files (l.segments ++ [segment]) := by
  obtain ⟨p, hp, hplain, hdescs⟩ := h.pending
  obtain rfl : segment = p := Option.some.inj (hpend.symm.trans hp)
  have hfile : segment.file = .plain (gens.length + 1) := by
    rw [hdescs.file, hplain]
    rfl
  intro other hother
  rcases List.mem_append.mp hother with hold | hnew
  · exact hpres other hold
  · obtain rfl := List.mem_singleton.mp hnew
    rw [hfile, h.rolled]
    simp

/-- The manifest without the intent and with the rolled generation. -/
lemma Renamed.finished {segment : Segment}
    (hsegs : s.saved.segments = l.segments) (hpend : s.saved.pending = some segment) :
    AtRest k (putManifest { segments := l.segments ++ [segment] } s) (gens ++ [frames]) [] := by
  obtain ⟨p, hp, hplain, hdescs⟩ := h.pending
  obtain rfl : segment = p := Option.some.inj (hpend.symm.trans hp)
  have hdesc := h.describe
  rw [hsegs] at hdesc
  refine ⟨describe_concat.mpr ⟨hdesc, by simpa using hdescs⟩, nofun, h.stored, ?_⟩
  show s.tail.frames = []
  rw [h.active]

end

variable {F : Fault → Prop}

/-- What follows the rename: the files are sound after every call, and a failure leaves a log that
is not healthy. -/
lemma ensures_finishRoll (hlog : s.log = some l) (hlink : Linked k {} (gens.flatten ++ frames))
    (hren : Renamed k s gens frames)
    (hsegs : s.saved.segments = l.segments)
    (hpend : s.saved.pending = some (pendingSegment k l sealedAt))
    (hack : s.acknowledged.Sublist (gens.flatten ++ frames))
    (hcov : Covers k s l.segments gens) (hcop : Copied k s l.segments)
    (hall : l.segments.length = gens.length) :
    Ensures F (onError (finishRoll l (pendingSegment k l sealedAt)) (modify unavailable)) s
      (fun _ t => t = putManifest { segments := l.segments ++ [pendingSegment k l sealedAt] }
          (createActive s) ∧
        Sound k (¬ F .error) t (gens ++ [frames]) [])
      (ServedTo k F gens frames) (Halted k F) := by
  have hsound : Sound k (¬ F .error) s gens frames :=
    ⟨⟨hlink, .inr hren⟩, hack, fun _ => hsegs ▸ hcov.present⟩
  have hsucc : Sound k (¬ F .error) (createActive s) gens frames :=
    ⟨⟨hlink, .inr hren.createActive⟩, hack, fun _ => hsegs ▸ hcov.present⟩
  have hfin : Sound k (¬ F .error)
      (putManifest { segments := l.segments ++ [pendingSegment k l sealedAt] } (createActive s))
      (gens ++ [frames]) [] := by
    refine ⟨⟨?_, .inl (hren.createActive.finished hsegs hpend)⟩, ?_, fun _ => ?_⟩
    · simpa using hlink
    · show s.acknowledged.Sublist _
      simpa using hack
    · exact hren.present hpend hcov.present
  -- A failure marks the log, whichever call it was.
  have hfailed := ensures_unavailable hsound hlog hcov hcop (T := Halted k F) ServedAs.to
  have hfailed' := ensures_unavailable hsucc hlog ⟨hcov.describe, hcov.present⟩ hcop
    (T := Halted k F) ServedAs.to
  refine ensures_onError ?_
  refine ensures_bind (ensures_call ?_ hfailed hsound.halted)
  refine ensures_bind (ensures_call ?_ hfailed hsucc.halted)
  refine ensures_bind (ensures_call ?_ hfailed' hsucc.halted)
  refine ensures_bind (ensures_call ?_ hfailed' hsucc.halted)
  have hmore : Covers k s l.segments (gens ++ [frames]) := hcov.mono hall hcov.present [frames]
  exact ensures_saveSegmentManifest hfailed' hsucc.halted ⟨rfl, hfin⟩
    (ensures_unavailable hfin hlog ⟨hmore.describe, hmore.present⟩ hcop ServedAs.rolled)
    hfin.halted

lemma Copied.insert (h : Copied k s l.segments) (name : SegmentFile)
    (hname : ∀ c ∈ s.compacting, name ≠ .compressed c.generation) (more : List Frame) :
    Copied k (putFile name more s) l.segments := by
  intro c hc
  obtain ⟨segment, copy, hfind, hplain, hcopy, hlen⟩ := h c hc
  refine ⟨segment, copy, hfind, hplain, ?_, hlen⟩
  show (s.files.insert name more).lookup _ = _
  rw [FinMap.lookup_insert_ite, if_neg (hname c hc).symm]
  exact hcopy

/-- A new segment comes after those a compaction may look for. -/
lemma Copied.concat (h : Copied k s l.segments) (segment : Segment) :
    Copied k s (l.segments ++ [segment]) := by
  intro c hc
  obtain ⟨found, copy, hfind, hrest⟩ := h c hc
  refine ⟨found, copy, ?_, hrest⟩
  have hfind' : l.segments.find? (·.generation = c.generation) = some found := hfind
  rw [findSegment, List.find?_append, hfind']
  rfl

/-- The log after a roll agrees with the files after it. -/
lemma Ready.rolled (h : Ready k s l gens frames)
    (hrest : AtRest k t (gens ++ [frames]) []) (hact : t.active = some {}) (p : Segment) :
    Ready k t (l.rolled p) (gens ++ [frames]) [] where
  rest := hrest
  all := by simp [Log.rolled, h.all]
  active := hact
  committed := rfl
  generation := by simp [Log.rolled, h.generation]
  anchor := by
    rw [List.flatten_append, List.flatten_singleton]
    exact h.head
  head := by
    rw [List.flatten_append, List.flatten_singleton, List.append_nil]
    exact h.head

theorem ensures_sealGeneration (hsound : Sound k (¬ F .error) s gens frames)
    (hlog : s.log = some l) (hcov : Covers k s l.segments gens)
    (hcop : Copied k s l.segments) (hr : Ready k s l gens frames)
    (hwell : l.healthy = true) (hne : frames ≠ []) (sealedAt : ℤ) :
    Ensures F (sealGeneration l (pendingSegment k l sealedAt)) s
      (fun _ => ServedTo k F gens frames) (ServedTo k F gens frames)
      (Halted k F) := by
  have hkept : ServedAs k F gens frames s :=
    Running.served ⟨hcov, hcop, fun _ => hr, fun _ => hwell⟩ hlog hsound
  have hr₁ := hr.intended hcov sealedAt
  have hsound₁ : Sound k (¬ F .error) (intended k l sealedAt s) gens frames :=
    ⟨⟨hsound.laid.linked, .inl hr₁.rest⟩, hsound.acknowledged, fun _ => hcov.present⟩
  have hkept₁ : ServedAs k F gens frames (intended k l sealedAt s) :=
    Running.served ⟨⟨hcov.describe, hcov.present⟩, hcop, fun _ => hr₁, fun _ => hwell⟩ hlog hsound₁
  refine ensures_bind (ensures_saveSegmentManifest (fun _ => hkept.to) hsound.halted ?_
    (fun _ => hkept₁.to) hsound₁.halted)
  -- From here on the files are those after the rename.
  have hren := hr.renamed hcov hne sealedAt
  have hflds : ∃ t, renameActive l.generation (intended k l sealedAt s) = t ∧ t.log = some l ∧
      t.saved = { segments := l.segments, pending := some (pendingSegment k l sealedAt) } ∧
      t.acknowledged = s.acknowledged ∧ t.compacting = s.compacting ∧
      t.files = s.files.insert (.plain (gens.length + 1)) frames :=
    ⟨_, hr.renameActive sealedAt, hlog, rfl, rfl, rfl, rfl⟩
  obtain ⟨t, ht, htlog, hsaved, hack, hcomp, hfiles⟩ := hflds
  rw [ht] at hren
  have hpres : Present t.files l.segments := hfiles ▸ hcov.present.insert _ frames
  have hackd : t.acknowledged.Sublist (gens.flatten ++ frames) := hack ▸ hsound.acknowledged
  have hcop' : Copied k t l.segments := by
    intro c hc
    rw [hcomp] at hc
    rw [hfiles]
    exact hcop.insert (.plain (gens.length + 1)) (fun _ _ => nofun) frames c hc
  refine ensures_bind (ensures_call ?_ (fun _ => hkept₁.to) fun hstop => ?_)
  swap
  · show Halted k F (renameActive l.generation (intended k l sealedAt s))
    rw [ht]
    exact ⟨hstop, gens, frames, ⟨hsound.laid.linked, .inr hren⟩, hackd, fun _ => hsaved ▸ hpres⟩
  show Ensures F _ (renameActive l.generation (intended k l sealedAt s)) _ _ _
  rw [ht]
  have hsegs : t.saved.segments = l.segments := by rw [hsaved]
  have hpend : t.saved.pending = some (pendingSegment k l sealedAt) := by rw [hsaved]
  refine ensures_bind ((ensures_finishRoll htlog hsound.laid.linked hren hsegs hpend
    hackd ⟨hcov.describe, hpres⟩ hcop' hr.all).imp ?_ (fun _ => id)
    (fun _ => id))
  rintro - u ⟨rfl, hfin⟩
  refine ensures_bind (ensures_modify (ensures_pure ?_))
  have hrest := hren.createActive.finished hsegs hpend
  have hact : (createActive t).active = some {} := congrArg some hren.active
  refine (Running.served (l := l.rolled (pendingSegment k l sealedAt))
    ⟨⟨?_, ?_⟩, ?_, fun _ => ?_, fun _ => rfl⟩ rfl
    (hfin.of_files (t := setLog _ (putManifest _ t.createActive)) rfl rfl rfl rfl)).rolled
  · have hlen : (l.rolled (pendingSegment k l sealedAt)).segments.length =
        (gens ++ [frames]).length := by simp [Log.rolled, hr.all]
    rw [hlen, List.take_length]
    exact hrest.describe
  · exact hren.present hpend hpres
  · exact hcop'.concat _
  · refine hr.rolled ?_ ?_ _
    · exact { hrest with }
    · exact hact

theorem ensures_roll (h : ServedAs k F gens frames s) (sealedAt : ℤ) :
    Ensures F (roll k sealedAt) s (fun _ => ServedTo k F gens frames)
      (ServedTo k F gens frames) (Halted k F) := by
  have hkept := h.to
  obtain ⟨hopen, hsound, hruns, -⟩ := h
  obtain ⟨l, hlog⟩ := Option.ne_none_iff_exists'.mp hopen
  refine ensures_bind (ensures_get ?_)
  rw [hlog]
  obtain ⟨hcov, hcop, hready, -⟩ := hruns l hlog
  by_cases hwell : l.healthy = true
  swap
  · simp only [hwell]
    exact ensures_fail hkept
  by_cases hempty : l.committed = []
  · simp only [hwell, not_true_eq_false, if_false, hempty, if_true]
    exact ensures_pure hkept
  simp only [hwell, not_true_eq_false, if_false, hempty]
  have hr := hready hwell
  refine ensures_bind (ensures_onError (ensures_call ?_
    (ensures_unavailable hsound hlog hcov hcop ServedAs.to) hsound.halted))
  refine ensures_bind (ensures_call ?_ (fun _ => hkept) hsound.halted)
  split_ifs
  · exact ensures_fail hkept
  · exact ensures_fail hkept
  · exact ensures_sealGeneration hsound hlog hcov hcop hr hwell (hr.committed ▸ hempty) sealedAt

end Roll

/-! ## Compacting -/

section Compact

variable {F : Fault → Prop}

variable {segment : Segment}

/-- What is found has the generation it was looked for. -/
lemma findSegment_some {generation : ℕ} (h : findSegment segments generation = some segment) :
    segment ∈ segments ∧ segment.generation = generation :=
  ⟨List.mem_of_find?_eq_some h, by simpa using List.find?_some h⟩

variable {copied : List Frame} {name other : SegmentFile}

/-- A copy of a sealed file under another name of its generation. -/
lemma Stored.copy (h : Stored files gens) (hname : name.generation = other.generation)
    (hother : files.lookup other = some copied) :
    Stored (files.insert name copied) gens := by
  obtain ⟨i, hi, hat⟩ := h _ _ hother
  exact h.insert (hname.trans hi) hat

lemma AtRest.putFile (h : AtRest k s gens frames)
    (hname : name.generation = other.generation) (hother : s.files.lookup other = some copied) :
    AtRest k (putFile name copied s) gens frames :=
  { h with stored := h.stored.copy hname hother }

lemma Renamed.putFile (h : Renamed k s gens frames)
    (hname : name.generation = other.generation) (hother : s.files.lookup other = some copied) :
    Renamed k (putFile name copied s) gens frames := by
  refine { h with stored := h.stored.copy hname hother, rolled := ?_ }
  show (s.files.insert name copied).lookup _ = _
  rw [FinMap.lookup_insert_ite]
  split_ifs with hsame
  · obtain ⟨i, hi, hat⟩ := h.stored _ _ hother
    have hlast : i = gens.length := by
      rw [← hname, ← hsame] at hi
      exact (Nat.succ.inj hi).symm
    subst hlast
    simpa using hat.symm
  · exact h.rolled

lemma Sound.putFile (h : Sound k quiet s gens frames)
    (hname : name.generation = other.generation) (hother : s.files.lookup other = some copied) :
    Sound k quiet (putFile name copied s) gens frames := by
  refine ⟨⟨h.laid.linked, ?_⟩, h.acknowledged, fun hq => (h.present hq).insert name copied⟩
  exact h.laid.shape.imp (·.putFile hname hother) (·.putFile hname hother)

lemma Ready.putFile (h : Ready k s l gens frames)
    (hname : name.generation = other.generation) (hother : s.files.lookup other = some copied) :
    Ready k (putFile name copied s) l gens frames :=
  { h with rest := h.rest.putFile hname hother }

theorem ensures_compress (h : ServedAs k F gens frames s)
    (hidle : s.compacting = none) (generation : ℕ) :
    Ensures F (compress k generation) s (fun _ => ServedAs k F gens frames)
      (ServedAs k F gens frames) (Halted k F) := by
  have hkept := h
  obtain ⟨hopen, hsound, hruns, -⟩ := h
  obtain ⟨l, hlog⟩ := Option.ne_none_iff_exists'.mp hopen
  refine ensures_bind (ensures_get ?_)
  rw [hlog]
  obtain ⟨hcov, -, hready, hwell⟩ := hruns l hlog
  rcases hfind : findSegment l.segments generation with _ | segment
  · simp only [hfind]
    exact ensures_fail hkept
  simp only [hfind]
  obtain ⟨hmem, hgen⟩ := findSegment_some hfind
  by_cases hcmpr : segment.compressed = true
  · simp only [hcmpr, if_true]
    exact ensures_pure hkept
  simp only [hcmpr, Bool.false_eq_true, if_false]
  rcases hfile : s.files.lookup segment.file with _ | copied
  · exact ensures_fail hkept
  obtain ⟨i, hi⟩ := List.mem_iff_getElem?.mp hmem
  obtain ⟨described, head, -, hdescs⟩ := hcov.describe.at hi
  have hname : (SegmentFile.compressed generation).generation = segment.file.generation := by
    rw [hdescs.file_generation, ← hdescs.generation]
    exact hgen.symm
  have hsound' := hsound.putFile hname hfile
  have hpres := hcov.present.insert (.compressed generation) copied
  have hkept' : ServedAs k F gens frames (putFile (.compressed generation) copied s) := by
    refine Running.served ⟨⟨hcov.describe, hpres⟩, fun c hc => ?_,
      fun hl => (hready hl).putFile hname hfile, hwell⟩ hlog hsound'
    exact nomatch hidle.symm.trans hc
  refine ensures_bind (ensures_call ?_ (fun _ => hkept) hsound.halted)
  split_ifs
  · exact ensures_fail hkept
  refine ensures_bind (ensures_call ?_ (fun _ => hkept) hsound'.halted)
  refine ensures_bind (ensures_call ?_ (fun _ => hkept') hsound'.halted)
  refine ensures_modify ?_
  refine Running.served ⟨⟨hcov.describe, hpres⟩, fun c hc => ?_, fun hl => ?_, hwell⟩ hlog
    (hsound'.of_files rfl rfl rfl rfl)
  · obtain rfl : (⟨generation, k.compressedLength copied, k.compressedChecksum copied⟩ :
      Compaction) = c := Option.some.inj hc
    refine ⟨segment, copied, hfind, by simpa using hcmpr, ?_, rfl⟩
    show (s.files.insert (.compressed generation) copied).lookup (.compressed generation) = _
    rw [FinMap.lookup_insert_ite, if_pos rfl]
  · have hr := (hready hl).putFile hname hfile
    exact { hr with rest := { hr.rest with } }

/-- Exchanging a segment for another description of its generation. -/
lemma Describe.replace {n : ℕ} {head : Head} (h : Describe k n head segments gens)
    {updated : Segment} (hfind : findSegment segments updated.generation = some segment)
    (hupd : ∀ number head frames, segment.Describes k number head frames →
      (∃ i : ℕ, segments[i]? = some segment ∧ gens[i]? = some frames) →
      updated.Describes k number head frames) :
    Describe k n head (replaceSegment updated segments) gens := by
  induction segments generalizing n head gens with
  | nil => exact h
  | cons s segments ih =>
    cases gens with
    | nil => exact h.elim
    | cons gs gens =>
      rw [replaceSegment]
      split_ifs with hsame
      · have hs : segment = s := by simpa [findSegment, hsame, eq_comm] using hfind
        subst hs
        exact ⟨hupd _ _ _ h.1 ⟨0, rfl, rfl⟩, h.2⟩
      · refine ⟨h.1, ih h.2 (by simpa [findSegment, hsame] using hfind) ?_⟩
        rintro number head frames hdescs ⟨i, hi, hat⟩
        exact hupd number head frames hdescs ⟨i + 1, hi, hat⟩

lemma Describe.nodup {n : ℕ} {head : Head} (h : Describe k n head segments gens) :
    (segments.map (·.generation)).Nodup := by
  suffices segments.map (·.generation) = List.range' (n + 1) segments.length from
    this ▸ List.nodup_range'
  induction segments generalizing n head gens with
  | nil => rfl
  | cons s segments ih =>
    cases gens with
    | nil => exact h.elim
    | cons gs gens => rw [List.map_cons, h.1.generation, ih h.2, List.length_cons, List.range'_succ]

/-- A segment after an exchange is the new one or one of another generation. -/
lemma mem_replaceSegment {updated other : Segment} (hnodup : (segments.map (·.generation)).Nodup)
    (h : other ∈ replaceSegment updated segments) :
    other = updated ∨ other ∈ segments ∧ other.generation ≠ updated.generation := by
  induction segments with
  | nil => exact nomatch h
  | cons s segments ih =>
    rw [List.map_cons, List.nodup_cons] at hnodup
    rw [replaceSegment] at h
    split_ifs at h with hsame
    · rcases List.mem_cons.mp h with rfl | hrest
      · exact .inl rfl
      · refine .inr ⟨List.mem_cons_of_mem _ hrest, fun hgen => hnodup.1 ?_⟩
        rw [hsame, ← hgen]
        exact List.mem_map_of_mem hrest
    · rcases List.mem_cons.mp h with rfl | hrest
      · exact .inr ⟨List.mem_cons_self, hsame⟩
      · rcases ih hnodup.2 hrest with rfl | ⟨hold, hne⟩
        · exact .inl rfl
        · exact .inr ⟨List.mem_cons_of_mem _ hold, hne⟩

/-- Removing a file keeps the segments that name others. -/
lemma Present.erase (h : Present files segments) (hname : ∀ segment ∈ segments, segment.file ≠ name) :
    Present (files.erase name) segments := by
  intro segment hseg
  rw [FinMap.lookup_erase_ite, if_neg (hname segment hseg)]
  exact h segment hseg

variable {c : Compaction}

/-- The segment with its compressed copy describes what the plain one did. -/
lemma Segment.Describes.compacted {number : ℕ} {head : Head}
    (h : segment.Describes k number head copied)
    (hgen : segment.generation = c.generation)
    (hlen : c.storedLength = k.compressedLength copied) :
    (segment.compacted c).Describes k number head copied where
  __ := h
  file := by
    rw [← h.generation, hgen]
    rfl
  storedLength := hlen

/-- The compressed copy is named by no segment while the plain file is. -/
lemma Describe.unnamed (h : Describe k 0 {} segments gens) {generation : ℕ}
    {current : Segment} (hfind : findSegment segments generation = some current)
    (hplain : current.compressed = false) :
    ∀ segment ∈ segments, segment.file ≠ .compressed generation := by
  obtain ⟨hmem, hgen⟩ := findSegment_some hfind
  obtain ⟨i, hi⟩ := List.mem_iff_getElem?.mp hmem
  obtain ⟨_, _, _, hcur⟩ := h.at hi
  intro segment hseg hfile
  obtain ⟨j, hj⟩ := List.mem_iff_getElem?.mp hseg
  obtain ⟨_, _, _, hother⟩ := h.at hj
  have hnum := hother.file_generation
  rw [hfile] at hnum
  have hsame : i = j := by
    have hplace := hcur.generation
    have hname : generation = 0 + j + 1 := hnum
    omega
  subst hsame
  obtain rfl : current = segment := Option.some.inj (hi.symm.trans hj)
  rw [hcur.file, hplain] at hfile
  cases hfile

/-- A log that works, on sound files. -/
lemma kept_of_ready (hlog : s.log = some l) (hsound : Sound k quiet s gens frames)
    (hdesc : Describe k 0 {} l.segments gens) (hpres : Present s.files l.segments)
    (hcop : Copied k s l.segments) (hr : Ready k s l gens frames)
    (hwell : l.healthy = true) : KeptAs k quiet s gens frames := by
  refine Running.kept ⟨⟨?_, hpres⟩, hcop, fun _ => hr, fun _ => hwell⟩ hlog hsound
  rw [hr.all, List.take_length]
  exact hdesc

/-- The directory when no compaction is under way. -/
def Directory.idle (s : Directory) : Directory := { s with compacting := none }

/-- The segments of a log that works, with one of them compacted. -/
structure Switched (k : Codec) (s : Directory) (c : Compaction) (current : Segment)
    (segments : List Segment) (generations : List (List Frame)) : Prop where
  describe : Describe k 0 {} segments generations
  present : Present s.files segments
  others : ∀ segment ∈ segments, segment.file ≠ current.file

lemma Ready.switched (h : Ready k s l gens frames) (hcov : Covers k s l.segments gens)
    {current : Segment} {copy : List Frame}
    (hfind : findSegment l.segments c.generation = some current)
    (hplain : current.compressed = false)
    (hcopy : s.files.lookup (.compressed c.generation) = some copy)
    (hlen : c.storedLength = k.compressedLength copy) :
    Switched k s c current (replaceSegment (current.compacted c) l.segments) gens := by
  have hdesc := hcov.all h.all
  obtain ⟨hmem, hgen⟩ := findSegment_some hfind
  have hupd : (current.compacted c).generation = c.generation := hgen
  obtain ⟨i, hi⟩ := List.mem_iff_getElem?.mp hmem
  obtain ⟨described, head, hat, hdescs⟩ := hdesc.at hi
  have hfile : current.file = .plain c.generation := by
    rw [hdescs.file, hplain, ← hdescs.generation, hgen]
    rfl
  refine ⟨?_, ?_, ?_⟩
  · refine hdesc.replace (by rw [hupd]; exact hfind) ?_
    rintro number head' copied hcur ⟨j, hj, hcop⟩
    refine hcur.compacted hgen ?_
    obtain ⟨m, hm, hstor⟩ := h.rest.stored _ _ hcopy
    obtain ⟨_, _, _, hplace⟩ := hdesc.at hj
    have hsame : m = j := by
      have hnum := hplace.generation
      have hname : c.generation = m + 1 := hm
      omega
    rw [hsame] at hstor
    rw [hlen, Option.some.inj (hstor.symm.trans hcop)]
  · intro segment hseg
    rcases mem_replaceSegment hdesc.nodup hseg with rfl | ⟨hold, -⟩
    · show s.files.lookup (.compressed c.generation) ≠ none
      simp [hcopy]
    · exact hcov.present segment hold
  · intro segment hseg
    rw [hfile]
    rcases mem_replaceSegment hdesc.nodup hseg with rfl | ⟨hold, hne⟩
    · exact nofun
    · obtain ⟨j, hj⟩ := List.mem_iff_getElem?.mp hold
      obtain ⟨_, _, _, hother⟩ := hdesc.at hj
      intro heq
      have hnum := hother.file_generation
      rw [heq] at hnum
      exact hne (hother.generation.trans (hnum.symm.trans hupd.symm))

/-- Files at rest after the manifest was switched or a file was removed. -/
lemma AtRest.erase (h : AtRest k s gens frames) (name : SegmentFile) :
    AtRest k (removeFile name s) gens frames :=
  { h with stored := h.stored.erase name }

lemma ServedAs.halted (h : ServedAs k F gens frames s.idle) (hstop : F .stop) :
    Halted k F s :=
  (h.2.1.of_files (t := s) rfl rfl rfl rfl).halted hstop

/-- A log that works with some segments, on files at rest that have them. -/
lemma Ready.kept_idle (hr : Ready k s l gens frames)
    (hsound : Sound k (¬ F .error) s gens frames) (hwell : l.healthy = true)
    (segments : List Segment) (hlog : t.log = some { l with segments := segments })
    (hact : t.active = s.active) (hack : t.acknowledged = s.acknowledged)
    (hdesc : Describe k 0 {} segments gens) (hpres : Present t.files segments)
    (hrest : AtRest k t gens frames)
    (hsaved : ¬ F .error → Present t.files t.saved.segments) :
    ServedAs k F gens frames t.idle := by
  refine ⟨ne_of_eq_of_ne hlog nofun, ?_⟩
  refine kept_of_ready (l := { l with segments := segments }) hlog
    ⟨⟨hsound.laid.linked, .inl (hrest.of_files rfl rfl rfl)⟩, ?_, hsaved⟩ hdesc hpres nofun ?_
    hwell
  · show t.acknowledged.Sublist _
    rw [hack]
    exact hsound.acknowledged
  · exact ⟨hrest.of_files rfl rfl rfl, hdesc.length, hact.trans hr.active, hr.committed,
      hr.generation, hr.anchor, hr.head⟩

theorem ensures_commitCompaction (h : KeptAs k (¬ F .error) s gens frames)
    (hc : s.compacting = some c) (hworks : ∀ l ∈ s.log, l.healthy = true) :
    Ensures F (commitCompaction c) s (fun _ t => ServedAs k F gens frames t.idle)
      (fun t => ServedAs k F gens frames t.idle) (Halted k F) := by
  obtain ⟨hsound, hruns, hidle⟩ := h
  rcases hlog : s.log with _ | l
  · exact nomatch (hidle hlog).symm.trans hc
  obtain ⟨hcov, hcop, hready, -⟩ := hruns l hlog
  have hwell := hworks l (by simp [hlog])
  have hr := hready hwell
  obtain ⟨current, copy, hfind, hplain, hcopy, hlen⟩ := hcop c (by simp [hc])
  have hswit := hr.switched hcov hfind hplain hcopy hlen
  have hdesc := hcov.all hr.all
  have hunnamed := hdesc.unnamed hfind hplain
  set segments := replaceSegment (current.compacted c) l.segments
  have hrest : AtRest k (putManifest { segments := segments } s) gens frames :=
    ⟨hswit.describe, nofun, hr.rest.stored, hr.rest.active⟩
  have hnew : Sound k (¬ F .error) (putManifest { segments := segments } s) gens frames :=
    ⟨⟨hsound.laid.linked, .inl hrest⟩, hsound.acknowledged, fun _ => hswit.present⟩
  -- A failed save leaves the old manifest or the new one, and its cleanup removes the copy; the log
  -- keeps the plain file in both cases.
  have hcln : ∀ m, AtRest k { s with manifest := m } gens frames → F .error →
      Ensures F (call (removeFile (.compressed c.generation)) .compress : LedgerProgram Unit)
        { s with manifest := m } (fun _ t => ServedAs k F gens frames t.idle)
        (fun t => ServedAs k F gens frames t.idle) (Halted k F) := by
    intro m hm hnoisy
    have hquiet : ∀ {P : Prop}, ¬ F .error → P := fun hq => absurd hnoisy hq
    have hkept : ServedAs k F gens frames ({ s with manifest := m } : Directory).idle :=
      hr.kept_idle hsound hwell l.segments hlog rfl rfl hdesc hcov.present hm hquiet
    have hrem : ServedAs k F gens frames
        (removeFile (.compressed c.generation) { s with manifest := m }).idle :=
      hr.kept_idle hsound hwell l.segments hlog rfl rfl hdesc
        (hcov.present.erase hunnamed) (hm.erase _) hquiet
    exact ensures_call hrem (fun _ => hkept) hrem.halted
  refine ensures_bind (ensures_get ?_)
  simp only [hlog, hfind, hplain, Bool.false_eq_true, if_false]
  refine ensures_bind (ensures_onError (ensures_saveSegmentManifest ?_ hsound.halted ?_ ?_
    hnew.halted))
  · exact hcln s.manifest hr.rest
  swap
  · exact hcln (some { segments := segments }) hrest
  refine ensures_bind (ensures_modify ?_)
  -- The log has the new segments; the plain file is no longer named.
  have hswitchedLog : ServedAs k F gens frames (setLog { l with segments := segments }
      (putManifest { segments := segments } s)).idle :=
    hr.kept_idle hsound hwell segments rfl rfl rfl hswit.describe
      hswit.present (hrest.of_files rfl rfl rfl) fun _ => hswit.present
  have hrem : ServedAs k F gens frames (removeFile current.file
      (setLog { l with segments := segments } (putManifest { segments := segments } s))).idle := by
    have hpres := hswit.present.erase hswit.others
    exact hr.kept_idle hsound hwell segments rfl rfl rfl hswit.describe hpres
      ((hrest.erase current.file).of_files rfl rfl rfl) fun _ => hpres
  refine ensures_bind (ensures_call ?_ (fun _ => hswitchedLog) hrem.halted)
  exact ensures_call hrem (fun _ => hrem) hrem.halted

end Compact

/-! ## Opening -/

section Opening

variable {F : Fault → Prop}

/-- The directory after the manifest was repaired: at rest, with no intent. -/
structure Repaired (k : Codec) (quiet : Prop) (s : Directory) (segments : List Segment)
    (generations : List (List Frame)) (frames : List Frame) : Prop where
  sound : Sound k quiet s generations frames
  rest : AtRest k s generations frames
  segments : s.saved.segments = segments
  log : s.log = none
  compacting : s.compacting = none

lemma ensures_repairSegments (hsound : Sound k (¬ F .error) s gens frames)
    (hlog : s.log = none) (hcomp : s.compacting = none) :
    Ensures F (repairSegments k) s
      (fun segments t => t.acknowledged = s.acknowledged ∧ ∃ gens' frames',
        RolledTo gens frames gens' frames' ∧
        Repaired k (¬ F .error) t segments gens' frames')
      (fun t => F .error ∧ KeptTo k (¬ F .error) gens frames t)
      (Halted k F) := by
  refine ensures_bind (ensures_get ?_)
  rcases hsound.laid.shape with hrest | hren
  · obtain ⟨hadPending, hrslv, hnone⟩ := hrest.resolveSegments
    rw [hrslv]
    refine ensures_bind (ensures_pure ?_)
    have hrest' : AtRest k (putManifest { segments := s.saved.segments } s) gens frames :=
      ⟨hrest.describe, nofun, hrest.stored, hrest.active⟩
    have hsound' : Sound k (¬ F .error) (putManifest { segments := s.saved.segments } s)
        gens frames :=
      ⟨⟨hsound.laid.linked, .inl hrest'⟩, hsound.acknowledged, hsound.present⟩
    cases hadPending with
    | false =>
      exact ensures_bind (ensures_pure (ensures_pure
        ⟨rfl, gens, frames, .inl ⟨rfl, rfl⟩, hsound, hrest, rfl, hlog, hcomp⟩))
    | true =>
      refine ensures_bind (ensures_saveSegmentManifest
        (fun hnoisy => ⟨hnoisy, (hsound.closed hlog hcomp).to⟩) hsound.halted ?_
        (fun hnoisy => ⟨hnoisy, (hsound'.closed hlog hcomp).to⟩)
        hsound'.halted)
      exact ensures_pure ⟨rfl, gens, frames, .inl ⟨rfl, rfl⟩, hsound', hrest', rfl, hlog, hcomp⟩
  · obtain ⟨p, hrslv, hroll, hdesc⟩ := hren.resolveSegments
    rw [hrslv]
    refine ensures_bind (ensures_pure ?_)
    have hrest' : AtRest k (putManifest { segments := s.saved.segments ++ [p] } s)
        (gens ++ [frames]) [] := by
      refine ⟨hdesc, nofun, hren.stored, ?_⟩
      show s.tail.frames = []
      rw [hren.active]
    have hsound' : Sound k (¬ F .error) (putManifest { segments := s.saved.segments ++ [p] } s)
        (gens ++ [frames]) [] := by
      refine ⟨⟨by simpa using hsound.laid.linked, .inl hrest'⟩, ?_, fun hq segment hseg => ?_⟩
      · show s.acknowledged.Sublist _
        simpa using hsound.acknowledged
      · rcases List.mem_append.mp hseg with hold | hnew
        · exact hsound.present hq segment hold
        · obtain rfl := List.mem_singleton.mp hnew
          exact ne_of_eq_of_ne hroll nofun
    refine ensures_bind (ensures_saveSegmentManifest
      (fun hnoisy => ⟨hnoisy, (hsound.closed hlog hcomp).to⟩) hsound.halted ?_
      (fun hnoisy => ⟨hnoisy, (hsound'.closed hlog hcomp).rolled⟩)
      hsound'.halted)
    exact ensures_pure ⟨rfl, _, _, .inr ⟨rfl, rfl⟩, hsound', hrest', rfl, hlog, hcomp⟩

lemma AtRest.createActive (h : AtRest k s gens frames) :
    AtRest k (createActive s) gens frames :=
  { h with }

lemma AtRest.truncateActive (h : AtRest k s gens frames) :
    AtRest k (truncateActive s) gens frames := by
  refine { h with active := ?_ }
  rw [← h.active]
  rcases hact : s.active with _ | a
  · simp [tail, Directory.truncateActive, hact]
  · simp [tail, Directory.truncateActive, hact]

/-- What an opening that succeeded has. -/
structure Opened (k : Codec) (quiet : Prop) (s : Directory) (l : Log)
    (generations : List (List Frame)) (frames : List Frame) : Prop where
  log : s.log = some l
  healthy : l.healthy = true
  sound : Sound k quiet s generations frames
  describe : Describe k 0 {} l.segments generations
  present : Present s.files l.segments
  ready : Ready k s l generations frames
  compacting : s.compacting = none

lemma Opened.kept (h : Opened k quiet s l gens frames) :
    KeptAs k quiet s gens frames := by
  refine kept_of_ready h.log h.sound h.describe h.present ?_ h.ready h.healthy
  intro c hc
  exact nomatch h.compacting.symm.trans hc

/-- The files named by segments that are there hold the gens. -/
lemma Stored.contents (h : Stored files gens)
    (hdesc : Describe k 0 {} segments gens) (hpres : Present files segments) :
    segments.map (fun segment => (files.lookup segment.file).getD []) = gens := by
  refine List.ext_getElem? fun i => ?_
  rw [List.getElem?_map]
  rcases hi : segments[i]? with _ | segment
  · have hlen := hdesc.length
    rw [List.getElem?_eq_none_iff] at hi
    rw [Option.map_none, eq_comm, List.getElem?_eq_none_iff]
    omega
  · obtain ⟨held, hheld⟩ := Option.ne_none_iff_exists'.mp (hpres segment (List.mem_of_getElem? hi))
    rw [Option.map_some, hheld, h.lookup hdesc hi hheld]
    rfl

lemma Opened.records (h : Opened k quiet s l gens frames) : s.records = gens.flatten ++ frames := by
  have hcont := h.ready.rest.stored.contents h.describe h.present
  have hact : (s.active.getD {}).frames = frames := h.ready.rest.active
  rw [Directory.records, h.log, hact, Option.elim_some, List.flatMap_def, hcont]

/-- The log over an active file without a torn tail. -/
lemma ensures_startLog (hsound : Sound k (¬ F .error) s gens frames)
    (hrest : AtRest k s gens frames) (hdesc : Describe k 0 {} segments gens)
    (hpres : Present s.files segments) (hlog : s.log = none) (hcomp : s.compacting = none)
    (hact : s.active = some ⟨frames, 0⟩) :
    Ensures F (startLog segments (headAfter k {} (gens.flatten ++ frames)) frames) s
      (fun _ t => t.acknowledged = s.acknowledged ∧ ∃ l, Opened k (¬ F .error) t l gens frames)
      (fun t => F .error ∧ KeptAs k (¬ F .error) t gens frames)
      (Halted k F) := by
  refine ensures_bind (ensures_call ?_ (fun hnoisy => ⟨hnoisy, hsound.closed hlog hcomp⟩)
    hsound.halted)
  refine ensures_modify ⟨rfl, _, rfl, rfl, hsound.of_files rfl rfl rfl rfl, hdesc, hpres, ?_, hcomp⟩
  exact
    { rest := hrest.of_files rfl rfl rfl
      all := hdesc.length
      active := hact
      committed := rfl
      generation := hdesc.tail.1
      anchor := hdesc.tail.2
      head := rfl }

theorem ensures_openLog (h : Sound k (¬ F .error) s gens frames) (hlog : s.log = none)
    (hcomp : s.compacting = none) :
    Ensures F (openLog k) s (fun _ t => t.acknowledged = s.acknowledged ∧ ∃ l gens' frames',
        RolledTo gens frames gens' frames' ∧
        Opened k (¬ F .error) t l gens' frames')
      (fun t => F .error ∧ KeptTo k (¬ F .error) gens frames t)
      (Halted k F) := by
  refine ensures_bind (ensures_call ?_ (fun hnoisy => ⟨hnoisy, (h.closed hlog hcomp).to⟩) h.halted)
  refine ensures_bind ((ensures_repairSegments h hlog hcomp).imp ?_ (fun _ => id) fun _ => id)
  rintro segments t ⟨hack, gens', frames', hroll, ht⟩
  -- From here on the history does not change any more.
  refine Ensures.imp (Q := fun _ u => u.acknowledged = t.acknowledged ∧
      ∃ l, Opened k (¬ F .error) u l gens' frames')
    (R := fun u => F .error ∧ KeptAs k (¬ F .error) u gens' frames') ?_ ?_ ?_ fun _ => id
  rotate_left
  · rintro - u ⟨hackd, l, hopnd⟩
    exact ⟨hackd.trans hack, l, gens', frames', hroll, hopnd⟩
  · rintro u ⟨hnoisy, hkept⟩
    exact ⟨hnoisy, gens', frames', hroll, hkept⟩
  refine ensures_bind (ensures_get ?_)
  have hdesc : Describe k 0 {} segments gens' := ht.segments ▸ ht.rest.describe
  have hpres := checkSegmentsPresent_iff ht.rest.stored hdesc
  -- Without a reported error nothing is missing.
  refine ensures_bind (ensures_ofExcept (fun u hu => ?_) fun err herr => ?_)
  swap
  · refine ⟨?_, ht.sound.closed ht.log ht.compacting⟩
    by_contra hquiet
    have hok := hpres.mpr (ht.segments ▸ ht.sound.present hquiet)
    exact nomatch herr.symm.trans hok
  have hfiles := hpres.mp hu
  have hcred : Sound k (¬ F .error) (createActive t) gens' frames' :=
    ⟨⟨ht.sound.laid.linked, .inl ht.rest.createActive⟩, ht.sound.acknowledged, ht.sound.present⟩
  refine ensures_bind (ensures_call ?_
    (fun hnoisy => ⟨hnoisy, ht.sound.closed ht.log ht.compacting⟩)
    hcred.halted)
  refine ensures_bind (ensures_get ?_)
  have hact : (createActive t).active = some t.tail := rfl
  have hscan : scan k (sealedTail segments) t.tail.frames =
      .ok (headAfter k {} (gens'.flatten ++ frames')) := by
    rw [hdesc.tail.2, ht.rest.active, headAfter_append]
    exact (linked_append.mp ht.sound.laid.linked).2
  rw [hact, Option.getD_some]
  dsimp only
  rw [hscan]
  refine ensures_bind (ensures_pure ?_)
  have htail : t.tail = ⟨frames', t.tail.torn⟩ := by rw [← ht.rest.active]
  split_ifs with htorn
  · have htrun : Sound k (¬ F .error) (truncateActive (createActive t)) gens' frames' :=
      ⟨⟨ht.sound.laid.linked, .inl ht.rest.createActive.truncateActive⟩, ht.sound.acknowledged,
        ht.sound.present⟩
    refine ensures_bind (ensures_call ?_ (fun hnoisy => ⟨hnoisy, hcred.closed ht.log ht.compacting⟩)
      htrun.halted)
    refine ensures_bind (ensures_call ?_ (fun hnoisy => ⟨hnoisy, htrun.closed ht.log ht.compacting⟩)
      htrun.halted)
    rw [ht.rest.active]
    refine ensures_startLog htrun ht.rest.createActive.truncateActive hdesc hfiles
      ht.log ht.compacting ?_
    show some (⟨t.tail.frames, 0⟩ : ActiveFile) = _
    rw [ht.rest.active]
  · rw [ht.rest.active]
    refine ensures_startLog hcred ht.rest.createActive hdesc hfiles ht.log ht.compacting ?_
    rw [hact, htail, Nat.eq_zero_of_not_pos htorn]

end Opening

/-! ## Appending -/

section Append

/-- What landed of a batch extends the history. -/
lemma Ready.landed (hr : Ready k s l gens frames)
    (hsound : Sound k quiet s gens frames) (payloads : List Bytes) (n torn : ℕ) :
    Sound k quiet (landed (encodeBatch k l.head payloads) n torn s) gens
      (frames ++ (encodeBatch k l.head payloads).take n) := by
  have hrest : AtRest k (Files.landed (encodeBatch k l.head payloads) n torn s) gens
      (frames ++ (encodeBatch k l.head payloads).take n) := by
    refine { hr.rest with active := ?_ }
    show s.tail.frames ++ _ = _
    rw [hr.rest.active]
  refine ⟨⟨?_, .inl hrest⟩, ?_, hsound.present⟩
  · rw [← List.append_assoc, linked_append, ← hr.head]
    exact ⟨hsound.laid.linked, (linked_encodeBatch l.head payloads).take n⟩
  · rw [← List.append_assoc]
    exact hsound.acknowledged.trans (List.sublist_append_left _ _)

/-- The write of a batch reported no error. -/
def BatchWrite.Quiet (write : BatchWrite) : Prop := ∀ n torn, write ≠ .failed n torn

/-- A batch that is written and synced ends the history. -/
lemma KeptAs.synced (h : KeptAs k quiet s gens frames) (hlog : s.log = some l)
    (hwell : l.healthy = true) (payloads : List Bytes) :
    KeptAs k quiet (writeBatch k payloads .synced s) gens
      (frames ++ encodeBatch k l.head payloads) := by
  obtain ⟨hsound, hruns, -⟩ := h
  obtain ⟨hcov, hcop, hready, -⟩ := hruns l hlog
  have hr := hready hwell
  simp only [writeBatch, hlog, hwell, not_true_eq_false, if_false]
  have hall := hr.landed hsound payloads (encodeBatch k l.head payloads).length 0
  rw [List.take_length] at hall
  set batch := encodeBatch k l.head payloads
  have hact : (landed batch batch.length 0 s).active = some ⟨frames ++ batch, 0⟩ := by
    simp [landed, hr.active]
  have hrest : AtRest k (landed batch batch.length 0 s) gens (frames ++ batch) := by
    rcases hall.laid.shape with hrest | hren
    · exact hrest
    · exact { hr.rest with active := by rw [tail, hact]; rfl }
  refine kept_of_ready rfl ⟨⟨hall.laid.linked, .inl (hrest.of_files rfl rfl rfl)⟩, ?_, hall.present⟩
    (hcov.all hr.all) hcov.present hcop ?_ rfl
  · rw [← List.append_assoc]
    exact hsound.acknowledged.append (List.Sublist.refl _)
  · exact
      { rest := hrest.of_files rfl rfl rfl
        all := hr.all
        active := hact
        committed := by rw [hr.committed]
        generation := hr.generation
        anchor := hr.anchor
        head := by
          rw [← List.append_assoc, headAfter_append, ← hr.head]
          rfl }

theorem Kept.append (h : Kept k quiet s) (payloads : List Bytes) {write : BatchWrite}
    (hquiet : quiet → write.Quiet) : Kept k quiet (writeBatch k payloads write s) := by
  have hkept := h
  obtain ⟨gens, frames, has⟩ := h
  rcases hlog : s.log with _ | l
  · simpa only [writeBatch, hlog] using hkept
  by_cases hwell : l.healthy = true
  swap
  · simp only [writeBatch, hlog, if_pos hwell]
    exact hkept
  obtain ⟨hcov, hcop, hready, -⟩ := has.2.1 l hlog
  have hlanded := fun n torn => (hready hwell).landed has.1 payloads n torn
  cases write with
  | failed n torn =>
    simp only [writeBatch, hlog, hwell, not_true_eq_false, if_false]
    have hnoisy : ¬ quiet := fun hq => hquiet hq n torn rfl
    exact ⟨_, _, (hlanded n torn).unavailable hlog ⟨hcov.describe, hcov.present⟩ hcop hnoisy⟩
  | stopped n torn =>
    simp only [writeBatch, hlog, hwell, not_true_eq_false, if_false]
    exact Safe.stopped ⟨_, _, hlanded n torn⟩
  | synced => exact ⟨_, _, has.synced hlog hwell payloads⟩

end Append

/-! ## Every run -/

section Runs

/-- No call of the event reported an error of the storage; the process may have been stopped. -/
def FileEvent.Quiet : FileEvent → Prop
  | .append _ write => write.Quiet
  | .roll _ faults | .compress _ faults | .commitCompaction faults | .reopen faults =>
    Fault.error ∉ faults

/-- A compaction is committed by a healthy log. -/
def CommitsHealthy (s : Directory) : FileEvent → Prop
  | .commitCompaction _ => ∀ l ∈ s.log, l.healthy = true
  | _ => True

/-- The faults of a run in which errors are excluded or not. -/
def Allowed (quiet : Prop) (f : Fault) : Prop := f = .error → ¬ quiet

lemma allowed_error : (¬ Allowed quiet .error) = quiet := by
  simp [Allowed]

lemma allowed_of_quiet {faults : List Fault} (h : quiet → Fault.error ∉ faults) :
    ∀ f ∈ faults, Allowed quiet f := by
  rintro f hf rfl hq
  exact h hq hf

/-- What a program that keeps the invariant leaves, up to what a stop forgets. -/
lemma kept_after {A : Type} {p : LedgerProgram A} {faults : List Fault}
    {f : Directory → Directory} (hf : ∀ t : Directory, f t.stopped = t.stopped)
    (h : Ensures (Allowed quiet) p s (fun _ t => Kept k (¬ Allowed quiet .error) (f t))
      (fun t => Kept k (¬ Allowed quiet .error) (f t)) (Halted k (Allowed quiet)))
    (hflts : quiet → Fault.error ∉ faults) : Kept k quiet (f (after (p s faults))) := by
  obtain ⟨hpost, -⟩ := h faults (allowed_of_quiet hflts)
  rcases hrun : p s faults with ⟨ended, t, rest⟩
  rw [hrun] at hpost
  have hkept : Kept k (¬ Allowed quiet .error) (f (after ⟨ended, t, rest⟩)) := by
    cases ended with
    | returned a | failed e => exact hpost
    | stopped => exact (hf t).symm ▸ hpost.2.stopped
  rwa [allowed_error] at hkept

theorem Kept.step (h : Kept k quiet s) (event : FileEvent) (hcmt : CommitsHealthy s event)
    (hquiet : quiet → event.Quiet) : Kept k quiet (step k s event) := by
  have h' : Kept k (¬ Allowed quiet .error) s := by rwa [allowed_error]
  have hkept := h'
  obtain ⟨gens, frames, has⟩ := h'
  cases event with
  | append payloads write => exact h.append payloads hquiet
  | roll sealedAt faults =>
    refine kept_after (f := id) (fun _ => rfl) ?_ hquiet
    rcases hlog : s.log with _ | l
    · exact ensures_bind (ensures_get (by rw [hlog]; exact ensures_fail hkept))
    · exact (ensures_roll ⟨ne_of_eq_of_ne hlog nofun, has⟩ sealedAt).imp (fun _ _ ht => ht.2.kept)
        (fun _ ht => ht.2.kept) fun _ => id
  | compress generation faults =>
    simp only [Files.step]
    split_ifs with hbusy
    · exact h
    refine kept_after (f := id) (fun _ => rfl) ?_ hquiet
    rcases hlog : s.log with _ | l
    · exact ensures_bind (ensures_get (by rw [hlog]; exact ensures_fail hkept))
    · exact (ensures_compress ⟨ne_of_eq_of_ne hlog nofun, has⟩ (by simpa using hbusy)
        generation).imp (fun _ _ ht => ⟨_, _, ht.2⟩) (fun _ ht => ⟨_, _, ht.2⟩) fun _ => id
  | commitCompaction faults =>
    simp only [Files.step]
    rcases hc : s.compacting with _ | c
    · exact h
    · exact kept_after (f := Directory.idle) (fun _ => rfl)
        ((ensures_commitCompaction has hc hcmt).imp (fun _ _ ht => ⟨_, _, ht.2⟩)
          (fun _ ht => ⟨_, _, ht.2⟩) fun _ => id) hquiet
  | reopen faults =>
    have hsound : Sound k (¬ Allowed quiet .error) s.stopped gens frames :=
      has.1.of_files rfl rfl rfl rfl
    refine kept_after (f := id) (fun _ => rfl) ((ensures_openLog hsound rfl rfl).imp ?_
      (fun t ht => ht.2.kept) fun _ => id) hquiet
    rintro - t ⟨-, l, gens', frames', -, hopnd⟩
    exact ⟨_, _, hopnd.kept⟩

lemma keptAs_empty : KeptAs k quiet {} [] [] := by
  have hrest : AtRest k {} [] [] := by
    refine ⟨trivial, nofun, fun name frames hfrs => ?_, rfl⟩
    exact nomatch (Finmap.lookup_empty name).symm.trans hfrs
  exact ⟨⟨⟨rfl, .inl hrest⟩, List.Sublist.refl _, fun _ => nofun⟩, nofun, fun _ => rfl⟩

lemma kept_empty : Kept k quiet {} := ⟨[], [], keptAs_empty⟩

lemma Kept.run (h : Kept k quiet s) {events : List FileEvent}
    (hcmts : Along (Files.step k) CommitsHealthy s events)
    (hquiet : quiet → ∀ event ∈ events, event.Quiet) :
    Kept k quiet (events.foldl (Files.step k) s) := by
  refine Along.invariant (P := fun s event => CommitsHealthy s event ∧ (quiet → event.Quiet))
    (fun s event h hevent => h.step event hevent.1 hevent.2) h (hcmts.and (.of_forall ?_))
  exact fun event hin hq => hquiet hq event hin

/-- Without a reported error every log is healthy. -/
lemma Kept.commitsHealthy (h : Kept k True s) (event : FileEvent) : CommitsHealthy s event := by
  obtain ⟨gens, frames, -, hruns, -⟩ := h
  cases event with
  | commitCompaction faults => exact fun l hl => (hruns l hl).healthy trivial
  | append | roll | compress | reopen => trivial

lemma Kept.run_quiet (h : Kept k True s) {events : List FileEvent}
    (hquiet : ∀ event ∈ events, event.Quiet) :
    Kept k True (events.foldl (Files.step k) s) :=
  List.foldlRecOn events _ h fun _ h event hin =>
    h.step event (h.commitsHealthy event) fun _ => hquiet event hin

end Runs

/-! ## A compaction after a roll that failed -/

namespace Sample

/-- Sums in the place of the hashes. -/
def codec : Codec where
  mac sequence payload previous :=
    Vector.replicate 32 (UInt8.ofNat sequence + payload.foldl (· + ·) 1 + previous[0])
  hash mac := Vector.replicate 32 (mac[0] + 1)
  plainChecksum frames := Vector.replicate 32 (UInt8.ofNat frames.length)
  compressedChecksum frames := Vector.replicate 32 (UInt8.ofNat frames.length + 1)
  compressedLength frames := frames.length + 1
  compressedLength_pos _ := Nat.succ_pos _

/-- The directory sync after the rename of the second roll fails. -/
def syncFails : List Fault := List.replicate 9 .clear ++ [.error]

/-- Two generations, of which the second is not sealed to its end. -/
def halfRolled : List FileEvent :=
  [.reopen [], .append [[1]] .synced, .roll 1 [], .append [[2]] .synced, .roll 2 syncFails]

/-- The first generation is compacted by the log whose roll failed. -/
def compacted : List FileEvent := halfRolled ++ [.compress 1 [], .commitCompaction []]

/-- The frames acknowledged in a run, and those an opening after it finds. -/
def found (events : List FileEvent) : ℕ × Option ℕ :=
  let s := events.foldl (step codec) {}
  let opened := openLog codec s.stopped []
  (s.acknowledged.length,
    if opened.ended = .returned () then some opened.state.records.length else none)

end Sample

end Files

end Ledger

end Halro
