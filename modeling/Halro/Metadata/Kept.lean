import Halro.Metadata.Directory
import Halro.Metadata.Scan

/-!
# What the database and its journal keep between them

The database records a position in the epoch of the journal file; the frames up to it are the ones
it has applied, and the frames after it can be applied to it.  `Kept` says so of a directory, with
or without a process on it, and the lemmas below go through the programs of the store one by one.

A parameter `m` tells two uses apart.  Without it the database is the result of its epoch's frames
(`Applied.folded`), which a migration ends; with it the database always records a position in the
epoch of the file that is there, which a stop between the file and the position of a new epoch ends.
-/

namespace Halro

open Framework Framework.Program Replication

namespace Metadata

open Directory

variable {V : Type}

/-- The journal of the process. -/
def Directory.log (s : Directory V) : Option Log := s.store.bind (·.log)

/-- The operations of the frames up to a sequence. -/
def opsThrough (sequence : ℕ) (frames : List (Frame V)) : List (Op V) :=
  (frames.filter fun f => f.sequence ≤ sequence).flatMap Frame.ops

/-! ## Operations up to a sequence and after it -/

section Through

variable {a : ℕ} {frames : List (Frame V)} {f : Frame V}

lemma opsThrough_all (h : ∀ f ∈ frames, f.sequence ≤ a) :
    opsThrough a frames = frames.flatMap Frame.ops := by
  rw [opsThrough, List.filter_eq_self.mpr (by simpa using h)]

lemma opsThrough_concat (h : a < f.sequence) :
    opsThrough a (frames ++ [f]) = opsThrough a frames := by
  have hf : ¬ f.sequence ≤ a := Nat.not_le.mpr h
  simp [opsThrough, hf]

lemma opsAfter_all (h : ∀ f ∈ frames, f.sequence ≤ a) : opsAfter a frames = [] := by
  rw [opsAfter, List.filter_eq_nil_iff.mpr, List.flatMap_nil]
  intro f hf
  simp [h f hf]

lemma opsAfter_append (xs ys : List (Frame V)) :
    opsAfter a (xs ++ ys) = opsAfter a xs ++ opsAfter a ys := by
  simp [opsAfter]

lemma opsAfter_filter : opsAfter a (frames.filter (·.isOperations)) = opsAfter a frames := by
  rw [opsAfter, opsAfter, List.filter_filter]
  congr 2
  funext f
  cases f.isOperations <;> simp

/-- A frame that opens a file has no operations. -/
lemma opsAfter_eq : opsAfter a frames = (frames.filter fun f => a < f.sequence).flatMap Frame.ops := by
  induction frames with
  | nil => rfl
  | cons f frames ih =>
    rw [opsAfter] at ih ⊢
    have hnone : f.isOperations = false → f.ops = [] := by
      unfold Frame.isOperations Frame.ops
      cases f.payload <;> simp
    by_cases hops : f.isOperations = true
    · by_cases hlt : a < f.sequence <;> simp [hops, hlt, ih]
    · rw [Bool.not_eq_true] at hops
      by_cases hlt : a < f.sequence <;> simp [hops, hlt, ih, hnone hops]

end Through

/-! ## The invariant -/

section Invariant

variable (k : Codec V) (key : Digest)

/-- The file of a directory is accepted up to a head, and the frames that were cut off are those
before it. -/
structure Journaled (s : Directory V) (f : JournalFile V) (h : Head) : Prop where
  file : s.file = some f
  reads : Reads k key f.frames h
  dropped : s.dropped.map (·.sequence) = List.range' 1 h.trimmedThrough
  recordable : ∀ fr ∈ s.history, ∀ op ∈ fr.ops, op.Recordable

/-- The database has applied the frames up to a sequence. -/
structure Applied (m : Prop) (s : Directory V) (h : Head) (a : ℕ) : Prop where
  position : s.database.position = ⟨some h.epoch, some a⟩
  trimmed : h.trimmedThrough ≤ a
  bound : a ≤ h.sequence
  pending : ∃ u, s.database.tree.replicated.applyOps (opsAfter a s.history) = .ok u
  folded : ¬ m → s.start.replicated.applyOps (opsThrough a s.history) =
    .ok s.database.tree.replicated

structure Kept (m : Prop) (s : Directory V) : Prop where
  plain : s.database.tree.Plain
  journal : ∀ f, s.file = some f → ∃ h, Journaled k key s f h ∧
    (∀ a, s.database.position = ⟨some h.epoch, some a⟩ → Applied m s h a) ∧
    (m → ∃ a, s.database.position = ⟨some h.epoch, some a⟩)
  attached : ∀ l, s.log = some l → ∃ f h a, Journaled k key s f h ∧ Applied m s h a ∧
    (l.terminal = false → f.torn = false ∧ l.head = h)

/-- The replicated part that an attach of the journal leaves. -/
structure Target (s : Directory V) (u : Tree V) : Prop where
  alone : s.file = none → s.database.tree.replicated = u
  replayed : ∀ f h a, s.file = some f → Reads k key f.frames h →
    s.database.position = ⟨some h.epoch, some a⟩ →
    s.database.tree.replicated.applyOps (opsAfter a s.history) = .ok u

end Invariant

variable {k : Codec V} {key : Digest} {m : Prop} {s t : Directory V} {f : JournalFile V} {h : Head}
  {a : ℕ}

lemma Reads.unique {frames : List (Frame V)} {h h' : Head} (hreads : Reads k key frames h)
    (hreads' : Reads k key frames h') : h = h' :=
  Except.ok.inj (hreads.2.symm.trans hreads'.2)

section

variable (hj : Journaled k key s f h)

include hj

/-- The frames of the epoch are numbered from one to the end of the file. -/
lemma Journaled.sequences : s.history.map (·.sequence) = List.range' 1 h.sequence := by
  obtain ⟨first, rest, hfrs, hfirst, hstart, hrest⟩ := hj.reads.opening
  have hnumd := numbered_of_scanFrom hrest
  rw [history, hj.file, Option.elim_some, hfrs, filter_isOperations hfirst hrest, List.map_append,
    hj.dropped, hnumd.sequences, hnumd.last, hnumd.trimmed, hstart]
  rw [show (Head.after k {} first).trimmedThrough + 1 = 1 + 1 * (Head.after k {} first).trimmedThrough
    by omega, List.range'_append]

lemma Journaled.length_history : s.history.length = h.sequence := by
  have hlens := congrArg List.length hj.sequences
  simpa using hlens

lemma Journaled.sequence_le : ∀ fr ∈ s.history, fr.sequence ≤ h.sequence := by
  intro fr hfr
  have hmem : fr.sequence ∈ s.history.map (·.sequence) := List.mem_map_of_mem hfr
  rw [hj.sequences, List.mem_range'_1] at hmem
  omega

/-- The frames a replay reads from the file are those of the epoch after the position. -/
lemma Journaled.opsAfter_frames (htrim : h.trimmedThrough ≤ a) :
    opsAfter a f.frames = opsAfter a s.history := by
  have hold : ∀ fr ∈ s.dropped, fr.sequence ≤ a := by
    intro fr hfr
    have hmem : fr.sequence ∈ s.dropped.map (·.sequence) := List.mem_map_of_mem hfr
    rw [hj.dropped, List.mem_range'_1] at hmem
    omega
  rw [history, opsAfter_append, opsAfter_all hold, List.nil_append, hj.file, Option.elim_some,
    opsAfter_filter]

lemma Journaled.ofSame (hfile : t.file = s.file)
    (hdrop : t.dropped = s.dropped) : Journaled k key t f h where
  file := hfile.trans hj.file
  reads := hj.reads
  dropped := by rw [hdrop, hj.dropped]
  recordable := by
    have hhist : t.history = s.history := by rw [history, history, hfile, hdrop]
    rw [hhist]
    exact hj.recordable

end

lemma Applied.ofSame (ha : Applied m s h a) (hdb : t.database = s.database)
    (hhist : t.history = s.history) (hstart : t.start = s.start) : Applied m t h a where
  position := hdb ▸ ha.position
  trimmed := ha.trimmed
  bound := ha.bound
  pending := by rw [hdb, hhist]; exact ha.pending
  folded := by rw [hdb, hhist, hstart]; exact ha.folded

/-- A directory whose database follows its file. -/
lemma Kept.mk_applied (hplain : s.database.tree.Plain) (hj : Journaled k key s f h)
    (ha : Applied m s h a)
    (hlog : ∀ l, s.log = some l → l.terminal = false → f.torn = false ∧ l.head = h) :
    Kept k key m s where
  plain := hplain
  journal := by
    intro f' hf'
    obtain rfl := Option.some.inj (hj.file.symm.trans hf')
    refine ⟨h, hj, fun b hb => ?_, fun _ => ⟨a, ha.position⟩⟩
    have hab : a = b := by
      have hsame := ha.position.symm.trans hb
      simpa using hsame
    exact hab ▸ ha
  attached := fun l hl => ⟨f, h, a, hj, ha, hlog l hl⟩

/-- A directory with the same files. -/
lemma Kept.map (hk : Kept k key m s) (hplain : t.database.tree.Plain) (hfile : t.file = s.file)
    (hdrop : t.dropped = s.dropped) (hposn : t.database.position = s.database.position)
    (happl : ∀ {h a}, Applied m s h a → Applied m t h a)
    (hlog : ∀ l, t.log = some l → s.log = some l) : Kept k key m t where
  plain := hplain
  journal := by
    intro f hf
    obtain ⟨h, hj, hat, hrecd⟩ := hk.journal f (hfile ▸ hf)
    rw [hposn]
    exact ⟨h, hj.ofSame hfile hdrop, fun a ha => happl (hat a ha), hrecd⟩
  attached := by
    intro l hl
    obtain ⟨f, h, a, hj, ha, hhead⟩ := hk.attached l (hlog l hl)
    exact ⟨f, h, a, hj.ofSame hfile hdrop, happl ha, hhead⟩

/-- What a directory keeps does not need the process. -/
lemma Kept.stopped (hk : Kept k key m s) : Kept k key m s.stopped :=
  hk.map hk.plain rfl rfl rfl (·.ofSame rfl rfl rfl) nofun

/-- The program keeps an invariant of the directory, which the next process finds when it stops. -/
abbrev Upholds {A : Type} (F : Fault → Prop) (p : StoreProgram V A) (s : Directory V)
    (Q : A → Directory V → Prop) (I : Directory V → Prop) : Prop :=
  Ensures F p s Q I fun t => I t.stopped

/-- What a program upholds holds of what its run leaves. -/
lemma holds_after {A : Type} {p : StoreProgram V A} {Q : A → Directory V → Prop}
    {I : Directory V → Prop} (h : Upholds (fun _ => True) p s Q I) (hQ : ∀ a t, Q a t → I t)
    (faults : List Fault) : I (after (p s faults)) := by
  have hpost := (h faults fun _ _ => trivial).1
  unfold after
  cases hend : (p s faults).ended with
  | returned a =>
    rw [hend] at hpost
    exact hQ a _ hpost
  | failed e | stopped => rwa [hend] at hpost

lemma log_setLog {store : Store} (hs : s.store = some store) (l : Option Log) :
    (setLog l s).log = l := by
  simp [Directory.log, setLog, hs]

lemma log_of_setTerminal {l : Log} (hl : (setTerminal s).log = some l) :
    ∃ l', s.log = some l' ∧ l = { l' with terminal := true } := by
  unfold Directory.log setTerminal at hl
  unfold Directory.log
  cases hs : s.store with
  | none => simp [hs] at hl
  | some store =>
    cases hlog : store.log with
    | none => simp [hs, hlog] at hl
    | some l' =>
      simp only [hs, hlog, Option.map_some, Option.bind_some, Option.some.injEq] at hl
      exact ⟨l', hlog, hl.symm⟩

/-- A process whose log refuses to append, or none, has nothing more to keep. -/
lemma Kept.terminal (hplain : s.database.tree.Plain) (hj : Journaled k key s f h)
    (ha : Applied m s h a) : Kept k key m (setTerminal s) :=
  Kept.mk_applied (s := setTerminal s) hplain (hj.ofSame rfl rfl) (ha.ofSame rfl rfl rfl)
    fun l hl hterminal => by
      obtain ⟨l', -, rfl⟩ := log_of_setTerminal hl
      cases hterminal

lemma Kept.of_stopped (hplain : s.database.tree.Plain) (hj : Journaled k key s f h)
    (ha : Applied m s h a) : Kept k key m s.stopped :=
  Kept.mk_applied (s := s.stopped) hplain (hj.ofSame rfl rfl) (ha.ofSame rfl rfl rfl) nofun

/-! ## Appending -/

lemma Journaled.tear (hj : Journaled k key s f h) :
    Journaled k key (tear s) { f with torn := true } h where
  file := by simp [Directory.tear, hj.file]
  reads := hj.reads
  dropped := hj.dropped
  recordable := by
    have hhist : (Directory.tear s).history = s.history := by
      simp [history, Directory.tear, hj.file]
    rw [hhist]
    exact hj.recordable

lemma history_tear (hfile : s.file = some f) : (tear s).history = s.history := by
  simp [history, tear, hfile]

variable {fr : Frame V}

lemma history_land (hfile : s.file = some f) (hfr : fr.isOperations) :
    (land fr s).history = s.history ++ [fr] := by
  simp [history, land, hfile, hfr]

/-- What a frame that lands does to the journal. -/
lemma Journaled.land (hj : Journaled k key s f h) (hfoll : Follows k key h fr)
    (hops : ∀ op ∈ fr.ops, op.Recordable) :
    Journaled k key (land fr s) ⟨f.frames ++ [fr], false⟩ (h.after k fr) where
  file := by simp [Directory.land, hj.file]
  reads := hj.reads.concat hfoll
  dropped := by
    rw [hfoll.after]
    exact hj.dropped
  recordable := by
    rw [history_land hj.file hfoll.operations]
    intro other hother
    rcases List.mem_append.mp hother with hold | hnew
    · exact hj.recordable other hold
    · rw [List.mem_singleton.mp hnew]
      exact hops

/-- The frame is after the position of a database that had applied all of them. -/
lemma Applied.land {u : Tree V} (ha : Applied m s h h.sequence)
    (hj : Journaled k key s f h) (hfoll : Follows k key h fr)
    (hrepl : s.database.tree.replicated.applyOps fr.ops = .ok u) :
    Applied m (land fr s) (h.after k fr) h.sequence := by
  have hhist := history_land hj.file hfoll.operations
  have hnew : h.sequence < fr.sequence := by
    rw [hfoll.sequence]
    exact Nat.lt_succ_self _
  rw [hfoll.after]
  refine ⟨ha.position, ha.trimmed, Nat.le_succ _, ⟨u, ?_⟩, fun hm => ?_⟩
  · rw [hhist, opsAfter_append, opsAfter_all hj.sequence_le, List.nil_append]
    have hone : opsAfter h.sequence [fr] = fr.ops := by
      simp [opsAfter, hfoll.operations, hnew]
    rw [hone]
    exact hrepl
  · rw [hhist, opsThrough_concat hnew]
    exact ha.folded hm

/-- The commit of a transaction after its frame. -/
lemma Applied.commit {tree : Tree V} (ha : Applied m s h h.sequence)
    (hj : Journaled k key s f h) (hfoll : Follows k key h fr)
    (hrepl : s.database.tree.replicated.applyOps fr.ops = .ok tree.replicated)
    (hdb : t.database = s.database) (hhist : t.history = s.history ++ [fr])
    (hstart : t.start = s.start) :
    Applied m (setApplied tree fr.sequence t) (h.after k fr) fr.sequence := by
  have hle : ∀ other ∈ s.history ++ [fr], other.sequence ≤ h.sequence + 1 := by
    intro other hother
    rcases List.mem_append.mp hother with hold | hnew
    · exact Nat.le_succ_of_le (hj.sequence_le other hold)
    · rw [List.mem_singleton.mp hnew, hfoll.sequence]
  rw [hfoll.after, hfoll.sequence]
  refine ⟨?_, Nat.le_succ_of_le ha.trimmed, le_rfl, ⟨tree.replicated, ?_⟩, fun hm => ?_⟩
  · show (⟨t.database.position.epoch, some (h.sequence + 1)⟩ : Position) = _
    rw [hdb, ha.position]
  · show tree.replicated.applyOps (opsAfter _ t.history) = _
    rw [hhist, opsAfter_all hle]
    rfl
  · show t.start.replicated.applyOps (opsThrough _ t.history) = .ok tree.replicated
    have hfold := ha.folded hm
    rw [opsThrough_all hj.sequence_le] at hfold
    rw [hstart, hhist, opsThrough_all hle, List.flatMap_append, Tree.applyOps_append hfold]
    simpa using hrepl

end Metadata

end Halro
