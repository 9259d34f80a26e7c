import Halro.Metadata.Projection
import Mathlib.Tactic.IntervalCases

/-!
# Attaching the journal again after a stop

An attach that ends anywhere leaves a directory that the next one attaches to the same replicated
buckets, with one exception.  A new epoch is published as a file and then recorded in the database,
and between the two writes the file is of an epoch the database does not follow: no later attach
accepts it (`CutsEpoch`).

Two more things have to hold for it in every run.  An update is not made while the log is ahead of
the database, and neither is a migration: the frames after the recorded position would be replayed
over a database that already is another one.
-/

namespace Halro

open Framework Framework.Program Replication

namespace Metadata

open Directory

variable {V : Type} {k : Codec V} {key : Digest} {rule : ConfirmationRule V} {s : Directory V}

/-- An attach by this store starts an epoch. -/
def Directory.StartsEpoch (s : Directory V) : Prop :=
  s.file = none ∨ s.store.elim false (·.migrated) = true

/-- The attach makes ten calls when it starts an epoch: the rename of the file is the sixth of them,
and the commit of the position the last one.  It ends in between. -/
def CutsEpoch (s : Directory V) (faults : List Fault) : Prop :=
  s.StartsEpoch ∧ 6 ≤ reached 10 faults ∧ reached 10 faults ≤ 9

/-- The database has applied everything in the file. -/
def LevelFile (k : Codec V) (key : Digest) (s : Directory V) : Prop :=
  ∀ f h torn, s.file = some f → scan k key f = .ok (h, torn) →
    s.database.position.sequence = some h.sequence

/-- What the steps of a run have to meet. -/
def Orderly (k : Codec V) (key : Digest) (s : Directory V) : StoreEvent V → Prop
  | .openStore (some _) _ => LevelFile k key s
  | .attach _ faults => ¬ CutsEpoch s faults ∧ (s.store.elim false (·.migrated) = true → LevelFile k key s)
  | .update _ _ | .batch _ _ => s.AtHead
  | _ => True

/-! ## Starting an epoch -/

variable {faults : List Fault}

section Start

variable {store : Store} {stored : JournalPosition} {reason : String}

/-- The header of the epoch that an attach starts. -/
def nextHeader (k : Codec V) (key : Digest) (s : Directory V) (stored : JournalPosition)
    (reason : String) : EpochHeader where
  epoch := stored.epoch + 1
  previousEpoch := stored.epoch
  previousChainHead := previousChainHead k key stored s.file
  reason := reason

/-- The calls of an attach that starts an epoch. -/
def epochCalls (k : Codec V) (key : Digest) (header : EpochHeader) :
    List ((Directory V → Directory V) × StoreError) :=
  [(id, .stat), (id, .createJournal), (id, .writeJournal), (id, .syncJournal), (id, .closeJournal),
    (publishEpoch (epochFrame k key header), .renameJournal), (id, .syncDirectory),
    (id, .openJournal), (id, .seekJournal), (setPosition header.epoch 0, .commit)]

/-- The log of an epoch that has just started. -/
def epochLog (k : Codec V) (key : Digest) (header : EpochHeader) : Log :=
  { head := Head.after k {} (epochFrame k key header) }

lemma startEpoch_eq (hrsn : reason ≠ "") (faults : List Fault) :
    startEpoch k key stored reason s faults =
      (calls (epochCalls k key (nextHeader k key s stored reason)).tail >>= fun _ =>
        modify (setLog (some (epochLog k key (nextHeader k key s stored reason))))) s faults := by
  have hpass : (failIf (reason = "") StoreError.epochReason : StoreProgram V Unit) = pure () :=
    if_neg hrsn
  show (failIf (reason = "") StoreError.epochReason >>= fun _ => _) s faults = _
  rw [hpass]
  simp only [publish, epochCalls, List.tail_cons, calls, Program.bind_assoc]
  rfl

lemma attach_starts (hstore : s.store = some store) (hlog : store.log = none)
    (hstor : journalPosition s.database = .ok stored) (hstart : s.StartsEpoch)
    (hrsn : reason ≠ "") (faults : List Fault) :
    attachMetadataJournal k key reason s faults =
      (calls (epochCalls k key (nextHeader k key s stored reason)) >>= fun _ =>
        modify (setLog (some (epochLog k key (nextHeader k key s stored reason))))) s faults := by
  have hstarts : (s.file.isNone || store.migrated) = true := by
    rcases hstart with hnone | hmigr
    · simp [hnone]
    · rw [hstore] at hmigr
      simpa using .inr hmigr
  have hattach : attachMetadataJournal k key reason s faults =
      (call id .stat >>= fun _ => startEpoch k key stored reason) s faults := by
    rw [attachMetadataJournal, get_bind, hstore]
    dsimp only
    rw [hlog, if_neg (by simp), hstor]
    simp only [hstarts, if_true]
    rfl
  rw [hattach]
  -- Only the call before the epoch is started can end the attach here.
  cases faults with
  | nil => exact startEpoch_eq hrsn []
  | cons f faults =>
    cases f with
    | clear => exact startEpoch_eq hrsn faults
    | error => rfl
    | stop => rfl

/-- What an attach leaves that starts an epoch and is not cut between its two writes: the files as
they were, or the epoch with its position. -/
lemma after_attach_starts (hstore : s.store = some store) (hlog : store.log = none)
    (hstor : journalPosition s.database = .ok stored) (hstart : s.StartsEpoch)
    (hrsn : reason ≠ "") (hcut : ¬ CutsEpoch s faults) :
    let header := nextHeader k key s stored reason
    let recorded := setPosition header.epoch 0 (publishEpoch (epochFrame k key header) s)
    let next := after (attachMetadataJournal k key reason s faults)
    next = s ∨ next = s.stopped ∨ next = recorded ∨ next = recorded.stopped ∨
      next = setLog (some (epochLog k key header)) recorded := by
  intro header recorded next
  obtain ⟨hstate, hended⟩ := calls_state (epochCalls k key header) s faults
  have hnext : next = after ((calls (epochCalls k key header) >>= fun _ =>
      modify (setLog (some (epochLog k key header)))) s faults) :=
    congrArg after (attach_starts hstore hlog hstor hstart hrsn faults)
  have hlen : (epochCalls k key header).length = 10 := rfl
  rw [hlen] at hstate hended
  have hle := reached_le 10 faults
  have hsame : reached 10 faults ≤ 5 → (calls (epochCalls k key header) s faults).state = s := by
    intro hfew
    rw [hstate]
    generalize reached 10 faults = n at hfew
    interval_cases n <;> rfl
  have hall : reached 10 faults = 10 →
      (calls (epochCalls k key header) s faults).state = recorded := by
    intro hten
    rw [hstate, hten]
    rfl
  have hfew : reached 10 faults ≤ 5 ∨ reached 10 faults = 10 := by
    by_contra hbetween
    exact hcut ⟨hstart, by omega, by omega⟩
  rw [hnext]
  show after (andThen _ _ s faults) = s ∨ after (andThen _ _ s faults) = _ ∨
    after (andThen _ _ s faults) = _ ∨ after (andThen _ _ s faults) = _ ∨
    after (andThen _ _ s faults) = _
  simp only [andThen]
  rcases hcalls : calls (epochCalls k key header) s faults with ⟨ended, t, rest⟩
  rw [hcalls] at hsame hall hended
  cases ended with
  | returned u =>
    have ht : t = recorded := hall (hended rfl)
    rw [ht]
    exact .inr (.inr (.inr (.inr rfl)))
  | failed e =>
    rcases hfew with hfew | hten
    · exact .inl (hsame hfew)
    · exact .inr (.inr (.inl (hall hten)))
  | stopped =>
    rcases hfew with hfew | hten
    · exact .inr (.inl (congrArg Directory.stopped (hsame hfew)))
    · exact .inr (.inr (.inr (.inl (congrArg Directory.stopped (hall hten)))))

end Start

/-! ## Directories that attach to the same end -/

variable {u : Tree V}

lemma Target.stopped (h : Target k key s u) : Target k key s.stopped u := ⟨h.alone, h.replayed⟩

/-- A directory from which an attach starts an epoch, with nothing to replay, is its own target. -/
lemma Target.own (h : Target k key s u) (hk : Kept k key True s)
    (hlevel : ∀ f, s.file = some f → LevelFile k key s) : u = s.database.tree.replicated := by
  cases hfile : s.file with
  | none => exact (h.alone hfile).symm
  | some f =>
    obtain ⟨h', hj, -, hposn⟩ := hk.journal f hfile
    obtain ⟨a, ha⟩ := hposn trivial
    have hat : a = h'.sequence := by
      have hsame := hlevel f hfile f h' f.torn hfile (scan_of_reads hj.reads)
      rw [ha] at hsame
      exact Option.some.inj hsame
    have hrepld := h.replayed f h' a hfile hj.reads ha
    rw [hat, opsAfter_all hj.sequence_le] at hrepld
    exact (Except.ok.inj hrepld).symm

lemma Kept.exists_target (hk : Kept k key True s) : ∃ u, Target k key s u := by
  cases hfile : s.file with
  | none => exact ⟨_, fun _ => rfl, fun f h a hf => nomatch hfile.symm.trans hf⟩
  | some f =>
    obtain ⟨h, hj, happl, hposn⟩ := hk.journal f hfile
    obtain ⟨a, ha⟩ := hposn trivial
    obtain ⟨u, hu⟩ := (happl a ha).pending
    refine ⟨u, fun hnone => absurd (hfile.symm.trans hnone) nofun, fun f' h' a' hf' hreads ha' => ?_⟩
    obtain rfl := Option.some.inj (hfile.symm.trans hf')
    obtain rfl := hj.reads.unique hreads
    have hsame : a = a' := by
      have hposns := ha.symm.trans ha'
      simpa using hposns
    exact hsame ▸ hu

/-- The database of a new epoch is its target. -/
lemma target_recorded (header : EpochHeader) (store : Option Store) :
    Target k key { setPosition header.epoch 0 (publishEpoch (epochFrame k key header) s) with
      store := store } s.database.tree.replicated where
  alone := nofun
  replayed := by
    intro f h a hf _ _
    rfl

lemma Kept.journalPosition (hk : Kept k key True s) :
    ∃ stored, Metadata.journalPosition s.database = .ok stored :=
  ⟨_, if_neg (by rw [hk.plain.metaBucket]; exact Bool.noConfusion)⟩

/-- The state of the process in which an attach does something. -/
structure Attaching (k : Codec V) (key : Digest) (s : Directory V) (store : Store) : Prop where
  kept : Kept k key True s
  opened : s.store = some store
  log : store.log = none
  level : store.migrated = true → LevelFile k key s

variable {store : Store}

lemma Attaching.levelFile (h : Attaching k key s store) (hstart : s.StartsEpoch) :
    ∀ f, s.file = some f → LevelFile k key s := by
  intro f hf
  rcases hstart with hnone | hmigr
  · exact nomatch hnone.symm.trans hf
  · rw [h.opened] at hmigr
    exact h.level hmigr

variable {F : Fault → Prop}

/-- An attach that goes on with the epoch of the file fails only where a call does. -/
lemma Attaching.ensures_continues (reason : String)
    (h : Attaching k key s store) (hstart : ¬ s.StartsEpoch) :
    Ensures F (attachMetadataJournal k key reason) s
      (fun _ t => Resumes k key True s t ∧ Level k key t)
      (fun t => F .error ∧ Resumes k key True s t) (fun t => F .stop ∧ Resumes k key True s t) := by
  have hself : Resumes k key True s s := ⟨h.kept, fun _ hu => hu⟩
  obtain ⟨stored, hstor⟩ := h.kept.journalPosition
  obtain ⟨f, hf⟩ : ∃ f, s.file = some f := Option.ne_none_iff_exists'.mp fun hnone =>
    hstart (.inl hnone)
  have hconts : ¬ (s.file.isNone || store.migrated) = true := by
    rw [hf]
    intro hmigr
    exact hstart (.inr (by rw [h.opened]; simpa using hmigr))
  refine ensures_bind (ensures_get ?_)
  rw [h.opened]
  dsimp only
  rw [h.log, if_neg (by simp), hstor]
  refine ensures_bind (ensures_pure ?_)
  refine ensures_bind (ensures_call ?_ (fun herr => ⟨herr, hself⟩) fun hstop => ⟨hstop, hself⟩)
  rw [if_neg hconts]
  exact (ensures_continueEpoch h.kept h.opened h.log hf hstor).imp (fun _ _ ht => ht)
    (fun _ ht => ⟨ht.1 trivial, ht.2⟩) fun _ ht => ht

lemma Resumes.stopped {t : Directory V} (h : Resumes k key True s t) :
    Resumes k key True s t.stopped :=
  ⟨h.kept.stopped, fun u hu => (h.target u hu).stopped⟩

variable {reason : String}

/-- However an attach ends, the directory attaches to the same end as before. -/
lemma Attaching.resumes
    (h : Attaching k key s store) (hrsn : reason ≠ "") (hcut : ¬ CutsEpoch s faults) :
    Resumes k key True s (after (attachMetadataJournal k key reason s faults)) := by
  obtain ⟨stored, hstor⟩ := h.kept.journalPosition
  have hnolog : s.log = none := by rw [Directory.log, h.opened, Option.bind_some, h.log]
  by_cases hstart : s.StartsEpoch
  · set header := nextHeader k key s stored reason
    have hown : ∀ u, Target k key s u → u = s.database.tree.replicated := fun u hu =>
      hu.own h.kept (h.levelFile hstart)
    have hself : Resumes k key True s s := ⟨h.kept, fun _ hu => hu⟩
    have hrecd : Resumes k key True s
        (setPosition header.epoch 0 (publishEpoch (epochFrame k key header) s)) := by
      refine ⟨kept_setPosition header h.kept.plain hnolog, fun u hu => ?_⟩
      rw [hown u hu]
      exact target_recorded header s.store
    rcases after_attach_starts h.opened h.log hstor hstart hrsn hcut with
      hend | hend | hend | hend | hend
    · rw [hend]
      exact hself
    · rw [hend]
      exact hself.stopped
    · rw [hend]
      exact hrecd
    · rw [hend]
      exact hrecd.stopped
    · rw [hend]
      refine ⟨kept_startEpoch header h.kept.plain h.opened, fun u hu => ?_⟩
      rw [hown u hu]
      exact target_recorded header _
  · exact holds_after ((h.ensures_continues reason hstart).imp (fun _ _ ht => ht) (fun _ ht => ht.2)
      fun _ ht => ht.2.stopped) (fun _ _ ht => ht.1) faults

/-- An attach without faults succeeds and reaches the target. -/
lemma Attaching.attach (h : Attaching k key s store)
    (hrsn : reason ≠ "") (htgt : Target k key s u) :
    (attachMetadataJournal k key reason s []).ended = .returned () ∧
      (attachMetadataJournal k key reason s []).state.database.tree.replicated = u := by
  obtain ⟨stored, hstor⟩ := h.kept.journalPosition
  by_cases hstart : s.StartsEpoch
  · rw [attach_starts h.opened h.log hstor hstart hrsn]
    exact ⟨rfl, (htgt.own h.kept (h.levelFile hstart)).symm⟩
  · have hens := (h.ensures_continues (F := (· = .clear)) reason hstart [] nofun).1
    cases hend : (attachMetadataJournal k key reason s []).ended with
    | returned v =>
      rw [hend] at hens
      obtain ⟨hrsm, f, g, hj, hposn, -⟩ := hens
      refine ⟨rfl, ?_⟩
      have hreached := (hrsm.target u htgt).replayed f g g.sequence hj.file hj.reads hposn
      rw [opsAfter_all hj.sequence_le] at hreached
      exact Except.ok.inj hreached
    | failed e | stopped =>
      rw [hend] at hens
      exact nomatch hens.1

/-! ## Runs -/

/-- A migration of a level database. -/
lemma ensures_openStore_migrating (migration : Migration V)
    (hk : Kept k key True s) (hlevel : LevelFile k key s) :
    Upholds F (openStore (some migration)) s (fun _ => Kept k key True) (Kept k key True) := by
  -- No frame is left to apply to the migrated database.
  have hmigr : ∀ store, (∀ l, store.bind Store.log = some l → False) →
      Kept k key True { setTree (migration.up s.database.tree) s with store := store } := by
    intro store hnone
    refine ⟨migration.plain _ hk.plain, fun f hf => ?_, fun l hl => (hnone l hl).elim⟩
    obtain ⟨h, hj, happl, hposn⟩ := hk.journal f hf
    refine ⟨h, hj.ofSame rfl rfl, fun a ha => ?_, hposn⟩
    have hat := happl a ha
    have hsame := hlevel f h f.torn hf (scan_of_reads hj.reads)
    have hseq : a = h.sequence := by
      have hposn : s.database.position = ⟨some h.epoch, some a⟩ := ha
      rw [hposn] at hsame
      exact Option.some.inj hsame
    subst hseq
    refine ⟨ha, hat.trimmed, hat.bound, ⟨(migration.up s.database.tree).replicated, ?_⟩,
      fun hm => absurd trivial hm⟩
    show (migration.up s.database.tree).replicated.applyOps (opsAfter h.sequence s.history) = _
    rw [opsAfter_all hj.sequence_le]
    rfl
  refine ensures_bind (ensures_get (ensures_bind (ensures_failIf (fun _ => hk) fun hcl => ?_)))
  refine ensures_bind (ensures_call ?_ (fun _ => hk) fun _ => hk.stopped)
  refine ensures_bind (ensures_call ?_ (fun _ => hk) fun _ => hmigr none nofun)
  exact ensures_modify (hmigr _ nofun)

/-- An epoch needs a reason. -/
lemma ensures_attach_unnamed (h : Attaching k key s store) (hstart : s.StartsEpoch) :
    Upholds F (attachMetadataJournal k key "") s (fun _ => Kept k key True) (Kept k key True) := by
  have hk := h.kept
  obtain ⟨stored, hstor⟩ := hk.journalPosition
  have hstarts : (s.file.isNone || store.migrated) = true := by
    rcases hstart with hnone | hmigr
    · simp [hnone]
    · rw [h.opened] at hmigr
      simpa using .inr hmigr
  refine ensures_bind (ensures_get ?_)
  rw [h.opened]
  dsimp only
  rw [h.log, if_neg (by simp), hstor]
  refine ensures_bind (ensures_pure ?_)
  refine ensures_bind (ensures_call ?_ (fun _ => hk) fun _ => hk.stopped)
  rw [if_pos hstarts]
  exact ensures_bind (ensures_get (ensures_bind (ensures_failIf (fun _ => hk) (absurd rfl))))

lemma Kept.attach_orderly (hk : Kept k key True s) (hcut : ¬ CutsEpoch s faults)
    (hmigr : s.store.elim false (·.migrated) = true → LevelFile k key s) :
    Kept k key True (after (attachMetadataJournal k key reason s faults)) := by
  by_cases href : ∀ store, s.store = some store → store.log ≠ none
  · -- an attach that is not called on an opened store without a journal does nothing
    rw [attachMetadataJournal, get_bind]
    cases hstore : s.store with
    | none => exact hk
    | some store =>
      dsimp only
      rw [if_pos (Option.isSome_iff_ne_none.mpr (href store hstore))]
      exact hk
  push Not at href
  obtain ⟨store, hstore, hlog⟩ := href
  have hattg : Attaching k key s store :=
    ⟨hk, hstore, hlog, fun h => hmigr (by rw [hstore]; exact h)⟩
  by_cases hrsn : reason = ""
  · subst hrsn
    by_cases hstart : s.StartsEpoch
    · exact kept_after (ensures_attach_unnamed hattg hstart) faults
    · refine kept_after ((hattg.ensures_continues "" hstart).imp ?_ ?_ ?_) faults
      · exact fun _ _ ht => ht.1.kept
      · exact fun _ ht => ht.2.kept
      · exact fun _ ht => ht.2.kept.stopped
  · exact (hattg.resumes hrsn hcut).kept

lemma Kept.step_orderly (e : StoreEvent V) (hk : Kept k key True s) (he : Orderly k key s e) :
    Kept k key True (Metadata.step k key rule s e) := by
  cases e with
  | openStore migration faults =>
    cases migration with
    | none => exact kept_after (ensures_openStore hk) faults
    | some migration => exact kept_after (ensures_openStore_migrating migration hk he) faults
  | attach reason faults => exact hk.attach_orderly he.1 he.2
  | setAfterDurable => exact kept_after (ensures_setAfterDurable hk) []
  | update c faults => exact kept_after (ensures_update c hk he) faults
  | batch queued faults => exact kept_after (ensures_commitRounds _ queued hk he) faults
  | trim through faults => exact kept_after (ensures_trimMetadataJournal through hk) faults
  | close => exact hk.stopped

/-- Opening a directory in a new process. -/
lemma Kept.restart (rule : ConfirmationRule V) (hk : Kept k key True s) (htgt : Target k key s u) :
    ∃ store, Attaching k key (Metadata.step k key rule s.stopped (.openStore none [])) store ∧
      Target k key (Metadata.step k key rule s.stopped (.openStore none [])) u :=
  ⟨{}, ⟨hk.stopped.step_orderly (.openStore none []) trivial, rfl, rfl, nofun⟩,
    ⟨htgt.alone, htgt.replayed⟩⟩

/-- **An interrupted attach is taken up by the next one.**  In every run of orderly steps whose last
one is an attach of an opened store, wherever that attach ended, the next process attaches the
journal and has the replicated buckets that the attach would have reached. -/
theorem attach_recovers (k : Codec V) (key : Digest) (rule : ConfirmationRule V) (c : Created V)
    (events : List (StoreEvent V)) (reason again : String) (faults : List Fault) (store : Store)
    (hreason : reason ≠ "") (hagain : again ≠ "")
    (hstore : (events.foldl (step k key rule) c.directory).store = some store)
    (hlog : store.log = none)
    (horderly : Along (step k key rule) (Orderly k key) c.directory
      (events ++ [.attach reason faults])) :
    let s := events.foldl (step k key rule) c.directory
    let whole := attachMetadataJournal k key reason s []
    let left := step k key rule s (.attach reason faults)
    let next := attachMetadataJournal k key again (step k key rule left.stopped (.openStore none [])) []
    whole.ended = .returned () ∧ next.ended = .returned () ∧
      next.state.database.tree.replicated = whole.state.database.tree.replicated := by
  intro s whole left next
  obtain ⟨hevs, ⟨hcut, hmigr⟩, -⟩ := Along.append.mp horderly
  have hk : Kept k key True s := hevs.invariant (fun _ e hk he => hk.step_orderly e he) c.kept
  have hattg : Attaching k key s store := by
    refine ⟨hk, hstore, hlog, fun h => hmigr ?_⟩
    rw [hstore]
    exact h
  obtain ⟨u, hu⟩ := hk.exists_target
  have hrsm : Resumes k key True s left := hattg.resumes hreason hcut
  obtain ⟨store', hrestarted, htgt⟩ := hrsm.kept.restart rule (hrsm.target u hu)
  have hwhole := hattg.attach hreason hu
  have hnext := hrestarted.attach hagain htgt
  exact ⟨hwhole.1, hnext.1, hnext.2.trans hwhole.2.symm⟩

/-! ## A stop between the two writes of a new epoch -/

namespace Sample

/-- The process stops when the file of the first epoch has been renamed into its place. -/
def cutEpoch : List (StoreEvent ℕ) :=
  [.openStore none [], .attach "initialize" (List.replicate 5 .clear ++ [.stop])]

end Sample

/-- A process that stops while it replays the frame of an update. -/
theorem attach_recovers_after_replay :
    let events : List (StoreEvent ℕ) := Sample.opened ++
      [.update (Sample.putProject "first" 1) [.clear, .clear, .stop], .openStore none []]
    let left := Sample.final (events ++ [.attach "start" [.clear, .clear, .clear, .stop]])
    let next := attachMetadataJournal Sample.codec .zero "start"
      (step Sample.codec .zero (fun _ _ => false) left.stopped (.openStore none [])) []
    left.database.position = ⟨some 1, some 0⟩ ∧ next.ended = .returned () ∧
      next.state.database.tree.replicated.value ["projects"] "first" = some 1 := by
  intro events left next
  have hrun := attach_recovers Sample.codec .zero (fun _ _ => false) Sample.schema events "start"
    "start" [.clear, .clear, .clear, .stop] {} (by decide) (by decide) (by decide +kernel) rfl
    ⟨trivial, ⟨fun h => absurd h.2.2 (by decide), nofun⟩, Sample.opened_atHead, trivial,
      ⟨fun h => h.1.elim nofun nofun, nofun⟩, trivial⟩
  decide +kernel

/-- The database records no position in the epoch of the file, and no attach goes on from there. -/
theorem cut_epoch_never_attaches :
    let left := Sample.final Sample.cutEpoch
    let whole := attachMetadataJournal Sample.codec .zero "initialize"
      (Sample.final [.openStore none []]) []
    let next := attachMetadataJournal Sample.codec .zero "initialize"
      (step Sample.codec .zero (fun _ _ => false) left (.openStore none [])) []
    whole.ended = .returned () ∧ next.ended = .failed .noPositionRecorded := by
  decide +kernel

end Metadata

end Halro
