import Halro.Framework.Run
import Halro.Metadata.Kept

/-!
# The metadata database is the fold of its journal

A run of a store opens it, attaches its journal, updates it, trims the journal and ends at any call,
with any of the calls failing.  In every state of a run the database is the result of applying the
frames of its epoch, up to the sequence it records, to the database the epoch started from, as long
as no update is made while the log is ahead of the database (`Level`).

The condition is needed.  A commit that fails after its frame was written leaves the log one frame
ahead of the database of a running process; the next update appends the frame after that one and
records its sequence, and the frame in between is never applied.
-/

namespace Halro

open Framework Framework.Program Replication

namespace Metadata

open Directory

variable {V : Type} {k : Codec V} {key : Digest} {rule : ConfirmationRule V} {m : Prop}
  {F : Fault → Prop} {s : Directory V}

/-! ## Updates -/

/-- The log of the process may append, and the database has applied all of it. -/
def Directory.AtHead (s : Directory V) : Prop :=
  ∀ l, s.log = some l → l.terminal = false → s.database.position.sequence = some l.head.sequence

/-- What an append leaves for the commit. -/
structure Appended (k : Codec V) (key : Digest) (m : Prop) (s : Directory V) (tree : Tree V) (n : ℕ)
    (t : Directory V) : Prop where
  applied : ∃ f h fr, Journaled k key s f h ∧ Applied m s h h.sequence ∧ Follows k key h fr ∧
    s.database.tree.replicated.applyOps fr.ops = .ok tree.replicated ∧ n = fr.sequence ∧
    t.database = s.database ∧ t.history = s.history ++ [fr] ∧ t.start = s.start ∧
    ∃ f', Journaled k key t f' (h.after k fr) ∧ Applied m t (h.after k fr) h.sequence ∧
      f'.torn = false ∧ ∀ l, t.log = some l → l.head = h.after k fr

variable {t : Directory V} {tree : Tree V}

lemma Appended.kept {n : ℕ} (h : Appended k key m s tree n t) (hplain : s.database.tree.Plain) :
    Kept k key m t := by
  obtain ⟨f, h, fr, -, -, -, -, -, hdb, -, -, f', hj, ha, htorn, hlog⟩ := h
  exact Kept.mk_applied (hdb ▸ hplain) hj ha fun l hl _ => ⟨htorn, hlog l hl⟩

lemma Appended.committed {n : ℕ} (h : Appended k key m s tree n t) (htree : tree.Plain) :
    Kept k key m (setApplied tree n t) := by
  obtain ⟨f, h, fr, hjs, has, hfoll, hrepl, rfl, hdb, hhist, hstart, f', hj, ha, htorn, hlog⟩ := h
  exact Kept.mk_applied (s := setApplied tree fr.sequence t) htree (hj.ofSame rfl rfl)
    (has.commit hjs hfoll hrepl hdb hhist hstart) fun l hl _ => ⟨htorn, hlog l hl⟩

variable {f : JournalFile V} {h : Head}

lemma ensures_writeFrame {fr : Frame V} {u : Tree V} (hplain : s.database.tree.Plain)
    (hj : Journaled k key s f h) (ha : Applied m s h h.sequence) (hfoll : Follows k key h fr)
    (hops : ∀ op ∈ fr.ops, op.Recordable)
    (hrepl : s.database.tree.replicated.applyOps fr.ops = .ok u) :
    Ensures F (writeFrame fr) s (fun _ t => t = land fr (tear s) ∧
        Journaled k key t ⟨f.frames ++ [fr], false⟩ (h.after k fr) ∧
        Applied m t (h.after k fr) h.sequence)
      (fun t => Kept k key m (setTerminal t)) (fun t => Kept k key m t.stopped) := by
  have hjt := hj.tear
  have hat : Applied m (tear s) h h.sequence := ha.ofSame rfl (history_tear hj.file) rfl
  have hjl := hjt.land hfoll hops
  have hal : Applied m (land fr (tear s)) (h.after k fr) h.sequence := hat.land hjt hfoll hrepl
  refine ensures_bind (ensures_call ?_ (fun _ => Kept.terminal hplain hj ha)
    fun _ => Kept.of_stopped hplain hjt hat)
  refine ensures_bind (ensures_call ?_ (fun _ => Kept.terminal hplain hjt hat)
    fun _ => Kept.of_stopped hplain hjl hal)
  exact ensures_call ⟨rfl, hjl, hal⟩ (fun _ => Kept.terminal hplain hjl hal)
    fun _ => Kept.of_stopped hplain hjl hal

lemma store_of_log {l : Log} (h : s.log = some l) : ∃ store, s.store = some store ∧
    store.log = some l := by
  unfold log at h
  cases hs : s.store with
  | none =>
    rw [hs] at h
    exact nomatch h
  | some store =>
    rw [hs] at h
    exact ⟨store, rfl, h⟩

/-- What is ordered is no part of the files. -/
lemma Appended.order {n : ℕ} (h : Appended k key m s tree n t) (sequence : ℕ) :
    Appended k key m s tree n (order sequence t) := by
  obtain ⟨f, h, fr, hjs, has, hfoll, hrepl, hn, hdb, hhist, hstart, f', hj, ha, htorn, hlog⟩ := h
  exact ⟨f, h, fr, hjs, has, hfoll, hrepl, hn, hdb, hhist, hstart, f',
    hj.ofSame rfl rfl, ha.ofSame rfl rfl rfl, htorn, hlog⟩

variable {a : ℕ}

lemma ensures_appendWithReceipt {l : Log} {ops : List (Op V)} (tree : Tree V)
    (hk : Kept k key m s) (hl : s.log = some l) (hlevel : s.AtHead)
    (hops : ∀ op ∈ ops, op.Recordable)
    (hrepl : validateOps ops = .ok () →
      s.database.tree.replicated.applyOps ops = .ok tree.replicated) :
    Upholds F (appendWithReceipt k key l ops) s
      (fun receipt => Appended k key m s tree receipt.sequence) (Kept k key m) := by
  refine ensures_bind (ensures_failIf (fun _ => hk) fun hne => ?_)
  refine ensures_bind (ensures_ofExcept (fun _ hvalid => ?_) fun _ _ => hk)
  refine ensures_bind (ensures_failIf (fun _ => hk) fun _ => ?_)
  refine ensures_bind (ensures_failIf (fun _ => hk) fun hterminal => ?_)
  rw [Bool.not_eq_true] at hterminal
  obtain ⟨f, h, a, hj, ha, hhead⟩ := hk.attached l hl
  obtain ⟨-, rfl⟩ := hhead hterminal
  have hat : a = l.head.sequence := by
    have hposn := hlevel l hl hterminal
    rw [ha.position] at hposn
    exact Option.some.inj hposn
  subst hat
  have hfoll : Follows k key l.head (operationsFrame k key l.head ops) :=
    follows_encodeFrame hne hvalid
  refine ensures_bind (ensures_onError ((ensures_writeFrame hk.plain hj ha hfoll hops
    (hrepl hvalid)).imp ?_ (fun t ht => ensures_modify ht) fun t ht => ht))
  rintro - t ⟨rfl, hjt, hat⟩
  obtain ⟨store, hstore, -⟩ := store_of_log hl
  set next : Log := { l with head := l.head.after k (operationsFrame k key l.head ops) } with hnext
  set t := land (operationsFrame k key l.head ops) (tear s) with ht
  have hjt' := hjt.ofSame (t := setLog (some next) t) rfl rfl
  have hat' := hat.ofSame (t := setLog (some next) t) rfl rfl rfl
  have happd : Appended k key m s tree (operationsFrame k key l.head ops).sequence
      (setLog (some next) t) := by
    refine ⟨f, l.head, _, hj, ha, hfoll, hrepl hvalid, rfl, rfl, ?_, rfl, _, hjt', hat', rfl, ?_⟩
    · show t.history = _
      rw [ht, history_land hj.tear.file rfl, history_tear hj.file]
    · intro l' hl'
      rw [log_setLog (s := t) hstore] at hl'
      rw [← Option.some.inj hl']
  refine ensures_bind (ensures_modify ?_)
  unfold recordDurable
  split_ifs
  · refine ensures_bind (ensures_bind (ensures_onError (ensures_call ?_ (fun _ => ?_) fun _ => ?_)))
    · exact ensures_bind (ensures_get (ensures_pure (ensures_pure (happd.order _))))
    · exact ensures_modify (Kept.terminal hk.plain hjt' hat')
    · exact Kept.of_stopped (s := order _ _) hk.plain (hjt'.ofSame rfl rfl) (hat'.ofSame rfl rfl rfl)
  · exact ensures_bind (ensures_pure (ensures_pure happd))

variable {store : Store}

lemma ensures_commitRecorded {tx : Tx V} (hk : Kept k key m s) (hstore : s.store = some store)
    (hlevel : s.AtHead) (hrecd : Recorded ⟨s.database.tree, {}⟩ tx) :
    Upholds F (commitRecorded k key store tx) s (fun _ => Kept k key m) (Kept k key m) := by
  obtain ⟨hplain, ops, hops, hrecordable, hrepl⟩ := hrecd
  cases hlog : store.log with
  | none =>
    rw [commitRecorded, hlog]
    exact ensures_fail hk
  | some l =>
    rw [commitRecorded, hlog]
    have hl : s.log = some l := by rw [log, hstore, Option.bind_some, hlog]
    refine (ensures_appendWithReceipt tx.tree hk hl hlevel
      (hops ▸ hrecordable) fun hvalid => ?_).bind ?_
    · rw [hops] at hvalid ⊢
      exact hrepl (validateOps_ok.mp hvalid)
    · intro n t happd
      refine ensures_bind (ensures_failIf (fun _ => happd.kept hk.plain) fun _ => ?_)
      have hcmtd := happd.committed (hplain hk.plain)
      exact ensures_bind (ensures_call (ensures_pure hcmtd)
        (fun _ => happd.kept hk.plain) fun _ => hcmtd.stopped)

/-- A transaction that recorded nothing leaves the replicated part as it is. -/
lemma Kept.setTree (hk : Kept k key m s) (hplain : tree.Plain)
    (hsame : tree.replicated = s.database.tree.replicated) : Kept k key m (setTree tree s) := by
  have happl : ∀ {h a}, Applied m s h a → Applied m (Directory.setTree tree s) h a := by
    intro h a ha
    refine ⟨ha.position, ha.trimmed, ha.bound, ?_, fun hm => ?_⟩
    · show ∃ u, tree.replicated.applyOps _ = .ok u
      rw [hsame]
      exact ha.pending
    · show s.start.replicated.applyOps _ = .ok tree.replicated
      rw [hsame]
      exact ha.folded hm
  exact hk.map hplain rfl rfl rfl happl fun _ hl => hl

lemma ensures_commitTx {tx : Tx V} (hk : Kept k key m s) (hstore : s.store = some store)
    (hlevel : s.AtHead) (hrecd : Recorded ⟨s.database.tree, {}⟩ tx) :
    Upholds F (commitTx k key store tx) s (fun _ => Kept k key m) (Kept k key m) := by
  unfold commitTx
  split_ifs with hnone
  · obtain ⟨hplain, ops, hops, -, hrepl⟩ := hrecd
    rw [List.nil_append, hnone] at hops
    subst hops
    have hsame : tx.tree.replicated = s.database.tree.replicated :=
      (Except.ok.inj (hrepl (by simp))).symm
    have hset := hk.setTree (hplain hk.plain) hsame
    exact ensures_bind (ensures_call (ensures_pure hset) (fun _ => hk) fun _ => hset.stopped)
  · exact ensures_commitRecorded hk hstore hlevel hrecd

/-- An update keeps the invariant, and one that a callback failed changes nothing. -/
lemma ensures_updateAll (callbacks : List (Callback V)) (hk : Kept k key m s) (hlevel : s.AtHead) :
    Upholds F (updateAll k key rule callbacks) s
      (fun result t => Kept k key m t ∧ ∀ failed, result = .error failed → t = s)
      (Kept k key m) := by
  refine ensures_bind (ensures_get ?_)
  cases hstore : s.store with
  | none => exact ensures_fail hk
  | some store =>
    split_ifs
    · exact ensures_pure ⟨hk, nofun⟩
    · refine ensures_bind (ensures_call ?_ (fun _ => hk) fun _ => hk.stopped)
      cases hrun : runCallbacks rule 0 callbacks ⟨s.database.tree, {}⟩ with
      | error failed => exact ensures_pure ⟨hk, fun _ _ => rfl⟩
      | ok tx =>
        refine ensures_bind (ensures_ofExcept (fun _ _ => ?_) fun _ _ => hk)
        refine (ensures_commitTx hk hstore hlevel (runCallbacks_recorded hrun)).bind fun _ t ht => ?_
        exact ensures_pure ⟨ht, nofun⟩

lemma Kept.confirm (hk : Kept k key m s) (index : ℕ) : Kept k key m (confirm index s) :=
  hk.map hk.plain rfl rfl rfl (·.ofSame rfl rfl rfl) fun _ hl => hl

lemma ensures_confirmUpdate {result : Except (ℕ × StoreError) Committed}
    (ht : Kept k key m t ∧ ∀ failed, result = .error failed → t = s) :
    Upholds F (confirmUpdate result) t
      (fun result t => Kept k key m t ∧ ∀ failed, result = .error failed → t = s)
      (Kept k key m) := by
  obtain ⟨hk, hsame⟩ := ht
  cases result with
  | error failed => exact ensures_pure ⟨hk, fun _ _ => hsame failed rfl⟩
  | ok required =>
    refine ensures_bind (ensures_bind (ensures_get (ensures_onlyIf (fun _ => ?_) fun _ => ?_)))
    · exact ensures_call (ensures_pure ⟨hk.confirm _, nofun⟩) (fun _ => hk)
        fun _ => (hk.confirm _).stopped
    · exact ensures_pure ⟨hk, nofun⟩

lemma ensures_update (c : Callback V) (hk : Kept k key m s) (hlevel : s.AtHead) :
    Upholds F (update k key rule c) s (fun _ => Kept k key m) (Kept k key m) := by
  refine (ensures_updateAll [c] hk hlevel).bind fun result t ht => ?_
  refine (ensures_confirmUpdate ht).bind fun result t ht => ?_
  cases result with
  | error failed => exact ensures_fail ht.1
  | ok u => exact ensures_pure ht.1

/-- Every round but the last one fails in a callback, which leaves the log and the database level. -/
lemma ensures_commitRounds (n : ℕ) (queued : List (ℕ × Callback V)) (hk : Kept k key m s)
    (hlevel : s.AtHead) :
    Upholds F (commitRounds k key rule n queued) s (fun _ => Kept k key m) (Kept k key m) := by
  induction n generalizing queued with
  | zero => exact ensures_pure hk
  | succ n ih =>
    refine ensures_bind (ensures_attempt (ensures_bind ((ensures_updateAll _ hk hlevel).imp
      (fun result t ht => ?_) (fun t ht err => ?_) fun _ ht => ht)))
    · refine (ensures_confirmUpdate ht).imp (fun result t ht => ?_) (fun t ht err => ?_)
        fun _ ht => ht
      · cases result with
        | ok u => exact ensures_pure ht.1
        | error failed =>
          obtain rfl := ht.2 failed rfl
          exact ensures_bind ((ih _).imp (fun _ _ ht => ensures_pure ht) (fun _ ht => ht)
            fun _ ht => ht)
      · exact ensures_pure ht
    · exact ensures_pure ht

/-! ## Opening and trimming the journal -/

lemma Journaled.truncate (hj : Journaled k key s f h) :
    Journaled k key (truncate s) { f with torn := false } h where
  file := by simp [Directory.truncate, hj.file]
  reads := hj.reads
  dropped := hj.dropped
  recordable := by
    have hhist : (Directory.truncate s).history = s.history := by
      simp [history, Directory.truncate, hj.file]
    rw [hhist]
    exact hj.recordable

/-- A directory with the torn tail of its file cut off, or as it was. -/
def Repaired (s t : Directory V) : Prop := t = s ∨ t = truncate s

lemma Repaired.journaled (ht : Repaired s t) (hj : Journaled k key s f h) :
    ∃ f', Journaled k key t f' h := by
  rcases ht with rfl | rfl
  · exact ⟨f, hj⟩
  · exact ⟨_, hj.truncate⟩

lemma Repaired.same (ht : Repaired s t) (hfile : s.file = some f) :
    t.database = s.database ∧ t.history = s.history ∧ t.start = s.start ∧ t.store = s.store := by
  rcases ht with rfl | rfl
  · exact ⟨rfl, rfl, rfl, rfl⟩
  · exact ⟨rfl, by simp [history, truncate, hfile], rfl, rfl⟩

/-- Opening a file that is accepted: the log is at its head, and the tail is whole. -/
lemma ensures_openJournal (hj : Journaled k key s f h) : Ensures F (openJournal k key) s
      (fun l t => l = { head := h } ∧ Repaired s t ∧ ∃ f', Journaled k key t f' h ∧ f'.torn = false)
      (fun t => F .error ∧ Repaired s t) (fun t => F .stop ∧ Repaired s t) := by
  refine ensures_bind (ensures_call ?_ (fun herr => ⟨herr, .inl rfl⟩) fun hstop => ⟨hstop, .inl rfl⟩)
  refine ensures_bind (ensures_get ?_)
  simp only [id_eq, hj.file]
  rw [scan_of_reads hj.reads]
  refine ensures_bind (ensures_pure ?_)
  refine ensures_bind (ensures_onlyIf (fun _ => ?_) fun hwhole => ?_)
  · refine ensures_bind (ensures_call ?_ (fun herr => ⟨herr, .inl rfl⟩)
      fun hstop => ⟨hstop, .inr rfl⟩)
    refine ensures_call ?_ (fun herr => ⟨herr, .inr rfl⟩) fun hstop => ⟨hstop, .inr rfl⟩
    refine ensures_bind (ensures_call ?_ (fun herr => ⟨herr, .inr rfl⟩) fun hstop => ⟨hstop, .inr rfl⟩)
    exact ensures_pure ⟨rfl, .inr rfl, _, hj.truncate, rfl⟩
  · refine ensures_bind (ensures_call ?_ (fun herr => ⟨herr, .inl rfl⟩)
      fun hstop => ⟨hstop, .inl rfl⟩)
    exact ensures_pure ⟨rfl, .inl rfl, f, hj, by simpa using hwhole⟩

/-- A cut leaves the frames of the epoch as they were. -/
lemma Journaled.publishCut {through : ℕ} {cut : Cut V} (hj : Journaled k key s f h)
    (hplan : planTrim k key through f = .ok (some cut)) :
    (publishCut (cut.file k key through) cut.dropped s).history = s.history ∧
      Journaled k key (publishCut (cut.file k key through) cut.dropped s) (cut.file k key through)
        { h with trimmedThrough := through } := by
  obtain ⟨hpast, hbound, hreads, hfrs, hret, hlen⟩ := hj.reads.cut hplan
  have hhist : (Directory.publishCut (cut.file k key through) cut.dropped s).history =
      s.history := by
    simp only [history, Directory.publishCut, hj.file, Option.elim_some]
    rw [hfrs, hret, List.append_assoc]
  refine ⟨hhist, rfl, hreads, ?_, hhist ▸ hj.recordable⟩
  -- The frames of the epoch are numbered, and the dropped ones are the first of them.
  have hall := hj.sequences
  rw [history, hj.file, Option.elim_some, hfrs, ← List.append_assoc, List.map_append] at hall
  have hdrop : s.dropped.length = h.trimmedThrough := by
    have hlens := congrArg List.length hj.dropped
    simpa using hlens
  have hsplit : List.range' 1 h.sequence =
      List.range' 1 through ++ List.range' (1 + 1 * through) (h.sequence - through) := by
    rw [List.range'_append, Nat.add_sub_cancel' hbound]
  refine List.append_inj_left (hall.trans hsplit) ?_
  show ((s.dropped ++ cut.dropped).map (·.sequence)).length = (List.range' 1 through).length
  rw [List.length_map, List.length_append, hdrop, hlen, List.length_range']
  omega

lemma Applied.publishCut {through : ℕ} {cut : Cut V} (ha : Applied m s h a)
    (hj : Journaled k key s f h) (hplan : planTrim k key through f = .ok (some cut))
    (hthru : through ≤ a) :
    Applied m (publishCut (cut.file k key through) cut.dropped s)
      { h with trimmedThrough := through } a where
  position := ha.position
  trimmed := hthru
  bound := ha.bound
  pending := by rw [(hj.publishCut hplan).1]; exact ha.pending
  folded := by rw [(hj.publishCut hplan).1]; exact ha.folded

/-- A directory without an attached log whose database follows its file. -/
def Settled (k : Codec V) (key : Digest) (m : Prop) (a : ℕ) (s : Directory V) : Prop :=
  s.database.tree.Plain ∧ s.log = none ∧ ∃ f h, Journaled k key s f h ∧ Applied m s h a

section

variable (hs : Settled k key m a s)

include hs

lemma Settled.kept : Kept k key m s := by
  obtain ⟨hplain, hlog, f, h, hj, ha⟩ := hs
  exact Kept.mk_applied hplain hj ha fun l hl => nomatch hlog.symm.trans hl

lemma ensures_readJournal :
    Upholds F (readJournal k key) s (fun _ t => t = s) (Kept k key m) := by
  refine ensures_bind (ensures_call ?_ (fun _ => hs.kept) fun _ => hs.kept.stopped)
  obtain ⟨-, -, f, h, hj, -⟩ := id hs
  refine ensures_bind (ensures_get ?_)
  simp only [id_eq, hj.file]
  exact ensures_ofExcept (fun _ _ => rfl) fun _ _ => hs.kept

omit hs in
/-- A file is published with its name, or not at all. -/
lemma ensures_publish {effect : Directory V → Directory V} {Q R T : Directory V → Prop}
    (hnot : R s ∧ T s) (hdone : Q (effect s) ∧ R (effect s) ∧ T (effect s)) :
    Ensures F (publish effect) s (fun _ => Q) R T := by
  refine ensures_bind (ensures_call ?_ (fun _ => hnot.1) fun _ => hnot.2)
  refine ensures_bind (ensures_call ?_ (fun _ => hnot.1) fun _ => hnot.2)
  refine ensures_bind (ensures_call ?_ (fun _ => hnot.1) fun _ => hnot.2)
  refine ensures_bind (ensures_call ?_ (fun _ => hnot.1) fun _ => hnot.2)
  refine ensures_bind (ensures_call ?_ (fun _ => hnot.1) fun _ => hdone.2.2)
  exact ensures_call hdone.1 (fun _ => hdone.2.1) fun _ => hdone.2.2

lemma ensures_trimJournal {through : ℕ} (hthru : through ≤ a) :
    Upholds F (trimJournal k key through) s (fun _ t => Settled k key m a t ∧ t.store = s.store)
      (Kept k key m) := by
  refine ensures_bind (ensures_call ?_ (fun _ => hs.kept) fun _ => hs.kept.stopped)
  obtain ⟨hplain, hlog, f, h, hj, ha⟩ := id hs
  refine ensures_bind (ensures_get ?_)
  simp only [id_eq, hj.file]
  refine ensures_bind (ensures_ofExcept (fun plan hplan => ?_) fun _ _ => hs.kept)
  cases plan with
  | none => exact ensures_pure ⟨hs, rfl⟩
  | some cut =>
    have hcut : Settled k key m a (publishCut (cut.file k key through) cut.dropped s) :=
      ⟨hplain, hlog, _, _, (hj.publishCut hplan).2, ha.publishCut hj hplan hthru⟩
    refine ensures_bind (ensures_publish (Q := fun t => Ensures F _ t _ _ _)
      ⟨hs.kept, hs.kept.stopped⟩ ⟨?_, hcut.kept, hcut.kept.stopped⟩)
    refine (ensures_readJournal hcut).bind ?_
    rintro - t rfl
    exact ensures_pure ⟨hcut, rfl⟩

/-- A repaired directory is settled as it was. -/
lemma Settled.repaired (ht : Repaired s t) :
    Settled k key m a t := by
  obtain ⟨hplain, hlog, f, h, hj, ha⟩ := hs
  obtain ⟨f', hj'⟩ := ht.journaled hj
  obtain ⟨hdb, hhist, hstart, hstore⟩ := ht.same hj.file
  refine ⟨hdb ▸ hplain, ?_, f', h, hj', ha.ofSame hdb hhist hstart⟩
  rw [log, hstore]
  exact hlog

end

/-- The log that was opened becomes the process's. -/
lemma Settled.attach (hs : Settled k key m a t) (hstore : t.store = some store)
    (hj : Journaled k key t f h) (htorn : f.torn = false) :
    Kept k key m (setLog (some { head := h }) t) := by
  obtain ⟨hplain, -, f', h', hj', ha⟩ := hs
  obtain rfl := Option.some.inj (hj.file.symm.trans hj'.file)
  obtain rfl := hj.reads.unique hj'.reads
  refine Kept.mk_applied (s := setLog _ t) hplain (hj.ofSame rfl rfl) (ha.ofSame rfl rfl rfl) ?_
  intro l hl _
  rw [log_setLog hstore] at hl
  exact ⟨htorn, by rw [← Option.some.inj hl]⟩

lemma ensures_trimMetadataJournal (through : ℕ) (hk : Kept k key m s) :
    Upholds F (trimMetadataJournal k key through) s (fun _ => Kept k key m) (Kept k key m) := by
  refine ensures_bind (ensures_get ?_)
  cases hlog : s.store.bind (·.log) with
  | none => exact ensures_fail hk
  | some l =>
    obtain ⟨f, h, a, hj, ha, -⟩ := hk.attached l hlog
    obtain ⟨store, hstore, -⟩ := store_of_log hlog
    refine ensures_bind (ensures_ofExcept (fun applied happl => ?_) fun _ _ => hk)
    refine ensures_bind (ensures_failIf (fun _ => hk) fun hthru => ?_)
    have happl : applied.sequence = a := by
      unfold journalPosition at happl
      split_ifs at happl
      rw [← Except.ok.inj happl, ha.position]
      rfl
    refine ensures_bind (ensures_onError (ensures_call ?_
      (fun _ => ensures_modify (Kept.terminal hk.plain hj ha)) fun _ => hk.stopped))
    have hs : Settled k key m a (setLog none s) :=
      ⟨hk.plain, log_setLog hstore none, f, h, hj.ofSame rfl rfl, ha.ofSame rfl rfl rfl⟩
    refine (ensures_trimJournal hs (by omega)).bind ?_
    rintro - t ⟨ht, htstore⟩
    obtain ⟨-, -, f', h', hj', -⟩ := id ht
    refine ensures_bind ((ensures_openJournal hj').imp ?_ (fun u hu => (ht.repaired hu.2).kept)
      fun u hu => (ht.repaired hu.2).kept.stopped)
    rintro l' u ⟨rfl, hu, f'', hj'', htorn⟩
    have hustore : u.store = some { store with log := none } := by
      rw [(hu.same hj'.file).2.2.2, htstore, setLog, hstore, Option.map_some]
    exact ensures_modify ((ht.repaired hu).attach hustore hj'' htorn)

/-! ## Attaching the journal -/

variable {stored : JournalPosition}

lemma journalPosition_ok {d : Database V} (h : journalPosition d = .ok stored) :
    stored = ⟨d.position.epoch.getD 0, d.position.sequence.getD 0,
      d.position.epoch.isSome && d.position.sequence.isSome⟩ := by
  unfold journalPosition at h
  split_ifs at h
  exact (Except.ok.inj h).symm

/-- A position that is there is the one the database records. -/
lemma position_of_present {d : Database V} (h : journalPosition d = .ok stored)
    (hpres : stored.present = true) :
    d.position = ⟨some stored.epoch, some stored.sequence⟩ := by
  obtain rfl := journalPosition_ok h
  obtain ⟨tree, epoch, sequence⟩ := d
  cases epoch <;> cases sequence <;> simp_all

/-- The replay applies the frames after the position, and then the database is level. -/
lemma Applied.replayed (ha : Applied m s h a) (hj : Journaled k key s f h)
    (hrepl : s.database.tree.replicated.applyOps (opsAfter a s.history) = .ok tree.replicated) :
    Applied m (setApplied tree h.sequence s) h h.sequence where
  position := by
    show (⟨s.database.position.epoch, some h.sequence⟩ : Position) = _
    rw [ha.position]
  trimmed := ha.trimmed.trans ha.bound
  bound := le_rfl
  pending := by
    refine ⟨tree.replicated, ?_⟩
    show tree.replicated.applyOps (opsAfter h.sequence s.history) = _
    rw [opsAfter_all hj.sequence_le]
    rfl
  folded := by
    intro hm
    show s.start.replicated.applyOps (opsThrough h.sequence s.history) = .ok tree.replicated
    have hnums : s.history.map (·.sequence) = List.range' 1 s.history.length := by
      rw [hj.sequences, hj.length_history]
    -- numbered frames up to a sequence and after it are all of them
    obtain ⟨hlow, hhigh⟩ := filter_of_sequences (n := 0) a hnums
    have hall : opsThrough a s.history ++ opsAfter a s.history = s.history.flatMap Frame.ops := by
      rw [opsThrough, opsAfter_eq, hlow, hhigh, ← List.flatMap_append, List.take_append_drop]
    rw [opsThrough_all hj.sequence_le, ← hall, Tree.applyOps_append (ha.folded hm), hrepl]

/-- What an attach leaves in the files: a directory that attaches to the same end. -/
structure Resumes (k : Codec V) (key : Digest) (m : Prop) (s t : Directory V) : Prop where
  kept : Kept k key m t
  target : ∀ u, Target k key s u → Target k key t u

/-- The target of a directory with a journal. -/
lemma Journaled.target {u : Tree V} (hj : Journaled k key s f h)
    (hrepld : ∀ a, s.database.position = ⟨some h.epoch, some a⟩ →
      s.database.tree.replicated.applyOps (opsAfter a s.history) = .ok u) : Target k key s u where
  alone := fun hnone => nomatch hnone.symm.trans hj.file
  replayed := by
    intro g h' a hg hreads hposn
    obtain rfl := Option.some.inj (hj.file.symm.trans hg)
    obtain rfl := hj.reads.unique hreads
    exact hrepld a hposn

lemma Target.ofSame {u : Tree V} {f' : JournalFile V} (htgt : Target k key s u)
    (hj : Journaled k key s f h) (hj' : Journaled k key t f' h)
    (hdb : t.database = s.database) (hhist : t.history = s.history) :
    Target k key t u := by
  refine hj'.target fun a hposn => ?_
  rw [hdb] at hposn ⊢
  rw [hhist]
  exact htgt.replayed f h a hj.file hj.reads hposn

/-- Replaying: the commit takes the database to the head of the file. -/
lemma ensures_replayJournal (hplain : s.database.tree.Plain) (hlog : s.log = none)
    (hj : Journaled k key s f h) (htorn : f.torn = false) (ha : Applied m s h a)
    (hstor : stored.sequence = a) :
    Ensures F (replayJournal k key stored h) s
      (fun _ t => Resumes k key m s t ∧ t.file = some f ∧ t.store = s.store ∧
        t.database.position = ⟨some h.epoch, some h.sequence⟩)
      (fun t => F .error ∧ Resumes k key m s t) (fun t => F .stop ∧ Resumes k key m s t) := by
  have hset : Settled k key m a s := ⟨hplain, hlog, f, h, hj, ha⟩
  have hself : Resumes k key m s s := ⟨hset.kept, fun _ hu => hu⟩
  refine ensures_bind ?_
  refine ensures_bind (ensures_call ?_ (fun herr => ⟨herr, hself⟩) fun hstop => ⟨hstop, hself⟩)
  refine ensures_bind (ensures_get ?_)
  simp only [id_eq, hj.file]
  have hread : replayFrames k key f = .ok (h, f.frames) := by
    rw [replayFrames, scan_of_reads hj.reads, htorn]
    rfl
  rw [hread]
  refine ensures_pure (ensures_bind (ensures_get ?_))
  obtain ⟨u, hu⟩ := ha.pending
  rw [hstor, hj.opsAfter_frames ha.trimmed]
  have hops : ∀ op ∈ opsAfter a s.history, op.Recordable := by
    intro op hop
    obtain ⟨fr, hfr, hmem⟩ := List.mem_flatMap.mp hop
    exact hj.recordable fr (List.mem_of_mem_filter hfr) op hmem
  obtain ⟨tree, htree, htreePlain, rfl⟩ := hplain.applyOps_of_replicated hops hu
  rw [htree]
  refine ensures_bind (ensures_pure ?_)
  refine ensures_bind (ensures_failIf (fun hmiss => ?_) fun _ => ?_)
  · exact absurd (hmiss.symm.trans htreePlain.metaBucket) Bool.false_ne_true
  have hafter : Applied m (setApplied tree h.sequence s) h h.sequence := ha.replayed hj hu
  have hjafter : Journaled k key (setApplied tree h.sequence s) f h := hj.ofSame rfl rfl
  have hdone : Resumes k key m s (setApplied tree h.sequence s) := by
    refine ⟨Kept.mk_applied (s := setApplied tree h.sequence s) htreePlain hjafter hafter
      (fun l hl => absurd (hl.symm.trans hlog) (Option.some_ne_none l)), fun w hw => ?_⟩
    obtain rfl : tree.replicated = w :=
      Except.ok.inj (hu.symm.trans (hw.replayed f h a hj.file hj.reads ha.position))
    -- a level database is its own target
    refine hjafter.target fun b hat => ?_
    have hlevel : b = h.sequence := by simpa using hat.symm.trans hafter.position
    rw [hlevel, opsAfter_all hjafter.sequence_le]
    rfl
  exact ensures_call ⟨hdone, hj.file, rfl, hafter.position⟩ (fun herr => ⟨herr, hself⟩)
    fun hstop => ⟨hstop, hdone⟩

lemma Kept.repaired (hk : Kept k key m s) (hlog : s.log = none) (ht : Repaired s t) :
    Kept k key m t := by
  rcases ht with rfl | rfl
  · exact hk
  refine ⟨hk.plain, fun f hf => ?_, fun l hl => nomatch hlog.symm.trans hl⟩
  cases hfile : s.file with
  | none => simp [truncate, hfile] at hf
  | some g =>
    obtain ⟨h, hj, happl, hposn⟩ := hk.journal g hfile
    obtain rfl : { g with torn := false } = f := by simpa [truncate, hfile] using hf
    have hhist : (truncate s).history = s.history := by simp [history, truncate, hfile]
    exact ⟨h, hj.truncate, fun a ha => (happl a ha).ofSame rfl hhist rfl, hposn⟩

lemma Resumes.repaired (hk : Kept k key m s) (hlog : s.log = none) (hj : Journaled k key s f h)
    (ht : Repaired s t) : Resumes k key m s t := by
  obtain ⟨f', hj'⟩ := ht.journaled hj
  obtain ⟨hdb, hhist, -, -⟩ := ht.same hj.file
  exact ⟨hk.repaired hlog ht, fun u hu => hu.ofSame hj hj' hdb hhist⟩

lemma Resumes.trans {u : Directory V} (hst : Resumes k key m s t) (htu : Resumes k key m t u) :
    Resumes k key m s u :=
  ⟨htu.kept, fun w hw => htu.target w (hst.target w hw)⟩

/-- An attached directory whose database is level with the file. -/
structure Level (k : Codec V) (key : Digest) (t : Directory V) : Prop where
  level : ∃ f h, Journaled k key t f h ∧
    t.database.position = ⟨some h.epoch, some h.sequence⟩ ∧ t.log = some { head := h }

lemma ensures_reconcileJournal (hk : Kept k key m s) (hlog : s.log = none)
    (hj : Journaled k key s f h) (htorn : f.torn = false)
    (hstor : journalPosition s.database = .ok stored) :
    Ensures F (reconcileJournal k key h stored) s
      (fun _ t => Resumes k key m s t ∧ t.file = some f ∧ t.store = s.store ∧
        t.database.position = ⟨some h.epoch, some h.sequence⟩)
      (fun t => (m → F .error) ∧ Resumes k key m s t) (fun t => F .stop ∧ Resumes k key m s t) := by
  have hself : Resumes k key m s s := ⟨hk, fun _ hu => hu⟩
  obtain ⟨h', hj', happl, hposn⟩ := hk.journal f hj.file
  obtain rfl := hj.reads.unique hj'.reads
  -- A database that records no position in the epoch of the file is refused.
  have hepoch : m → stored.present = true ∧ stored.epoch = h.epoch := by
    intro hm
    obtain ⟨a, ha⟩ := hposn hm
    rw [journalPosition_ok hstor, ha]
    exact ⟨rfl, rfl⟩
  unfold reconcileJournal
  by_cases hpres : stored.present = true
  swap
  · rw [if_pos hpres]
    exact ensures_fail ⟨fun hm => absurd (hepoch hm).1 hpres, hself⟩
  rw [if_neg (not_not.mpr hpres)]
  have hat := position_of_present hstor hpres
  by_cases hsame : stored.epoch = h.epoch
  swap
  · rw [if_pos hsame]
    exact ensures_fail ⟨fun hm => absurd (hepoch hm).2 hsame, hself⟩
  rw [if_neg (not_not.mpr hsame)]
  rw [hsame] at hat
  have ha := happl stored.sequence hat
  rw [if_neg (Nat.not_lt.mpr ha.bound)]
  split_ifs with hlevel htrim
  · exact ensures_pure ⟨hself, hj.file, rfl, hlevel ▸ hat⟩
  · exact absurd htrim (Nat.not_lt.mpr ha.trimmed)
  · exact (ensures_replayJournal hk.plain hlog hj htorn ha rfl).imp (fun _ _ ht => ht)
      (fun _ ht => ⟨fun _ => ht.1, ht.2⟩) fun _ ht => ht

lemma ensures_continueEpoch (hk : Kept k key m s) (hstore : s.store = some store)
    (hlog : store.log = none) (hfile : s.file = some f)
    (hstor : journalPosition s.database = .ok stored) :
    Ensures F (continueEpoch k key stored) s (fun _ t => Resumes k key m s t ∧ Level k key t)
      (fun t => (m → F .error) ∧ Resumes k key m s t) (fun t => F .stop ∧ Resumes k key m s t) := by
  have hnolog : s.log = none := by rw [log, hstore, Option.bind_some, hlog]
  obtain ⟨h, hj, -, -⟩ := hk.journal f hfile
  refine ensures_bind ((ensures_openJournal hj).imp ?_
    (fun t ht => ⟨fun _ => ht.1, Resumes.repaired hk hnolog hj ht.2⟩)
    fun t ht => ⟨ht.1, Resumes.repaired hk hnolog hj ht.2⟩)
  rintro l t ⟨rfl, ht, f', hj', htorn⟩
  have hst := Resumes.repaired hk hnolog hj ht
  obtain ⟨hdb, -, -, htstore⟩ := ht.same hj.file
  have htlog : t.log = none := by rw [log, htstore, ← log, hnolog]
  refine ensures_bind ((ensures_reconcileJournal hst.kept htlog hj' htorn
    (hdb ▸ hstor)).imp ?_ (fun u hu => ⟨hu.1, hst.trans hu.2⟩)
    fun u hu => ⟨hu.1, hst.trans hu.2⟩)
  rintro - u ⟨htu, hufile, hustore, hposn⟩
  obtain ⟨h'', hju, happl, -⟩ := htu.kept.journal f' hufile
  obtain rfl := hj'.reads.unique hju.reads
  have ha := happl _ hposn
  have hustore' : u.store = some store := by rw [hustore, htstore, hstore]
  have hulog : u.log = none := by rw [log, hustore', Option.bind_some, hlog]
  have hjset : Journaled k key (setLog (some { head := h }) u) f' h := hju.ofSame rfl rfl
  refine ensures_modify ⟨hst.trans (htu.trans ⟨?_, fun w hw => ?_⟩), ?_⟩
  · exact Settled.attach ⟨htu.kept.plain, hulog, f', h, hju, ha⟩ hustore' hju htorn
  · exact hw.ofSame hju hjset rfl rfl
  · exact ⟨f', h, hjset, hposn, log_setLog hustore' _⟩

/-! ## Starting an epoch -/

/-- The file of a new epoch, before the database records a position in it. -/
lemma journaled_publishEpoch (s : Directory V) (header : EpochHeader) :
    Journaled k key (publishEpoch (epochFrame k key header) s) ⟨[epochFrame k key header], false⟩
      (Head.after k {} (epochFrame k key header)) where
  file := rfl
  reads := reads_epochFrame header
  dropped := rfl
  recordable := nofun

/-- The database is the starting point of its new epoch. -/
lemma applied_setPosition (header : EpochHeader) :
    Applied m (setPosition header.epoch 0 (publishEpoch (epochFrame k key header) s))
      (Head.after k {} (epochFrame k key header)) 0 where
  position := rfl
  trimmed := le_rfl
  bound := le_rfl
  pending := ⟨s.database.tree.replicated, rfl⟩
  folded := fun _ => rfl

lemma kept_startEpoch (header : EpochHeader) (hplain : s.database.tree.Plain)
    (hstore : s.store = some store) :
    Kept k key m (setLog (some { head := Head.after k {} (epochFrame k key header) })
      (setPosition header.epoch 0 (publishEpoch (epochFrame k key header) s))) := by
  refine Kept.mk_applied (s := setLog _ _) hplain
    ((journaled_publishEpoch s header).ofSame (t := setLog _ _) rfl rfl)
    ((applied_setPosition header).ofSame rfl rfl rfl) fun l hl _ => ⟨rfl, ?_⟩
  have hstore' : (setPosition header.epoch 0 (publishEpoch (epochFrame k key header) s)).store =
      some store := hstore
  rw [log_setLog hstore'] at hl
  rw [← Option.some.inj hl]

lemma kept_setPosition (header : EpochHeader) (hplain : s.database.tree.Plain) (hlog : s.log = none) :
    Kept k key m (setPosition header.epoch 0 (publishEpoch (epochFrame k key header) s)) :=
  Kept.mk_applied (s := setPosition _ _ _) hplain
    ((journaled_publishEpoch s header).ofSame (t := setPosition _ _ _) rfl rfl)
    (applied_setPosition header) fun _ hl => nomatch hlog.symm.trans hl

lemma ensures_startEpoch (reason : String) (hk : Kept k key False s) (hstore : s.store = some store)
    (hlog : store.log = none) (hstor : journalPosition s.database = .ok stored) :
    Upholds F (startEpoch k key stored reason) s (fun _ => Kept k key False) (Kept k key False) := by
  have hnolog : s.log = none := by rw [log, hstore, Option.bind_some, hlog]
  have hepoch : s.database.position.epoch ≠ some (stored.epoch + 1) := by
    rw [journalPosition_ok hstor]
    cases s.database.position.epoch with
    | none => exact (Option.some_ne_none _).symm
    | some e => exact fun h => Nat.succ_ne_self e (Option.some.inj h).symm
  refine ensures_bind (ensures_get (ensures_bind (ensures_failIf (fun _ => hk) fun _ => ?_)))
  set header : EpochHeader :=
    { epoch := stored.epoch + 1
      previousEpoch := stored.epoch
      previousChainHead := previousChainHead k key stored s.file
      reason := reason } with hhdr
  -- until the position is recorded, the database follows no epoch
  have hpubd : Kept k key False (publishEpoch (epochFrame k key header) s) := by
    refine ⟨hk.plain, fun f hf => ?_,
      fun l hl => absurd (hl.symm.trans hnolog) (Option.some_ne_none l)⟩
    obtain rfl := Option.some.inj hf
    refine ⟨_, journaled_publishEpoch s header, fun a ha => ?_, False.elim⟩
    exact absurd (congrArg Position.epoch ha) hepoch
  have hrecd : Kept k key False
      (setPosition header.epoch 0 (publishEpoch (epochFrame k key header) s)) :=
    kept_setPosition header hk.plain hnolog
  refine ensures_bind (ensures_publish (Q := fun t => Ensures F _ t _ _ _) ⟨hk, hk.stopped⟩
    ⟨?_, hpubd, hpubd.stopped⟩)
  refine ensures_bind (ensures_call ?_ (fun _ => hpubd) fun _ => hpubd.stopped)
  refine ensures_bind (ensures_call ?_ (fun _ => hpubd) fun _ => hpubd.stopped)
  refine ensures_bind (ensures_call ?_ (fun _ => hpubd) fun _ => hrecd.stopped)
  exact ensures_modify (kept_startEpoch header hk.plain hstore)

lemma ensures_attach (reason : String) (hk : Kept k key False s) :
    Upholds F (attachMetadataJournal k key reason) s (fun _ => Kept k key False) (Kept k key False) := by
  refine ensures_bind (ensures_get ?_)
  cases hstore : s.store with
  | none => exact ensures_fail hk
  | some store =>
    dsimp only
    by_cases hlog : store.log.isSome = true
    · rw [if_pos hlog]
      exact ensures_fail hk
    rw [if_neg hlog]
    rw [Bool.not_eq_true, Option.isSome_eq_false_iff, Option.isNone_iff_eq_none] at hlog
    refine ensures_bind (ensures_ofExcept (fun stored hstor => ?_) fun _ _ => hk)
    refine ensures_bind (ensures_call ?_ (fun _ => hk) fun _ => hk.stopped)
    split_ifs with hstart
    · exact ensures_startEpoch reason hk hstore hlog hstor
    · obtain ⟨f, hf⟩ : ∃ f, s.file = some f := by
        cases hfile : s.file with
        | none => exact absurd (by simp [hfile]) hstart
        | some f => exact ⟨f, rfl⟩
      exact (ensures_continueEpoch hk hstore hlog hf hstor).imp (fun _ _ ht => ht.1.kept)
        (fun _ ht => ht.2.kept) fun _ ht => ht.2.kept.stopped

/-! ## Runs -/

lemma ensures_openStore (hk : Kept k key m s) :
    Upholds F (openStore none) s (fun _ => Kept k key m) (Kept k key m) := by
  refine ensures_bind (ensures_get (ensures_bind (ensures_failIf (fun _ => hk) fun _ => ?_)))
  refine ensures_bind (ensures_call ?_ (fun _ => hk) fun _ => hk.stopped)
  exact ensures_modify (hk.map hk.plain rfl rfl rfl (·.ofSame rfl rfl rfl) nofun)

lemma ensures_setAfterDurable (hk : Kept k key m s) :
    Upholds F setAfterDurable s (fun _ => Kept k key m) (Kept k key m) := by
  refine ensures_bind (ensures_get ?_)
  cases hlog : s.store.bind (·.log) with
  | none => exact ensures_fail hk
  | some log =>
    obtain ⟨f, h, a, hj, ha, hhead⟩ := hk.attached log hlog
    obtain ⟨store, hstore, -⟩ := store_of_log hlog
    refine ensures_modify (Kept.mk_applied (s := setLog _ s) hk.plain (hj.ofSame rfl rfl)
      (ha.ofSame rfl rfl rfl) fun l hl => ?_)
    rw [log_setLog hstore] at hl
    rw [← Option.some.inj hl]
    exact hhead

lemma kept_after {A : Type} {p : StoreProgram V A}
    (h : Upholds (fun _ => True) p s (fun _ => Kept k key m) (Kept k key m)) (faults : List Fault) :
    Kept k key m (after (p s faults)) :=
  holds_after h (fun _ _ ht => ht) faults

/-- An update or a batch is not made while a log that may append is ahead of the database. -/
def AppendsAtHead (s : Directory V) : StoreEvent V → Prop
  | .update _ _ | .batch _ _ => s.AtHead
  | _ => True

/-- No opening migrates the database. -/
def StoreEvent.Unmigrated : StoreEvent V → Prop
  | .openStore (some _) _ => False
  | _ => True

lemma Kept.step (e : StoreEvent V) (hk : Kept k key False s) (hevent : e.Unmigrated)
    (hlevel : AppendsAtHead s e) : Kept k key False (step k key rule s e) := by
  cases e with
  | openStore migration faults =>
    cases migration with
    | none => exact kept_after (ensures_openStore hk) faults
    | some migration => exact hevent.elim
  | attach reason faults => exact kept_after (ensures_attach reason hk) faults
  | setAfterDurable => exact kept_after (ensures_setAfterDurable hk) []
  | update c faults => exact kept_after (ensures_update c hk hlevel) faults
  | batch queued faults => exact kept_after (ensures_commitRounds _ queued hk hlevel) faults
  | trim through faults => exact kept_after (ensures_trimMetadataJournal through hk) faults
  | close => exact hk.stopped

/-- A database as the schema creates it. -/
structure Created (V : Type) where
  tree : Tree V
  plain : tree.Plain

/-- A data directory whose database was created and has no journal yet. -/
def Created.directory (c : Created V) : Directory V where
  database := ⟨c.tree, {}⟩
  start := c.tree

lemma Created.kept (c : Created V) : Kept k key m c.directory := ⟨c.plain, nofun, nofun⟩

lemma Kept.run {c : Created V} {events : List (StoreEvent V)} (hevs : ∀ e ∈ events, e.Unmigrated)
    (hlevel : Along (Metadata.step k key rule) AppendsAtHead c.directory events) :
    Kept k key False (events.foldl (Metadata.step k key rule) c.directory) :=
  ((Along.of_forall hevs).and hlevel).invariant (fun _ e hk he => hk.step e he.1 he.2) c.kept

/-- The replicated part of the database is the result of the frames of an epoch up to a sequence, and
none of those frames is missing. -/
def Folded (s : Directory V) (applied : ℕ) : Prop :=
  (s.history.map (·.sequence)).take applied = List.range' 1 applied ∧
    s.start.replicated.applyOps (opsThrough applied s.history) = .ok s.database.tree.replicated

/-- **The metadata database is the fold of its journal.**  In every run without a migration whose
updates find the log and the database level, a process that has the journal attached finds its
database at a position in the epoch of the file, and wherever the database records such a position
it is the result of the frames up to it. -/
theorem projection_is_fold (k : Codec V) (key : Digest) (rule : ConfirmationRule V) (c : Created V)
    (events : List (StoreEvent V)) (hevents : ∀ e ∈ events, e.Unmigrated)
    (hlevel : Along (step k key rule) AppendsAtHead c.directory events) :
    let s := events.foldl (step k key rule) c.directory
    (s.log.isSome → ∃ file head torn applied, s.file = some file ∧
      scan k key file = .ok (head, torn) ∧ s.database.position = ⟨some head.epoch, some applied⟩) ∧
    ∀ file head torn applied, s.file = some file → scan k key file = .ok (head, torn) →
      s.database.position = ⟨some head.epoch, some applied⟩ → Folded s applied := by
  intro s
  have hk : Kept k key False s := Kept.run hevents hlevel
  refine ⟨fun hlog => ?_, fun file head torn applied hfile hscan hposn => ?_⟩
  · obtain ⟨l, hl⟩ := Option.isSome_iff_exists.mp hlog
    obtain ⟨f, h, a, hj, ha, -⟩ := hk.attached l hl
    exact ⟨f, h, f.torn, a, hj.file, scan_of_reads hj.reads, ha.position⟩
  · obtain ⟨h, hj, happl, -⟩ := hk.journal file hfile
    have hhead : h = head := by
      have hsame := (scan_of_reads hj.reads).symm.trans hscan
      simpa using congrArg Prod.fst (Except.ok.inj hsame)
    subst hhead
    have ha := happl applied hposn
    refine ⟨?_, ha.folded not_false⟩
    have hsplit : List.range' 1 h.sequence =
        List.range' 1 applied ++ List.range' (1 + 1 * applied) (h.sequence - applied) := by
      rw [List.range'_append, Nat.add_sub_cancel' ha.bound]
    rw [hj.sequences, hsplit, List.take_left' (by simp)]

/-! ## An update after a failed commit -/

namespace Sample

def codec : Codec ℕ where
  mac := fun _ _ _ _ _ => .zero
  hash := fun _ => .zero
  payloadLength := fun _ => 1

def schema : Created ℕ where
  tree := ⟨fun p => p = [bucketMeta] || p = ["projects"], fun _ _ => none⟩
  plain := ⟨fun _ => rfl, rfl, fun name rest => by simp [bucketMeta]⟩

def putProject (name : String) (v : ℕ) : Callback ℕ := .write (.put ["projects"] name v) .done

def opened : List (StoreEvent ℕ) := [.openStore none [], .attach "initialize" []]

/-- The frame of the first project is written, and its commit fails. -/
def failedCommit : List (StoreEvent ℕ) :=
  opened ++ [.update (putProject "first" 1) [.clear, .clear, .clear, .clear, .error],
    .update (putProject "second" 2) []]

def final (events : List (StoreEvent ℕ)) : Directory ℕ :=
  events.foldl (step codec .zero fun _ _ => false) schema.directory

/-- A key of the bucket of the projects after the frames up to a sequence. -/
def replayed (s : Directory ℕ) (applied : ℕ) (name : String) : Option ℕ :=
  match s.start.replicated.applyOps (opsThrough applied s.history) with
  | .error _ => none
  | .ok u => u.value ["projects"] name

lemma opened_atHead : (final opened).AtHead := by
  intro l hl _
  have hsome : (final opened).log = some { head := ⟨1, 0, .zero, 0⟩ } := by decide +kernel
  rw [Option.some.inj (hl.symm.trans hsome)]
  decide +kernel

end Sample

/-- A run whose process stops between the frame of an update and its commit, and that attaches the
journal again. -/
theorem projection_is_fold_after_stop :
    let events := Sample.opened ++ [.update (Sample.putProject "first" 1) [.clear, .clear, .stop],
      .openStore none [], .attach "start" []]
    (Sample.final events).log.isSome ∧ Sample.replayed (Sample.final events) 1 "first" = some 1 ∧
      ((Sample.final events).log.isSome → ∃ file head torn applied,
        (Sample.final events).file = some file ∧ scan Sample.codec .zero file = .ok (head, torn) ∧
          (Sample.final events).database.position = ⟨some head.epoch, some applied⟩) := by
  refine ⟨by decide +kernel, by decide +kernel, ?_⟩
  refine (projection_is_fold Sample.codec .zero (fun _ _ => false) Sample.schema _ ?_ ?_).1
  · intro e he
    simp only [Sample.opened, List.cons_append, List.nil_append, List.mem_cons, List.not_mem_nil,
      or_false] at he
    rcases he with rfl | rfl | rfl | rfl | rfl <;> exact trivial
  · exact ⟨trivial, trivial, Sample.opened_atHead, trivial, trivial, trivial⟩

/-- The second update records its own sequence, and the frame of the first one is never applied. -/
theorem failed_commit_skips_frame :
    (Sample.final Sample.failedCommit).database.position = ⟨some 1, some 2⟩ ∧
      (Sample.final Sample.failedCommit).database.tree.value ["projects"] "second" = some 2 ∧
      ((Sample.final Sample.failedCommit).file.map fun f => (scan Sample.codec .zero f).toOption) =
        some (some (⟨1, 2, .zero, 0⟩, false)) ∧
      ¬ Folded (Sample.final Sample.failedCommit) 2 := by
  refine ⟨by decide +kernel, by decide +kernel, by decide +kernel, fun hfolded => ?_⟩
  have hrepld : Sample.replayed (Sample.final Sample.failedCommit) 2 "first" = some 1 := by
    decide +kernel
  have hmiss : (Sample.final Sample.failedCommit).database.tree.replicated.value ["projects"]
      "first" = none := by decide +kernel
  rw [Sample.replayed, hfolded.2] at hrepld
  exact nomatch hmiss.symm.trans hrepld

end Metadata

end Halro
