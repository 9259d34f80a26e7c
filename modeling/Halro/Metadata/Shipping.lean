import Halro.Metadata.Projection

/-!
# Metadata frames on their way to the other members

On a Primary the log has a callback (`installMetadataHook`): every frame is given to the replication
coordinator once it is durable, an update that withdraws an authority waits for its index, and a
member that lags behind is sent the frames again from the journal file (`ReadReplicationFrames`).

The trim of `internal/app/metadata_journal_trim.go` runs beside the updates.  It closes the log, cuts
the file at the sequence the database has applied, and opens the log again.  The new log has no
callback, the cut does not ask which frames the members have acknowledged, and a trim that fails on
the way leaves the store without a log.  As long as no tick finds something to cut, every update
delivers its frame and every ordered frame can be read.
-/

namespace Halro

open Framework Framework.Program Replication

namespace Metadata

open Directory

variable {V : Type}

section Programs

variable (k : Codec V) (key : Digest) (rule : ConfirmationRule V)

/-- `ReadReplicationFrames`: the frames from one sequence to another. -/
def readReplicationFrames (epoch first last : ℕ) (file : JournalFile V) :
    Except StoreError (List (Frame V)) :=
  if epoch = 0 ∨ first = 0 ∨ last < first then .error .replicationRange
  else
    match replayFrames k key file with
    | .error err => .error err
    | .ok (head, frames) =>
      let find (sequence : ℕ) := frames.findIdx? fun f =>
        f.epoch = epoch && f.isOperations && f.sequence = sequence
      match find first, find last with
      | some start, some stop =>
        if head.epoch ≠ epoch ∨ stop < start then .error .outsideJournal
        else .ok ((frames.drop start).take (stop + 1 - start))
      | _, _ => .error .outsideJournal

def metadataJournalTrimThresholdBytes : ℕ := 16 * 2 ^ 20

def fileSize (file : JournalFile V) : ℕ := (file.frames.map (frameSize k)).sum

/-- Where the log says its file was cut. -/
def Directory.trimmedThrough (s : Directory V) : ℕ :=
  (s.store.bind (·.log)).elim 0 (·.head.trimmedThrough)

/-- What the trim tick finds to cut: a large file with frames that were applied since the last
cut. -/
def Directory.cutDue (s : Directory V) : Option ℕ :=
  match journalPosition s.database, s.file with
  | .ok stored, some file =>
    if fileSize k file < metadataJournalTrimThresholdBytes then none
    else if stored.sequence ≤ s.trimmedThrough then none
    else some stored.sequence
  | _, _ => none

/-- A tick of the Runtime's `trimMetadataJournal`, which logs every error. -/
def trimTick : StoreProgram V Unit := do
  match ← attempt (call id .stat) with
  | .error _ => pure ()
  | .ok () => do
    let s ← get
    match s.cutDue k with
    | none => pure ()
    | some applied => do
      let _ ← attempt (trimMetadataJournal k key applied)
      pure ()

/-! ## Runs of a Primary -/

/-- The store of a Primary, and the sequence that each of the configured peers has acknowledged. -/
structure PrimaryStore (V : Type) where
  directory : Directory V
  acked : List ℕ

inductive PrimaryEvent (V : Type)
  | update (c : Callback V) (faults : List Fault)
  | batch (queued : List (ℕ × Callback V)) (faults : List Fault)
  | tick (faults : List Fault)
  | caughtUp (peer sequence : ℕ)

def PrimaryStore.step (p : PrimaryStore V) : PrimaryEvent V → PrimaryStore V
  | .update c faults => { p with directory := after (update k key rule c p.directory faults) }
  | .batch queued faults =>
    { p with directory := after (commitBatch k key rule queued p.directory faults) }
  | .tick faults => { p with directory := after (trimTick k key p.directory faults) }
  | .caughtUp peer sequence => { p with acked := p.acked.modify peer (max sequence) }

/-- The tick finds nothing to cut. -/
def Uncut (p : PrimaryStore V) : PrimaryEvent V → Prop
  | .tick _ => p.directory.cutDue k = none
  | _ => True

/-- Whether the transaction of some callbacks has to be confirmed. -/
def requiresConfirmation (s : Directory V) (callbacks : List (Callback V)) : Bool :=
  match runCallbacks rule 0 callbacks ⟨s.database.tree, {}⟩ with
  | .ok tx => tx.recorder.requiresConfirmation
  | .error _ => false

end Programs

/-- What an update has done when it succeeds: its frame, if it wrote one, was given to the
coordinator, and its index was waited for if it has to be. -/
def Delivered (s : Directory V) (required : Bool) (t : Directory V) : Prop :=
  t.history = s.history ∨ ∃ fr, t.history = s.history ++ [fr] ∧
    t.ordered = s.ordered ++ [fr.sequence] ∧ (required = true → t.ordered.length ∈ t.waited)

/-! ## What a Primary keeps -/

section Invariant

variable (k : Codec V) (key : Digest) (base : ℕ) (epoch : ℕ)

/-- The ordered frames are the ones from the sequence where the callback was installed, and the file
has them. -/
structure Shipped (s : Directory V) (f : JournalFile V) (h : Head) : Prop where
  file : s.file = some f
  reads : Reads k key f.frames h
  epoch : h.epoch = epoch
  trimmed : h.trimmedThrough ≤ base
  ordered : s.ordered = List.range' (base + 1) s.ordered.length
  bound : base + s.ordered.length ≤ h.sequence
  installed : ∀ l, s.log = some l → l.afterDurable = true

/-- A log that may append has ordered every frame. -/
def Shipping (s : Directory V) : Prop :=
  ∃ f h, Shipped k key base epoch s f h ∧ ∀ l, s.log = some l → l.terminal = false →
    f.torn = false ∧ l.head = h ∧ base + s.ordered.length = h.sequence

end Invariant

variable {k : Codec V} {key : Digest} {rule : ConfirmationRule V} {base epoch : ℕ}
  {F : Fault → Prop} {s t : Directory V} {f : JournalFile V} {h : Head}

lemma Shipped.ofSame (hs : Shipped k key base epoch s f h) (hfile : t.file = s.file)
    (hord : t.ordered = s.ordered) (hlog : ∀ l, t.log = some l → l.afterDurable = true) :
    Shipped k key base epoch t f h where
  __ := hs
  file := hfile.trans hs.file
  ordered := hord ▸ hs.ordered
  bound := hord ▸ hs.bound
  installed := hlog

lemma Shipping.ofSame (hs : Shipping k key base epoch s) (hfile : t.file = s.file)
    (hord : t.ordered = s.ordered) (hlog : t.log = s.log) : Shipping k key base epoch t := by
  obtain ⟨f, h, hship, hhead⟩ := hs
  refine ⟨f, h, hship.ofSame hfile hord (hlog ▸ hship.installed), ?_⟩
  rw [hlog, hord]
  exact hhead

lemma Shipped.stopped (hs : Shipped k key base epoch s f h) : Shipping k key base epoch s.stopped :=
  ⟨f, h, hs.ofSame rfl rfl nofun, nofun⟩

lemma Shipping.stopped (hs : Shipping k key base epoch s) : Shipping k key base epoch s.stopped := by
  obtain ⟨f, h, hship, -⟩ := hs
  exact hship.stopped

section

variable (hs : Shipped k key base epoch s f h)

include hs

/-- A log that refuses to append has nothing more to order. -/
lemma Shipped.terminal :
    Shipping k key base epoch (setTerminal s) := by
  refine ⟨f, h, hs.ofSame rfl rfl fun l hl => ?_, fun l hl hterminal => ?_⟩
  · obtain ⟨l', hl', rfl⟩ := log_of_setTerminal hl
    exact hs.installed l' hl'
  · obtain ⟨l', -, rfl⟩ := log_of_setTerminal hl
    exact nomatch hterminal

lemma Shipped.tear : Shipped k key base epoch (tear s) { f with torn := true } h where
  __ := hs
  file := by rw [Directory.tear, hs.file, Option.map_some]

lemma Shipped.land {fr : Frame V} (hfoll : Follows k key h fr) :
    Shipped k key base epoch (land fr s) ⟨f.frames ++ [fr], false⟩ (h.after k fr) where
  file := by rw [Directory.land, hs.file, Option.map_some]
  reads := hs.reads.concat hfoll
  epoch := by
    rw [hfoll.after]
    exact hs.epoch
  trimmed := by
    rw [hfoll.after]
    exact hs.trimmed
  ordered := hs.ordered
  bound := by
    rw [hfoll.after]
    exact Nat.le_succ_of_le hs.bound
  installed := hs.installed

/-- Ordering the frame after the ordered ones. -/
lemma Shipped.order (sequence : ℕ)
    (hnext : base + s.ordered.length + 1 = sequence) (hle : sequence ≤ h.sequence) :
    Shipped k key base epoch (order sequence s) f h where
  __ := hs
  ordered := by
    show s.ordered ++ [sequence] = List.range' (base + 1) (s.ordered ++ [sequence]).length
    rw [List.length_append, List.length_singleton, List.range'_concat, ← hs.ordered, ← hnext]
    congr 2
    omega
  bound := by
    show base + (s.ordered ++ [sequence]).length ≤ h.sequence
    rw [List.length_append, List.length_singleton]
    omega

/-! ## Updates -/

lemma ensures_writeFrame_shipped {fr : Frame V} (hfoll : Follows k key h fr) :
    Ensures F (writeFrame fr) s (fun _ t => t = land fr (tear s))
      (fun t => Shipping k key base epoch (setTerminal t))
      (fun t => Shipping k key base epoch t.stopped) := by
  have htorn := hs.tear
  have hlanded := htorn.land hfoll
  refine ensures_bind (ensures_call ?_ (fun _ => hs.terminal) fun _ => htorn.stopped)
  refine ensures_bind (ensures_call ?_ (fun _ => htorn.terminal) fun _ => hlanded.stopped)
  exact ensures_call rfl (fun _ => hlanded.terminal) fun _ => hlanded.stopped

end

/-- What an append leaves for the commit and the wait. -/
structure Sent (k : Codec V) (key : Digest) (base epoch : ℕ) (s : Directory V)
    (receipt : AppendReceipt) (t : Directory V) : Prop where
  shipping : Shipping k key base epoch t
  attached : t.log.isSome
  frame : ∃ fr, t.history = s.history ++ [fr] ∧ t.ordered = s.ordered ++ [fr.sequence]
  index : receipt.replicationIndex = t.ordered.length

lemma ensures_appendWithReceipt_shipped {l : Log} {ops : List (Op V)}
    (hs : Shipping k key base epoch s) (hl : s.log = some l) :
    Upholds F (appendWithReceipt k key l ops) s (Sent k key base epoch s)
      (Shipping k key base epoch) := by
  refine ensures_bind (ensures_failIf (fun _ => hs) fun hne => ?_)
  refine ensures_bind (ensures_ofExcept (fun _ hvalid => ?_) fun _ _ => hs)
  refine ensures_bind (ensures_failIf (fun _ => hs) fun _ => ?_)
  refine ensures_bind (ensures_failIf (fun _ => hs) fun hterminal => ?_)
  rw [Bool.not_eq_true] at hterminal
  obtain ⟨f, h, hship, hhead⟩ := hs
  obtain ⟨-, rfl, hall⟩ := hhead l hl hterminal
  have hfoll : Follows k key l.head (operationsFrame k key l.head ops) :=
    follows_encodeFrame hne hvalid
  refine ensures_bind (ensures_onError ((ensures_writeFrame_shipped hship hfoll).imp ?_
    (fun t ht => ensures_modify ht) fun t ht => ht))
  rintro - t rfl
  refine ensures_bind (ensures_modify ?_)
  obtain ⟨store, hstore, -⟩ := store_of_log hl
  set next : Log := { l with head := l.head.after k (operationsFrame k key l.head ops) } with hnext
  set t := land (operationsFrame k key l.head ops) (tear s) with ht
  have hlog : (setLog (some next) t).log = some next := log_setLog (s := t) hstore _
  have hinst : l.afterDurable = true := hship.installed l hl
  have hlanded : Shipped k key base epoch (setLog (some next) t)
      ⟨f.frames ++ [operationsFrame k key l.head ops], false⟩
      (l.head.after k (operationsFrame k key l.head ops)) := by
    refine (hship.tear.land hfoll).ofSame rfl rfl fun l' hl' => ?_
    rw [hlog] at hl'
    rw [← Option.some.inj hl']
    exact hinst
  have hafter : (l.head.after k (operationsFrame k key l.head ops)).sequence =
      l.head.sequence + 1 := by rw [hfoll.after]
  have hlen : (setLog (some next) t).ordered = s.ordered := rfl
  have hord := hlanded.order (l.head.sequence + 1) (by rw [hlen, hall]) (hafter ▸ le_rfl)
  rw [recordDurable, if_pos hinst]
  refine ensures_bind (ensures_bind (ensures_onError (ensures_call ?_ (fun _ => ?_) fun _ => ?_)))
  · refine ensures_bind (ensures_get (ensures_pure (ensures_pure ?_)))
    refine ⟨⟨_, _, hord, fun l' hl' _ => ?_⟩, ?_, ⟨operationsFrame k key l.head ops, ?_, rfl⟩, rfl⟩
    · have hsame : next = l' := Option.some.inj (hlog.symm.trans hl')
      rw [← hsame]
      refine ⟨rfl, rfl, ?_⟩
      show base + (s.ordered ++ [l.head.sequence + 1]).length = _
      rw [hafter, List.length_append, List.length_singleton]
      omega
    · show (setLog (some next) t).log.isSome = true
      rw [hlog]
      rfl
    · show t.history = _
      rw [ht, history_land hship.tear.file rfl, history_tear hship.file]
  · exact ensures_modify hlanded.terminal
  · exact hord.stopped

/-- What a transaction leaves for its wait. -/
structure Submitted (k : Codec V) (key : Digest) (base epoch : ℕ) (s : Directory V)
    (receipt : AppendReceipt) (t : Directory V) : Prop where
  shipping : Shipping k key base epoch t
  sent : t.history = s.history ∨ t.log.isSome ∧
    (∃ fr, t.history = s.history ++ [fr] ∧ t.ordered = s.ordered ++ [fr.sequence]) ∧
    receipt.replicationIndex = t.ordered.length

lemma ensures_commitTx_shipped {store : Store} {tx : Tx V} (hs : Shipping k key base epoch s)
    (hstore : s.store = some store) :
    Upholds F (commitTx k key store tx) s (Submitted k key base epoch s)
      (Shipping k key base epoch) := by
  unfold commitTx
  split_ifs
  · have hset : Shipping k key base epoch (setTree tx.tree s) := hs.ofSame rfl rfl rfl
    exact ensures_bind (ensures_call (ensures_pure ⟨hset, .inl rfl⟩) (fun _ => hs)
      fun _ => hset.stopped)
  · unfold commitRecorded
    cases hlog : store.log with
    | none => exact ensures_fail hs
    | some l =>
      have hl : s.log = some l := by rw [Directory.log, hstore, Option.bind_some, hlog]
      refine (ensures_appendWithReceipt_shipped hs hl).bind fun receipt t ht => ?_
      have hcmtd : Shipping k key base epoch (setApplied tx.tree receipt.sequence t) :=
        ht.shipping.ofSame rfl rfl rfl
      refine ensures_bind (ensures_failIf (fun _ => ht.shipping) fun _ => ?_)
      refine ensures_bind (ensures_call (ensures_pure ⟨hcmtd, ?_⟩) (fun _ => ht.shipping)
        fun _ => hcmtd.stopped)
      exact .inr ⟨ht.attached, ht.frame, ht.index⟩

lemma ensures_updateAll_shipped (callbacks : List (Callback V)) (hs : Shipping k key base epoch s) :
    Upholds F (updateAll k key rule callbacks) s
      (fun result t => (∀ failed, result = .error failed → t = s) ∧
        ∀ committed, result = .ok committed → Submitted k key base epoch s committed.receipt t ∧
            committed.requiresConfirmation = requiresConfirmation rule s callbacks)
      (Shipping k key base epoch) := by
  refine ensures_bind (ensures_get ?_)
  cases hstore : s.store with
  | none => exact ensures_fail hs
  | some store =>
    split_ifs with hnone
    · refine ensures_pure ⟨nofun, fun committed hcmtd => ?_⟩
      obtain rfl := Except.ok.inj hcmtd
      subst hnone
      exact ⟨⟨hs, .inl rfl⟩, rfl⟩
    · refine ensures_bind (ensures_call ?_ (fun _ => hs) fun _ => hs.stopped)
      have hreq : ∀ tx, runCallbacks rule 0 callbacks ⟨s.database.tree, {}⟩ = .ok tx →
          requiresConfirmation rule s callbacks = tx.recorder.requiresConfirmation := by
        intro tx hrun
        rw [requiresConfirmation, hrun]
      cases hrun : runCallbacks rule 0 callbacks ⟨s.database.tree, {}⟩ with
      | error failed => exact ensures_pure ⟨fun _ _ => rfl, nofun⟩
      | ok tx =>
        refine ensures_bind (ensures_ofExcept (fun _ _ => ?_) fun _ _ => hs)
        refine (ensures_commitTx_shipped hs hstore).bind fun receipt t ht => ?_
        refine ensures_pure ⟨nofun, fun committed hcmtd => ?_⟩
        obtain rfl := Except.ok.inj hcmtd
        exact ⟨ht, (hreq tx hrun).symm⟩

lemma ensures_waitConfirmed {committed : Committed}
    (ht : Submitted k key base epoch s committed.receipt t) :
    Upholds F (waitConfirmed committed) t
      (fun _ u => Shipping k key base epoch u ∧ Delivered s committed.requiresConfirmation u)
      (Shipping k key base epoch) := by
  obtain ⟨hs, hsent⟩ := ht
  have hconf : Shipping k key base epoch (confirm committed.receipt.replicationIndex t) :=
    hs.ofSame rfl rfl rfl
  refine ensures_bind (ensures_get (ensures_onlyIf (fun _ => ensures_call ⟨hconf, ?_⟩
    (fun _ => hs) fun _ => hconf.stopped) fun hskip => ⟨hs, ?_⟩))
  · rcases hsent with hnone | ⟨-, ⟨fr, hhist, hord⟩, hindex⟩
    · exact .inl hnone
    · refine .inr ⟨fr, hhist, hord, fun _ => ?_⟩
      rw [hindex]
      exact List.mem_append_right _ List.mem_cons_self
  · rcases hsent with hnone | ⟨hattached, ⟨fr, hhist, hord⟩, hindex⟩
    · exact .inl hnone
    · -- Only what has not to be confirmed is not waited for.
      refine .inr ⟨fr, hhist, hord, fun hreq => absurd ?_ hskip⟩
      have hlog : (t.store.bind (·.log)).isSome = true := hattached
      rw [hreq, hlog, hindex, hord]
      simp

lemma ensures_update_shipped (c : Callback V) (hs : Shipping k key base epoch s) :
    Upholds F (update k key rule c) s
      (fun _ t => Shipping k key base epoch t ∧ Delivered s (requiresConfirmation rule s [c]) t)
      (Shipping k key base epoch) := by
  refine (ensures_updateAll_shipped [c] hs).bind fun result t ht => ?_
  cases result with
  | error failed =>
    obtain rfl := ht.1 failed rfl
    exact ensures_bind (ensures_pure (ensures_fail hs))
  | ok committed =>
    obtain ⟨hsubm, hreq⟩ := ht.2 committed rfl
    refine ensures_bind ((ensures_waitConfirmed hsubm).bind fun _ u hu => ?_)
    rw [hreq] at hu
    exact ensures_pure (ensures_pure hu)

/-- What a caller of a batch hears a success of. -/
def Answered (rule : ConfirmationRule V) (s : Directory V) (queued : List (ℕ × Callback V))
    (answers : Answers) (t : Directory V) : Prop :=
  ∀ n, (n, .ok ()) ∈ answers → ∃ accepted : List (ℕ × Callback V), accepted.Sublist queued ∧
    n ∈ accepted.map (·.1) ∧ Delivered s (requiresConfirmation rule s (accepted.map (·.2))) t

lemma ensures_commitRounds_shipped (n : ℕ) (queued : List (ℕ × Callback V))
    (hs : Shipping k key base epoch s) :
    Upholds F (commitRounds k key rule n queued) s
      (fun answers t => Shipping k key base epoch t ∧ Answered rule s queued answers t)
      (Shipping k key base epoch) := by
  induction n generalizing queued with
  | zero => exact ensures_pure ⟨hs, nofun⟩
  | succ n ih =>
    refine ensures_bind (ensures_attempt (ensures_bind ((ensures_updateAll_shipped _ hs).imp
      (fun result t ht => ?_) (fun t ht err => ?_) fun _ ht => ht)))
    · cases result with
      | error failed =>
        -- The caller whose callback failed is dropped and the round starts over.
        obtain rfl := ht.1 failed rfl
        obtain ⟨index, err⟩ := failed
        refine ensures_pure (ensures_bind ((ih (queued.eraseIdx index)).imp
          (fun answers t ht => ensures_pure ⟨ht.1, fun m hm => ?_⟩) (fun _ ht => ht) fun _ ht => ht))
        have hrest : (m, .ok ()) ∈ answers := by
          refine (List.mem_append.mp hm).resolve_left fun hfirst => ?_
          rw [Option.mem_toList, Option.map_eq_some_iff] at hfirst
          obtain ⟨_, -, hpair⟩ := hfirst
          exact nomatch congrArg Prod.snd hpair
        obtain ⟨accepted, hsublist, hmem, hdlvd⟩ := ht.2 m hrest
        exact ⟨accepted, hsublist.trans (List.eraseIdx_sublist _ _), hmem, hdlvd⟩
      | ok committed =>
        obtain ⟨hsubm, hreq⟩ := ht.2 committed rfl
        refine ensures_bind ((ensures_waitConfirmed hsubm).imp (fun _ u hu => ?_)
          (fun u hu err => ?_) fun _ hu => hu)
        · rw [hreq] at hu
          refine ensures_pure (ensures_pure ⟨hu.1, fun m hm => ⟨queued, List.Sublist.refl _, ?_, hu.2⟩⟩)
          obtain ⟨c, hc, hpair⟩ := List.mem_map.mp hm
          exact List.mem_map.mpr ⟨c, hc, congrArg Prod.fst hpair⟩
        · refine ensures_pure ⟨hu, fun m hm => ?_⟩
          obtain ⟨_, -, hpair⟩ := List.mem_map.mp hm
          exact nomatch congrArg Prod.snd hpair
    · refine ensures_pure ⟨ht, fun m hm => ?_⟩
      obtain ⟨_, -, hpair⟩ := List.mem_map.mp hm
      exact nomatch congrArg Prod.snd hpair

/-! ## Reading the frames again -/

lemma epoch_of_scanFrom {head : Head} {frames : List (Frame V)}
    (hscan : scanFrom k key head false frames = .ok h) : ∀ fr ∈ frames, fr.epoch = head.epoch := by
  induction frames generalizing head with
  | nil => exact nofun
  | cons fr frames ih =>
    obtain ⟨hfoll, hrest⟩ := follows_iff.mp hscan
    refine List.forall_mem_cons.mpr ⟨hfoll.epoch, fun other hother => ?_⟩
    rw [ih hrest other hother, hfoll.after]

/-- Every frame after the cut is found where its sequence says. -/
lemma Reads.getElem {frames : List (Frame V)} (hreads : Reads k key frames h) (sequence : ℕ)
    (htrim : h.trimmedThrough < sequence) (hle : sequence ≤ h.sequence) :
    ∃ fr, frames[sequence - h.trimmedThrough]? = some fr ∧ fr.sequence = sequence ∧
      frames.findIdx? (fun f => f.epoch = h.epoch && f.isOperations && f.sequence = sequence) =
        some (sequence - h.trimmedThrough) := by
  obtain ⟨first, rest, rfl, hfirst, hstart, hrest⟩ := hreads.opening
  have hnumd := numbered_of_scanFrom hrest
  have hlast := hnumd.last
  rw [hstart, ← hnumd.trimmed] at hlast
  obtain ⟨i, hi⟩ : ∃ i, sequence = h.trimmedThrough + 1 + i := ⟨sequence - h.trimmedThrough - 1, by omega⟩
  have hlt : i < rest.length := by omega
  have hat : ∀ j (hj : j < rest.length), (rest[j]).sequence = h.trimmedThrough + 1 + j := by
    intro j hj
    have hmap : (rest.map (·.sequence))[j]? = some (rest[j]).sequence := by
      rw [List.getElem?_map, List.getElem?_eq_getElem hj, Option.map_some]
    rw [hnumd.sequences, List.getElem?_range' hj, hstart, ← hnumd.trimmed, one_mul] at hmap
    exact (Option.some.inj hmap).symm
  have hindex : sequence - h.trimmedThrough = i + 1 := by omega
  refine ⟨rest[i], ?_, ?_, ?_⟩
  · rw [hindex, List.getElem?_cons_succ, List.getElem?_eq_getElem hlt]
  · rw [hat i hlt, hi]
  · rw [hindex, List.findIdx?_eq_some_iff_getElem]
    refine ⟨Nat.succ_lt_succ hlt, ?_, fun j hj => ?_⟩
    · have hmem : rest[i] ∈ rest := List.getElem_mem hlt
      simp [epoch_of_scanFrom hrest _ hmem, hnumd.epoch, hnumd.operations _ hmem, hat i hlt, hi]
    · cases j with
      | zero => simp [hfirst]
      | succ j =>
        have hjlt : j < rest.length := by omega
        have hne : ¬ (rest[j]).sequence = sequence := by
          rw [hat j hjlt]
          omega
        simp [hne]

lemma Shipped.readable {q : ℕ} (hs : Shipped k key base epoch s f h) (hepoch : epoch ≠ 0)
    (htorn : f.torn = false) (hq : q ∈ s.ordered) :
    ∃ fr, readReplicationFrames k key epoch q q f = .ok [fr] ∧ fr.sequence = q := by
  rw [hs.ordered, List.mem_range'_1] at hq
  have htrim := hs.trimmed
  have hbound := hs.bound
  obtain ⟨fr, hat, hseq, hfind⟩ := hs.reads.getElem q (by omega) (by omega)
  refine ⟨fr, ?_, hseq⟩
  have hrepl : replayFrames k key f = .ok (h, f.frames) := by
    rw [replayFrames, scan_of_reads hs.reads, htorn]
    rfl
  rw [hs.epoch] at hfind
  rw [readReplicationFrames, if_neg (by omega), hrepl]
  simp only [hfind, hs.epoch]
  rw [if_neg (by omega), Nat.add_sub_cancel_left, List.take_one, List.head?_drop, hat]
  rfl

/-! ## Runs -/

/-- A tick with nothing to cut leaves the store as it is. -/
lemma trimTick_uncut (hdue : s.cutDue k = none) (faults : List Fault) :
    (trimTick k key s faults).state = s := by
  have hcleared : ∀ faults, ((match s.cutDue k with
      | none => pure ()
      | some applied => attempt (trimMetadataJournal k key applied) >>= fun _ => pure () :
        StoreProgram V Unit) s faults).state = s := by
    intro faults
    rw [hdue]
    rfl
  cases faults with
  | nil => exact hcleared []
  | cons fault faults =>
    cases fault with
    | clear => exact hcleared faults
    | error => rfl
    | stop => rfl

lemma Shipping.step (p : PrimaryStore V) (e : PrimaryEvent V)
    (hs : Shipping k key base epoch p.directory) (he : Uncut k p e) :
    Shipping k key base epoch (p.step k key rule e).directory := by
  cases e with
  | update c faults => exact holds_after (ensures_update_shipped c hs) (fun _ _ ht => ht.1) faults
  | batch queued faults =>
    exact holds_after (ensures_commitRounds_shipped _ queued hs) (fun _ _ ht => ht.1) faults
  | tick faults =>
    show Shipping k key base epoch (after (trimTick k key p.directory faults))
    unfold after
    rw [trimTick_uncut he faults]
    cases (trimTick k key p.directory faults).ended with
    | returned u => exact hs
    | failed err => exact hs
    | stopped => exact hs.stopped
  | caughtUp peer sequence => exact hs

namespace Sample

/-- Transactions as large as a frame may be. -/
def largeCodec : Codec ℕ := { codec with payloadLength := fun _ => maxPayloadSize }

/-- A Primary with one peer when its callback has been installed. -/
def primary : PrimaryStore ℕ where
  directory := (opened ++ [StoreEvent.setAfterDurable]).foldl (Metadata.step largeCodec .zero fun _ _ => true)
    schema.directory
  acked := [0]

def run (events : List (PrimaryEvent ℕ)) : PrimaryStore ℕ :=
  events.foldl (PrimaryStore.step largeCodec .zero fun _ _ => true) primary

def put (p : PrimaryStore ℕ) (name : String) : Finished (Directory ℕ) StoreError Unit :=
  update largeCodec .zero (fun _ _ => true) (putProject name 1) p.directory []

def twoUpdates : List (PrimaryEvent ℕ) :=
  [.update (putProject "first" 1) [], .update (putProject "second" 2) []]

end Sample

end Metadata

end Halro
