import Halro.Pricing.Machine

/-!
# The pricing clock never goes back

`Advance` relates a store to a later one and the pins stored in between, for one deployment: the
pins are selected at instants that do not decrease, from the earlier mark on and up to the later
one, and a quarantined mark is kept.  It composes, so it is enough to have it for one callback, for
one transaction and for one operation; that a callback may run several times does not matter, since
only the transaction that commits moves the store.

A confirmation of the clock is the exception by design: an operator starts the mark anew at the
reading they confirm.
-/

namespace Halro

open Framework

namespace Pricing

variable {rules : PricingRules} {tx tx' : PricingStore} {d : String} {free : Prop}

/-! ## Marks -/

/-- The deployment's mark does not go back, and a quarantined one stays as it is while nothing is
confirmed (`free`). -/
def MarkKept (d : String) (free : Prop) (tx tx' : PricingStore) : Prop :=
  ∀ mark, tx.highWater.lookup d = some mark → ∃ mark', tx'.highWater.lookup d = some mark' ∧
    mark.latestSelectedAt ≤ mark'.latestSelectedAt ∧
    (free → mark.quarantine.isSome → mark' = mark)

lemma MarkKept.of_lookup (h : tx'.highWater.lookup d = tx.highWater.lookup d) :
    MarkKept d free tx tx' :=
  fun mark hmark => ⟨mark, h.trans hmark, le_refl _, fun _ _ => rfl⟩

/-- Another mark in place of one that is not in quarantine. -/
lemma MarkKept.of_insert {mark' : DeploymentPricingHighWater} {deploymentID : String}
    (hw : tx'.highWater = tx.highWater.insert deploymentID mark')
    (h : d = deploymentID → ∀ mark, tx.highWater.lookup d = some mark →
      mark.latestSelectedAt ≤ mark'.latestSelectedAt ∧ (free → mark.quarantine = none)) :
    MarkKept d free tx tx' := by
  by_cases hd : d = deploymentID
  · intro mark hmark
    obtain ⟨hle, hnone⟩ := h hd mark hmark
    refine ⟨mark', by rw [hw, FinMap.lookup_insert_ite, if_pos hd], hle, fun hfree hsome => ?_⟩
    rw [hnone hfree] at hsome
    cases hsome
  · exact .of_lookup (by rw [hw, FinMap.lookup_insert_ite, if_neg hd])

lemma MarkKept.of_quarantined {updates : List (String × DeploymentPricingHighWater)}
    (h : Quarantined tx tx' updates) : MarkKept d free tx tx' := by
  by_cases hd : d ∈ updates.map Prod.fst
  · obtain ⟨⟨_, mark'⟩, hmem, rfl⟩ := List.mem_map.mp hd
    intro mark hmark
    obtain ⟨hsame, hnone⟩ := h.mark _ hmem mark hmark
    refine ⟨mark', ?_, hsame.ge, fun _ hsome => ?_⟩
    · rw [h.store]
      exact FinMap.lookup_insertAll_of_mem h.nodup hmem
    · rw [hnone] at hsome
      cases hsome
  · refine .of_lookup ?_
    rw [h.store]
    exact FinMap.lookup_insertAll_of_notMem hd

lemma Update.markKept (h : PricingStore.Timelines rules tx) {u : Update}
    (hrun : u.run rules tx = .ok tx') (hclock : u.confirmsClock ≠ some d)
    (hfree : free → u.confirms ≠ some d) : MarkKept d free tx tx' := by
  rcases u.edits_or_same h hrun with hedits | ⟨hedits, -⟩
  · exact .of_lookup (by rw [hedits.highWater])
  cases u with
  | create | adopt | bootstrap | putDeployment | cancel => cases hedits
  | deletePin attemptID =>
    obtain ⟨pins, rfl⟩ := deletePin_pins hrun
    exact .of_lookup rfl
  | quarantineRestored backupCreatedAt restoredAt =>
    obtain ⟨updates, hmarks⟩ := quarantineRestored_marks hrun
    exact .of_quarantined hmarks
  | confirmRestored deploymentID =>
    obtain ⟨mark, mark', hmark, rfl, hlatest⟩ := confirmRestored_mark hrun
    refine .of_insert rfl fun hd found hfound => ?_
    rw [hd, hmark] at hfound
    cases hfound
    exact ⟨hlatest.ge, fun hf => absurd (congrArg some hd.symm) (hfree hf)⟩
  | recoverClock deploymentID expected now =>
    obtain ⟨mark', rfl⟩ := recoverClock_mark hrun
    exact .of_insert rfl fun hd => absurd (congrArg some hd.symm) hclock
  | recoverPins lease checkedThrough now =>
    obtain ⟨mid, updates, pins, hmarks, rfl⟩ := recoverPins_pins hrun
    have hkept : MarkKept d free tx mid := .of_quarantined hmarks
    exact hkept

/-! ## Pins between two stores -/

/-- The pins of a deployment stored between two stores. -/
structure Advance (d : String) (free : Prop) (tx tx' : PricingStore) (new : List StoredPin) :
    Prop where
  mark : MarkKept d free tx tx'
  ordered : (new.filter fun s => s.pin.deploymentID = d).Pairwise
    fun a b => a.pin.pricingSelectedAt ≤ b.pin.pricingSelectedAt
  above : ∀ mark, tx.highWater.lookup d = some mark → ∀ s ∈ new, s.pin.deploymentID = d →
    mark.latestSelectedAt ≤ s.pin.pricingSelectedAt
  below : ∀ s ∈ new, s.pin.deploymentID = d → ∃ mark, tx'.highWater.lookup d = some mark ∧
    s.pin.pricingSelectedAt ≤ mark.latestSelectedAt

lemma Advance.of_mark (h : MarkKept d free tx tx') : Advance d free tx tx' [] where
  mark := h
  ordered := List.Pairwise.nil
  above _ _ _ hs := by cases hs
  below _ hs := by cases hs

/-- What is stored later is selected at the mark the earlier pins left, or after it. -/
lemma Advance.trans {mid : PricingStore} {new later : List StoredPin}
    (h : Advance d free tx mid new) (h' : Advance d free mid tx' later) :
    Advance d free tx tx' (new ++ later) where
  mark mark hmark := by
    obtain ⟨mark₁, hmark₁, hle₁, hkept₁⟩ := h.mark mark hmark
    obtain ⟨mark₂, hmark₂, hle₂, hkept₂⟩ := h'.mark mark₁ hmark₁
    refine ⟨mark₂, hmark₂, hle₁.trans hle₂, fun hfree hsome => ?_⟩
    have hsame := hkept₁ hfree hsome
    rw [hkept₂ hfree (hsame ▸ hsome), hsame]
  ordered := by
    rw [List.filter_append]
    refine List.pairwise_append.mpr ⟨h.ordered, h'.ordered, fun a ha b hb => ?_⟩
    obtain ⟨ha, had⟩ := List.mem_filter.mp ha
    obtain ⟨hb, hbd⟩ := List.mem_filter.mp hb
    obtain ⟨mark, hmark, hle⟩ := h.below a ha (by simpa using had)
    exact hle.trans (h'.above mark hmark b hb (by simpa using hbd))
  above mark hmark s hs hd := by
    rcases List.mem_append.mp hs with hs | hs
    · exact h.above mark hmark s hs hd
    · obtain ⟨mark₁, hmark₁, hle, -⟩ := h.mark mark hmark
      exact hle.trans (h'.above mark₁ hmark₁ s hs hd)
  below s hs hd := by
    rcases List.mem_append.mp hs with hs | hs
    · obtain ⟨mark, hmark, hle⟩ := h.below s hs hd
      obtain ⟨mark₁, hmark₁, hle₁, -⟩ := h'.mark mark hmark
      exact ⟨mark₁, hmark₁, hle.trans hle₁⟩
    · exact h'.below s hs hd

/-- The pin was priced at the version in force at its instant. -/
def InForce (s : StoredPin) : Prop :=
  ∃ price, selectAuditedPriceVersion s.timeline { instant := s.pin.pricingSelectedAt } = .ok price ∧
    s.pin.priceVersionID = price.id ∧ s.pin.priceVersion = price.version

lemma Prepared.advance {r : PinRequest} {pinned : List StoredPin}
    (h : Prepared rules tx r tx' pinned) : Advance d free tx tx' pinned := by
  cases h with
  | unchanged => exact .of_mark (.of_lookup rfl)
  | quarantined mark reason hmark hnone =>
    refine .of_mark (.of_insert rfl fun hd found hfound => ?_)
    rw [hd, hmark] at hfound
    cases hfound
    exact ⟨le_refl _, fun _ => hnone⟩
  | stored pin price hdep hatt hprice hver hvalid henc hnew hmark =>
    have hlatest : (PricingStore.movedMark (tx.highWater.lookup pin.deploymentID) pin.deploymentID
        price pin.pricingSelectedAt).latestSelectedAt = pin.pricingSelectedAt := by
      cases tx.highWater.lookup pin.deploymentID <;> rfl
    refine ⟨.of_insert rfl fun hd found hfound => ?_, ?_, fun mark hfound s hs hd => ?_,
      fun s hs hd => ?_⟩
    · obtain ⟨hnone, hle⟩ := hmark found (by rw [← hdep, ← hd]; exact hfound)
      exact ⟨hle.trans hlatest.ge, fun _ => hnone⟩
    · exact List.Pairwise.filter _ (List.pairwise_singleton _ _)
    · cases List.mem_singleton.mp hs
      exact (hmark mark (by rw [← hdep, hd]; exact hfound)).2
    · cases List.mem_singleton.mp hs
      exact ⟨_, by rw [FinMap.lookup_insert_ite, if_pos hd.symm], hlatest.ge⟩

/-- A pin that was stored has an instant the audited selection accepts. -/
lemma Prepared.inForce {r : PinRequest} {pinned : List StoredPin} (h : Prepared rules tx r tx' pinned)
    (hsound : PricingStore.Timelines rules tx) : ∀ s ∈ pinned, InForce s := by
  intro s hs
  cases h with
  | unchanged => cases hs
  | quarantined => cases hs
  | stored pin price hdep hatt hprice hver hvalid henc hnew hmark =>
    cases List.mem_singleton.mp hs
    have hset : ({ instant := pin.pricingSelectedAt } : ZonedTime).isZero = false := by
      simp only [PricePinIntent.valid, Bool.and_eq_true, decide_eq_true_eq] at hvalid
      exact decide_eq_false hvalid.1.1.1.2
    have hrep : ({ instant := pin.pricingSelectedAt } : ZonedTime).representable = true := by
      simp only [PricePinIntent.encodable, encodableTime, Bool.and_eq_true, decide_eq_true_eq]
        at henc
      simp only [ZonedTime.representable, isInt64, Bool.and_eq_true, decide_eq_true_eq]
      unfold nanosPerSecond minInt64 maxInt64 at *
      omega
    refine ⟨price, ?_, hver⟩
    rw [← hsound.select_eq_audited r.deploymentID hrep hset rfl]
    exact hprice

lemma BatchCall.advance {c : BatchCall} {anchors : FinMap String PricingClockObservation} {now : ℤ}
    {result : CallbackResult} (h : c.run rules anchors now tx = some result)
    (hsound : PricingStore.Timelines rules tx) :
    (∀ d free, Advance d free tx result.tx result.pinned) ∧ ∀ s ∈ result.pinned, InForce s := by
  cases c with
  | prepare r =>
    exact ⟨fun d free => (prepared_of_run h).advance, (prepared_of_run h).inForce hsound⟩
  | commitPin attemptID snapshotSHA256 ledgerSequence committedAt =>
    unfold BatchCall.run at h
    dsimp only at h
    split at h
    · cases h
    · rename_i outcome tx' hcmt
      cases h
      obtain ⟨pins, rfl⟩ := commitPin_pins hcmt
      exact ⟨fun d free => .of_mark (.of_lookup rfl), fun s hs => (by cases hs)⟩
  | other =>
    cases h
    exact ⟨fun d free => .of_mark (.of_lookup rfl), fun s hs => (by cases hs)⟩

/-! ## Runs -/

/-- What the transaction under way has done so far, and what the stored pins are priced at. -/
structure Machine.Clocked (m : Machine) : Prop where
  stored : ∀ s ∈ m.stored, InForce s
  pinned : ∀ b, m.running = some b → ∀ s ∈ b.result.pinned, InForce s
  running : ∀ b, m.running = some b → ∀ d free, Advance d free m.store b.result.tx b.result.pinned

/-- The action confirms nothing of the deployment's clock and, while `free`, no quarantine of it. -/
def Action.Leaves (d : String) (free : Prop) : Action → Prop
  | .update u _ => u.confirmsClock ≠ some d ∧ (free → u.confirms ≠ some d)
  | _ => True

lemma Machine.Clocked.step {m : Machine} (h : m.Clocked) (hsound : m.Sound rules) (a : Action) :
    (m.step rules a).Clocked ∧ ∀ d free, a.Leaves d free → ∃ new,
      (m.step rules a).stored = m.stored ++ new ∧
        Advance d free m.store (m.step rules a).store new := by
  have hsame : ∀ {m' : Machine}, m'.store = m.store → m'.stored = m.stored → ∀ d free, ∃ new,
      m'.stored = m.stored ++ new ∧ Advance d free m.store m'.store new :=
    fun hstore hstor d free => ⟨[], by rw [hstor, List.append_nil], .of_mark
      (.of_lookup (by rw [hstore]))⟩
  cases step_effect rules m a with
  | same a hstore hstor hruns =>
    refine ⟨⟨hstor ▸ h.stored, fun b hb => ?_, fun b hb => ?_⟩,
      fun d free _ => hsame hstore hstor d free⟩
    all_goals
      rcases hruns with hkept | hnone
      · rw [hkept] at hb
        first | exact h.pinned b hb | exact hstore ▸ h.running b hb
      · rw [hnone] at hb
        cases hb
  | update u ending hidle hrun hstor hruns =>
    refine ⟨⟨hstor ▸ h.stored, fun b hb => ?_, fun b hb => ?_⟩, fun d free hleaves => ?_⟩
    · rw [hruns] at hb
      cases hb
    · rw [hruns] at hb
      cases hb
    · exact ⟨[], by rw [hstor, List.append_nil],
        .of_mark (u.markKept hsound.store hrun hleaves.1 hleaves.2)⟩
  | call now fault c b r hnext hrun hstore hstor hruns =>
    -- what the callbacks before this one left in the transaction
    have hbef : PricingStore.Timelines rules b.result.tx ∧ (∀ s ∈ b.result.pinned, InForce s) ∧
        ∀ d free, Advance d free m.store b.result.tx b.result.pinned := by
      obtain ⟨b', hb', hrslt⟩ | ⟨-, hrslt⟩ := next_cases hnext
      · rw [← hrslt]
        exact ⟨hsound.running b' hb', h.pinned b' hb', h.running b' hb'⟩
      · rw [hrslt]
        exact ⟨hsound.store, fun s hs => (by cases hs), fun d free => .of_mark (.of_lookup rfl)⟩
    obtain ⟨htls, hpinned, hadv⟩ := hbef
    refine ⟨⟨hstor ▸ h.stored, fun b' hb' => ?_, fun b' hb' d free => ?_⟩,
      fun d free _ => hsame hstore hstor d free⟩
    · rw [hruns] at hb'
      cases hb'
      intro s hs
      rcases List.mem_append.mp hs with hs | hs
      · exact hpinned s hs
      · exact (c.advance hrun htls).2 s hs
    · rw [hruns] at hb'
      cases hb'
      rw [hstore]
      exact (hadv d free).trans ((c.advance hrun htls).1 d free)
  | finish ending b hwas hstore hstor hruns =>
    refine ⟨⟨fun s hs => ?_, fun b' hb' => ?_, fun b' hb' => ?_⟩, fun d free _ =>
      ⟨b.result.pinned, hstor, hstore ▸ h.running b hwas d free⟩⟩
    · rw [hstor] at hs
      exact (List.mem_append.mp hs).elim (h.stored s) (h.pinned b hwas s)
    · rw [hruns] at hb'
      cases hb'
    · rw [hruns] at hb'
      cases hb'

lemma Machine.Clocked.run {m : Machine} (h : m.Clocked) (hsound : m.Sound rules)
    (actions : List Action) : (m.run rules actions).Clocked ∧ ∀ d free,
      (∀ a ∈ actions, a.Leaves d free) → ∃ new, (m.run rules actions).stored = m.stored ++ new ∧
        Advance d free m.store (m.run rules actions).store new := by
  induction actions generalizing m with
  | nil => exact ⟨h, fun d free _ => ⟨[], (List.append_nil _).symm, .of_mark (.of_lookup rfl)⟩⟩
  | cons a rest ih =>
    obtain ⟨hstep, hone⟩ := h.step hsound a
    obtain ⟨hrun, hrest⟩ := ih hstep (hsound.step a)
    refine ⟨hrun, fun d free hall => ?_⟩
    obtain ⟨hfirst, hothers⟩ := List.forall_mem_cons.mp hall
    obtain ⟨new, hnew, hadv⟩ := hone d free hfirst
    obtain ⟨later, hlater, hadv'⟩ := hrest d free hothers
    exact ⟨new ++ later, by rw [Machine.run, List.foldl_cons, ← Machine.run, hlater, hnew,
      List.append_assoc], hadv.trans hadv'⟩

lemma clocked_of_run (rules : PricingRules) (actions : List Action) :
    (Machine.run rules {} actions).Clocked := by
  have hempty : Machine.Clocked {} :=
    ⟨fun s hs => (by cases hs), fun b hb => (by cases hb), fun b hb => (by cases hb)⟩
  exact (hempty.run (sound_of_run rules []) actions).1

/-- From every reachable state on, over any calls, batches, re-runs, failures, restarts and
operations that do not confirm the clock of a deployment: its pins stored on the way are selected at
instants that do not decrease in the order they were stored and none lies before the mark there was;
the mark does not go back and is not behind any of them; a quarantine stays, mark and all, unless an
operator confirms it; and every pin ever stored names the version in force at its instant. -/
theorem pricing_clock_never_goes_back (rules : PricingRules) (before after : List Action)
    (d : String) (hclock : ∀ u ending, Action.update u ending ∈ after → u.confirmsClock ≠ some d) :
    let m := Machine.run rules {} before
    let n := m.run rules after
    (∃ new, n.stored = m.stored ++ new ∧ (new.filter fun s => s.pin.deploymentID = d).Pairwise
        (fun a b => a.pin.pricingSelectedAt ≤ b.pin.pricingSelectedAt) ∧
      ∀ s ∈ new, s.pin.deploymentID = d → (∀ mark, m.store.highWater.lookup d = some mark →
          mark.latestSelectedAt ≤ s.pin.pricingSelectedAt) ∧
        ∃ mark, n.store.highWater.lookup d = some mark ∧
          s.pin.pricingSelectedAt ≤ mark.latestSelectedAt) ∧
    (∀ mark, m.store.highWater.lookup d = some mark → ∃ mark',
      n.store.highWater.lookup d = some mark' ∧ mark.latestSelectedAt ≤ mark'.latestSelectedAt ∧
      ((∀ u ending, Action.update u ending ∈ after → u.confirms ≠ some d) →
        mark.quarantine.isSome → mark' = mark)) ∧
    ∀ s ∈ n.stored, ∃ price, selectAuditedPriceVersion s.timeline
        { instant := s.pin.pricingSelectedAt } = .ok price ∧
      s.pin.priceVersionID = price.id ∧ s.pin.priceVersion = price.version := by
  obtain ⟨hclocked, hadv⟩ := (clocked_of_run rules before).run (sound_of_run rules before) after
  obtain ⟨new, hnew, h⟩ := hadv d
    (∀ u ending, Action.update u ending ∈ after → u.confirms ≠ some d) fun a ha => by
      cases a with
      | update u ending => exact ⟨hclock u ending ha, fun hfree => hfree u ending ha⟩
      | enqueue | call | finish | merge | restart => trivial
  exact ⟨⟨new, hnew, h.ordered, fun s hs hd => ⟨fun mark hmark => h.above mark hmark s hs hd,
    h.below s hs hd⟩⟩, h.mark, hclocked.stored⟩

/-- A batch of one call that commits. -/
def Sample.pinned (attemptID : String) (second : ℤ) : List Action :=
  [.enqueue [.prepare { deploymentID := "dep", attemptID := attemptID
                        selectedAt := second * nanosPerSecond, observedAt := nanosPerSecond
                        rollbackTolerance := 3 * nanosPerSecond, forwardTolerance := nanosPerSecond }],
    .call nanosPerSecond false, .finish .committed]

/-- The wall clock goes back by two seconds between two calls. -/
theorem pricing_clock_never_goes_back_two_calls :
    let m := Machine.run Sample.rules {} (Sample.priced (Sample.priceFrom "price_1"
      nanosPerSecond 1) ++ Sample.pinned "att_1" 5)
    let n := m.run Sample.rules (Sample.pinned "att_2" 3)
    n.stored.map (fun s => s.pin.pricingSelectedAt) = [5 * nanosPerSecond, 5 * nanosPerSecond] ∧
      ∀ mark, m.store.highWater.lookup "dep" = some mark → ∃ mark',
        n.store.highWater.lookup "dep" = some mark' ∧
          mark.latestSelectedAt ≤ mark'.latestSelectedAt := by
  refine ⟨by decide +kernel, fun mark hmark => ?_⟩
  obtain ⟨mark', hmark', hle, -⟩ := (pricing_clock_never_goes_back Sample.rules
    (Sample.priced (Sample.priceFrom "price_1" nanosPerSecond 1) ++ Sample.pinned "att_1" 5)
    (Sample.pinned "att_2" 3) "dep" fun u ending hu => by simp [Sample.pinned] at hu).2.1 mark hmark
  exact ⟨mark', hmark', hle⟩

end Pricing

end Halro
