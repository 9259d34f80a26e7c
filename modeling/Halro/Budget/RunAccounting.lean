import Halro.Ledger.Contents
import Halro.Ledger.Spend
import Halro.Budget.Counters

/-!
# Runs and their budgets

What a Run has spent and what is admitted for it and not applied stays within its budget, apart from
what its settlements went over their reservations (`RunsAccounted`).  This module proves that the
steps that matter keep it so: an admission, the application of a record, the writing of the archive
queue.  `Safety.lean` puts the steps together.

A Run keeps its bound after it has left the accounting state.  `Shelved` Runs are those in the
archive queue or the archive: their figures are final, because nothing that names them is accepted
any more.
-/

namespace Halro

open Framework

namespace Budget

open Ledger Effect Manager

variable {D : Type}

/-! ## What an admission has checked -/

section Checks

variable {archive : List ArchivedWorkUnit} {s : State D} {a a' : Admission} {key : BalanceKey}
  {dailyBudget amount now : ℤ} {counted : Bool} {workUnitID runID : String}

lemma admitForRun_ok (h : admitForRun archive s a key dailyBudget amount counted workUnitID runID
      now = .ok a') :
    a' = a.admitted key amount counted runID ∧
      checkDaily s a key dailyBudget amount counted = .ok () ∧
      (runID ≠ "" → checkRun archive s a key.projectID amount counted workUnitID runID now =
        .ok ()) := by
  unfold admitForRun at h
  split at h
  · cases h
  · rename_i hdaily
    by_cases hrun : runID = ""
    · rw [if_pos hrun] at h
      exact ⟨(Except.ok.inj h).symm, hdaily, fun hne => absurd hrun hne⟩
    · rw [if_neg hrun] at h
      split at h
      · cases h
      · rename_i hcheck
        exact ⟨(Except.ok.inj h).symm, hdaily, fun _ => hcheck⟩

/-- A counted amount that passes the daily check fits the daily budget, if there is one. -/
lemma checkDaily_ok (h : checkDaily s a key dailyBudget amount true = .ok ())
    (hpos : 0 < dailyBudget) :
    (s.balance key).committedMicrosUSD + (s.balance key).reservedMicrosUSD +
      a.pending.getD key 0 + amount ≤ dailyBudget := by
  unfold checkDaily at h
  simp only at h
  split at h
  · cases h
  · rename_i total htotal
    have hsum := spendWith_eq_some htotal
    rw [if_pos rfl] at hsum
    split_ifs at h with hover
    omega

/-- What the check against a Run has established for a counted amount. -/
lemma checkRun_ok {projectID : String} (h : checkRun archive s a projectID amount true workUnitID
      runID now = .ok ()) :
    ∃ run, findRun archive s runID = some run ∧ run.projectID = projectID ∧
      run.committedMicrosUSD + run.reservedMicrosUSD + a.runPending.getD runID 0 + amount ≤
        run.budgetMicrosUSD ∧
      (0 < amount → run.committedMicrosUSD + run.reservedMicrosUSD + a.runPending.getD runID 0 +
        amount ≤ maxInt64) := by
  unfold checkRun at h
  split at h
  · cases h
  · rename_i run hfind
    obtain ⟨hterms, h⟩ := guard_eq_ok.mp h
    obtain ⟨-, h⟩ := guard_eq_ok.mp h
    rw [not_or, not_not] at hterms
    split at h
    · cases h
    · rename_i total htotal
      have hsum := spendWith_eq_some htotal
      rw [if_pos rfl] at hsum
      split_ifs at h with hover
      refine ⟨run, hfind, hterms.1, by omega, fun hpos => ?_⟩
      obtain ⟨t₁, -, hlast⟩ := Option.bind_eq_some_iff.mp htotal
      obtain ⟨t₂, -, hlast⟩ := Option.bind_eq_some_iff.mp hlast
      have hfits := (checkedAdd_eq_some hlast).2 hpos
      omega

end Checks

section Admits

variable {cat : Catalogue D} {m : Manager D} {x : Reading} {q : Request} {dailyBudget : ℤ}
  {spec : LeaseSpec} {a : Admission}

lemma Manager.Admits.amount_nonneg (h : Admits cat m x q dailyBudget spec a) :
    0 ≤ spec.reservationMicrosUSD := by
  have hcheck := h.request
  unfold checkReserve at hcheck
  split_ifs at hcheck with h₁ h₂
  omega

/-- A lease under a Run has a known price, so it is counted. -/
lemma Manager.Admits.counted (h : Admits cat m x q dailyBudget spec a) (hrun : q.runID ≠ "") :
    spec.counted = true := by
  have hcheck := h.lease
  by_contra hn
  have hmode : spec.mode = .unknownAllowed := by simpa [LeaseSpec.counted] using hn
  unfold checkLeaseSpec at hcheck
  rw [if_neg (by rw [hmode]; simp)] at hcheck
  split at hcheck
  · cases hcheck
  · obtain ⟨-, hcheck⟩ := guard_eq_ok.mp hcheck
    obtain ⟨-, hcheck⟩ := guard_eq_ok.mp hcheck
    split at hcheck
    · cases hcheck
    · rw [if_neg (by rw [hmode]; simp), if_pos hrun] at hcheck
      cases hcheck

end Admits

/-! ## The Runs a manager knows -/

/-- A Run was created, always on these terms. -/
structure Born (h : List Effect) (id projectID : String) (budget : ℤ) : Prop where
  created : ∃ x ∈ h, x.CreatesRun id
  terms : ∀ x ∈ h, x.CreatesRun id →
    x.event.projectID = projectID ∧ x.event.runBudgetMicrosUSD = budget

namespace Born

variable {h : List Effect} {id p p' : String} {b b' : ℤ} {x : Effect}

lemma cons (hb : Born h id p b) (hx : ¬ x.CreatesRun id) : Born (x :: h) id p b where
  created := by
    exact List.exists_mem_cons_of_exists hb.created
  terms y hy hcrs := by
    rcases List.mem_cons.mp hy with rfl | hy
    · exact absurd hcrs hx
    · exact hb.terms y hy hcrs

lemma unique (hb : Born h id p b) (hb' : Born h id p' b') : p = p' ∧ b = b' := by
  obtain ⟨x, hx, hcrs⟩ := hb.created
  have h₁ := hb.terms x hx hcrs
  have h₂ := hb'.terms x hx hcrs
  exact ⟨h₁.1.symm.trans h₂.1, h₁.2.symm.trans h₂.2⟩

end Born

/-- A Run that has left the accounting state. -/
def Shelved (archive : List ArchivedWorkUnit) (s : State D) (run : Run) : Prop :=
  (∃ unit item, s.indexes.queue.lookup unit = some item ∧ run ∈ item.runs) ∨
    ∃ item ∈ archive, run ∈ item.runs

/-- A Run in the accounting state, in the queue or in the archive. -/
def Known (archive : List ArchivedWorkUnit) (s : State D) (run : Run) : Prop :=
  s.runs.lookup run.id = some run ∨ Shelved archive s run

section Parts

variable {V : Type} {key : V → String} {parts : ArchivedWorkUnit → List V}
  {held : FinMap String V} {index : FinMap String String} {archive : List ArchivedWorkUnit}
  {id : String} {v : V}

/-- The lookup of what is archived as a part of a Work Unit. -/
def findPart (key : V → String) (parts : ArchivedWorkUnit → List V) (held : FinMap String V)
    (index : FinMap String String) (queue : FinMap String ArchivedWorkUnit)
    (archive : List ArchivedWorkUnit) (id : String) : Option V :=
  held.lookup id <|>
  ((index.lookup id).bind fun unit => (queue.lookup unit).bind fun item =>
    (parts item).find? fun v => key v = id) <|>
  archive.findSome? fun item => (parts item).find? fun v => key v = id

/-- What is found is at hand or a part of what is queued or archived. -/
lemma part_of_findPart {queue : FinMap String ArchivedWorkUnit}
    (hf : findPart key parts held index queue archive id = some v) :
    held.lookup id = some v ∨ key v = id ∧
      ((∃ unit item, queue.lookup unit = some item ∧ v ∈ parts item) ∨
        held.lookup id = none ∧ ∃ item ∈ archive, v ∈ parts item) := by
  simp only [findPart, Option.orElse_eq_orElse, Option.orElse_eq_or] at hf
  rcases Option.or_eq_some_iff.mp hf with hheld | ⟨hnone, hf⟩
  · exact Or.inl hheld
  rcases Option.or_eq_some_iff.mp hf with hque | ⟨-, harcd⟩
  · obtain ⟨unit, -, hf⟩ := Option.bind_eq_some_iff.mp hque
    obtain ⟨item, hitem, hf⟩ := Option.bind_eq_some_iff.mp hf
    exact Or.inr ⟨by simpa using List.find?_some hf,
      Or.inl ⟨unit, item, hitem, List.mem_of_find?_eq_some hf⟩⟩
  · obtain ⟨item, hitem, hf⟩ := List.exists_of_findSome?_eq_some harcd
    exact Or.inr ⟨by simpa using List.find?_some hf,
      Or.inr ⟨hnone, item, hitem, List.mem_of_find?_eq_some hf⟩⟩

end Parts

/-- A shelved Run, by the item it is in. -/
lemma shelved_iff {archive : List ArchivedWorkUnit} {s : State D} {run : Run} :
    Shelved archive s run ↔ ∃ item, OnShelf archive s.indexes item ∧ run ∈ item.runs := by
  simp only [Shelved, OnShelf, or_and_right, exists_or]
  rw [exists_comm]
  simp only [exists_and_right]

/-- What a lookup finds is known. -/
lemma known_of_findRun {archive : List ArchivedWorkUnit} {s : State D} {id : String} {run : Run}
    (hkeyed : ∀ id run, s.runs.lookup id = some run → run.id = id)
    (h : findRun archive s id = some run) : Known archive s run ∧ run.id = id := by
  rcases part_of_findPart h with hheld | ⟨hid, hque | ⟨-, harcd⟩⟩
  · have hid := hkeyed id run hheld
    exact ⟨Or.inl (by rw [hid, hheld]), hid⟩
  · exact ⟨Or.inr (Or.inl hque), hid⟩
  · exact ⟨Or.inr (Or.inr harcd), hid⟩

/-- A flush moves what is queued to the archive. -/
lemma Manager.rearranged_flush (m : Manager D) : Rearranged m.archive m.state.indexes
    m.flush.archive m.flush.state.indexes where
  archived i hi := List.mem_append_left _ hi
  shelved i hi := (List.mem_append.mp hi).elim Or.inr fun hi => Or.inl (FinMap.mem_values.mp hi)
  queued unit i hi := by
    simp only [Manager.flush, state] at hi
    rw [FinMap.lookup_eraseAll] at hi
    split_ifs at hi
    exact hi
  kept unit i hi := Or.inr (List.mem_append_right _ (FinMap.mem_values.mpr ⟨unit, hi⟩))

/-- What is true of a known Run: its figures are those of the history, and its load with what is
admitted for it and not applied stays within its budget. -/
structure RunSound (s : State D) (h : List Effect) (unapplied : ℤ) (run : Run) : Prop where
  named : run.id ≠ ""
  born : Born h run.id run.projectID run.budgetMicrosUSD
  spend : run.committedMicrosUSD + run.reservedMicrosUSD = runSpend run.id s h
  bounded : runLoad run.id s h + unapplied ≤ run.budgetMicrosUSD

/-- The Runs are accounted for. -/
structure RunsAccounted (m : Manager D) : Prop where
  settledBorn : ∀ x ∈ m.history, x.settled.isSome → x.event.runID ≠ "" →
    ∃ y ∈ m.history, y.CreatesRun x.event.runID
  holdsBorn : ∀ i c hold, m.calls.lookup i = some c → c.hold = some hold → hold.runID ≠ "" →
    ∃ budget, Born m.history hold.runID hold.key.projectID budget
  committed : ∀ id, 0 ≤ settledSum (onRun id committedOf) m.history
  fits : ∀ id, id ≠ "" →
    m.state.reservations.total (heldByRun id) + m.unapplied (forRun id) ≤ maxInt64
  known : ∀ run, Known m.archive m.state run →
    RunSound m.state m.history (m.unapplied (forRun run.id)) run
  apart : ∀ run, Shelved m.archive m.state run → m.state.runs.lookup run.id = none

namespace RunsAccounted

variable {m n : Manager D}

lemma new (archiving : Bool) : RunsAccounted (Manager.new D archiving) where
  settledBorn x hx := by simp [Manager.new, history] at hx
  holdsBorn i c hold hc := by simp [Manager.new] at hc
  committed id := le_refl 0
  fits id hne := by
    have hzero : (Manager.new D archiving).state.reservations.total (heldByRun id) +
        (Manager.new D archiving).unapplied (forRun id) = 0 := rfl
    rw [hzero]
    decide
  known run hk := by
    rcases hk with hk | ⟨unit, item, hitem, -⟩ | ⟨item, hitem, -⟩
    · simp [Manager.new, state, State.new] at hk
    · simp [Manager.new, state, State.new] at hitem
    · simp [Manager.new] at hitem
  apart run hs := by simp [Manager.new, state, State.new]

section

variable (h : RunsAccounted m)

include h

/-- With the same ledger and archive and no more held or unapplied, nothing is lost. -/
lemma quieter (hq : Quieter m n) : RunsAccounted n := by
  obtain ⟨digests, order, next, watermark, hstate⟩ := hq.maps
  have hhist := hq.history
  have hle : ∀ id, n.unapplied (forRun id) ≤ m.unapplied (forRun id) := by
    refine fun id => hq.unapplied fun hold hpos => ?_
    unfold forRun
    split_ifs <;> omega
  refine ⟨?_, fun i c hold hc hh hne => ?_, ?_, fun id hne => ?_, fun run hk => ?_, ?_⟩
  · rw [hhist]
    exact h.settledBorn
  · obtain ⟨j, d, hd, hdh⟩ := hq.holds i c hold hc hh
    rw [hhist]
    exact h.holdsBorn j d hold hd hdh hne
  · rw [hhist]
    exact h.committed
  · have hfits := h.fits id hne
    have := hle id
    rw [hstate]
    change m.state.reservations.total (heldByRun id) + n.unapplied (forRun id) ≤ maxInt64
    omega
  · rw [hstate, hq.archive] at hk
    have hr := h.known run hk
    have hbound := hr.bounded
    have := hle run.id
    rw [hstate, hhist]
    refine { hr with bounded := ?_ }
    change runLoad run.id m.state m.history + n.unapplied (forRun run.id) ≤ run.budgetMicrosUSD
    omega
  · rw [hstate, hq.archive]
    exact h.apart

/-- What is not applied of a Run is among what its project has pending for it. -/
lemma unapplied_le_pending (hc : Counters m) {id p : String} {budget : ℤ}
    (hne : id ≠ "") (hborn : Born m.history id p budget) :
    m.unapplied (forRun id) ≤ (m.admission p).runPending.getD id 0 := by
  rw [hc.runPending]
  refine FinMap.total_le_total fun entry he => ?_
  have hlook := Finmap.lookup_eq_some_iff.mpr he
  cases hh : entry.2.hold with
  | none => simp [Call.measure_none hh]
  | some hold =>
    have hamt := hc.amount _ _ hold hlook hh
    have hsame : forRun id hold = forRunIn p id hold ∧ 0 ≤ forRun id hold := by
      unfold forRun forRunIn
      by_cases hid : hold.runID = id
      · obtain ⟨b, hb⟩ := h.holdsBorn _ _ hold hlook hh (by rw [hid]; exact hne)
        rw [hid] at hb
        have hp := (hb.unique hborn).1
        rw [if_pos hid, if_pos ⟨hp, hid, hne⟩]
        exact ⟨rfl, hamt⟩
      · rw [if_neg hid, if_neg (by rintro ⟨-, hid', -⟩; exact hid hid')]
        exact ⟨rfl, le_refl 0⟩
    rw [Call.measure_some hh, Call.measure_some hh, ← hsame.1]
    split_ifs
    · exact hsame.2
    · exact le_refl _

/-- **An admission keeps the Runs accounted for.** -/
lemma admitting (hc : Counters m)
    (hkeyed : ∀ id run, m.state.runs.lookup id = some run → run.id = id) {id : ℕ} {c : Call}
    {key : BalanceKey} {amount now : ℤ} {workUnitID runID : String} {a : Admission}
    (hnone : m.calls.lookup id = none) (hamt : 0 ≤ amount)
    (hhold : c.hold = some ⟨key, amount, runID⟩) (hstage : c.stage.isApplied = false)
    (hcheck : runID ≠ "" → checkRun m.archive m.state (m.admission key.projectID) key.projectID
      amount true workUnitID runID now = .ok ()) :
    RunsAccounted ((m.setAdmission key.projectID a).enter id c) := by
  have hsum : ∀ run, ((m.setAdmission key.projectID a).enter id c).unapplied (forRun run) =
      forRun run ⟨key, amount, runID⟩ + m.unapplied (forRun run) := by
    intro run
    rw [unapplied_enter (by exact hnone) hstage, Call.measure_some hhold]
    rfl
  -- the Run the amount is admitted against, if any
  have hfound : runID ≠ "" → ∃ run, Known m.archive m.state run ∧ run.id = runID ∧
      run.projectID = key.projectID ∧
      run.committedMicrosUSD + run.reservedMicrosUSD + m.unapplied (forRun runID) + amount ≤
        run.budgetMicrosUSD ∧
      (0 < amount → run.committedMicrosUSD + run.reservedMicrosUSD + m.unapplied (forRun runID) +
        amount ≤ maxInt64) := by
    intro hne
    obtain ⟨run, hfind, hp, hbud, hfits⟩ := checkRun_ok (hcheck hne)
    obtain ⟨hknown, hid⟩ := known_of_findRun hkeyed hfind
    have hborn := (h.known run hknown).born
    rw [hid, hp] at hborn
    have hle := h.unapplied_le_pending hc hne hborn
    refine ⟨run, hknown, hid, hp, by omega, fun hpos => ?_⟩
    omega
  refine ⟨h.settledBorn, fun i d hold hd hh hne => ?_, h.committed, fun run hne => ?_,
    fun run hk => ?_, h.apart⟩
  · obtain ⟨-, rfl⟩ | ⟨-, hd⟩ := FinMap.lookup_insert_cases hd
    · rw [hhold] at hh
      obtain rfl := Option.some.inj hh
      obtain ⟨run, hknown, hid, hp, -⟩ := hfound hne
      have hborn := (h.known run hknown).born
      rw [hid, hp] at hborn
      exact ⟨_, hborn⟩
    · exact h.holdsBorn i d hold hd hh hne
  · have hold := h.fits run hne
    rw [hsum, forRun]
    change m.state.reservations.total (heldByRun run) + _ ≤ maxInt64
    split_ifs with hrun
    · change runID = run at hrun
      subst hrun
      by_cases hpos : 0 < amount
      · obtain ⟨found, hknown, hid, -, -, hfits⟩ := hfound hne
        have hspend := (h.known found hknown).spend
        rw [hid, runSpend] at hspend
        have := h.committed runID
        simp only
        omega
      · simp only
        omega
    · omega
  · have hr := h.known run hk
    refine { hr with bounded := ?_ }
    have hbound := hr.bounded
    rw [hsum, forRun]
    change runLoad run.id m.state m.history + _ ≤ _
    split_ifs with hrun
    · change runID = run.id at hrun
      obtain ⟨found, hknown, hid, -, hbud, -⟩ := hfound (by rw [hrun]; exact hr.named)
      have hf := h.known found hknown
      have hsame := hf.born
      rw [hid, hrun] at hsame
      have hb := (hsame.unique hr.born).2
      have hspend := hf.spend
      rw [hid, hrun, runSpend_eq] at hspend
      have hover := settledSum_nonneg (part_overrunOf_nonneg fun e => e.runID = run.id) m.history
      change 0 ≤ settledSum (onRun run.id overrunOf) m.history at hover
      rw [hrun] at hbud
      simp only
      omega
    · omega

/-- A shelf arranged otherwise keeps the Runs accounted for. -/
lemma shelve {archive : List ArchivedWorkUnit} {queue : FinMap String ArchivedWorkUnit}
    {queuedRuns queuedIdem : FinMap String String}
    (hr : Rearranged m.archive m.state.indexes archive
      (m.shelve archive queue queuedRuns queuedIdem).state.indexes) :
    RunsAccounted (m.shelve archive queue queuedRuns queuedIdem) := by
  have hshlv : ∀ run, Shelved archive (m.shelve archive queue queuedRuns queuedIdem).state run →
      Shelved m.archive m.state run := fun run => by
    simp only [shelved_iff, hr.onShelf_iff]
    exact id
  refine ⟨h.settledBorn, h.holdsBorn, h.committed, h.fits, fun run hk => ?_,
    fun run hs => h.apart run (hshlv run hs)⟩
  have hr := h.known run (hk.imp_right (hshlv run))
  exact { hr with }

end

section Played

variable {cat : Catalogue D} {r : Record} {gone : Finset String} {t : State D}

section

variable (h : RunsAccounted m)

include h

section

variable (hb : Books cat m.state m.history)

include hb

/-- A Run known after a fresh record is new or was known on the same terms. -/
lemma known_after (hc : Change m.state r gone t) {run : Run} (hk : Known m.archive t run) :
    (r.event.kind = .runCreated ∧ run = State.newRun r.event) ∨ ∃ old, Known m.archive m.state old ∧
        Continues run old (m.state.runDelta r.event run.id) := by
  have held : (m.state.runsAfter r.event).lookup run.id = some run →
      (r.event.kind = .runCreated ∧ run = State.newRun r.event) ∨
        ∃ old, Known m.archive m.state old ∧
          Continues run old (m.state.runDelta r.event run.id) := by
    intro hr
    rcases hc.run_cases hb hr with ⟨hkind, -, hnew⟩ | ⟨old, hold, hcont⟩
    · exact Or.inl ⟨hkind, hnew⟩
    · exact Or.inr ⟨old, Or.inl (by rw [← hcont.id]; exact hold), hcont⟩
  have shelved : Shelved m.archive m.state run → ∃ old, Known m.archive m.state old ∧
        Continues run old (m.state.runDelta r.event run.id) := by
    intro hs
    -- a fresh record that names a shelved Run adds nothing to it
    have hzero : m.state.runDelta r.event run.id = 0 := by
      by_cases hid : r.event.runID = run.id
      swap
      · simp [State.runDelta, hid]
      refine State.runDelta_eq_zero (fun hk => ?_) (fun hk => ?_) run.id
      all_goals
        obtain ⟨held, hheld, -⟩ := hc.attributed (by rw [hk]; rfl) (by rw [hk]; simp)
          (by rw [hid]; exact (h.known run (Or.inr hs)).named)
        rw [hid, h.apart run hs] at hheld
        cases hheld
    refine ⟨run, Or.inr hs, rfl, rfl, rfl, ?_⟩
    rw [hzero, add_zero]
  rcases hk with hheld | ⟨unit, item, hitem, hrun⟩ | ⟨item, hitem, hrun⟩
  · rw [hc.runs] at hheld
    exact held (Option.filter_eq_some_iff.mp hheld).1
  · rcases hc.queue unit item hitem with hque | hnew
    · exact Or.inr (shelved (Or.inl ⟨unit, item, hque, hrun⟩))
    · exact held (hnew run hrun).1
  · exact Or.inr (shelved (Or.inr ⟨item, hitem, hrun⟩))

/-- Nothing is reserved, settled or held for a Run that was never created. -/
lemma untouched {id : String} (hne : id ≠ "") (hrun : m.state.runs.lookup id = none)
    (hnone : ∀ x ∈ m.history, ¬ x.CreatesRun id) :
    runSpend id m.state m.history = 0 ∧ m.unapplied (forRun id) = 0 := by
  have hrsvd := hb.held_eq_zero hne hrun
  have hset : ∀ l : List Effect, l ⊆ m.history → settledSum (onRun id committedOf) l = 0 := by
    intro l
    induction l with
    | nil => exact fun _ => rfl
    | cons x l ih =>
      intro hsub
      obtain ⟨e, settled⟩ := x
      have hrest := ih fun y hy => hsub (List.mem_cons_of_mem _ hy)
      cases hs : settled with
      | none => rw [settledSum_cons_none, hrest]
      | some res =>
        rw [settledSum_cons_some, hrest, onRun, if_neg, add_zero]
        intro hid
        obtain ⟨y, hy, hcrs⟩ := h.settledBorn ⟨e, settled⟩ (hsub List.mem_cons_self)
          (by rw [hs]; rfl) (by change e.runID ≠ ""; rw [hid]; exact hne)
        rw [hid] at hcrs
        exact hnone y hy hcrs
  refine ⟨by rw [runSpend, hrsvd, hset _ (List.Subset.refl _), add_zero], ?_⟩
  refine FinMap.total_eq_zero fun i c hlook => ?_
  cases hh : c.hold with
  | none => simp [Call.measure_none hh]
  | some hold =>
    rw [Call.measure_some hh]
    have hother : forRun id hold = 0 := by
      rw [forRun, if_neg]
      intro hid
      obtain ⟨budget, hborn⟩ := h.holdsBorn i c hold hlook hh (by rw [hid]; exact hne)
      obtain ⟨x, hx, hcrs⟩ := hborn.created
      rw [hid] at hcrs
      exact hnone x hx hcrs
    rw [hother, ite_self]

/-- **A fresh record keeps the Runs accounted for**, once what it opens is no longer among what is
not applied. -/
lemma play (hc : Change m.state r gone t) (hv : r.event.validate cat = [])
    (hnew : r.event.kind = .runCreated → ∀ x ∈ m.history, ¬ x.CreatesRun r.event.runID)
    (hledger : n.ledger = (t, m.state.entry r.event :: m.history)) (harc : n.archive = m.archive)
    (hholds : ∀ i c hold, n.calls.lookup i = some c → c.hold = some hold →
      ∃ j d, m.calls.lookup j = some d ∧ d.hold = some hold)
    (hle : ∀ id, id ≠ "" →
      n.unapplied (forRun id) + opened (heldByRun id) r.event ≤ m.unapplied (forRun id)) :
    RunsAccounted n := by
  have hstate : n.state = t := by rw [state, hledger]
  have hhist : n.history = m.state.entry r.event :: m.history := by rw [history, hledger]
  -- a Run that was created is not the one the record creates
  have fresh : ∀ {id p b}, Born m.history id p b → ¬ (m.state.entry r.event).CreatesRun id := by
    rintro id p b hborn ⟨hkind, hid⟩
    obtain ⟨x, hx, hcrs⟩ := hborn.created
    rw [← hid] at hcrs
    exact hnew hkind x hx hcrs
  have hnn : ∀ id a res, m.state.reservations.lookup a = some res → 0 ≤ heldByRun id a res := by
    intro id a res hres
    have hs := hb.sound a res hres
    have := (Event.valid_of_validate hs.valid).reservationAmount_nonneg
    rw [heldByRun, hs.amount]
    split_ifs <;> omega
  refine ⟨fun x hx hset hne => ?_, fun i c hold hcall hh hne => ?_, fun id => ?_,
    fun id hne => ?_, fun run hk => ?_, fun run hs => ?_⟩
  · rw [hhist] at hx ⊢
    rcases List.mem_cons.mp hx with rfl | hx
    · have hkind : r.event.kind = .attemptSettled := by
        by_contra hk
        simp [State.entry, hk] at hset
      obtain ⟨run, hrun, -⟩ := hc.attributed (by rw [hkind]; rfl) (by rw [hkind]; simp) hne
      have hid := hb.runsHeld.id _ run hrun
      obtain ⟨y, hy, hcrs⟩ := (h.known run (Or.inl (by rw [hid]; exact hrun))).born.created
      rw [hid] at hcrs
      exact ⟨y, List.mem_cons_of_mem _ hy, hcrs⟩
    · exact List.exists_mem_cons_of_exists (h.settledBorn x hx hset hne)
  · obtain ⟨j, d, hd, hdh⟩ := hholds i c hold hcall hh
    obtain ⟨budget, hborn⟩ := h.holdsBorn j d hold hd hdh hne
    rw [hhist]
    exact ⟨budget, hborn.cons (fresh hborn)⟩
  · have hold := h.committed id
    rw [hhist]
    by_cases hk : r.event.kind = .attemptSettled
    · obtain ⟨res, hres, -⟩ := hc.settles hk
      have := (Event.valid_of_validate hv).committed_nonneg
      rw [settledSum_entry hk hres, onRun, committedOf]
      split_ifs <;> omega
    · rwa [settledSum_entry_of_ne hk]
  · have hfits := h.fits id hne
    have htotal := hc.total_le (f := heldByRun id) (fun _ _ => rfl) (hnn id)
    have := hle id hne
    rw [hstate]
    omega
  · rw [hstate, harc] at hk
    rw [hstate, hhist]
    rcases h.known_after hb hc hk with ⟨hkind, rfl⟩ | ⟨old, hknown, hcont⟩
    · obtain ⟨hne, hbud, -⟩ := Event.runCreated_fields hv hkind
      obtain ⟨hzero, hfree⟩ := h.untouched hb hne (hc.uncreated hkind) (hnew hkind)
      have hdelta := hc.runSpend (h := m.history) r.event.runID
      rw [hzero, State.runDelta_eq_zero (by rw [hkind]; simp) (by rw [hkind]; simp)] at hdelta
      have hload := runSpend_eq r.event.runID t (m.state.entry r.event :: m.history)
      have hover := settledSum_nonneg (part_overrunOf_nonneg fun e => e.runID = r.event.runID)
        (m.state.entry r.event :: m.history)
      change 0 ≤ settledSum (onRun r.event.runID overrunOf) _ at hover
      have hun := hle r.event.runID hne
      have hopen : opened (heldByRun r.event.runID) r.event = 0 := by
        rw [opened, if_neg (by rw [hkind]; simp)]
      refine ⟨hne, ⟨⟨_, List.mem_cons_self, hkind, rfl⟩, fun x hx hcrs => ?_⟩, ?_, ?_⟩
      · rcases List.mem_cons.mp hx with rfl | hx
        · exact ⟨rfl, rfl⟩
        · exact absurd hcrs (hnew hkind x hx)
      · change (0 : ℤ) + 0 = runSpend r.event.runID t _
        omega
      · change runLoad r.event.runID t _ + n.unapplied (forRun r.event.runID) ≤
          r.event.runBudgetMicrosUSD
        omega
    · have hr := h.known old hknown
      have hid := hcont.id
      have hload := runLoad_le hb hc run.id
      have hun := hle run.id (by rw [hid]; exact hr.named)
      have hbound := hr.bounded
      rw [← hid, ← hcont.budget] at hbound
      have hborn := hr.born
      rw [← hid, ← hcont.budget, ← hcont.projectID] at hborn
      refine ⟨by rw [hid]; exact hr.named, hborn.cons (fresh hborn), ?_, ?_⟩
      · rw [hc.runSpend, hcont.spend, hr.spend, hid]
      · omega
  · rw [hstate, harc] at hs
    rw [hstate, hc.runs]
    have old : Shelved m.archive m.state run → ((m.state.runsAfter r.event).lookup run.id).filter
          (fun run => run.workUnitID ∉ gone) = none := by
      intro hs
      cases hafter : (m.state.runsAfter r.event).lookup run.id with
      | none => rfl
      | some run' =>
        rcases hc.run_cases hb hafter with ⟨hkind, hid, -⟩ | ⟨held, hheld, -⟩
        · exact absurd ⟨hkind, hid.symm⟩ (fresh (h.known run (Or.inr hs)).born)
        · rw [h.apart run hs] at hheld
          cases hheld
    rcases hs with ⟨unit, item, hitem, hrun⟩ | harch
    · rcases hc.queue unit item hitem with hque | hgone
      · exact old (Or.inl ⟨unit, item, hque, hrun⟩)
      · obtain ⟨hafter, hunit⟩ := hgone run hrun
        rw [hafter, Option.filter_some_neg (by simpa using hunit)]
    · exact old (Or.inr harch)

end

end

end Played

end RunsAccounted

end Budget

end Halro
