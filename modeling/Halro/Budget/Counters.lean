import Halro.Ledger.Change
import Halro.Budget.Machine

/-!
# The admission counters

A project counts what it has admitted and the ledger may not show yet: `pending` for each balance,
`runPending` and `runAdmissions` for each Run.  Every call that admitted something carries it until
it returns, on every way out.  So at any moment each counter is the sum over the calls under way,
and when no call is under way each counter is zero.
-/

namespace Halro

open Framework Framework.FinMap

namespace Budget

open Ledger

/-! ## Sums over the calls under way -/

/-- A measure of what a call holds. -/
def Call.measure (f : Hold → ℤ) (c : Call) : ℤ := (c.hold.map f).getD 0

variable {f : Hold → ℤ}

lemma Call.measure_none {c : Call} (h : c.hold = none) : c.measure f = 0 := by
  simp [measure, h]

lemma Call.measure_some {c : Call} {hold : Hold} (h : c.hold = some hold) :
    c.measure f = f hold := by
  simp [measure, h]

/-- What a hold counts against a balance. -/
def forKey (key : BalanceKey) (hold : Hold) : ℤ := if hold.key = key then hold.amount else 0

/-- What a hold counts against a Run. -/
def forRun (id : String) (hold : Hold) : ℤ := if hold.runID = id then hold.amount else 0

/-- What a hold counts against a Run in the counters of a project. -/
def forRunIn (projectID id : String) (hold : Hold) : ℤ :=
  if hold.key.projectID = projectID ∧ hold.runID = id ∧ id ≠ "" then hold.amount else 0

/-- A hold as one admission of a Run in the counters of a project. -/
def oneIn (projectID id : String) (hold : Hold) : ℤ :=
  if hold.key.projectID = projectID ∧ hold.runID = id ∧ id ≠ "" then 1 else 0

namespace Manager

variable {D : Type} {m : Manager D} {f : Hold → ℤ} {id : ℕ} {c d : Call}

/-- A call that goes on holds what it held. -/
lemma holds_of_insert {calls : FinMap ℕ Call} (hc : calls.lookup id = some c) {j : ℕ} {b : Call}
    {hold : Hold} (hb : (calls.insert id d).lookup j = some b) (hhold : d.hold = c.hold)
    (hh : b.hold = some hold) :
    ∃ j b, calls.lookup j = some b ∧ b.hold = some hold := by
  obtain ⟨-, rfl⟩ | ⟨-, hb⟩ := lookup_insert_cases hb
  · exact ⟨id, c, hc, by rw [← hhold]; exact hh⟩
  · exact ⟨j, b, hb, hh⟩

/-- A call that starts with nothing held leaves the holds as they are. -/
lemma holds_of_begin {calls : FinMap ℕ Call} (hhold : c.hold = none) {j : ℕ} {b : Call}
    {hold : Hold} (hb : (calls.insert id c).lookup j = some b) (hh : b.hold = some hold) :
    ∃ j b, calls.lookup j = some b ∧ b.hold = some hold := by
  obtain ⟨-, rfl⟩ | ⟨-, hb⟩ := lookup_insert_cases hb
  · rw [hhold] at hh
    cases hh
  · exact ⟨j, b, hb, hh⟩

/-- The sum over the calls under way. -/
def admitted (f : Hold → ℤ) (m : Manager D) : ℤ := m.calls.total fun _ c => c.measure f

/-- The sum over the calls whose record is not in the accounting state. -/
def unapplied (f : Hold → ℤ) (m : Manager D) : ℤ :=
  m.calls.total fun _ c => if c.stage.isApplied then 0 else c.measure f

/-- A call that starts adds what it holds. -/
lemma admitted_enter (hnone : m.calls.lookup id = none) :
    (m.enter id c).admitted f = c.measure f + m.admitted f := by
  exact total_insert_of_notMem _ c hnone

section

variable (hc : m.calls.lookup id = some c)

include hc

/-- A call that moves on holds what it held. -/
lemma admitted_move (hd : d.hold = c.hold) : (m.enter id d).admitted f = m.admitted f := by
  have hsame : d.measure f = c.measure f := by rw [Call.measure, Call.measure, hd]
  unfold admitted enter
  rw [total_insert, hc, hsame]
  simp

lemma admitted_erase :
    total (fun _ c => c.measure f) (m.calls.erase id) = m.admitted f - c.measure f := by
  rw [total_erase, hc]
  rfl

omit hc in
lemma unapplied_enter (hnone : m.calls.lookup id = none) (hs : c.stage.isApplied = false) :
    (m.enter id c).unapplied f = c.measure f + m.unapplied f := by
  unfold unapplied enter
  rw [FinMap.total_insert_of_notMem _ c hnone, hs]
  rfl

/-- A call whose record is applied takes what it holds out of the sum. -/
lemma unapplied_applied (hs : c.stage.isApplied = false) :
    (m.move id c .applied).unapplied f = m.unapplied f - c.measure f := by
  unfold unapplied move enter
  have happl : Stage.isApplied .applied = true := rfl
  rw [total_insert, hc, happl]
  simp [hs]

end

lemma admission_setAdmission (m : Manager D) (p q : String) (a : Admission) :
    (m.setAdmission p a).admission q = if q = p then a else m.admission q := by
  unfold admission setAdmission
  rw [getD_insert]

end Manager

/-! ## Steps that leave the ledger alone -/

/-- A step that leaves the maps of the ledger and the archive alone, after which no more is held or
not applied than before. -/
structure Quieter {D : Type} (m n : Manager D) : Prop where
  maps : SameMaps m.state n.state
  history : n.history = m.history
  archive : n.archive = m.archive
  holds : ∀ i c hold, n.calls.lookup i = some c → c.hold = some hold →
    ∃ j d, m.calls.lookup j = some d ∧ d.hold = some hold
  unapplied : ∀ {f : Hold → ℤ}, (∀ hold : Hold, 0 ≤ hold.amount → 0 ≤ f hold) →
    n.unapplied f ≤ m.unapplied f

namespace Quieter

open Manager

variable {D : Type} {m n : Manager D} {id : ℕ} {c d : Call}

/-- A call that starts with nothing held. -/
lemma begin (hnone : m.calls.lookup id = none) (hhold : c.hold = none)
    (hstage : c.stage.isApplied = false) {projects : FinMap String Admission} :
    Quieter m { m with projects := projects, calls := m.calls.insert id c } where
  maps := .refl _
  history := rfl
  archive := rfl
  holds _ _ _ he hh := holds_of_begin hhold he hh
  unapplied {f} _ := by
    have hsum := unapplied_enter (f := f) hnone hstage
    rw [Call.measure_none hhold, zero_add] at hsum
    exact le_of_eq hsum

/-- A call that moves on without its record being applied. -/
lemma move (hc : m.calls.lookup id = some c) (hhold : d.hold = c.hold)
    (hstage : d.stage.isApplied = c.stage.isApplied) {log : List Record} {available : Bool}
    {applyErr : Option ApplyError} :
    Quieter m { m with
      calls := m.calls.insert id d, log := log, available := available, applyErr := applyErr } where
  maps := .refl _
  history := rfl
  archive := rfl
  holds _ _ _ he hh := holds_of_insert hc he hhold hh
  unapplied {f} _ := by
    have hsame : d.measure f = c.measure f := by rw [Call.measure, Call.measure, hhold]
    unfold Manager.unapplied
    rw [total_insert, hc, hsame, hstage]
    simp

/-- A nonnegative measure of what a call holds. -/
lemma measure_nonneg (hf : ∀ hold : Hold, 0 ≤ hold.amount → 0 ≤ f hold)
    (hamt : ∀ hold, c.hold = some hold → 0 ≤ hold.amount) : 0 ≤ c.measure f := by
  cases hh : c.hold with
  | none => rw [Call.measure_none hh]
  | some hold =>
    rw [Call.measure_some hh]
    exact hf hold (hamt hold hh)

/-- A call whose record is applied without effect. -/
lemma applied (hc : m.calls.lookup id = some c) (hstage : c.stage.isApplied = false)
    (hamt : ∀ hold, c.hold = some hold → 0 ≤ hold.amount) {ledger : State D × List Effect}
    (hmaps : SameMaps m.state ledger.1) (hhist : ledger.2 = m.history) :
    Quieter m { m.move id c .applied with ledger := ledger } where
  maps := hmaps
  history := hhist
  archive := rfl
  holds _ _ _ he hh := holds_of_insert hc he rfl hh
  unapplied {f} hf := by
    have hsum := unapplied_applied (f := f) hc hstage
    have := measure_nonneg hf hamt
    change Manager.unapplied f (m.move id c .applied) ≤ _
    omega

/-- A call that returns. -/
lemma erase (hc : m.calls.lookup id = some c) (hamt : ∀ hold, c.hold = some hold →
    0 ≤ hold.amount) {projects : FinMap String Admission} :
    Quieter m { m with projects := projects, calls := m.calls.erase id } where
  maps := .refl _
  history := rfl
  archive := rfl
  holds i e hold he hh := ⟨i, e, (lookup_erase_cases he).2, hh⟩
  unapplied {f} hf := by
    have hmeas := measure_nonneg hf hamt
    rw [Manager.unapplied, total_erase, hc]
    refine sub_le_self _ ?_
    change 0 ≤ if c.stage.isApplied then 0 else c.measure f
    split_ifs
    · exact le_refl 0
    · exact hmeas

end Quieter

/-! ## Raising and lowering a counter -/

section Raise

variable (a : Admission) (key : BalanceKey) (amount : ℤ) (runID : String)

lemma getD_pending_admitted (k : BalanceKey) : (a.admitted key amount true runID).pending.getD k 0 =
    a.pending.getD k 0 + if k = key then amount else 0 := by
  simp only [Admission.admitted, if_true, getD_insert]
  split_ifs with hk
  · rw [hk]
  · rw [add_zero]

lemma getD_run_admitted (run : String) : (a.admitted key amount true runID).runPending.getD run 0 =
        a.runPending.getD run 0 + (if run = runID ∧ run ≠ "" then amount else 0) ∧
      (a.admitted key amount true runID).runAdmissions.getD run 0 =
        a.runAdmissions.getD run 0 + if run = runID ∧ run ≠ "" then 1 else 0 := by
  simp only [Admission.admitted, true_and]
  split_ifs <;> simp_all [getD_insert]

lemma getD_lower {K : Type} [DecidableEq K] (m : FinMap K ℤ) (k j : K) :
    (lower m k amount).getD j 0 = if j = k then max 0 (m.getD k 0 - amount) else m.getD j 0 := by
  unfold lower
  by_cases hpos : 0 < m.getD k 0 - amount
  · rw [if_pos hpos, getD_insert]
    split_ifs
    · omega
    · rfl
  · rw [if_neg hpos, getD_erase]
    split_ifs
    · omega
    · rfl

lemma getD_run_released (run : String) :
    (releaseAdmittedForRun a key amount runID).runPending.getD run 0 =
        (if run = runID ∧ run ≠ "" then max 0 (a.runPending.getD run 0 - amount)
        else a.runPending.getD run 0) ∧
      (releaseAdmittedForRun a key amount runID).runAdmissions.getD run 0 =
        if run = runID ∧ run ≠ "" then a.runAdmissions.getD run 0 - 1
        else a.runAdmissions.getD run 0 := by
  simp only [releaseAdmittedForRun]
  split_ifs <;> simp_all [getD_lower, getD_insert, getD_erase]

end Raise

/-! ## The counters are the sums -/

open Manager

/-- Each counter of each project is the sum over the calls under way. -/
structure Counters {D : Type} (m : Manager D) : Prop where
  amount : ∀ i c hold, m.calls.lookup i = some c → c.hold = some hold → 0 ≤ hold.amount
  pending : ∀ p key, (m.admission p).pending.getD key 0 =
    if key.projectID = p then m.admitted (forKey key) else 0
  runPending : ∀ p id, (m.admission p).runPending.getD id 0 = m.admitted (forRunIn p id)
  runAdmissions : ∀ p id, ((m.admission p).runAdmissions.getD id 0 : ℤ) = m.admitted (oneIn p id)

namespace Counters

variable {D : Type} {m : Manager D} {id : ℕ} {c d : Call}

lemma new (archiving : Bool) : Counters (Manager.new D archiving) where
  amount i c hold hc := by simp [Manager.new] at hc
  pending p key := by simp [Manager.new, admission, admitted]
  runPending p id := by simp [Manager.new, admission, admitted]
  runAdmissions p id := by simp [Manager.new, admission, admitted]

section

variable (h : Counters m)

include h

/-- The counters read nothing but what is held and the admission states, and of those not the Runs
that are closing. -/
lemma transfer {n : Manager D}
    (hholds : ∀ i c hold, n.calls.lookup i = some c → c.hold = some hold →
      ∃ j d, m.calls.lookup j = some d ∧ d.hold = some hold)
    (hadm : ∀ p, ∃ runs, n.admission p = { m.admission p with closingRuns := runs })
    (hsum : ∀ f, n.admitted f = m.admitted f) : Counters n := by
  refine ⟨fun i c hold hc hh => ?_, fun p key => ?_, fun p id => ?_, fun p id => ?_⟩
  · obtain ⟨j, d, hd, hhold⟩ := hholds i c hold hc hh
    exact h.amount j d hold hd hhold
  all_goals
    obtain ⟨runs, hp⟩ := hadm p
    rw [hp, hsum]
  · exact h.pending p key
  · exact h.runPending p id
  · exact h.runAdmissions p id

/-- A call that moves on keeps the counters. -/
lemma move (hc : m.calls.lookup id = some c) (hd : d.hold = c.hold) :
    Counters (m.enter id d) :=
  h.transfer (fun _ _ _ he hh => holds_of_insert hc he hd hh) (fun _ => ⟨_, rfl⟩)
    fun _ => admitted_move hc hd

/-- A call that starts with nothing held keeps the counters. -/
lemma begin (hnone : m.calls.lookup id = none) (hc : c.hold = none) :
    Counters (m.enter id c) :=
  h.transfer (fun _ _ _ he hh => holds_of_begin hc he hh) (fun _ => ⟨_, rfl⟩)
    fun f => by rw [admitted_enter hnone, Call.measure_none hc, zero_add]

/-- Marking a Run as closing, or no longer so, keeps the counters. -/
lemma closing (p : String) (runs : Finset String) :
    Counters (m.setAdmission p { m.admission p with closingRuns := runs }) := by
  refine h.transfer (fun i c hold hc hh => ⟨i, c, hc, hh⟩) (fun q => ?_) fun _ => rfl
  rw [admission_setAdmission]
  split_ifs with hq
  · exact ⟨runs, by rw [hq]⟩
  · exact ⟨_, rfl⟩

/-- An admission raises the counters by what its call then holds. -/
lemma admitting (hnone : m.calls.lookup id = none) {key : BalanceKey} {amount : ℤ}
    {runID : String} (hamt : 0 ≤ amount) (hc : c.hold = some ⟨key, amount, runID⟩) :
    Counters ((m.setAdmission key.projectID
      ((m.admission key.projectID).admitted key amount true runID)).enter id c) := by
  have hsum : ∀ f, ((m.setAdmission key.projectID
      ((m.admission key.projectID).admitted key amount true runID)).enter id c).admitted f =
        f ⟨key, amount, runID⟩ + m.admitted f := by
    intro f
    rw [admitted_enter (by exact hnone), Call.measure_some hc]
    rfl
  have hadm : ∀ p, ((m.setAdmission key.projectID
      ((m.admission key.projectID).admitted key amount true runID)).enter id c).admission p =
        if p = key.projectID then (m.admission p).admitted key amount true runID
        else m.admission p := by
    intro p
    refine (admission_setAdmission m key.projectID p _).trans ?_
    split_ifs with hp
    · rw [hp]
    · rfl
  refine ⟨fun i e hold he hh => ?_, fun p k => ?_, fun p run => ?_, fun p run => ?_⟩
  · obtain ⟨-, rfl⟩ | ⟨-, he⟩ := lookup_insert_cases he
    · rw [hc] at hh
      obtain rfl := Option.some.inj hh
      exact hamt
    · exact h.amount i e hold he hh
  · rw [hsum, hadm, forKey]
    have hpend := h.pending p k
    have hraised := getD_pending_admitted (m.admission p) key amount runID k
    grind
  · rw [hsum, hadm, forRunIn]
    have hpend := h.runPending p run
    have hraised := (getD_run_admitted (m.admission p) key amount runID run).1
    grind
  · rw [hsum, hadm, oneIn]
    have hcount := h.runAdmissions p run
    have hraised := (getD_run_admitted (m.admission p) key amount runID run).2
    grind

omit h in
/-- What is left of a sum without one call's part is not negative. -/
lemma rest_nonneg (hf : ∀ i c hold, m.calls.lookup i = some c →
    c.hold = some hold → 0 ≤ f hold) (hc : m.calls.lookup id = some c) :
    0 ≤ m.admitted f - c.measure f := by
  rw [← admitted_erase hc]
  refine FinMap.total_nonneg fun i d hd => ?_
  obtain ⟨-, hd⟩ := FinMap.lookup_erase_cases hd
  cases hh : d.hold with
  | none => rw [Call.measure_none hh]
  | some hold =>
    rw [Call.measure_some hh]
    exact hf i d hold hd hh

/-- **A returning call lowers the counters by what it held.** -/
lemma release (hc : m.calls.lookup id = some c) :
    Counters { m.releaseHold c with calls := m.calls.erase id } := by
  have hsum : ∀ f, ({ m.releaseHold c with calls := m.calls.erase id } : Manager D).admitted f =
      m.admitted f - c.measure f := fun f => admitted_erase hc
  have hholds : ∀ i d hold, (m.calls.erase id).lookup i = some d → d.hold = some hold →
      ∃ j e, m.calls.lookup j = some e ∧ e.hold = some hold :=
    fun i d hold hd hh => ⟨i, d, (lookup_erase_cases hd).2, hh⟩
  cases hh : c.hold with
  | none =>
    refine h.transfer hholds (fun p => ⟨_, by rw [releaseHold, hh]; rfl⟩) fun f => ?_
    rw [hsum, Call.measure_none hh, sub_zero]
  | some hold =>
    have hadm : ∀ p, ({ m.releaseHold c with calls := m.calls.erase id } : Manager D).admission p =
        if p = hold.key.projectID then releaseAdmittedForRun (m.admission p) hold.key hold.amount
          hold.runID else m.admission p := by
      intro p
      rw [releaseHold, hh]
      refine (admission_setAdmission m hold.key.projectID p _).trans ?_
      split_ifs with hp
      · rw [hp]
      · rfl
    -- what the other calls hold is not negative, so a counter is not cut off at zero
    have hrest : ∀ f : Hold → ℤ, (∀ g : Hold, 0 ≤ g.amount → 0 ≤ f g) →
        f hold ≤ m.admitted f := fun f hf => by
      have := rest_nonneg (fun i d g hd hg => hf g (h.amount i d g hd hg)) hc
      rw [Call.measure_some hh] at this
      omega
    refine ⟨fun i d g hd hg => ?_, fun p key => ?_, fun p run => ?_, fun p run => ?_⟩
    · obtain ⟨j, e, he, hheld⟩ := hholds i d g hd hg
      exact h.amount j e g he hheld
    all_goals rw [hsum, Call.measure_some hh, hadm]
    · have hle := hrest (forKey key) fun g hg => by unfold forKey; split_ifs <;> omega
      have hpend := h.pending p key
      have hlowered := getD_lower hold.amount (m.admission p).pending hold.key key
      simp only [forKey, releaseAdmittedForRun] at *
      grind
    · have hle := hrest (forRunIn p run) fun g hg => by unfold forRunIn; split_ifs <;> omega
      have hpend := h.runPending p run
      have hlowered := (getD_run_released (m.admission p) hold.key hold.amount hold.runID run).1
      simp only [forRunIn] at *
      grind
    · have hle := hrest (oneIn p run) fun g hg => by unfold oneIn; split_ifs <;> omega
      have hcount := h.runAdmissions p run
      have hlowered := (getD_run_released (m.admission p) hold.key hold.amount hold.runID run).2
      simp only [oneIn] at *
      grind

/-- The counters when no call is under way. -/
lemma quiet (hidle : m.calls = ∅) (p : String) : (∀ key, (m.admission p).pending.getD key 0 = 0) ∧
      (∀ run, (m.admission p).runPending.getD run 0 = 0) ∧
      ∀ run, (m.admission p).runAdmissions.getD run 0 = 0 := by
  have hsum : ∀ f, m.admitted f = 0 := fun f => by rw [admitted, hidle, total_empty]
  refine ⟨fun key => ?_, fun run => ?_, fun run => ?_⟩
  · rw [h.pending, hsum, ite_self]
  · rw [h.runPending, hsum]
  · have := h.runAdmissions p run
    rw [hsum] at this
    exact_mod_cast this

end

end Counters

end Budget

end Halro
