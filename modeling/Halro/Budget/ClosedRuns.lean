import Halro.Budget.Lifecycle

/-!
# A closed Run takes no new work (`CloseRun` and `admitForRun` in `internal/budget/manager.go`)

A request under a Run shares the project's lifecycle lock with no close; a reservation does not take
that lock, and is kept apart from a close by two counters.  `CloseRun` first names the Run as
closing, which refuses every later admission, then waits until no admission of the Run is left, and
only then writes.  So while it writes, no call that could still write for the Run is under way, and
none starts before the state shows the Run closed.

`Attends` says this call by call: a close that has waited finds no admission of its Run under way,
and a call that works for a Run finds no close of it in the log.
-/

namespace Halro

open Framework

namespace Budget

open Ledger Manager

/-- The event closes a Run. -/
def Closes (e : Event) (run : String) : Prop := e.kind = .runClosed ∧ e.runID = run

/-- The event takes work for a Run: it accepts a request or makes a reservation under it. -/
def TakesWork (e : Event) (run : String) : Prop :=
  (e.kind = .requestAccepted ∨ e.kind = .reservationCreated) ∧ e.runID = run ∧ run ≠ ""

instance (e : Event) (run : String) : Decidable (Closes e run) :=
  inferInstanceAs (Decidable (_ ∧ _))

instance (e : Event) (run : String) : Decidable (TakesWork e run) :=
  inferInstanceAs (Decidable (_ ∧ _))

variable {D : Type} {cat : Catalogue D} {m n : Manager D} {e : Event} {c d : Call} {id : ℕ}
  {run : String}

lemma TakesWork.not_closes {run' : String} (h : TakesWork e run) : ¬ Closes e run' := by
  rintro ⟨hk, -⟩
  rcases h.1 with hkind | hkind <;> · rw [hkind] at hk; cases hk

lemma Alike.takesWork {f : Event} (h : Alike e f) : TakesWork e run ↔ TakesWork f run := by
  rw [TakesWork, TakesWork, h.kind, h.run]

lemma Alike.closes {f : Event} (h : Alike e f) : Closes e run ↔ Closes f run := by
  rw [Closes, Closes, h.kind, h.run]

/-! ## What a call attends to -/

/-- What a call that closes a Run or works for one has before it. -/
structure Attends (m : Manager D) (c : Call) : Prop where
  born : ∀ run, Closes c.event run ∨ TakesWork c.event run →
    ∃ budget, Born m.history run c.event.projectID budget
  held : ∀ run, TakesWork c.event run → c.event.kind = .reservationCreated →
    ∃ hold, c.hold = some hold ∧ hold.runID = run
  closing : ∀ run, Closes c.event run →
    run ≠ "" ∧ run ∈ (m.admission c.event.projectID).closingRuns
  drained : ∀ run, Closes c.event run → c.stage = .ready ∨ c.stage = .cleared →
    ∀ j b hold, m.calls.lookup j = some b → b.hold = some hold → hold.runID ≠ run
  unclosed : m.available = true → ∀ run, TakesWork c.event run →
    ∀ r ∈ m.log, ¬ Closes r.event run

/-- **Closed Runs take no work.** -/
structure Closing (m : Manager D) : Prop where
  calls : ∀ i c, m.calls.lookup i = some c → Attends m c
  created : ∀ x ∈ m.history, ∀ run, Closes x.event run → ∃ y ∈ m.history, y.CreatesRun run
  closed : ∀ x ∈ m.history, ∀ run, Closes x.event run →
    ∀ v, (contents m.history).runs.lookup run = some v → v.status = .closed
  log : m.log.Pairwise fun r r' => ∀ run, Closes r.event run → ¬ TakesWork r'.event run

namespace Attends

/-- What a call has before it stays so, when its Run stays known and closing, no new hold comes for a
Run that is being closed, and the log stays as it is. -/
lemma mono (h : Attends m c) (hd : Alike d.event c.event) (hhold : d.hold = c.hold)
    (hstage : d.stage = .ready ∨ d.stage = .cleared → c.stage = .ready ∨ c.stage = .cleared)
    (hborn : ∀ run p b, Born m.history run p b → Born n.history run p b)
    (hclsg : ∀ run, Closes c.event run → run ∈ (m.admission c.event.projectID).closingRuns →
      run ∈ (n.admission c.event.projectID).closingRuns)
    (hholds : ∀ j b hold, n.calls.lookup j = some b → b.hold = some hold →
      Closes c.event hold.runID → ∃ j b, m.calls.lookup j = some b ∧ b.hold = some hold)
    (hlog : n.available = true → m.available = true ∧ ∀ run, TakesWork c.event run →
      ∀ r ∈ n.log, r ∈ m.log ∨ ¬ Closes r.event run) : Attends n d where
  born run hrun := by
    rw [hd.closes, hd.takesWork] at hrun
    rw [hd.project]
    obtain ⟨budget, hb⟩ := h.born run hrun
    exact ⟨budget, hborn _ _ _ hb⟩
  held run hrun hk := by
    rw [hd.takesWork] at hrun
    rw [hd.kind] at hk
    rw [hhold]
    exact h.held run hrun hk
  closing run hrun := by
    rw [hd.closes] at hrun
    rw [hd.project]
    obtain ⟨hne, hmem⟩ := h.closing run hrun
    exact ⟨hne, hclsg run hrun hmem⟩
  drained run hrun hs j b hold hb hh heq := by
    rw [hd.closes] at hrun
    obtain ⟨j', b', hb', hh'⟩ := hholds j b hold hb hh (by rw [heq]; exact hrun)
    exact h.drained run hrun (hstage hs) j' b' hold hb' hh' heq
  unclosed ha run hrun r hr hcl := by
    rw [hd.takesWork] at hrun
    obtain ⟨havail, hold⟩ := hlog ha
    rcases hold run hrun r hr with hr | hnot
    · exact h.unclosed havail run hrun r hr hcl
    · exact hnot hcl

end Attends

/-! ## Calls that start -/

/-- A Run that a lookup finds was created. -/
lemma born_of_findRun (ha : Accounted cat m) {v : Run}
    (hv : findRun m.archive m.state run = some v) :
    run ≠ "" ∧ Born m.history run v.projectID v.budgetMicrosUSD := by
  obtain ⟨hknown, rfl⟩ := known_of_findRun ha.books.runsHeld.id hv
  have hsound := ha.runs.known v hknown
  exact ⟨hsound.named, hsound.born⟩

/-- A Run that is found active is not closed by any record, unless a call is about to apply one. -/
lemma Closing.unclosed_of_active (h : Closing m) (hg : Governed m) (ha : Accounted cat m)
    (havail : m.available = true) {v : Run} (hv : findRun m.archive m.state run = some v)
    (hact : v.status = .active)
    (hcalls : ∀ j b, m.calls.lookup j = some b → ¬ Closes b.event run) :
    ∀ r ∈ m.log, ¬ Closes r.event run := by
  intro r hr hcl
  rcases hg.tracked havail r hr with ⟨x, hx, he⟩ | ⟨j, b, hb, hdur⟩
  · rw [findRun_eq hg.homed] at hv
    have hclosed := h.closed x hx run (by rw [he]; exact hcl) v hv
    rw [hact] at hclosed
    cases hclosed
  · refine hcalls j b hb ?_
    rw [← (ha.calls.durable j b r hb hdur).2]
    exact hcl

/-- A call under way that closes a Run has the Run's project. -/
lemma Closing.project_of_closes (h : Closing m) {j : ℕ} {b : Call} {p : String} {budget : ℤ}
    (hb : m.calls.lookup j = some b) (hcl : Closes b.event run)
    (hborn : Born m.history run p budget) : b.event.projectID = p := by
  obtain ⟨budget', hborn'⟩ := (h.calls j b hb).born run (Or.inl hcl)
  exact (hborn'.unique hborn).1

variable {x : Reading}

/-- A returning call leaves the closing Runs of other projects, and those of its own unless it is a
close. -/
lemma closingRuns_releaseCall {p run : String}
    (hother : c.event.kind = .runClosed → p ≠ c.event.projectID)
    (hrun : run ∈ (m.admission p).closingRuns) :
    run ∈ ((m.releaseCall id c).admission p).closingRuns := by
  have hheld : ∀ k, run ∈ ((m.releaseHold k).admission p).closingRuns := by
    intro k
    unfold releaseHold
    split
    · exact hrun
    · rw [admission_setAdmission]
      split_ifs with hp
      · rw [hp] at hrun
        exact hrun
      · exact hrun
  change run ∈ (((m.releaseHold c).finishClose c).admission p).closingRuns
  unfold finishClose
  split_ifs with hk
  · rw [admission_setAdmission, if_neg (hother hk)]
    exact hheld c
  · exact hheld c

namespace Closing

lemma new (archiving : Bool) : Closing (Manager.new D archiving) where
  calls i c hc := by simp [Manager.new] at hc
  created x hx := by simp [Manager.new, history] at hx
  closed x hx := by simp [Manager.new, history] at hx
  log := List.Pairwise.nil

section

variable (h : Closing m)

include h

/-- A call that starts, which holds nothing for a Run that is being closed. -/
lemma begin {projects : FinMap String Admission} (hclsg : ∀ p, (m.admission p).closingRuns ⊆
      (({ m with projects := projects } : Manager D).admission p).closingRuns)
    (hholds : ∀ j b hold, m.calls.lookup j = some b → c.hold = some hold →
      ¬ Closes b.event hold.runID)
    (hnew : Attends { m with projects := projects, calls := m.calls.insert id c } c) :
    Closing { m with projects := projects, calls := m.calls.insert id c } :=
  { h with
    calls := FinMap.forall_insert hnew fun i b hb =>
      (h.calls i b hb).mono (.refl _) rfl (fun hs => hs) (fun _ _ _ hborn => hborn)
        (fun run _ hrun => hclsg _ hrun)
        (fun j d hold hd hh hcl => by
          obtain ⟨-, rfl⟩ | ⟨-, hd⟩ := FinMap.lookup_insert_cases hd
          · exact absurd hcl (hholds i b hold hb hh)
          · exact ⟨j, d, hd, hh⟩)
        fun ha => ⟨ha, fun _ _ r hr => Or.inl hr⟩ }

/-- A request or another event that makes no admission. -/
lemma begun (hg : Governed m) (ha : Accounted cat m) {op : Operation}
    (made : m.outcome cat x op = .ok (some e)) (free : m.LockFree e) :
    Closing (m.enter id { event := e }) := by
  obtain ⟨hkind, -, hcls, hrsv⟩ := outcome_kind made
  rw [← hkind] at hcls hrsv
  have hcls : ∀ run, ¬ Closes e run := fun run hcl => hcls hcl.1
  -- an event that takes work for a Run is an accepted request, and it has found the Run
  have hworks : ∀ run, TakesWork e run → e.kind = .requestAccepted ∧
      ∃ v, findRun m.archive m.state run = some v ∧ v.projectID = e.projectID ∧
        v.status = .active := by
    intro run hw
    have hacc : e.kind = .requestAccepted := hw.1.resolve_right hrsv
    refine ⟨hacc, ?_⟩
    rw [hkind] at hacc
    cases op with
    | beginRequest =>
      obtain ⟨rfl, hchecked⟩ := beginRequestAttributed_ok (map_some_ok made)
      obtain ⟨-, rfl, hne⟩ := hw
      rcases hchecked with ⟨hplain, -⟩ | ⟨-, v, hv, hprj, -, hact, -⟩
      · exact absurd hplain hne
      · exact ⟨v, hv, hprj, hact⟩
    | _ => cases hacc
  refine h.begin (fun p => Finset.Subset.refl _) (fun j b hold _ hh => by cases hh)
    ⟨fun run hrun => ?_, fun run _ hk => absurd hk hrsv, fun run hcl => absurd hcl (hcls run),
      fun run hcl => absurd hcl (hcls run), fun havail run hw => ?_⟩
  · obtain ⟨-, v, hv, hprj, -⟩ := hworks run (hrun.resolve_left (hcls run))
    have hborn := (born_of_findRun ha hv).2
    rw [hprj] at hborn
    exact ⟨_, hborn⟩
  · obtain ⟨hkind, v, hv, hprj, hact⟩ := hworks run hw
    refine h.unclosed_of_active hg ha havail hv hact fun j b hb hcl => ?_
    -- a close under way would exclude the request
    refine FinMap.every_iff.mp free j b hb (excludes_of_lifecycle ?_ (Or.inr ⟨hkind, ?_⟩) ?_).symm
    · rw [hcl.1]
      rfl
    · rw [hw.2.1]
      exact hw.2.2
    · rw [h.project_of_closes hb hcl (born_of_findRun ha hv).2, hprj]

/-- A close that names its Run. -/
lemma starts (ha : Accounted cat m)
    {projectID keyID workUnitID runID reason : String} {intent : GovernanceIntent}
    (event : e = runClosedEvent x projectID keyID workUnitID runID reason intent)
    (made : closeRun m.archive m.state projectID keyID workUnitID runID reason intent = .ok true) :
    Closing ((m.setAdmission e.projectID { m.admission e.projectID with
      closingRuns := insert e.runID (m.admission e.projectID).closingRuns }).enter
      id { event := e, stage := .draining }) := by
  obtain ⟨-, v, hv, hprj, -⟩ := closeRun_ok made
  have hfound : findRun m.archive m.state runID = some v := by simp [findRun, hv]
  obtain ⟨hne, hborn⟩ := born_of_findRun ha hfound
  have hkind : e.kind = .runClosed := by rw [event]; rfl
  have hrunID : e.runID = runID := by rw [event]; rfl
  have hown : e.projectID = projectID := by rw [event]; rfl
  have hidle : ∀ run, ¬ TakesWork e run := by
    intro run hw
    exact hw.not_closes ⟨hkind, rfl⟩
  refine h.begin (fun p => ?_) (fun j b hold _ hh => by cases hh)
    ⟨fun run hrun => ?_, fun run hw => absurd hw (hidle run), fun run hcl => ?_,
      fun run _ hs => ?_, fun _ run hw => absurd hw (hidle run)⟩
  · change _ ⊆ (Manager.admission (m.setAdmission _ _) p).closingRuns
    rw [admission_setAdmission]
    split_ifs with hp
    · rw [hp]
      exact Finset.subset_insert _ _
    · exact Finset.Subset.refl _
  · obtain ⟨-, rfl⟩ := hrun.resolve_right (hidle run)
    rw [hprj] at hborn
    refine ⟨v.budgetMicrosUSD, ?_⟩
    rw [hrunID, hown]
    exact hborn
  · obtain ⟨-, rfl⟩ := hcl
    refine ⟨by rw [hrunID]; exact hne, ?_⟩
    change _ ∈ (Manager.admission (m.setAdmission _ _) _).closingRuns
    rw [admission_setAdmission, if_pos rfl]
    exact Finset.mem_insert_self _ _
  · rcases hs with hs | hs <;> cases hs

/-- A reservation that is admitted. -/
lemma admits (hg : Governed m) (ha : Accounted cat m) {q : Request}
    {dailyBudget : ℤ} {spec : LeaseSpec} {metadata : AttemptMetadata} {b : Admission}
    (hadmits : Admits cat m x q dailyBudget spec b) :
    Closing ((m.setAdmission q.projectID b).enter id
      { event := reservedEvent x q spec metadata,
        hold := if spec.counted ∨ q.runID ≠ "" then
            some ⟨q.balanceKey, spec.reservationMicrosUSD, q.runID⟩
          else none }) := by
  obtain ⟨hb, -, hcheck⟩ := admitForRun_ok hadmits.admitted
  -- the Run is active and not being closed
  have hopen : q.runID ≠ "" → ∃ v, findRun m.archive m.state q.runID = some v ∧
      v.projectID = q.projectID ∧ v.status = .active ∧
      q.runID ∉ (m.admission q.projectID).closingRuns := by
    intro hne
    have hrun := hcheck hne
    unfold checkRun at hrun
    split at hrun
    · cases hrun
    rename_i v hv
    obtain ⟨hterms, hrun⟩ := guard_eq_ok.mp hrun
    obtain ⟨hopen, -⟩ := guard_eq_ok.mp hrun
    push Not at hterms hopen
    exact ⟨v, hv, hterms.1, hopen.2.1, hopen.1⟩
  have hfree : ∀ j d, m.calls.lookup j = some d → ¬ Closes d.event q.runID := by
    intro j d hd hcl
    obtain ⟨hne, hclsg⟩ := (h.calls j d hd).closing q.runID hcl
    obtain ⟨v, hv, hprj, -, hnot⟩ := hopen hne
    have hborn := (born_of_findRun ha hv).2
    rw [h.project_of_closes hd hcl hborn, hprj] at hclsg
    exact hnot hclsg
  have hcls : ∀ run, ¬ Closes (reservedEvent x q spec metadata) run := by
    rintro run ⟨hk, -⟩
    cases hk
  refine h.begin (fun p => ?_) (fun j d hold hd hh => ?_)
    ⟨fun run hrun => ?_, fun run hw _ => ?_, fun run hcl => absurd hcl (hcls run),
      fun run hcl => absurd hcl (hcls run), fun havail run hw => ?_⟩
  · change _ ⊆ (Manager.admission (m.setAdmission _ _) p).closingRuns
    rw [admission_setAdmission]
    split_ifs with hp
    · rw [hb, hp]
      exact Finset.Subset.refl _
    · exact Finset.Subset.refl _
  · split_ifs at hh
    obtain rfl := Option.some.inj hh
    exact hfree j d hd
  · obtain ⟨-, rfl, hne⟩ := hrun.resolve_left (hcls run)
    obtain ⟨v, hv, hprj, -⟩ := hopen hne
    have hborn := (born_of_findRun ha hv).2
    rw [hprj] at hborn
    exact ⟨_, hborn⟩
  · obtain ⟨-, rfl, hne⟩ := hw
    exact ⟨_, if_pos (Or.inr hne), rfl⟩
  · obtain ⟨-, rfl, hne⟩ := hw
    obtain ⟨v, hv, -, hact, -⟩ := hopen hne
    exact h.unclosed_of_active hg ha havail hv hact hfree

/-! ## Calls that go on -/

/-- What the calls have before them after one of them goes on. -/
lemma calls_move (hc : m.calls.lookup id = some c) (hcalls : n.calls = m.calls.insert id d)
    (hd : Alike d.event c.event) (hhold : d.hold = c.hold)
    (hstage : d.stage = .ready ∨ d.stage = .cleared → (c.stage = .ready ∨ c.stage = .cleared) ∨
      ∀ run, Closes c.event run → ∀ j b hold, m.calls.lookup j = some b → b.hold = some hold →
        hold.runID ≠ run)
    (hborn : ∀ run p b, Born m.history run p b → Born n.history run p b)
    (hprojects : n.projects = m.projects)
    (hlog : n.available = true → m.available = true ∧ ∀ i b, m.calls.lookup i = some b →
      ∀ run, TakesWork b.event run → ∀ r ∈ n.log, r ∈ m.log ∨ ¬ Closes r.event run) :
    ∀ i b, n.calls.lookup i = some b → Attends n b := by
  have hholds : ∀ j b hold, n.calls.lookup j = some b → b.hold = some hold →
      ∃ j b, m.calls.lookup j = some b ∧ b.hold = some hold := by
    rw [hcalls]
    exact fun j b hold hb hh => holds_of_insert hc hb hhold hh
  -- whatever its stage, a call keeps what it has before it but for what a drained close has
  have kept : ∀ {i b b'}, m.calls.lookup i = some b → Alike b'.event b.event → b'.hold = b.hold →
      (b'.stage = .ready ∨ b'.stage = .cleared → b.stage = .ready ∨ b.stage = .cleared) →
      Attends n b' := fun {i b b'} hb halike hsame hs =>
    (h.calls i b hb).mono halike hsame hs hborn
      (fun run _ hrun => by rw [admission, hprojects]; exact hrun)
      (fun j k hold hk hh _ => hholds j k hold hk hh)
      fun ha => ⟨(hlog ha).1, (hlog ha).2 i b hb⟩
  rw [hcalls]
  refine FinMap.forall_insert ?_ fun i b hb => kept hb (.refl _) rfl fun hs => hs
  by_cases hs : d.stage = .ready ∨ d.stage = .cleared
  · rcases hstage hs with hold | hquiet
    · exact kept hc hd hhold fun _ => hold
    · -- the call without its stage, and then what its stage says
      have hbase : Attends n { d with stage := .draining } :=
        kept hc hd hhold fun hs => by rcases hs with hs | hs <;> cases hs
      refine { hbase with drained := fun run hcl _ j b hold hb hh => ?_ }
      obtain ⟨j', b', hb', hh'⟩ := hholds j b hold hb hh
      exact hquiet run (hd.closes.mp hcl) j' b' hold hb' hh'
  · exact kept hc hd hhold fun hs' => absurd hs' hs

/-- A call that goes on while the ledger, the log and the counters stay as they are. -/
lemma stay (hc : m.calls.lookup id = some c) (hd : Alike d.event c.event) (hhold : d.hold = c.hold)
    {available : Bool} {applyErr : Option ApplyError}
    (havail : available = true → m.available = true)
    (hstage : d.stage = .ready ∨ d.stage = .cleared → (c.stage = .ready ∨ c.stage = .cleared) ∨
      ∀ run, Closes c.event run → ∀ j b hold, m.calls.lookup j = some b → b.hold = some hold →
        hold.runID ≠ run) :
    Closing { m with
      calls := m.calls.insert id d, applyErr := applyErr, available := available } :=
  { h with
    calls := h.calls_move hc rfl hd hhold hstage (fun _ _ _ hborn => hborn) rfl
      fun ha => ⟨havail ha, fun _ _ _ _ _ _ hr => Or.inl hr⟩ }

/-- Once its counter is zero, no call holds an admission of the Run a close waits for. -/
lemma undisturbed (ha : Accounted cat m) (hc : m.calls.lookup id = some c)
    (hzero : (m.admission c.event.projectID).runAdmissions.getD c.event.runID 0 = 0) :
    ∀ run, Closes c.event run → ∀ j b hold, m.calls.lookup j = some b → b.hold = some hold →
      hold.runID ≠ run := by
  rintro run hcl j b hold hb hh rfl
  obtain ⟨budget, hborn⟩ := (h.calls id c hc).born _ (Or.inl hcl)
  have hne := ((h.calls id c hc).closing _ hcl).1
  obtain ⟨budget', hborn'⟩ := ha.runs.holdsBorn j b hold hb hh hne
  have hprj := (hborn.unique hborn').1
  have hcount := ha.counters.runAdmissions c.event.projectID c.event.runID
  -- one admission alone makes the counter positive
  have hrest := Counters.rest_nonneg (f := oneIn c.event.projectID c.event.runID)
    (fun i d hold _ _ => by unfold oneIn; split_ifs <;> omega) hb
  rw [← hcount, Call.measure_some hh, oneIn, if_pos ⟨hprj.symm, hcl.2.symm, by
    rw [hcl.2]
    exact hne⟩] at hrest
  omega

/-- **An event that becomes a record**: if it closes a Run, no call under way works for the Run; if
it works for one, no record closes the Run. -/
lemma append (hg : Governed m) (hc : m.calls.lookup id = some c)
    (hstage : c.stage = .cleared) (havail : m.available = true) (result : AppendResult) :
    Closing { m.move id c (if result = .lost then .done false
        else .durable (m.nextRecord c.event)) with
      log := m.log ++ [m.nextRecord c.event],
      available := decide (result ≠ .lost) } := by
  -- a call that works for a Run is not overtaken by its close
  have hord : ∀ i b, m.calls.lookup i = some b → ∀ run, TakesWork b.event run →
      ¬ Closes c.event run := by
    intro i b hb run hw hcl
    by_cases hi : i = id
    · rw [hi, hc] at hb
      obtain rfl := Option.some.inj hb
      exact hw.not_closes hcl
    rcases hw.1 with hkind | hkind
    · obtain ⟨budget, hborn⟩ := (h.calls id c hc).born run (Or.inl hcl)
      obtain ⟨budget', hborn'⟩ := (h.calls i b hb).born run (Or.inr hw)
      refine hg.calls.allowed id i c b hc hb (Ne.symm hi) (excludes_of_lifecycle ?_ (Or.inr ⟨hkind, ?_⟩)
        (hborn.unique hborn').1)
      · rw [hcl.1]
        rfl
      · rw [hw.2.1]
        exact hw.2.2
    · obtain ⟨hold, hh, hrun⟩ := (h.calls i b hb).held run hw hkind
      exact (h.calls id c hc).drained run hcl (Or.inr hstage) i b hold hb hh hrun
  refine ⟨h.calls_move hc rfl (.refl _) rfl (fun _ => Or.inl (Or.inr hstage))
    (fun _ _ _ hborn => hborn) rfl fun _ => ⟨havail, fun i b hb run hw r hr => ?_⟩,
    h.created, h.closed, ?_⟩
  · rcases List.mem_append.mp hr with hr | hr
    · exact Or.inl hr
    · obtain rfl := List.mem_singleton.mp hr
      exact Or.inr (hord i b hb run hw)
  · refine List.pairwise_append.mpr ⟨h.log, List.pairwise_singleton _ _, fun r hr r' hr' run hcl hw => ?_⟩
    obtain rfl := List.mem_singleton.mp hr'
    exact (h.calls id c hc).unclosed havail run hw r hr hcl

/-- A record that is applied. -/
lemma apply [DecidableEq D] (hg : Governed m) (ha : Accounted cat m)
    {record : Record} (hc : m.calls.lookup id = some c) (hstage : c.stage = .durable record)
    (ok : State.refusal (m.state.apply cat record) = none) :
    Closing { m.move id c .applied with ledger := play cat m.ledger record } := by
  obtain ⟨hu, hhist, -⟩ := hg.entered ha hc hstage ok
  have huncreated : ∀ run, (∃ y ∈ m.history, y.CreatesRun run) →
      ¬ (m.state.entry record.event).CreatesRun run := by
    rintro run ⟨y, hy, hky, hidy⟩ ⟨hk, hid⟩
    exact (hu.apart y hy).runs hky hk (hidy.trans hid.symm)
  -- a Run that is closed was created before
  have hcred : ∀ x ∈ m.state.entry record.event :: m.history, ∀ run, Closes x.event run →
      ∃ y ∈ m.history, y.CreatesRun run := by
    intro x hx run hcl
    rcases List.mem_cons.mp hx with rfl | hx
    · have hcl : Closes record.event run := hcl
      rw [(ha.calls.durable id c record hc hstage).2] at hcl
      obtain ⟨budget, hb⟩ := (h.calls id c hc).born run (Or.inl hcl)
      exact hb.created
    · exact h.created x hx run hcl
  refine ⟨h.calls_move hc rfl (.refl _) rfl (fun hs => by rcases hs with hs | hs <;> cases hs)
    (fun run p budget hborn => ?_) rfl fun ha => ⟨ha, fun _ _ _ _ _ r hr => Or.inl hr⟩,
    fun x hx run hcl => ?_, fun x hx run hcl v hv => ?_, h.log⟩
  · change Born (play cat m.ledger record).2 run p budget
    rw [hhist]
    exact hborn.cons (huncreated run hborn.created)
  · change ∃ y ∈ (play cat m.ledger record).2, _
    rw [hhist]
    exact List.exists_mem_cons_of_exists (hcred x (hhist ▸ hx) run hcl)
  · change (contents (play cat m.ledger record).2).runs.lookup run = some v at hv
    replace hx : x ∈ (play cat m.ledger record).2 := hx
    rw [hhist] at hx hv
    obtain ⟨u, hlook, hstat⟩ := (run_before hv).resolve_left (huncreated run (hcred x hx run hcl))
    refine hstat ?_
    rcases List.mem_cons.mp hx with rfl | hx
    · exact Or.inr hcl
    · exact Or.inl (h.closed x hx run hcl u hlook)

/-- A call that returns: no other call closes a Run of its project. -/
lemma release (hg : Governed m) (hc : m.calls.lookup id = some c) :
    Closing (m.releaseCall id c) := by
  have hclsg : ∀ p run, _ → _ → run ∈ ((m.releaseCall id c).admission p).closingRuns :=
    fun p run => closingRuns_releaseCall
  obtain ⟨projects, heq⟩ := releaseCall_frame m id c
  rw [heq] at hclsg ⊢
  refine ⟨fun i b hb => ?_, h.created, h.closed, h.log⟩
  obtain ⟨hi, hb⟩ := FinMap.lookup_erase_cases hb
  refine (h.calls i b hb).mono (.refl _) rfl (fun hs => hs) (fun _ _ _ hborn => hborn)
    (fun run hcl hrun => hclsg _ run (fun hk hp => ?_) hrun)
    (fun j d hold hd hh _ => ⟨j, d, (FinMap.lookup_erase_cases hd).2, hh⟩)
    fun ha => ⟨ha, fun _ _ r hr => Or.inl hr⟩
  -- the returning call is a close of another project, or none
  refine hg.calls.allowed i id b c hb hc hi (excludes_of_lifecycle ?_ (Or.inl ?_) hp)
  · rw [hcl.1]
    rfl
  · rw [hk]
    rfl

/-- **Step lemma.** -/
lemma step [DecidableEq D] {a : Action} (hg : Governed m) (ha : Accounted cat m)
    (hs : Stepped cat m a n) : Closing n := by
  cases hs with
  | idle => exact h
  | begun may made free => exact h.begun hg ha made free
  | closing may event made free => exact h.starts ha event made
  | reserved may admits => exact h.admits hg ha admits
  | drained call stage drained =>
    exact h.stay call (by exact ⟨rfl, rfl, rfl, rfl, rfl, rfl, rfl⟩) (by rfl) (fun hav => hav)
      fun _ => Or.inr (h.undisturbed ha call drained)
  | cleared call stage healthy =>
    exact h.stay call (by exact .refl _) (by rfl) (fun hav => hav) fun _ => Or.inl (Or.inl stage)
  | ended call stage =>
    exact h.stay call (by exact .refl _) (by rfl) (fun hav => hav)
      (by exact fun hs => by rcases hs with hs | hs <;> cases hs)
  | appended call stage appendable => exact h.append hg call stage appendable.1 _
  | applied call stage healthy order ok => exact h.apply hg ha call stage ok
  | poisoned call stage healthy order refused =>
    rw [play_refused refused (ha.runTotalFits call stage)]
    exact h.stay call (by exact .refl _) (by rfl) (by exact fun hav => by cases hav)
      (by exact fun hs => by rcases hs with hs | hs <;> cases hs)
  | released call stage => exact h.release hg call
  | flushed archiving =>
    exact ⟨fun i b hb => (h.calls i b hb).mono (.refl _) rfl (fun hs => hs) (fun _ _ _ hb => hb)
      (fun _ _ hr => hr) (fun j d hold hd hh _ => ⟨j, d, hd, hh⟩)
      fun hav => ⟨hav, fun _ _ r hr => Or.inl hr⟩, h.created, h.closed, h.log⟩

end

end Closing

/-- A step that lengthens the log appends the event of a call that was cleared for it. -/
lemma appended_of_log [DecidableEq D] {a : Action} {r : Record} (hs : Stepped cat m a n)
    (hlog : n.log = m.log ++ [r]) :
    ∃ id c, m.calls.lookup id = some c ∧ c.stage = .cleared ∧ r.event = c.event := by
  have same : n.log = m.log → ∃ id c, m.calls.lookup id = some c ∧ c.stage = .cleared ∧
      r.event = c.event := by
    intro heq
    rw [heq] at hlog
    simp at hlog
  cases hs with
  | appended call stage appendable =>
    have hr := List.append_cancel_left hlog
    obtain rfl := List.singleton_inj.mp hr
    exact ⟨_, _, call, stage, rfl⟩
  | released call stage =>
    obtain ⟨projects, heq⟩ := releaseCall_frame m _ _
    exact same (by rw [heq])
  | _ => exact same rfl

/-- **A closed Run takes no new work.**  Over any interleaving of any number of operations: no
acceptance of a request and no reservation under a Run stands in the log after the record that
closes the Run, and when that record is written no admission of the Run is in flight, so its counter
is zero in every project. -/
theorem closed_run_takes_no_work [DecidableEq D] (cat : Catalogue D) (archiving : Bool)
    (actions : List Action) (hplain : ∀ a ∈ actions, a.Plain) :
    let m := actions.foldl (Manager.step cat) (Manager.new D archiving)
    (m.log.Pairwise fun r r' => ∀ run, Closes r.event run → ¬ TakesWork r'.event run) ∧
      ∀ a r run, (m.step cat a).log = m.log ++ [r] → Closes r.event run →
        (∀ i c hold, m.calls.lookup i = some c → c.hold = some hold → hold.runID ≠ run) ∧
          ∀ p, (m.admission p).runAdmissions.getD run 0 = 0 := by
  intro m
  have hm : (Accounted cat m ∧ Governed m) ∧ Closing m := Along.invariant (P := fun _ a => a.Plain)
      (I := fun m => (Accounted cat m ∧ Governed m) ∧ Closing m)
      (fun m a hm ha => ⟨⟨hm.1.1.step (stepped cat m a), hm.1.2.step hm.1.1 ha⟩,
        hm.2.step hm.1.2 hm.1.1 (stepped cat m a)⟩)
      ⟨⟨.new archiving, .new archiving⟩, .new archiving⟩ (.of_forall hplain)
  obtain ⟨⟨ha, hg⟩, hclsg⟩ := hm
  refine ⟨hclsg.log, fun a r run hlog hcl => ?_⟩
  obtain ⟨id, c, hc, hstage, he⟩ := appended_of_log (stepped cat m a) hlog
  rw [he] at hcl
  have hquiet := (hclsg.calls id c hc).drained run hcl (Or.inr hstage)
  refine ⟨hquiet, fun p => ?_⟩
  -- the counter is the sum over the holds, none of which is for the Run
  have hcount := ha.counters.runAdmissions p run
  have hzero : m.admitted (oneIn p run) = 0 := by
    refine FinMap.total_eq_zero fun i b hb => ?_
    cases hh : b.hold with
    | none => exact Call.measure_none hh
    | some hold =>
      rw [Call.measure_some hh, oneIn, if_neg]
      rintro ⟨-, hrun, -⟩
      exact hquiet i b hold hb hh hrun
  rw [hzero] at hcount
  exact_mod_cast hcount

section CloseBehindReservation

namespace Sample

def day : Period := { id := "2026-05-01" }

def reading (eventID newID : String) (now : ℤ) : Reading :=
  { eventID := eventID, newID := newID, now := now, period := day }

/-- A lifecycle intent, told from others by one digit of its key. -/
def intent (operation : String) (digit : Char) : GovernanceIntent :=
  { operation := operation, idempotencyKeyHash := labelOf digit, requestFingerprint := labelOf digit }

/-- A call that goes through all its steps with nothing in between. -/
def whole (id : ℕ) (op : Operation) (x : Reading) : List Action :=
  [.call id op x, .clear id, .append id .written, .apply id, .confirm id, .release id]

/-- A Run and a request under it. -/
def started : List Action :=
  whole 0 (.createWorkUnit "prj" "key" 5 [] (intent "work_unit.create" '0'))
    (reading "evt_0" "wku_a" 1) ++
  whole 1 (.createRun "prj" "key" "wku_a" 100 1000 5 (intent "run.create" '1'))
    (reading "evt_1" "run_a" 2) ++
  whole 2 (.beginRequest "prj" "key" "req" "model" "wku_a" "run_a") (reading "evt_2" "" 3)

def reserveFor (id : ℕ) (eventID attemptID : String) : Action :=
  .call id (.reserve { requestID := "req", projectID := "prj", workUnitID := "wku_a", runID := "run_a",
                       period := day, keyID := "key" } 0
    { attemptID := attemptID, reservationMicrosUSD := 5 } {}) (reading eventID "" 4)

/-- A close that starts behind a reservation, waits for it, and holds off another. -/
def closeBehind : List Action :=
  started ++ [reserveFor 3 "evt_3" "att_3",
    .call 4 (.closeRun "prj" "key" "wku_a" "run_a" "done" (intent "run.close" '2')) (reading "evt_4" "" 5),
    .drained 4 6 day, reserveFor 5 "evt_5" "att_5",
    .clear 3, .append 3 .written, .apply 3, .confirm 3, .release 3,
    .drained 4 7 day, .clear 4]

end Sample

deriving instance DecidableEq for Record

open Sample in
/-- The close waits for the reservation that came first and refuses the one that came after; when it
writes, no admission is in flight. -/
theorem closed_run_takes_no_work_behind :
    let m := closeBehind.foldl (Manager.step Catalogue.bare) (Manager.new Event true)
    let n := m.step Catalogue.bare (.append 4 .written)
    let r := m.nextRecord (day.stamp { runClosedEvent (reading "evt_4" "" 5) "prj" "key" "wku_a" "run_a"
      "done" (intent "run.close" '2') with occurredAt := 7 })
    n.log = m.log ++ [r] ∧ Closes r.event "run_a" ∧ m.log.length = 4 ∧
      (m.log.Pairwise fun r r' => ∀ run, Closes r.event run → ¬ TakesWork r'.event run) ∧
      (m.admission "prj").runAdmissions.getD "run_a" 0 = 0 := by
  intro m n r
  have hlog : n.log = m.log ++ [r] := by decide +kernel
  have hcls : Closes r.event "run_a" := by decide +kernel
  have hall := closed_run_takes_no_work Catalogue.bare true closeBehind (by decide)
  exact ⟨hlog, hcls, by decide +kernel, hall.1,
    (hall.2 (.append 4 .written) r "run_a" hlog hcls).2 "prj"⟩

end CloseBehindReservation

end Budget

end Halro
