import Halro.Budget.Machine

/-!
# What the operations have checked

One lemma for each operation: if it comes to an event, which event that is and what the checks on
the way have established about the accounting state.  Later modules use these and do not look into
the operations again.
-/

namespace Halro

open Framework

namespace Budget

open Ledger

section Checks

variable {D : Type} {archive : List ArchivedWorkUnit} {s : State D} {x : Reading} {e : Event}
  {projectID keyID workUnitID runID : String} {intent : GovernanceIntent}

/-- The key of an intent's idempotency record. -/
def GovernanceIntent.mapKey (i : GovernanceIntent) (projectID : String) : String :=
  governanceIdempotencyMapKey projectID i.operation i.idempotencyKeyHash

/-- An intent is valid and its key is not recorded. -/
structure GovernanceIntent.New (i : GovernanceIntent) (archive : List ArchivedWorkUnit) (s : State D)
    (projectID : String) : Prop where
  valid : i.valid = true
  unrecorded : findIdempotency archive s (i.mapKey projectID) = none

lemma checkIntent_ok {proceed : Except BudgetError (Option Event)}
    (h : checkIntent archive s projectID intent proceed = .ok (some e)) :
    intent.New archive s projectID ∧ proceed = .ok (some e) := by
  obtain ⟨hvalid, h⟩ := guard_eq_ok.mp h
  split at h
  · obtain ⟨-, h⟩ := guard_eq_ok.mp h
    cases h
  · exact ⟨⟨by simpa using hvalid, by assumption⟩, h⟩

lemma createWorkUnit_ok {maxOpen : ℤ} {definitions : List OutcomeDefinitionRef}
    (h : createWorkUnit archive s x projectID keyID maxOpen definitions intent = .ok (some e)) :
    intent.New archive s projectID ∧
      e = { lifecycleEvent x .workUnitCreated projectID keyID x.newID intent with
        outcomeDefinitions := definitions } := by
  obtain ⟨-, h⟩ := guard_eq_ok.mp h
  obtain ⟨hnew, h⟩ := checkIntent_ok h
  obtain ⟨-, h⟩ := guard_eq_ok.mp h
  obtain ⟨-, h⟩ := guard_eq_ok.mp h
  exact ⟨hnew, (Option.some.inj (Except.ok.inj h)).symm⟩

lemma closeWorkUnit_ok
    (h : closeWorkUnit archive s x projectID keyID workUnitID intent = .ok (some e)) :
    intent.New archive s projectID ∧
      e = lifecycleEvent x .workUnitClosed projectID keyID workUnitID intent ∧
      ∃ w, findWorkUnit archive s workUnitID = some w ∧ w.projectID = projectID ∧
        w.status ≠ .closed := by
  obtain ⟨-, h⟩ := guard_eq_ok.mp h
  obtain ⟨hnew, h⟩ := checkIntent_ok h
  split at h
  · cases h
  · rename_i w hw
    obtain ⟨hprj, h⟩ := guard_eq_ok.mp h
    by_cases hstat : w.status = .closed
    · rw [if_pos hstat] at h
      cases h
    rw [if_neg hstat] at h
    exact ⟨hnew, (Option.some.inj (Except.ok.inj h)).symm, w, hw, not_not.mp hprj, hstat⟩

lemma createRun_ok {budget ttl maxActive : ℤ}
    (h : createRun archive s x projectID keyID workUnitID budget ttl maxActive intent =
      .ok (some e)) :
    intent.New archive s projectID ∧
      e = { lifecycleEvent x .runCreated projectID keyID workUnitID intent with
        runID := x.newID, runBudgetMicrosUSD := budget, runExpiresAt := x.now + ttl } ∧
      ∃ w, findWorkUnit archive s workUnitID = some w ∧ w.projectID = projectID ∧
        w.status = .open ∧ (s.runsOf workUnitID).length < maxRunsPerWorkUnit := by
  obtain ⟨-, h⟩ := guard_eq_ok.mp h
  obtain ⟨hnew, h⟩ := checkIntent_ok h
  obtain ⟨-, h⟩ := guard_eq_ok.mp h
  split at h
  · cases h
  · rename_i w hw
    obtain ⟨hterms, h⟩ := guard_eq_ok.mp h
    obtain ⟨hlimit, h⟩ := guard_eq_ok.mp h
    push Not at hterms hlimit
    exact ⟨hnew, (Option.some.inj (Except.ok.inj h)).symm, w, hw, hterms.1, hterms.2, hlimit.2⟩

lemma closeRun_ok {reason : String}
    (h : closeRun archive s projectID keyID workUnitID runID reason intent = .ok true) :
    intent.New archive s projectID ∧
      ∃ run, s.runs.lookup runID = some run ∧ run.projectID = projectID ∧
        run.workUnitID = workUnitID ∧ run.status ≠ .closed := by
  obtain ⟨-, h⟩ := guard_eq_ok.mp h
  obtain ⟨hvalid, h⟩ := guard_eq_ok.mp h
  split at h
  · obtain ⟨-, h⟩ := guard_eq_ok.mp h
    cases h
  · rename_i hidem
    refine ⟨⟨by simpa using hvalid, hidem⟩, ?_⟩
    split at h
    · cases h
    · rename_i run hrun
      obtain ⟨hterms, h⟩ := guard_eq_ok.mp h
      push Not at hterms
      obtain ⟨hstat, hheld⟩ := of_decide_eq_true (Except.ok.inj h)
      -- a held Run is the one the lookup finds
      obtain ⟨held, hheld⟩ := Option.isSome_iff_exists.mp hheld
      have hsame : run = held := by
        simp only [findRun, hheld, Option.orElse_eq_orElse, Option.orElse_eq_or,
          Option.some_or] at hrun
        exact (Option.some.inj hrun).symm
      exact ⟨run, by rw [hheld, hsame], hterms.1, hterms.2, hstat⟩

lemma beginRequestAttributed_ok {requestID requestedModel : String}
    (h : beginRequestAttributed archive s x projectID keyID requestID requestedModel workUnitID
      runID = .ok e) :
    e = acceptedEvent x (newRequest x projectID keyID requestID requestedModel workUnitID runID) ∧
      ((runID = "" ∧ workUnitID = "") ∨
        (runID ≠ "" ∧ workUnitID ≠ "") ∧ ∃ run, findRun archive s runID = some run ∧
          run.projectID = projectID ∧ run.workUnitID = workUnitID ∧ run.status = .active ∧
          x.now < run.expiresAt) := by
  obtain ⟨-, h⟩ := guard_eq_ok.mp h
  by_cases hplain : runID = "" ∧ workUnitID = ""
  · rw [if_pos hplain] at h
    obtain ⟨-, h⟩ := guard_eq_ok.mp h
    exact ⟨(Except.ok.inj h).symm, Or.inl hplain⟩
  · rw [if_neg hplain] at h
    obtain ⟨hnamed, h⟩ := guard_eq_ok.mp h
    push Not at hnamed
    split at h
    · cases h
    · rename_i run hrun
      simp only [guard_eq_ok] at h
      obtain ⟨hterms, hact, -, h⟩ := h
      push Not at hterms hact
      exact ⟨(Except.ok.inj h).symm, Or.inr ⟨hnamed, run, hrun, hterms.1, hterms.2, hact.1, hact.2⟩⟩

lemma settle_ok {cat : Catalogue D} {eventID : String} {now : ℤ} {a : Attempt} {z : Settlement}
    (h : settle cat eventID now a z = .ok e) : ∃ cost, e = settledEvent eventID now a z cost := by
  unfold settle at h
  split at h
  · cases h
  · split at h
    · cases h
    · exact ⟨_, (Except.ok.inj h).symm⟩

end Checks

/-- A mapped result that comes to an event. -/
lemma map_some_ok {result : Except BudgetError Event} {e : Event}
    (h : result.map some = .ok (some e)) : result = .ok e := by
  cases result with
  | error err => cases h
  | ok f =>
    have hf : f = e := Option.some.inj (Except.ok.inj h)
    rw [hf]

/-- The kind of the event an operation comes to. -/
def Operation.kind : Operation → EventKind
  | .createWorkUnit .. => .workUnitCreated
  | .closeWorkUnit .. => .workUnitClosed
  | .createRun .. => .runCreated
  | .closeRun .. => .runClosed
  | .beginRequest .. => .requestAccepted
  | .reserve .. => .reservationCreated
  | .markStarted .. => .attemptStarted
  | .settle .. => .attemptSettled
  | .finalize .. => .requestFinalized

namespace Manager

variable {D : Type} {cat : Catalogue D} {m : Manager D} {x : Reading} {op : Operation} {e : Event}

/-- An operation that comes to an event at once comes to one of its kind, and is no close of a Run
and no reservation. -/
lemma outcome_kind (made : m.outcome cat x op = .ok (some e)) :
    e.kind = op.kind ∧ e.eventID = x.eventID ∧ op.kind ≠ .runClosed ∧
      op.kind ≠ .reservationCreated := by
  cases op with
  | createWorkUnit =>
    obtain ⟨-, rfl⟩ := createWorkUnit_ok made
    exact ⟨rfl, rfl, nofun, nofun⟩
  | closeWorkUnit =>
    obtain ⟨-, rfl, -⟩ := closeWorkUnit_ok made
    exact ⟨rfl, rfl, nofun, nofun⟩
  | createRun =>
    obtain ⟨-, rfl, -⟩ := createRun_ok made
    exact ⟨rfl, rfl, nofun, nofun⟩
  | beginRequest =>
    obtain ⟨rfl, -⟩ := beginRequestAttributed_ok (map_some_ok made)
    exact ⟨rfl, rfl, nofun, nofun⟩
  | settle =>
    obtain ⟨cost, rfl⟩ := settle_ok (map_some_ok made)
    exact ⟨rfl, rfl, nofun, nofun⟩
  | markStarted | finalize =>
    obtain rfl := Option.some.inj (Except.ok.inj made)
    exact ⟨rfl, rfl, nofun, nofun⟩
  | closeRun | reserve => cases made

/-- A Run is created under a new identifier. -/
lemma outcome_runID (made : m.outcome cat x op = .ok (some e)) (hk : e.kind = .runCreated) :
    op.drawsID = true ∧ e.runID = x.newID := by
  rw [(outcome_kind made).1] at hk
  cases op with
  | createRun =>
    obtain ⟨-, rfl, -⟩ := createRun_ok made
    exact ⟨rfl, rfl⟩
  | _ => cases hk

end Manager

end Budget

end Halro
