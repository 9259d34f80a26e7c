import Halro.Budget.Operations
import Halro.Budget.RunAccounting

/-!
# Budget safety

An amount is admitted against what the accounting state shows, what is pending, and itself.  It
stays pending until after its record is applied, so between the decision and the ledger it is never
uncounted.  This module carries that argument through every interleaving: in each state reached,
what a balance or a Run has spent, together with what is admitted for it and not applied, stays
within its budget, apart from what settlements went over their reservations; and when no call is
under way, the counters are zero.
-/

namespace Halro

open Framework Framework.FinMap

namespace Budget

open Ledger Effect Manager

variable {D : Type} {cat : Catalogue D} {m n : Manager D} {a : Action}

/-! ## The calls under way -/

/-- What the call of an event holds: the amount of a reservation of known price. -/
def holdOf (e : Event) : Option Hold :=
  if e.kind = .reservationCreated ∧ e.leaseMode ≠ .unknownAllowed then
    some ⟨e.balanceKey, e.reservationAmount, e.runID⟩
  else none

lemma holdOf_of_ne {e : Event} (hk : e.kind ≠ .reservationCreated) : holdOf e = none := by
  rw [holdOf, if_neg fun hc => hk hc.1]

/-- What a reservation's call holds is what its event reserves. -/
lemma Manager.Admits.hold_eq {x : Reading} {q : Request} {dailyBudget : ℤ} {spec : LeaseSpec}
    {b : Admission} (h : Admits cat m x q dailyBudget spec b) (metadata : AttemptMetadata) :
    (if spec.counted ∨ q.runID ≠ "" then
      some (⟨q.balanceKey, spec.reservationMicrosUSD, q.runID⟩ : Hold) else none) =
      holdOf (reservedEvent x q spec metadata) := by
  have hmode : (reservedEvent x q spec metadata).leaseMode = spec.mode := rfl
  by_cases hcntd : spec.counted = true
  · have hknown : spec.mode ≠ .unknownAllowed := by simpa [LeaseSpec.counted] using hcntd
    have hamt : (reservedEvent x q spec metadata).reservationAmount =
        spec.reservationMicrosUSD := by
      simp [Event.reservationAmount, reservedEvent, hcntd]
    rw [if_pos (Or.inl hcntd), holdOf, if_pos ⟨rfl, by rw [hmode]; exact hknown⟩, hamt]
    rfl
  · have hrun : q.runID = "" := by
      by_contra hne
      exact hcntd (h.counted hne)
    have hunknown : spec.mode = .unknownAllowed := by simpa [LeaseSpec.counted] using hcntd
    rw [if_neg (by simp [hcntd, hrun]), holdOf, if_neg (by rw [hmode, hunknown]; simp)]

/-- The calls agree with the log and with the history: a durable call's record is its event, a call
holds what its event reserves, and each Run is created by one call. -/
structure CallsSound (m : Manager D) : Prop where
  logged : ∀ x ∈ m.history, ∃ r ∈ m.log, r.event = x.event
  durable : ∀ i c r, m.calls.lookup i = some c → c.stage = .durable r →
    r ∈ m.log ∧ r.event = c.event
  holds : ∀ i c, m.calls.lookup i = some c → c.hold = holdOf c.event
  draining : ∀ i c, m.calls.lookup i = some c → c.stage = .draining → c.event.kind = .runClosed
  uncreated : ∀ i c, m.calls.lookup i = some c → c.event.kind = .runCreated →
    c.stage.isApplied = false → ∀ x ∈ m.history, ¬ x.CreatesRun c.event.runID
  distinct : ∀ i j c d, m.calls.lookup i = some c → m.calls.lookup j = some d →
    c.event.kind = .runCreated → d.event.kind = .runCreated → c.event.runID = d.event.runID → i = j

namespace CallsSound

variable {id : ℕ} {c d : Call}

lemma new (archiving : Bool) : CallsSound (Manager.new D archiving) := by
  constructor <;> intros <;> simp_all [Manager.new, history]

/-- A call that moves on, and whose event may enter the history once the call counts as applied. -/
lemma move (h : CallsSound m) (hc : m.calls.lookup id = some c)
    (hcalls : n.calls = m.calls.insert id d) (hlog : ∀ r ∈ m.log, r ∈ n.log)
    (hkind : d.event.kind = c.event.kind) (hrun : d.event.runID = c.event.runID)
    (hhold : d.hold = holdOf d.event) (hstage : d.stage ≠ .draining)
    (happl : d.stage.isApplied = false → c.stage.isApplied = false)
    (hdur : ∀ r, d.stage = .durable r → r ∈ n.log ∧ r.event = d.event)
    (hhist : ∀ x ∈ n.history, x ∈ m.history ∨
      (x.event = c.event ∧ d.stage.isApplied = true ∧ ∃ r ∈ n.log, r.event = x.event)) :
    CallsSound n := by
  have hlook : ∀ i b, n.calls.lookup i = some b →
      i = id ∧ d = b ∨ i ≠ id ∧ m.calls.lookup i = some b := by
    rw [hcalls]
    exact fun i b => lookup_insert_cases
  have hsame : ∀ i b, n.calls.lookup i = some b →
      ∃ b', m.calls.lookup i = some b' ∧ b.event.kind = b'.event.kind ∧
        b.event.runID = b'.event.runID := by
    intro i b hb
    obtain ⟨rfl, rfl⟩ | ⟨-, hb⟩ := hlook i b hb
    · exact ⟨c, hc, hkind, hrun⟩
    · exact ⟨b, hb, rfl, rfl⟩
  refine ⟨fun x hx => ?_, fun i b r hb hs => ?_, fun i b hb => ?_, fun i b hb hs => ?_,
    fun i b hb hk ha x hx hcrs => ?_, fun i j b b' hb hb' hk hk' hid => ?_⟩
  · rcases hhist x hx with hx | ⟨-, -, hr⟩
    · obtain ⟨r, hr, he⟩ := h.logged x hx
      exact ⟨r, hlog r hr, he⟩
    · exact hr
  · obtain ⟨-, rfl⟩ | ⟨-, hb⟩ := hlook i b hb
    · exact hdur r hs
    · obtain ⟨hr, he⟩ := h.durable i b r hb hs
      exact ⟨hlog r hr, he⟩
  · obtain ⟨-, rfl⟩ | ⟨-, hb⟩ := hlook i b hb
    · exact hhold
    · exact h.holds i b hb
  · obtain ⟨-, rfl⟩ | ⟨-, hb⟩ := hlook i b hb
    · exact absurd hs hstage
    · exact h.draining i b hb hs
  · obtain ⟨-, rfl⟩ | ⟨hi, hb⟩ := hlook i b hb
    · rcases hhist x hx with hx | ⟨-, hd, -⟩
      · rw [hkind] at hk
        rw [hrun] at hcrs
        exact h.uncreated id c hc hk (happl ha) x hx hcrs
      · rw [ha] at hd
        cases hd
    · rcases hhist x hx with hx | ⟨he, -, -⟩
      · exact h.uncreated i b hb hk ha x hx hcrs
      · obtain ⟨hcred, hid⟩ := hcrs
        rw [he] at hcred hid
        exact hi (h.distinct i id b c hb hc hk hcred hid.symm)
  · obtain ⟨e, he, hek, her⟩ := hsame i b hb
    obtain ⟨e', he', hek', her'⟩ := hsame j b' hb'
    rw [hek] at hk
    rw [hek'] at hk'
    rw [her, her'] at hid
    exact h.distinct i j e e' he he' hk hk' hid

/-- A call that moves to another stage, with everything else as it was. -/
lemma stay (h : CallsSound m) (hc : m.calls.lookup id = some c) {stage : Stage}
    (hcalls : n.calls = m.calls.insert id { c with stage := stage })
    (hlog : ∀ r ∈ m.log, r ∈ n.log) (hstage : stage ≠ .draining)
    (happl : stage.isApplied = false → c.stage.isApplied = false)
    (hdur : ∀ r, stage = .durable r → r ∈ n.log ∧ r.event = c.event)
    (hhist : ∀ x ∈ n.history, x ∈ m.history ∨
      (x.event = c.event ∧ stage.isApplied = true ∧ ∃ r ∈ n.log, r.event = x.event)) :
    CallsSound n := by
  have hhold := h.holds id c hc
  exact h.move hc hcalls hlog rfl rfl hhold hstage happl hdur hhist

/-- A call that starts: what it creates is new. -/
lemma begin (h : CallsSound m) (hhold : c.hold = holdOf c.event)
    (hstage : c.stage = .draining → c.event.kind = .runClosed)
    (hdur : ∀ r, c.stage ≠ .durable r)
    (hnew : c.event.kind = .runCreated → m.Unused c.event.runID)
    (projects : FinMap String Admission) :
    CallsSound { m with projects := projects, calls := m.calls.insert id c } := by
  have other : ∀ i b, m.calls.lookup i = some b → c.event.kind = .runCreated →
      b.event.runID ≠ c.event.runID := by
    intro i b hb hk hid
    refine every_iff.mp (hnew hk).2 i b hb ?_
    simp [identifiers, hid]
  refine ⟨h.logged, fun i b r hb hs => ?_, forall_insert hhold h.holds,
    forall_insert hstage h.draining,
    forall_insert (fun hk _ x hx hcrs => ?_) h.uncreated,
    fun i j b b' hb hb' hk hk' hid => ?_⟩
  · obtain ⟨-, rfl⟩ | ⟨-, hb⟩ := lookup_insert_cases hb
    · exact absurd hs (hdur r)
    · exact h.durable i b r hb hs
  · obtain ⟨r, hr, he⟩ := h.logged x hx
    refine (hnew hk).1 r hr ?_
    rw [he]
    simp [identifiers, hcrs.2]
  · obtain ⟨rfl, rfl⟩ | ⟨-, hold⟩ := lookup_insert_cases hb <;>
      obtain ⟨rfl, rfl⟩ | ⟨-, hold'⟩ := lookup_insert_cases hb'
    · rfl
    · exact absurd hid.symm (other j b' hold' hk)
    · exact absurd hid (other i b hold hk')
    · exact h.distinct i j b b' hold hold' hk hk' hid

/-- A call that returns. -/
lemma erase (h : CallsSound m) (projects : FinMap String Admission) :
    CallsSound { m with projects := projects, calls := m.calls.erase id } where
  logged := h.logged
  durable i b r hb := h.durable i b r (lookup_erase_cases hb).2
  holds i b hb := h.holds i b (lookup_erase_cases hb).2
  draining i b hb := h.draining i b (lookup_erase_cases hb).2
  uncreated i b hb := h.uncreated i b (lookup_erase_cases hb).2
  distinct i j b b' hb hb' :=
    h.distinct i j b b' (lookup_erase_cases hb).2 (lookup_erase_cases hb').2

end CallsSound

/-! ## Everything together -/

/-- Everything is accounted for: the ledger agrees with its history, the counters with the calls, the
calls with the log, and every Run is within its budget. -/
structure Accounted (cat : Catalogue D) (m : Manager D) : Prop where
  books : Books cat m.state m.history
  counters : Counters m
  calls : CallsSound m
  runs : RunsAccounted m

namespace Accounted

variable {id : ℕ} {c : Call} {record : Record}

lemma new (archiving : Bool) : Accounted cat (Manager.new D archiving) where
  books := Books.new archiving
  counters := .new archiving
  calls := .new archiving
  runs := .new archiving

section

variable (h : Accounted cat m)

include h

section

variable (hc : m.calls.lookup id = some c)

include hc

/-- What a call holds under a Run is what its event opens there. -/
lemma measure_forRun (run : String) : c.measure (forRun run) = opened (heldByRun run) c.event := by
  have hhold := h.calls.holds id c hc
  unfold holdOf at hhold
  rw [opened_heldByRun]
  by_cases hc : c.event.kind = .reservationCreated ∧ c.event.leaseMode ≠ .unknownAllowed
  · rw [if_pos hc] at hhold
    rw [Call.measure_some hhold, forRun]
    by_cases hrun : c.event.runID = run
    · rw [if_pos (by exact hrun), if_pos ⟨hc.1, hrun, hc.2⟩]
    · rw [if_neg (by exact hrun), if_neg (by rintro ⟨-, hr, -⟩; exact hrun hr)]
  · rw [if_neg hc] at hhold
    rw [Call.measure_none hhold, if_neg (by rintro ⟨hk, -, hm⟩; exact hc ⟨hk, hm⟩)]

/-- What a call holds against a balance is what its event opens there. -/
lemma measure_forKey (hv : c.event.validate cat = []) (key : BalanceKey) :
    c.measure (forKey key) = opened (heldAgainst key) c.event := by
  have hhold := h.calls.holds id c hc
  unfold holdOf at hhold
  rw [opened_heldAgainst]
  by_cases hc : c.event.kind = .reservationCreated ∧ c.event.leaseMode ≠ .unknownAllowed
  · rw [if_pos hc] at hhold
    rw [Call.measure_some hhold, forKey]
    by_cases hkey : c.event.balanceKey = key
    · rw [if_pos (by exact hkey), if_pos ⟨hc.1, hkey⟩]
    · rw [if_neg (by exact hkey), if_neg (by rintro ⟨-, hk⟩; exact hkey hk)]
  · rw [if_neg hc] at hhold
    rw [Call.measure_none hhold]
    -- a reservation that is not held has no known price, and reserves nothing
    split_ifs with hopen
    · have hm : c.event.leaseMode = .unknownAllowed := by
        by_contra hm
        exact hc ⟨hopen.1, hm⟩
      rw [Event.unknown_reserves_nothing hv hopen.1 hm]
    · rfl

lemma amount_nonneg (hold : Hold) (hh : c.hold = some hold) : 0 ≤ hold.amount :=
  h.counters.amount id c hold hc hh

/-- A durable reservation fits its Run's total, because it was admitted. -/
lemma runTotalFits (hs : c.stage = .durable record) : m.state.RunTotalFits record := by
  intro hk hrun hm
  have he := (h.calls.durable id c record hc hs).2
  have hfits := h.runs.fits record.event.runID hrun
  -- the amount is among what is not applied
  have hamt : record.event.reservationAmount ≤ m.unapplied (forRun record.event.runID) := by
    have hmeas := h.measure_forRun hc record.event.runID
    rw [opened_heldByRun, ← he, if_pos ⟨hk, rfl, hm⟩] at hmeas
    have hle := le_total (f := fun _ c => if c.stage.isApplied then 0 else
      c.measure (forRun record.event.runID)) (fun i d hd => by
        have hnn := Quieter.measure_nonneg (c := d) (f := forRun record.event.runID)
          (fun hold hpos => by unfold forRun; split_ifs <;> omega) (h.amount_nonneg hd)
        split_ifs
        · exact le_refl 0
        · exact hnn) hc
    rw [hs] at hle
    simp only [Stage.isApplied, Bool.false_eq_true, if_false, hmeas] at hle
    exact hle
  -- the Run's total is that of its open reservations, or nothing
  have hrsvd : (m.state.run record.event.runID).reservedMicrosUSD ≤
      m.state.reservations.total (heldByRun record.event.runID) := by
    cases hl : m.state.runs.lookup record.event.runID with
    | some run =>
      rw [run_of_lookup hl, h.books.runReserved _ run hl]
    | none =>
      have hzero : (m.state.run record.event.runID).reservedMicrosUSD = 0 := by
        rw [State.run, getD_of_none _ hl]
        rfl
      rw [hzero]
      refine total_nonneg fun a res hres => ?_
      have hsound := h.books.sound a res hres
      have := (Event.valid_of_validate hsound.valid).reservationAmount_nonneg
      rw [heldByRun, hsound.amount]
      split_ifs <;> omega
  omega

end

end

end Accounted

/-! ## One step -/

/-- What a step does to the ledger and to what is not applied of it: nothing that adds to either, an
admission, the effect of a record, or the writing of the archive queue. -/
inductive Effective (cat : Catalogue D) (m : Manager D) (a : Action) (n : Manager D) : Prop
  | quieter (quieter : Quieter m n)
  | admitted {id : ℕ} {x : Reading} {q : Request} {dailyBudget : ℤ} {spec : LeaseSpec}
      {metadata : AttemptMetadata} {b : Admission} {c : Call}
      (action : a = .call id (.reserve q dailyBudget spec metadata) x)
      (free : m.calls.lookup id = none) (admits : Admits cat m x q dailyBudget spec b)
      (counted : spec.counted = true)
      (hold : c.hold = some ⟨q.balanceKey, spec.reservationMicrosUSD, q.runID⟩)
      (stage : c.stage.isApplied = false)
      (eq : n = (m.setAdmission q.projectID b).enter id c)
  | played {id : ℕ} {c : Call} {record : Record} {gone : Finset String} {t : State D}
      (call : m.calls.lookup id = some c) (event : record.event = c.event)
      (change : Change m.state record gone t) (valid : record.event.validate cat = [])
      (new : record.event.kind = .runCreated →
        ∀ x ∈ m.history, ¬ x.CreatesRun record.event.runID)
      (ledger : n.ledger = (t, m.state.entry record.event :: m.history))
      (archive : n.archive = m.archive)
      (holds : ∀ i d hold, n.calls.lookup i = some d → d.hold = some hold →
        ∃ j d', m.calls.lookup j = some d' ∧ d'.hold = some hold)
      (unapplied : ∀ f, n.unapplied f = m.unapplied f - c.measure f)
  | flushed (eq : n = m.flush)

namespace Accounted

variable {id : ℕ} {c : Call} {record : Record}

lemma step_runs (h : Accounted cat m) (he : Effective cat m a n) : RunsAccounted n := by
  cases he with
  | quieter quieter => exact h.runs.quieter quieter
  | admitted action free admits counted hold stage eq =>
    rw [eq]
    have hcheck := (admitForRun_ok admits.admitted).2.2
    rw [counted] at hcheck
    exact h.runs.admitting h.counters h.books.runsHeld.id free admits.amount_nonneg hold stage hcheck
  | played call event change valid new ledger archive holds unapplied =>
    refine h.runs.play h.books change valid new ledger archive holds fun run _ => ?_
    rw [unapplied, event, h.measure_forRun call]
    omega
  | flushed eq =>
    rw [eq]
    exact h.runs.shelve m.rearranged_flush

lemma releaseCall_eq (m : Manager D) (id : ℕ) (c : Call) : m.releaseCall id c =
    ({ m.releaseHold c with calls := m.calls.erase id } : Manager D).finishClose c := by
  simp only [releaseCall, finishClose, releaseHold]
  split_ifs <;> split <;> rfl

/-- An uncounted lease leaves its project's admission state as it is. -/
lemma admitted_uncounted (b : Admission) (key : BalanceKey) (amount : ℤ) :
    b.admitted key amount false "" = { b with closingRuns := b.closingRuns } := by
  simp [Admission.admitted]

variable [DecidableEq D]

section

variable (h : Accounted cat m)

include h

/-- The application of a record. -/
lemma effective_applied (hc : m.calls.lookup id = some c)
    (hs : c.stage = .durable record) : Effective cat m (.apply id)
      { m.move id c .applied with ledger := play cat m.ledger record } := by
  have he := (h.calls.durable id c record hc hs).2
  have hunapplied : c.stage.isApplied = false := by rw [hs]; rfl
  rcases play_cases h.books (h.runTotalFits hc hs) with
    ⟨hhist, hmaps⟩ | ⟨⟨gone, hchg⟩, hv, -, hhist⟩
  · exact .quieter (.applied hc hunapplied (h.amount_nonneg hc) hmaps hhist)
  · refine .played hc he hchg hv (fun hk => ?_) (Prod.ext rfl hhist) rfl
      (fun i d hold hd hh => ?_) fun f => unapplied_applied hc hunapplied
    · rw [he] at hk ⊢
      exact h.calls.uncreated id c hc hk hunapplied
    · exact holds_of_insert hc hd rfl hh

section

variable (hs : Stepped cat m a n)

include hs

/-- The effect of a step. -/
lemma effective : Effective cat m a n := by
  cases hs with
  | idle => exact .quieter ⟨.refl _, rfl, rfl, fun i c hold hc hh => ⟨i, c, hc, hh⟩,
      fun _ => le_refl _⟩
  | begun may made free | closing may event made free =>
    exact .quieter (.begin may.1 rfl rfl)
  | reserved may admits =>
    rename_i id x q dailyBudget spec metadata b
    by_cases hcntd : spec.counted = true
    · exact .admitted rfl may.1 admits hcntd (by simp [hcntd]) rfl rfl
    · have hrun : q.runID = "" := by
        by_contra hne
        exact hcntd (admits.counted hne)
      exact .quieter (.begin may.1 (by simp [hcntd, hrun]) rfl)
  | drained call stage drained | cleared call stage healthy =>
    exact .quieter (.move call (by rfl) (by rw [stage]; rfl))
  | ended call stage => exact .quieter (.move call (by rfl) (by exact stage.symm))
  | appended call stage appendable =>
    refine .quieter (.move call (by rfl) ?_)
    rw [stage]
    split_ifs <;> rfl
  | applied call stage healthy order ok => exact h.effective_applied call stage
  | poisoned call stage healthy order refused =>
    rw [play_refused refused (h.runTotalFits call stage)]
    exact .quieter (.move call (by rfl) (by rw [stage]; rfl))
  | released call stage =>
    rename_i id c isApplied
    obtain ⟨projects, heq⟩ := releaseCall_frame m id c
    rw [heq]
    exact .quieter (.erase call (h.amount_nonneg call))
  | flushed archiving => exact .flushed rfl

/-! ## The steps keep everything accounted for -/

lemma step_counters : Counters n := by
  have hm := h.counters
  cases hs with
  | idle => exact hm
  | begun may made free => exact hm.begin may.1 rfl
  | closing may event made free => exact (hm.closing _ _).begin (by exact may.1) rfl
  | reserved may admits =>
    rename_i id x q dailyBudget spec metadata b
    obtain ⟨rfl, -, -⟩ := admitForRun_ok admits.admitted
    by_cases hcntd : spec.counted = true
    · rw [if_pos (Or.inl hcntd), hcntd]
      exact hm.admitting (c := ⟨reservedEvent x q spec metadata,
        some ⟨q.balanceKey, spec.reservationMicrosUSD, q.runID⟩, .ready⟩) may.1
        admits.amount_nonneg rfl
    · have hrun : q.runID = "" := by
        by_contra hne
        exact hcntd (admits.counted hne)
      rw [if_neg (by simp [hcntd, hrun]), Bool.not_eq_true _ |>.mp hcntd, hrun, admitted_uncounted]
      exact (hm.closing _ _).begin (by exact may.1) rfl
  | drained call stage drained => exact hm.move call rfl
  | cleared call stage healthy => exact hm.move call rfl
  | ended call stage => exact hm.move call rfl
  | appended call stage appendable =>
    rename_i id c result
    exact { hm.move (d := ⟨_, _, if result = .lost then .done false
      else .durable (m.nextRecord c.event)⟩) call rfl with }
  | applied call stage healthy order ok =>
    exact { hm.move (d := ⟨_, _, .applied⟩) call rfl with }
  | poisoned call stage healthy order refused =>
    exact { hm.move (d := ⟨_, _, .done false⟩) call rfl with }
  | released call stage =>
    rw [releaseCall_eq]
    unfold finishClose
    split_ifs
    · exact (hm.release call).closing _ _
    · exact hm.release call
  | flushed archiving => exact { hm with }

lemma step_calls : CallsSound n := by
  have hm := h.calls
  cases hs with
  | idle => exact hm
  | begun may made free =>
    obtain ⟨hkind, -, -, hrsv⟩ := outcome_kind made
    refine hm.begin (holdOf_of_ne (hkind ▸ hrsv)).symm (fun hd => by cases hd)
      (fun r hr => by cases hr) (fun hk => ?_) _
    obtain ⟨hdraws, hid⟩ := outcome_runID made hk
    rw [hid]
    exact may.2.2 hdraws
  | closing may event made free =>
    subst event
    exact hm.begin (holdOf_of_ne (by exact fun hk => by cases hk)).symm (fun _ => rfl)
      (fun r hr => by cases hr) (fun hk => by cases hk) _
  | reserved may admits =>
    exact hm.begin (admits.hold_eq _) (fun hd => by cases hd) (fun r hr => by cases hr)
      (fun hk => by cases hk) _
  | drained call stage drained =>
    rename_i id c now period
    have hkind := hm.draining id c call stage
    have hne : c.event.kind ≠ .reservationCreated := by rw [hkind]; simp
    have hnone := hm.holds id c call
    rw [holdOf_of_ne hne] at hnone
    exact hm.move call rfl (fun r hr => hr) rfl rfl (hnone.trans (holdOf_of_ne (by exact hne)).symm)
      (by simp) (fun _ => by rw [stage]; rfl) (fun r hr => by cases hr) fun x hx => Or.inl hx
  | cleared call stage healthy =>
    exact hm.stay call rfl (fun r hr => hr) (by simp) (fun _ => by rw [stage]; rfl)
      (fun r hr => by cases hr) fun x hx => Or.inl hx
  | ended call stage =>
    exact hm.stay call rfl (fun r hr => hr) (by simp) (fun hd => stage.trans hd)
      (fun r hr => by cases hr) fun x hx => Or.inl hx
  | appended call stage appendable =>
    refine hm.stay call rfl (fun r hr => List.mem_append_left _ hr) ?_
      (fun _ => by rw [stage]; rfl) (fun r hr => ?_) fun x hx => Or.inl hx
    · split_ifs <;> simp
    · split_ifs at hr
      obtain rfl := Stage.durable.inj hr
      exact ⟨List.mem_append_right _ List.mem_cons_self, rfl⟩
  | applied call stage healthy order ok =>
    rename_i id c record
    obtain ⟨hr, he⟩ := hm.durable id c record call stage
    refine hm.stay call rfl (fun r hr => hr) (by simp) (fun hd => by cases hd)
      (fun r hr => by cases hr) fun x hx => ?_
    change x ∈ (play cat m.ledger record).2 at hx
    rcases play_cases h.books (h.runTotalFits call stage) with
      ⟨hhist, -⟩ | ⟨-, -, -, hhist⟩
    · exact Or.inl (by rw [hhist] at hx; exact hx)
    · rw [hhist] at hx
      rcases List.mem_cons.mp hx with rfl | hx
      · exact Or.inr ⟨he, rfl, record, hr, rfl⟩
      · exact Or.inl hx
  | poisoned call stage healthy order refused =>
    refine hm.stay call rfl (fun r hr => hr) (by simp) (fun _ => by rw [stage]; rfl)
      (fun r hr => by cases hr) fun x hx => ?_
    rw [play_refused refused (h.runTotalFits call stage)] at hx
    exact Or.inl hx
  | released call stage =>
    rename_i id c isApplied
    obtain ⟨projects, heq⟩ := releaseCall_frame m id c
    rw [heq]
    exact hm.erase projects
  | flushed archiving => exact { hm with }

lemma step_books : Books cat n.state n.history := by
  have hm := h.books
  cases hs with
  | applied call stage healthy order ok | poisoned call stage healthy order refused =>
    exact hm.play (h.runTotalFits call stage)
  | flushed archiving => exact { hm with }
  | released call stage =>
    obtain ⟨projects, heq⟩ := releaseCall_frame m _ _
    rw [heq]
    exact hm
  | _ => exact hm

/-- **Step lemma.** -/
lemma step : Accounted cat n where
  books := h.step_books hs
  counters := h.step_counters hs
  calls := h.step_calls hs
  runs := h.step_runs (h.effective hs)

end

end

end Accounted

/-! ## The daily budget -/

/-- The balance and the daily budget of a reservation that starts. -/
def Action.reservation : Action → Option (BalanceKey × ℤ)
  | .call _ (.reserve q dailyBudget _ _) _ => some (q.balanceKey, dailyBudget)
  | _ => none

/-- A reservation against the balance is made under the daily budget `limit`. -/
def FixedBudget (key : BalanceKey) (limit : ℤ) (_ : Manager D) (a : Action) : Prop :=
  ∀ r ∈ a.reservation, r.1 = key → r.2 = limit

instance (key : BalanceKey) (limit : ℤ) (m : Manager D) (a : Action) :
    Decidable (FixedBudget key limit m a) :=
  inferInstanceAs (Decidable (∀ r ∈ a.reservation, _ → _))

/-- The load of a balance, with what is admitted against it and not applied, stays in a limit. -/
def Bounded (key : BalanceKey) (limit : ℤ) (m : Manager D) : Prop :=
  keyLoad key m.state m.history + m.unapplied (forKey key) ≤ limit

/-- What is not applied of a balance is among what its project has pending for it. -/
lemma unapplied_le_pending (hc : Counters m) (key : BalanceKey) :
    m.unapplied (forKey key) ≤ (m.admission key.projectID).pending.getD key 0 := by
  rw [hc.pending, if_pos rfl]
  refine total_le_total fun entry he => ?_
  have hnn := Quieter.measure_nonneg (c := entry.2) (f := forKey key)
    (fun hold hpos => by unfold forKey; split_ifs <;> omega)
    fun hold hh => hc.amount _ _ hold (Finmap.lookup_eq_some_iff.mpr he) hh
  split_ifs
  · exact hnn
  · exact le_refl _

lemma Bounded.step {key : BalanceKey} {limit : ℤ} (hpos : 0 < limit) (h : Accounted cat m)
    (hb : Bounded key limit m) (hfixed : FixedBudget key limit m a) (he : Effective cat m a n) :
    Bounded key limit n := by
  unfold Bounded at hb ⊢
  cases he with
  | quieter quieter =>
    obtain ⟨digests, order, next, watermark, hstate⟩ := quieter.maps
    have hle := quieter.unapplied (f := forKey key) fun hold hpos => by
      unfold forKey
      split_ifs <;> omega
    rw [hstate, quieter.history]
    change keyLoad key m.state m.history + n.unapplied (forKey key) ≤ limit
    omega
  | admitted action free admits counted hold stage eq =>
    rename_i id x q dailyBudget spec metadata b c
    subst action
    have hsum : n.unapplied (forKey key) =
        forKey key ⟨q.balanceKey, spec.reservationMicrosUSD, q.runID⟩ +
          m.unapplied (forKey key) := by
      rw [eq, unapplied_enter (by exact free) stage, Call.measure_some hold]
      rfl
    have hload : keyLoad key n.state n.history = keyLoad key m.state m.history := by rw [eq]; rfl
    rw [hsum, hload, forKey]
    by_cases hkey : q.balanceKey = key
    · have hlimit : dailyBudget = limit := hfixed (q.balanceKey, dailyBudget) rfl hkey
      have hdaily := (admitForRun_ok admits.admitted).2.1
      rw [counted] at hdaily
      have hchecked := checkDaily_ok hdaily (by omega)
      have hpend := unapplied_le_pending h.counters key
      have hspend := h.books.balance_spend key
      have hover := settledSum_nonneg (part_overrunOf_nonneg fun e => e.balanceKey = key) m.history
      change 0 ≤ settledSum (onKey key overrunOf) m.history at hover
      subst hkey
      change (m.admission q.projectID).pending.getD q.balanceKey 0 ≥ _ at hpend
      rw [if_pos rfl]
      change _ + (spec.reservationMicrosUSD + _) ≤ limit
      omega
    · rw [if_neg hkey]
      omega
  | played call event change valid new ledger archive holds unapplied =>
    rename_i id c record gone t
    have hstate : n.state = t := by rw [state, ledger]
    have hhist : n.history = m.state.entry record.event :: m.history := by rw [history, ledger]
    have hload := keyLoad_le (h := m.history) change key
    rw [event] at valid
    rw [hstate, hhist, unapplied, h.measure_forKey call valid, ← event]
    omega
  | flushed eq =>
    rw [eq]
    exact hb

/-! ## Whole runs -/

variable [DecidableEq D]

/-- **Budget safety.**  Over any interleaving of any number of operations: under a fixed positive
daily budget for a balance, what is settled, reserved and admitted without being applied stays
within the budget plus what settlements went over their reservations; the same holds for every Run
and its own budget, wherever the Run is kept; and when no call is under way, every counter is
zero. -/
theorem budget_safety (cat : Catalogue D) (archiving : Bool) (actions : List Action) :
    let m := actions.foldl (Manager.step cat) (Manager.new D archiving)
    (∀ (key : BalanceKey) (limit : ℤ), 0 < limit →
      Along (Manager.step cat) (FixedBudget key limit) (Manager.new D archiving) actions →
      (m.state.balance key).committedMicrosUSD + (m.state.balance key).reservedMicrosUSD +
        m.unapplied (forKey key) ≤ limit + settledSum (onKey key overrunOf) m.history) ∧
    (∀ id run, findRun m.archive m.state id = some run →
      run.committedMicrosUSD + run.reservedMicrosUSD + m.unapplied (forRun id) ≤
        run.budgetMicrosUSD + settledSum (onRun id overrunOf) m.history) ∧
    (m.calls = ∅ → ∀ p, (∀ key, (m.admission p).pending.getD key 0 = 0) ∧
      (∀ run, (m.admission p).runPending.getD run 0 = 0) ∧
      ∀ run, (m.admission p).runAdmissions.getD run 0 = 0) := by
  intro m
  have hm : Accounted cat m := List.foldlRecOn actions _ (.new archiving) fun m hm a _ =>
    hm.step (stepped cat m a)
  refine ⟨fun key limit hpos hfixed => ?_, fun id run hfind => ?_, fun hidle p =>
    hm.counters.quiet hidle p⟩
  · have hinit : Accounted cat (Manager.new D archiving) ∧
        Bounded key limit (Manager.new D archiving) := by
      refine ⟨.new archiving, ?_⟩
      have hzero : keyLoad key (Manager.new D archiving).state (Manager.new D archiving).history +
          (Manager.new D archiving).unapplied (forKey key) = 0 := rfl
      rw [Bounded, hzero]
      omega
    have hrun := Along.invariant (I := fun m => Accounted cat m ∧ Bounded key limit m)
      (fun m a hm hfix => ⟨hm.1.step (stepped cat m a),
        hm.2.step hpos hm.1 hfix (hm.1.effective (stepped cat m a))⟩) hinit hfixed
    have hbound : Bounded key limit m := hrun.2
    unfold Bounded at hbound
    rw [hm.books.balance_spend key]
    omega
  · obtain ⟨hknown, hid⟩ := known_of_findRun hm.books.runsHeld.id hfind
    have hr := hm.runs.known run hknown
    have hspend := hr.spend
    have hbound := hr.bounded
    rw [runSpend_eq] at hspend
    rw [hid] at hspend hbound
    omega

/-- What the Manager applies keeps the books whatever its amounts, and no record is refused for
exceeding what is reserved. -/
theorem manager_accounted (cat : Catalogue D) (archiving : Bool) (actions : List Action) :
    let m := actions.foldl (Manager.step cat) (Manager.new D archiving)
    Accounted cat m ∧ ∀ r t err, m.state.apply cat r = .error (t, err) →
      err.exceedsReserved = false := by
  intro m
  have hm : Accounted cat m := List.foldlRecOn actions _ (.new archiving) fun m hm a _ =>
    hm.step (stepped cat m a)
  exact ⟨hm, fun _ _ _ => hm.books.never_exceeds⟩

section ThreeReservations

/-- A reservation of five against a daily budget of ten. -/
def reserveFive (id : ℕ) (eventID attemptID : String) : Action :=
  .call id (.reserve { requestID := "req", projectID := "prj", period := { id := "2026-05-01" } } 10
    { attemptID := attemptID, reservationMicrosUSD := 5 } {})
    { eventID := eventID, now := 1, period := { id := "2026-05-01" } }

/-- Three of them: one starts between the first one's application and its return. -/
def threeReservations : List Action :=
  [reserveFive 0 "evt_0" "att_0", .clear 0, .append 0 .written, .apply 0,
   reserveFive 1 "evt_1" "att_1", .confirm 0, .release 0, reserveFive 2 "evt_2" "att_2"]

/-- The balance the three reservations are charged to. -/
def mayFirst : BalanceKey := ⟨"prj", "2026-05-01", 0⟩

/-- The bound is attained.  The second reservation is refused, because the first is for that moment
both reserved and pending; the third then takes the spend to the budget. -/
theorem budget_safety_threeReservations :
    let m := threeReservations.foldl (Manager.step Catalogue.bare) (Manager.new Event true)
    m.calls.size = 1 ∧ (m.state.balance mayFirst).reservedMicrosUSD = 5 ∧
      m.unapplied (forKey mayFirst) = 5 ∧
      (m.state.balance mayFirst).committedMicrosUSD + (m.state.balance mayFirst).reservedMicrosUSD +
        m.unapplied (forKey mayFirst) ≤ 10 + settledSum (onKey mayFirst overrunOf) m.history :=
  ⟨by decide +kernel, by decide +kernel, by decide +kernel,
    (budget_safety Catalogue.bare true threeReservations).1 mayFirst 10 (by decide)
      (by decide +kernel)⟩

end ThreeReservations

end Budget

end Halro
