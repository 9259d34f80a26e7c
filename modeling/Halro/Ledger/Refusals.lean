import Halro.Ledger.ApplySpec

/-!
# Where a settlement larger than its reservation is refused

Two refusals of `State.apply` say that a settlement exceeds what is reserved.  Both come from the
settlement stage alone, and each reports that a reserved total is less than the amount of the open
reservation the settlement names.
-/

namespace Halro

namespace Ledger

/-- The refusals of a settlement larger than what is reserved. -/
def ApplyError.exceedsReserved : ApplyError → Bool
  | .exceedsProjectBalance _ | .exceedsRunBalance _ => true
  | _ => false

variable {D : Type} {cat : Catalogue D}
namespace State

variable {err : ApplyError} {s : State D}

lemma attributeRequest_not_exceeds {e : Event} (h : s.attributeRequest e = .error err) :
    err.exceedsReserved = false := by
  unfold attributeRequest attributeAccepted checkAttribution at h
  repeat' split at h
  all_goals first
    | cases h; rfl
    | cases h

lemma checkSettlement_not_exceeds {e : Event} {res : AttemptReservation}
    (h : checkSettlement e res = some err) : err.exceedsReserved = false := by
  simp only [checkSettlement] at h
  repeat' split at h
  all_goals first
    | cases h; rfl
    | cases h

lemma applySettled_exceeds {e : Event} (h : s.applySettled e = .error err)
    (hex : err.exceedsReserved = true) :
    ∃ res, s.reservations.lookup e.attemptID = some res ∧ Settles e res ∧
      ((s.balance e.balanceKey).reservedMicrosUSD < res.amount ∨
        e.runID ≠ "" ∧ res.lease.leaseMode ≠ .unknownAllowed ∧
          (s.run e.runID).reservedMicrosUSD < res.amount) := by
  unfold applySettled at h
  split at h
  · cases h
    cases hex
  rename_i res hl
  split at h
  · rename_i hc
    cases h
    rw [checkSettlement_not_exceeds hc] at hex
    cases hex
  rename_i hc
  refine ⟨res, hl, settles_of_check hc, or_iff_not_imp_left.mpr fun hlt => ?_⟩
  split at h
  · rename_i hb
    cases h
    unfold settleBalance at hb
    rw [if_neg hlt] at hb
    split at hb
    · cases hb
    · cases hb
      cases hex
  split_ifs at h with hrun
  split at h
  · rename_i hr
    cases h
    simp only [settleRun] at hr
    split at hr
    · rename_i hg
      exact ⟨hrun, hg⟩
    · split at hr
      · cases hr
      · cases hr
        cases hex
  · cases h

lemma applyKind_exceeds {t : State D} {r : Record} (h : s.applyKind r = .error (t, err))
    (hex : err.exceedsReserved = true) :
    s.applySettled r.event = .error err := by
  have never : ∀ {key : BalanceKey} {result : Except ApplyError (State D)},
      (∀ e', result = .error e' → e'.exceedsReserved = false) →
      s.unchanged key result = .error (t, err) → s.applySettled r.event = .error err := by
    intro key result hr hu
    cases result with
    | ok _ => cases hu
    | error e' =>
      obtain ⟨-, rfl⟩ := Prod.mk.inj (Except.error.inj hu)
      rw [hr _ rfl] at hex
      cases hex
  unfold applyKind at h
  cases hk : r.event.kind <;> simp only [hk] at h
  case attemptSettled =>
    split at h <;> cases h
    assumption
  case reservationCreated =>
    unfold applyReservation at h
    simp only at h
    repeat' split at h
    all_goals first
      | cases h; cases hex
      | cases h
  all_goals first
    | cases h
    | refine never (fun e' he => ?_) h
      simp only [applyWorkUnitCreated, applyWorkUnitClosed, applyRunCreated, applyRunClosed,
        applyStarted] at he
      repeat' split at he
      all_goals first
        | cases he; rfl
        | cases he

variable [DecidableEq D]

/-- **An exceeding settlement.**  It names an open reservation whose amount is more than the
reserved total of its balance or of its Run. -/
lemma apply_exceeds {t : State D} {r : Record} (h : s.apply cat r = .error (t, err))
    (hex : err.exceedsReserved = true) :
    s.applySettled r.event = .error err := by
  have other : ∀ {u : State D} {e' : ApplyError}, e'.exceedsReserved = false →
      (Except.error (u, e') : Except (State D × ApplyError) (State D)) = .error (t, err) →
      s.applySettled r.event = .error err := by
    intro u e' hne he
    rw [(Prod.mk.inj (Except.error.inj he)).2, hex] at hne
    cases hne
  have freshCase : ∀ digest, s.applyFresh r digest = .error (t, err) →
      s.applySettled r.event = .error err := by
    intro digest hf
    unfold applyFresh at hf
    split at hf <;> rename_i ha
    · exact other (attributeRequest_not_exceeds ha) hf
    · split at hf <;> cases hf
      rename_i hk
      have hs := applyKind_exceeds hk hex
      rwa [attributeRequest_eq_self (applyKind_error hk).1 ha] at hs
  unfold apply at h
  simp only at h
  repeat' split at h
  all_goals first
    | exact other rfl h
    | exact freshCase _ h
    | cases h

end State

end Ledger

end Halro
