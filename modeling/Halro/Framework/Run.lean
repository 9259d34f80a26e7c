import Mathlib.Data.List.Basic

/-!
# Runs of a deterministic machine

A machine is a step function on a state and an input.  A run feeds it a list of inputs.  `Along`
says that every step of a run meets a condition on the state it starts from and its input, which
is how a result about "every run whose steps all meet a condition" is stated; `Along.invariant`
is the induction rule for such results.
-/

namespace Framework

variable {S L : Type} {step : S → L → S}

/-- Every step of the run of `step` from a state over a list of inputs meets `P`. -/
def Along (step : S → L → S) (P : S → L → Prop) : S → List L → Prop
  | _, [] => True
  | s, l :: ls => P s l ∧ Along step P (step s l) ls

instance Along.decidable {P : S → L → Prop} [∀ s l, Decidable (P s l)] :
    (s : S) → (ls : List L) → Decidable (Along step P s ls)
  | _, [] => inferInstanceAs (Decidable True)
  | s, l :: ls => @instDecidableAnd (P s l) (Along step P (step s l) ls) inferInstance
    (Along.decidable (step s l) ls)

lemma Along.append {P : S → L → Prop} {s : S} {ls ms : List L} :
    Along step P s (ls ++ ms) ↔ Along step P s ls ∧ Along step P (ls.foldl step s) ms := by
  induction ls generalizing s with
  | nil => simp [Along]
  | cons l ls ih => simp [Along, ih, and_assoc]

lemma Along.and {P Q : S → L → Prop} {s : S} {ls : List L} (hP : Along step P s ls)
    (hQ : Along step Q s ls) : Along step (fun s l => P s l ∧ Q s l) s ls := by
  induction ls generalizing s with
  | nil => trivial
  | cons l ls ih => exact ⟨⟨hP.1, hQ.1⟩, ih hP.2 hQ.2⟩

lemma Along.imp {P Q : S → L → Prop} (hPQ : ∀ s l, P s l → Q s l) {s : S} {ls : List L}
    (hP : Along step P s ls) : Along step Q s ls := by
  induction ls generalizing s with
  | nil => trivial
  | cons l ls ih => exact ⟨hPQ s l hP.1, ih hP.2⟩

/-- A condition on the inputs alone. -/
lemma Along.of_forall {P : L → Prop} {s : S} {ls : List L} (h : ∀ l ∈ ls, P l) :
    Along step (fun _ l => P l) s ls := by
  induction ls generalizing s with
  | nil => trivial
  | cons l ls ih =>
    obtain ⟨hl, hrest⟩ := List.forall_mem_cons.mp h
    exact ⟨hl, ih hrest⟩

/-- What one step preserves under the condition, a run whose steps meet the condition preserves. -/
lemma Along.invariant {P : S → L → Prop} {I : S → Prop}
    (hstep : ∀ s l, I s → P s l → I (step s l)) {s : S} {ls : List L} (hs : I s)
    (hrun : Along step P s ls) : I (ls.foldl step s) := by
  induction ls generalizing s with
  | nil => exact hs
  | cons l ls ih => exact ih (hstep s l hs hrun.1) hrun.2

end Framework
