import Mathlib.Tactic.Push
import Mathlib.Tactic.SplitIfs

/-!
# Checks that end in an error

A chain of guards `if c then error else …` accepts exactly when every guard is false.  The lemma
below reads a chain that accepted as that conjunction.
-/

namespace Framework

universe u v w

/-- A guard that ends in an error is passed exactly when its condition is false. -/
lemma guard_eq_ok {ε : Type u} {α : Type v} {c : Prop} [Decidable c] {err : ε}
    {rest : Except ε α} {a : α} :
    (if c then Except.error err else rest) = Except.ok a ↔ ¬ c ∧ rest = Except.ok a := by
  by_cases hc : c <;> simp [hc]

/-- A sequence of steps succeeds exactly when each of them does. -/
lemma bind_eq_ok {ε : Type u} {α β : Type v} {x : Except ε α} {f : α → Except ε β} {b : β} :
    (x >>= f) = Except.ok b ↔ ∃ a, x = Except.ok a ∧ f a = Except.ok b := by
  cases x with
  | error err => simp [bind, Except.bind]
  | ok a => simp [bind, Except.bind]

lemma map_eq_ok {ε : Type u} {α : Type v} {β : Type w} {x : Except ε α} {f : α → β} {b : β} :
    x.map f = Except.ok b ↔ ∃ a, x = Except.ok a ∧ f a = b := by
  cases x <;> simp [Except.map]

/-- A guard on an optional error, read the same way. -/
lemma guard_eq_none {ε : Type u} {c : Prop} [Decidable c] {err : ε} {rest : Option ε} :
    (if c then some err else rest) = none ↔ ¬ c ∧ rest = none := by
  by_cases hc : c <;> simp [hc]

/-- A guard of an operation that answers with an error and leaves its state as it is. -/
lemma guard_pair_eq_ok {ε : Type u} {α : Type v} {S : Type w} {c : Prop} [Decidable c] {err : ε}
    {rest : Except ε α × S} {a : α} {s t : S} :
    (if c then (Except.error err, s) else rest) = (Except.ok a, t) ↔
      ¬ c ∧ rest = (Except.ok a, t) := by
  by_cases hc : c <;> simp [hc]

end Framework
