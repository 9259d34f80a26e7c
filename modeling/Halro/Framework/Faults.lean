import Mathlib.Data.List.Basic

/-!
# Programs whose storage calls may fail

A program reads and changes a state and makes calls to the storage.  Each call may be cleared, may
fail with an error and without an effect, or may be the last one before the process stops.  What
happens at the calls of one run is a list of faults that the program consumes; after its end every
call is cleared.

`Ensures F p s Q R T` says what holds after a run of `p` from the state `s` when every fault of the
list is one that `F` allows: `Q` of the value and the state if it returns, `R` of the state if it
fails, and `T` of the state the stop leaves.  The rules below go through a program from its first
call to its last one.
-/

namespace Framework

variable {S E A B : Type}

/-- What happens at one call to the storage. -/
inductive Fault
  | clear
  | error
  | stop
  deriving DecidableEq

/-- How a run of a program ended. -/
inductive Ended (E A : Type)
  | returned (value : A)
  | failed (error : E)
  | stopped
  deriving DecidableEq

/-- A finished run: its end, the state it leaves and the faults it did not reach. -/
structure Finished (S E A : Type) where
  ended : Ended E A
  state : S
  faults : List Fault

def Program (S E A : Type) : Type := S → List Fault → Finished S E A

namespace Program

/-- Going on after a run that returned. -/
def andThen (p : Program S E A) (f : A → Program S E B) : Program S E B := fun s faults =>
  match p s faults with
  | ⟨.returned a, s, faults⟩ => f a s faults
  | ⟨.failed e, s, faults⟩ => ⟨.failed e, s, faults⟩
  | ⟨.stopped, s, faults⟩ => ⟨.stopped, s, faults⟩

instance : Monad (Program S E) where
  pure a s faults := ⟨.returned a, s, faults⟩
  bind := andThen

/-- The state as it is. -/
def get : Program S E S := fun s faults => ⟨.returned s, s, faults⟩

/-- A change of the state that is no call to the storage. -/
def modify (f : S → S) : Program S E Unit := fun s faults => ⟨.returned (), f s, faults⟩

def fail (e : E) : Program S E A := fun s faults => ⟨.failed e, s, faults⟩

/-- A check that fails the program. -/
def failIf (c : Prop) [Decidable c] (e : E) : Program S E Unit := if c then fail e else pure ()

/-- A part of a program that is left out unless a condition holds. -/
def onlyIf (c : Prop) [Decidable c] (p : Program S E Unit) : Program S E Unit :=
  if c then p else pure ()

/-- A computation that makes no call. -/
def ofExcept : Except E A → Program S E A
  | .ok a => pure a
  | .error e => fail e

/-- One call to the storage with its effect and the error it may report. -/
def call (effect : S → S) (e : E) : Program S E Unit := fun s faults =>
  match faults with
  | [] => ⟨.returned (), effect s, []⟩
  | .clear :: faults => ⟨.returned (), effect s, faults⟩
  | .error :: faults => ⟨.failed e, s, faults⟩
  | .stop :: faults => ⟨.stopped, effect s, faults⟩

/-- A program with a cleanup of its failures.  A failure of the cleanup itself is not reported. -/
def onError (p : Program S E A) (cleanup : Program S E Unit) : Program S E A := fun s faults =>
  match p s faults with
  | ⟨.returned a, s, faults⟩ => ⟨.returned a, s, faults⟩
  | ⟨.stopped, s, faults⟩ => ⟨.stopped, s, faults⟩
  | ⟨.failed e, s, faults⟩ =>
    match cleanup s faults with
    | ⟨.stopped, s, faults⟩ => ⟨.stopped, s, faults⟩
    | ⟨_, s, faults⟩ => ⟨.failed e, s, faults⟩

/-- A program whose failure is an answer of its own. -/
def attempt (p : Program S E A) : Program S E (Except E A) := fun s faults =>
  match p s faults with
  | ⟨.returned a, s, faults⟩ => ⟨.returned (.ok a), s, faults⟩
  | ⟨.failed e, s, faults⟩ => ⟨.returned (.error e), s, faults⟩
  | ⟨.stopped, s, faults⟩ => ⟨.stopped, s, faults⟩

/-! ## Calls one after the other -/

def calls : List ((S → S) × E) → Program S E Unit
  | [] => pure ()
  | (effect, e) :: rest => do
    call effect e
    calls rest

/-- How many of a number of calls take effect. -/
def reached : ℕ → List Fault → ℕ
  | 0, _ => 0
  | n + 1, [] => n + 1
  | n + 1, .clear :: faults => reached n faults + 1
  | _ + 1, .stop :: _ => 1
  | _ + 1, .error :: _ => 0

lemma reached_le (n : ℕ) (faults : List Fault) : reached n faults ≤ n := by
  induction n generalizing faults with
  | zero => exact Nat.le_refl _
  | succ n ih =>
    cases faults with
    | nil => exact Nat.le_refl _
    | cons f faults =>
      cases f with
      | clear => exact Nat.succ_le_succ (ih faults)
      | error => exact Nat.zero_le _
      | stop => exact Nat.succ_le_succ (Nat.zero_le _)

lemma get_bind (f : S → Program S E A) (s : S) (faults : List Fault) :
    (get >>= f) s faults = f s s faults :=
  rfl

lemma bind_assoc {C : Type} (p : Program S E A) (f : A → Program S E B) (g : B → Program S E C) :
    p >>= f >>= g = p >>= fun a => f a >>= g := by
  funext s faults
  show andThen (andThen p f) g s faults = andThen p (fun a => andThen (f a) g) s faults
  simp only [andThen]
  rcases p s faults with ⟨ended, t, rest⟩
  cases ended <;> rfl

/-- The state that calls leave is that of the ones that took effect, and all of them did if the run
went on. -/
lemma calls_state (cs : List ((S → S) × E)) (s : S) (faults : List Fault) :
    (calls cs s faults).state = (cs.take (reached cs.length faults)).foldl (fun s c => c.1 s) s ∧
      ((calls cs s faults).ended = .returned () → reached cs.length faults = cs.length) := by
  induction cs generalizing s faults with
  | nil => exact ⟨rfl, fun _ => rfl⟩
  | cons c cs ih =>
    cases faults with
    | nil =>
      obtain ⟨hstate, -⟩ := ih (c.1 s) []
      refine ⟨hstate.trans ?_, fun _ => rfl⟩
      have hall : reached cs.length [] = cs.length := by cases cs <;> rfl
      rw [hall, List.length_cons, reached, List.take_length, List.take_of_length_le (by simp)]
      rfl
    | cons f faults =>
      cases f with
      | clear =>
        obtain ⟨hstate, hended⟩ := ih (c.1 s) faults
        exact ⟨hstate, fun h => congrArg Nat.succ (hended h)⟩
      | error => exact ⟨rfl, nofun⟩
      | stop => exact ⟨rfl, nofun⟩

/-! ## What a run ensures -/

/-- What has to hold at the end of a run. -/
def Post (Q : A → S → Prop) (R T : S → Prop) : Ended E A → S → Prop
  | .returned a, s => Q a s
  | .failed _, s => R s
  | .stopped, s => T s

def Ensures (F : Fault → Prop) (p : Program S E A) (s : S) (Q : A → S → Prop) (R T : S → Prop) :
    Prop :=
  ∀ faults, (∀ f ∈ faults, F f) →
    Post Q R T (p s faults).ended (p s faults).state ∧ ∀ f ∈ (p s faults).faults, F f

section Rules

variable {F : Fault → Prop} {p : Program S E A} {s : S} {Q Q' : A → S → Prop} {R R' T T' : S → Prop}

lemma ensures_pure {a : A} (h : Q a s) : Ensures F (pure a : Program S E A) s Q R T :=
  fun _ hflts => ⟨h, hflts⟩

lemma ensures_get {Q : S → S → Prop} (h : Q s s) : Ensures F (get : Program S E S) s Q R T :=
  fun _ hflts => ⟨h, hflts⟩

lemma ensures_modify {f : S → S} {Q : Unit → S → Prop} (h : Q () (f s)) :
    Ensures F (modify f : Program S E Unit) s Q R T :=
  fun _ hflts => ⟨h, hflts⟩

lemma ensures_fail {e : E} (h : R s) : Ensures F (fail e : Program S E A) s Q R T :=
  fun _ hflts => ⟨h, hflts⟩

lemma ensures_ofExcept {x : Except E A} (hok : ∀ a, x = .ok a → Q a s)
    (herror : ∀ e, x = .error e → R s) : Ensures F (ofExcept x) s Q R T := by
  cases x with
  | ok a => exact ensures_pure (hok a rfl)
  | error e => exact ensures_fail (herror e rfl)

lemma ensures_failIf {c : Prop} [Decidable c] {e : E} {Q : Unit → S → Prop} (hfail : c → R s)
    (hpass : ¬ c → Q () s) : Ensures F (failIf c e) s Q R T := by
  unfold failIf
  split_ifs with hc
  · exact ensures_fail (hfail hc)
  · exact ensures_pure (hpass hc)

lemma ensures_onlyIf {c : Prop} [Decidable c] {p : Program S E Unit} {Q : Unit → S → Prop}
    (hrun : c → Ensures F p s Q R T) (hskip : ¬ c → Q () s) : Ensures F (onlyIf c p) s Q R T := by
  unfold onlyIf
  split_ifs with hc
  · exact hrun hc
  · exact ensures_pure (hskip hc)

lemma ensures_call {effect : S → S} {e : E} {Q : Unit → S → Prop} (hclear : Q () (effect s))
    (herror : F .error → R s) (hstop : F .stop → T (effect s)) :
    Ensures F (call effect e) s Q R T := by
  intro faults hflts
  cases faults with
  | nil => exact ⟨hclear, hflts⟩
  | cons f faults =>
    obtain ⟨hf, hrest⟩ := List.forall_mem_cons.mp hflts
    cases f with
    | clear => exact ⟨hclear, hrest⟩
    | error => exact ⟨herror hf, hrest⟩
    | stop => exact ⟨hstop hf, hrest⟩

lemma ensures_bind {f : A → Program S E B} {Q : B → S → Prop}
    (h : Ensures F p s (fun a s => Ensures F (f a) s Q R T) R T) :
    Ensures F (p >>= f) s Q R T := by
  intro faults hflts
  obtain ⟨hpost, hrest⟩ := h faults hflts
  show Post Q R T (andThen p f s faults).ended (andThen p f s faults).state ∧
    ∀ g ∈ (andThen p f s faults).faults, F g
  rcases hrun : p s faults with ⟨ended, t, rest⟩
  rw [hrun] at hpost hrest
  cases ended with
  | returned a =>
    simp only [andThen, hrun]
    exact hpost rest hrest
  | failed e | stopped =>
    simp only [andThen, hrun]
    exact ⟨hpost, hrest⟩

/-- The rule of the cleanup: it starts where the failure left the state. -/
lemma ensures_onError {cleanup : Program S E Unit}
    (h : Ensures F p s Q (fun s => Ensures F cleanup s (fun _ => R) R T) T) :
    Ensures F (onError p cleanup) s Q R T := by
  intro faults hflts
  obtain ⟨hpost, hrest⟩ := h faults hflts
  rcases hrun : p s faults with ⟨ended, t, rest⟩
  rw [hrun] at hpost hrest
  cases ended with
  | returned a | stopped =>
    simp only [onError, hrun]
    exact ⟨hpost, hrest⟩
  | failed e =>
    obtain ⟨hclean, hleft⟩ := hpost rest hrest
    simp only [onError, hrun]
    rcases hcln : cleanup t rest with ⟨ended, u, left⟩
    rw [hcln] at hclean hleft
    cases ended <;> exact ⟨hclean, hleft⟩

lemma ensures_attempt {Q : Except E A → S → Prop}
    (h : Ensures F p s (fun a => Q (.ok a)) (fun s => ∀ e, Q (.error e) s) T) :
    Ensures F (attempt p) s Q R T := by
  intro faults hflts
  obtain ⟨hpost, hrest⟩ := h faults hflts
  rcases hrun : p s faults with ⟨ended, t, rest⟩
  rw [hrun] at hpost hrest
  cases ended with
  | returned a | stopped =>
    simp only [attempt, hrun]
    exact ⟨hpost, hrest⟩
  | failed e =>
    simp only [attempt, hrun]
    exact ⟨hpost e, hrest⟩

/-- The rule of consequence. -/
lemma Ensures.imp (h : Ensures F p s Q R T) (hQ : ∀ a t, Q a t → Q' a t) (hR : ∀ t, R t → R' t)
    (hT : ∀ t, T t → T' t) : Ensures F p s Q' R' T' := by
  intro faults hflts
  obtain ⟨hpost, hrest⟩ := h faults hflts
  refine ⟨?_, hrest⟩
  cases hend : (p s faults).ended with
  | returned a =>
    rw [hend] at hpost
    exact hQ a _ hpost
  | failed e =>
    rw [hend] at hpost
    exact hR _ hpost
  | stopped =>
    rw [hend] at hpost
    exact hT _ hpost

/-- What follows a program that keeps what a failure and a stop need. -/
lemma Ensures.bind {f : A → Program S E B} {P : B → S → Prop} (h : Ensures F p s Q R T)
    (hrest : ∀ a t, Q a t → Ensures F (f a) t P R T) : Ensures F (p >>= f) s P R T :=
  ensures_bind (h.imp hrest (fun _ ht => ht) fun _ ht => ht)

end Rules

end Program

end Framework
