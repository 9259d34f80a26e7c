import Halro.Framework.Run
import Halro.Ledger.BooksArchive
import Halro.Ledger.Refusals

/-!
# Conservation

The ledger is played record by record, refused records included: `play` applies a record and
extends the history by the record if it took effect.  A step keeps the books unless it is the one
refusal that leaves a mark (`State.LeftEntered`), a reservation that would take its Run's reserved
total out of the 64-bit range.  So in every run in which no reservation does that, every state
agrees with its history, and then no settlement is refused for exceeding what is reserved.
-/

namespace Halro

open Framework Ledger.State

namespace Ledger

open Effect

variable {D : Type} [DecidableEq D] {cat : Catalogue D}

/-! ## Playing records -/

/-- What a record does to the history: nothing when it is refused or repeats a remembered event
or governance request. -/
def effectOf (cat : Catalogue D) (s : State D) (r : Record) : Option Effect :=
  match s.apply cat r with
  | .error _ => none
  | .ok _ =>
    if s.Fresh r.event then
      some ⟨r.event, if r.event.kind = .attemptSettled then
        s.reservations.lookup r.event.attemptID else none⟩
    else none

/-- A fresh event as it enters the history of a state. -/
def State.entry (s : State D) (e : Event) : Effect where
  event := e
  settled := if e.kind = .attemptSettled then s.reservations.lookup e.attemptID else none

/-- One record played on a state and its history. -/
def play (cat : Catalogue D) (p : State D × List Effect) (r : Record) : State D × List Effect :=
  (State.after (p.1.apply cat r), (effectOf cat p.1 r).toList ++ p.2)

/-- Records played on the empty state, with or without an archive. -/
def replay (cat : Catalogue D) (archiving : Bool) (records : List Record) :
    State D × List Effect :=
  records.foldl (play cat) (State.new D archiving, [])

/-- A reservation of known price under a Run leaves the Run's reserved total in the 64-bit range. -/
def State.RunTotalFits (s : State D) (r : Record) : Prop :=
  r.event.kind = .reservationCreated → r.event.runID ≠ "" →
    r.event.leaseMode ≠ .unknownAllowed →
    (s.run r.event.runID).reservedMicrosUSD + r.event.reservationAmount ≤ maxInt64

omit [DecidableEq D] in
instance (s : State D) (r : Record) : Decidable (s.RunTotalFits r) :=
  inferInstanceAs (Decidable (_ → _ → _ → _))

/-! ## One record -/

omit [DecidableEq D] in
lemma Books.new (archiving : Bool) : Books cat (State.new D archiving) [] where
  reserved key := by simp [State.new]
  runReserved id run hr := by simp [State.new] at hr
  committed := ⟨fun _ => rfl, fun _ => rfl, fun _ => rfl, fun _ => rfl⟩
  runCommitted := ⟨fun _ _ hr => by simp [State.new] at hr, fun _ _ hr => by simp [State.new] at hr⟩
  costs := ⟨fun _ _ hw => by simp [State.new] at hw, fun _ _ => rfl⟩
  sound a res hres := by simp [State.new] at hres
  requestsHeld q a ha := by simp [State.new] at ha
  requests q := rfl
  runsHeld := by constructor <;> intro id run hr <;> simp [State.new] at hr
  unitsHeld := by constructor <;> intro id w hw <;> simp [State.new] at hw
  pending := .empty
  active := .empty
  listed := .empty
  unitsOpen := .empty
  live := .empty
  idem := .empty
  idemKeyed key g hg := by simp [State.new] at hg
  leases := ⟨fun a r hr => by simp [State.new] at hr, fun a res hres => by simp [State.new] at hres, fun a => by simp [State.new, lastOn],
    fun a => by simp [State.new, lastOn]⟩

variable {s : State D} {r : Record} {h : List Effect}

omit [DecidableEq D] in
/-- **The effect of a fresh record keeps the books**, kind by kind. -/
lemma Books.staged (hb : Books cat s h) (hv : r.event.validate cat = []) (hf : s.Fresh r.event)
    (hst : s.Staged r t) : Books cat t (s.entry r.event :: h) := by
  obtain ⟨k, b, rfl, hkind⟩ := hst.kind hv
  rw [State.entry]
  cases hkind with
  | workUnitCreated kind unused =>
    rw [kind]
    exact hb.workUnitCreated (hf.2 (by rw [kind]; rfl)) hv kind unused
  | workUnitClosed kind unit project isOpen =>
    rw [kind]
    exact hb.workUnitClosed (hf.2 (by rw [kind]; rfl)) kind unit project isOpen
  | runCreated kind unused unit project isOpen =>
    rw [kind]
    exact hb.runCreated (hf.2 (by rw [kind]; rfl)) hv kind unused unit project
  | runClosed kind held project workUnit active =>
    rw [kind]
    exact hb.runClosed (hf.2 (by rw [kind]; rfl)) kind held project active
  | reservationCreated kind attribution unused =>
    rw [kind]
    exact hb.reservationCreated hv kind (hb.run_of_attribution attribution) unused
  | attemptStarted kind lease =>
    rw [kind]
    exact hb.attemptStarted kind lease
  | attemptSettled kind lease settles =>
    rw [if_pos kind, lease]
    exact hb.attemptSettled kind lease settles
  | requestFinalized kind =>
    rw [kind]
    exact hb.requestFinalized kind
  | requestAccepted kind plain =>
    rw [kind]
    exact hb.requestAccepted_plain kind plain
  | requestAttributed kind isOpen =>
    rw [kind]
    exact hb.requestAccepted_attributed kind isOpen

/-- An accepted record enters the history if it is fresh. -/
lemma effectOf_ok (hr : s.apply cat r = .ok t) : effectOf cat s r =
    if s.Fresh r.event then some (s.entry r.event) else none := by
  rw [effectOf, hr, State.entry]

/-- A state that differs from another in its digest window and its position alone. -/
def SameMaps (s t : State D) : Prop :=
  ∃ digests order next watermark, t = { s with
    eventDigests := digests, eventOrder := order, eventNext := next, watermark := watermark }

omit [DecidableEq D] in
lemma SameMaps.refl (s : State D) : SameMaps s s := ⟨_, _, _, _, rfl⟩

/-- **What an accepted record does**: it takes effect and enters the history if it is fresh, and
moves the digest window and the position alone if it is not. -/
lemma State.accepted_cases (hr : s.apply cat r = .ok t) : (effectOf cat s r = none ∧ SameMaps s t) ∨
      effectOf cat s r = some (s.entry r.event) ∧ r.event.validate cat = [] ∧ s.Fresh r.event ∧
        ∃ digest, s.applyFresh r digest = .ok t := by
  obtain ⟨hv, digest, -, hacc⟩ := apply_ok hr
  rw [effectOf_ok hr]
  cases hacc with
  | repeated known order eq =>
    rw [if_neg (fun hf => by simp [hf.1] at known), eq]
    refine .inl ⟨rfl, ?_⟩
    split_ifs
    · exact ⟨_, _, _, _, rfl⟩
    · exact .refl s
  | replayed unseen order lifecycle known eq =>
    obtain ⟨g, hg, -⟩ := known
    rw [if_neg (fun hf => by simp [hf.2 lifecycle] at hg), eq, advance_eq]
    exact .inl ⟨rfl, _, _, _, _, rfl⟩
  | fresh fresh order ok =>
    rw [if_pos fresh]
    exact .inr ⟨rfl, hv, fresh, digest, ok⟩

/-- A record that is accepted keeps the books. -/
lemma Books.accepted (hb : Books cat s h) (hr : s.apply cat r = .ok t) :
    Books cat t ((effectOf cat s r).toList ++ h) := by
  rcases State.accepted_cases hr with ⟨heff, digests, order, next, watermark, rfl⟩ |
    ⟨heff, hv, hf, digest, ok⟩ <;> rw [heff]
  · exact { hb with }
  · obtain ⟨u, hst, rfl⟩ := applyFresh_ok ok
    exact ((hb.staged hv hf hst).archiveFinished _ _ _).advance r digest

/-- A refused record whose Run total fits leaves the state as it was. -/
lemma State.refused_state {err : ApplyError} (hr : s.apply cat r = .error (t, err))
    (hfit : s.RunTotalFits r) : t = s := by
  by_cases hv : r.event.validate cat = []
  · refine (apply_error_state hr).resolve_right fun hleft => ?_
    have hle := hfit hleft.kind hleft.run hleft.mode
    have hamount := (Event.valid_of_validate hv).reservationAmount_nonneg
    have hover := hleft.overflow
    unfold checkedAdd at hover
    split_ifs at hover <;> omega
  · unfold apply at hr
    rw [if_pos hv] at hr
    exact (Prod.mk.inj (Except.error.inj hr)).1.symm

/-- **Step lemma.**  Played on a state that agrees with its history, a record whose Run total fits
leaves a state that agrees with its history, accepted or refused. -/
lemma Books.play {p : State D × List Effect} (hb : Books cat p.1 p.2) (hfit : p.1.RunTotalFits r) :
    Books cat (play cat p r).1 (play cat p r).2 := by
  cases hr : p.1.apply cat r with
  | ok t =>
    have := hb.accepted hr
    rwa [Ledger.play, hr]
  | error failure =>
    obtain ⟨t, err⟩ := failure
    have hnone : effectOf cat p.1 r = none := by rw [effectOf, hr]
    rw [Ledger.play, hnone, hr, refused_state hr hfit]
    exact hb

/-! ## Settlements never exceed what is reserved -/

omit [DecidableEq D] in
/-- No reserved total is less than an open reservation it covers. -/
lemma Books.amount_le (hb : Books cat s h) {a : String} {res : AttemptReservation}
    (hres : s.reservations.lookup a = some res) :
    res.amount ≤ (s.balance res.key).reservedMicrosUSD ∧
      (res.lease.runID ≠ "" → res.lease.leaseMode ≠ .unknownAllowed →
        res.amount ≤ (s.run res.lease.runID).reservedMicrosUSD) := by
  have hnn : ∀ b res', s.reservations.lookup b = some res' → 0 ≤ res'.amount := by
    intro b res' hres'
    have hs := hb.sound b res' hres'
    rw [hs.amount]
    exact (Event.valid_of_validate hs.valid).reservationAmount_nonneg
  refine ⟨?_, fun hne hm => ?_⟩
  · have hpos : ∀ b res', s.reservations.lookup b = some res' → 0 ≤ heldAgainst res.key b res' := by
      intro b res' hres'
      have := hnn b res' hres'
      unfold heldAgainst
      split_ifs <;> omega
    have hle := FinMap.le_total hpos hres
    rw [State.balance, hb.reserved res.key]
    rwa [heldAgainst, if_pos rfl] at hle
  · have hpos : ∀ b res', s.reservations.lookup b = some res' →
        0 ≤ heldByRun res.lease.runID b res' := by
      intro b res' hres'
      have := hnn b res' hres'
      unfold heldByRun
      split_ifs <;> omega
    have hle := FinMap.le_total hpos hres
    obtain ⟨run, hrun, -⟩ := (hb.sound a res hres).run hne
    rw [run_of_lookup hrun, hb.runReserved _ run hrun]
    rwa [heldByRun, if_pos ⟨rfl, hm⟩] at hle

lemma Books.never_exceeds (hb : Books cat s h) {err : ApplyError}
    (hr : s.apply cat r = .error (t, err)) : err.exceedsReserved = false := by
  by_contra hex
  rw [Bool.not_eq_false] at hex
  obtain ⟨res, hres, hset, hlt⟩ := applySettled_exceeds (apply_exceeds hr hex) hex
  obtain ⟨hbalance, hrun⟩ := hb.amount_le hres
  rw [hset.key] at hbalance
  rw [← hset.run] at hrun
  rcases hlt with hlt | ⟨hne, hm, hlt⟩
  · omega
  · have := hrun hne hm
    omega

/-! ## Whole runs -/

/-- A run over accepted records needs no condition: what `State.apply` accepts keeps the books. -/
theorem books_of_accepted (archiving : Bool) {records : List Record}
    (h : Along (play cat) (fun p r => ∃ t, p.1.apply cat r = .ok t) (new D archiving, []) records) :
    Books cat (replay cat archiving records).1 (replay cat archiving records).2 := by
  refine Along.invariant (I := fun p => Books cat p.1 p.2) ?_ (Books.new archiving) h
  rintro p r hb ⟨t, hr⟩
  have := hb.accepted hr
  rwa [play, hr]

/-- **Conservation.**  Over any records, refused ones included, of which no reservation takes its
Run's reserved total out of the 64-bit range, every state agrees with the history of what took
effect, and the next record, whatever it is, is not refused for exceeding what is reserved. -/
theorem conservation (archiving : Bool) (records : List Record)
    (hfit : Along (play cat) (fun p r => p.1.RunTotalFits r) (State.new D archiving, []) records) :
    Books cat (replay cat archiving records).1 (replay cat archiving records).2 ∧
      ∀ r t err, (replay cat archiving records).1.apply cat r = .error (t, err) →
        err.exceedsReserved = false := by
  have hbks := Along.invariant (I := fun p => Books cat p.1 p.2)
    (fun p r hb hp => hb.play hp) (Books.new archiving) hfit
  exact ⟨hbks, fun r t err hr => hbks.never_exceeds hr⟩

section Overflow

/-- The SHA-256 label of sixty-four equal digits. -/
def labelOf (digit : Char) : String := "sha256:" ++ String.ofList (List.replicate 64 digit)

/-- A Work Unit with one Run. -/
def openWorkUnit : List Event :=
  [{ eventID := "evt_1", kind := .workUnitCreated, workUnitID := "wku_a", projectID := "prj",
     keyID := "key", periodID := "2026-05-01", occurredAt := 1, operation := "work_unit.create",
     idempotencyKeyHash := labelOf '0', requestFingerprint := labelOf 'a' },
   { eventID := "evt_2", kind := .runCreated, workUnitID := "wku_a", runID := "run_a",
     runBudgetMicrosUSD := 5, runExpiresAt := 100, projectID := "prj", keyID := "key",
     periodID := "2026-05-01", occurredAt := 2, operation := "run.create",
     idempotencyKeyHash := labelOf '1', requestFingerprint := labelOf 'b' }]

/-- A request under the Run with one reservation, on one day. -/
def reserveOn (day : String) (requestID attemptID : String) (time amount : ℤ) : List Event :=
  [{ eventID := "evt_" ++ requestID, kind := .requestAccepted, requestID := requestID,
     workUnitID := "wku_a", runID := "run_a", projectID := "prj", periodID := day,
     occurredAt := time },
   { eventID := "evt_" ++ attemptID, kind := .reservationCreated, requestID := requestID,
     attemptID := attemptID, workUnitID := "wku_a", runID := "run_a", projectID := "prj",
     periodID := day, occurredAt := time, reservationMicrosUSD := some amount }]

/-- The settlement of an attempt, at no cost. -/
def settleOn (day : String) (requestID attemptID : String) (time : ℤ) : Event :=
  { eventID := "evt_settled_" ++ attemptID, kind := .attemptSettled, requestID := requestID,
    attemptID := attemptID, workUnitID := "wku_a", runID := "run_a", projectID := "prj",
    periodID := day, occurredAt := time, committedMicrosUSD := some 0, outcome := "succeeded" }

/-- Events as the records of a ledger, in order. -/
def recordsOf (events : List Event) : List Record :=
  events.zipIdx.map fun (e, i) => { sequence := i + 1, event := e }

def twoDays (amount : ℤ) : List Event :=
  openWorkUnit ++ reserveOn "2026-05-01" "req_1" "att_1" 3 amount ++
    reserveOn "2026-05-02" "req_2" "att_2" 4 amount

/-- The conservation theorem at a run that reserves, with archiving on. -/
theorem conservation_twoDays :
    Books Catalogue.bare (replay Catalogue.bare true (recordsOf (twoDays 7))).1
      (replay Catalogue.bare true (recordsOf (twoDays 7))).2 ∧
    (replay Catalogue.bare true (recordsOf (twoDays 7))).1.reservations.size = 2 :=
  ⟨(conservation true (recordsOf (twoDays 7)) (by decide +kernel)).1, by decide +kernel⟩

theorem books_of_accepted_opened :
    let p := replay Catalogue.bare true (recordsOf openWorkUnit)
    Books Catalogue.bare p.1 p.2 :=
  books_of_accepted true ⟨⟨_, rfl⟩, ⟨_, rfl⟩, trivial⟩

/-- Without the condition conservation fails: the refused reservation of the second day is left
open with nothing reserved for it, and its settlement is refused for exceeding the balance. -/
theorem conservation_needs_runTotalFits : ¬ (∀ (archiving : Bool) (records : List Record),
      Books Catalogue.bare (replay Catalogue.bare archiving records).1
        (replay Catalogue.bare archiving records).2 ∧
      ∀ r t err, (replay Catalogue.bare archiving records).1.apply Catalogue.bare r =
        .error (t, err) → err.exceedsReserved = false) := by
  intro hall
  have hexceeds := (hall false (recordsOf (twoDays (2 ^ 62)))).2
    { sequence := 7, event := settleOn "2026-05-02" "req_2" "att_2" 5 }
  have href : ∃ t, (replay Catalogue.bare false (recordsOf (twoDays (2 ^ 62)))).1.apply
      Catalogue.bare { sequence := 7, event := settleOn "2026-05-02" "req_2" "att_2" 5 } =
      .error (t, .exceedsProjectBalance "att_2") :=
    State.refusal_eq_some.mp (by decide +kernel)
  obtain ⟨t, ht⟩ := href
  cases hexceeds t _ ht

end Overflow

end Ledger

end Halro
