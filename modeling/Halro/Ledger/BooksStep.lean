import Halro.Ledger.Books

/-!
# A record that takes effect keeps the books

For each kind of event: if the books agree with a history before the record, they agree with the
history extended by the record after its effect and its indexes are stored.  The clause lemmas
come first, one for each way a clause's fields change; each kind is then a list of them.
-/

namespace Halro

open Framework Framework.FinMap Ledger.State

namespace Ledger

open Effect

variable {D : Type} {cat : Catalogue D}

/-! ## Effects that leave a part of the history alone -/

variable {a : String}

variable {h : List Effect}

lemma lastOn_cons {x : Effect}
    (hx : x.event.kind = .reservationCreated ∨ x.event.kind = .attemptSettled) :
    lastOn a (x :: h) = if x.event.attemptID = a then some x else lastOn a h := by
  by_cases ha : x.event.attemptID = a
  · simp [lastOn, hx, ha]
  · simp [lastOn, ha]

lemma attributionIn_cons_other {q : String} {x : Effect} (hx : x.event.kind ≠ .requestFinalized)
    (hy : x.event.kind = .requestAccepted → x.event.runID = "") :
    attributionIn q (x :: h) = attributionIn q h := by
  rw [attributionIn, if_neg (fun hc => hx hc.2), if_neg]
  rintro ⟨-, hk, hr⟩
  exact hr (hy hk)

variable {id : String}

variable {e : Event}

lemma costOver_cons_none : costOver id (⟨e, none⟩ :: h) = costOver id h := by
  simp [costOver]

namespace CommittedExact

variable {balances : FinMap BalanceKey Balance} {h : List Effect}

/-- A record that settles nothing and writes the balance back. -/
lemma touch (hb : CommittedExact balances h) (e : Event) :
    CommittedExact (balances.insert e.balanceKey (balances.getD e.balanceKey {}))
      (⟨e, none⟩ :: h) := by
  constructor <;> intro key <;> rw [getD_insert_getD, settledSum_cons_none]
  exacts [hb.committed key, hb.input key, hb.output key, hb.unknown key]

/-- A reservation moves only the reserved amount. -/
lemma reserve (hb : CommittedExact balances h) (e : Event) :
    CommittedExact (balances.insert e.balanceKey
      (reservedBalance (balances.getD e.balanceKey {}) e)) (⟨e, none⟩ :: h) := by
  have same : ∀ key, ∃ r, getD (balances.insert e.balanceKey
      (reservedBalance (balances.getD e.balanceKey {}) e)) key {} =
      { balances.getD key {} with reservedMicrosUSD := r } := by
    intro key
    rw [getD_insert]
    split_ifs with hk
    · subst hk
      unfold reservedBalance
      split_ifs
      exacts [⟨_, rfl⟩, ⟨_, rfl⟩]
    · exact ⟨_, rfl⟩
  constructor <;> intro key <;> obtain ⟨r, hr⟩ := same key <;> rw [hr, settledSum_cons_none]
  exacts [hb.committed key, hb.input key, hb.output key, hb.unknown key]

/-- A settlement adds its amounts to its own key and to no other. -/
lemma settle (hb : CommittedExact balances h) (e : Event) (res : AttemptReservation) :
    CommittedExact (balances.insert e.balanceKey
      (settledBalance (balances.getD e.balanceKey {}) e res)) (⟨e, some res⟩ :: h) := by
  have read : ∀ key, getD (balances.insert e.balanceKey
      (settledBalance (balances.getD e.balanceKey {}) e res)) key {} =
      if key = e.balanceKey then settledBalance (balances.getD key {}) e res
      else balances.getD key {} := by
    intro key
    rw [getD_insert]
    split_ifs with hk
    · rw [hk]
    · rfl
  have part : ∀ key f, onKey key f e res = if key = e.balanceKey then f e res else 0 := by
    intro key f
    simp only [onKey, eq_comm]
  have split : ∀ (field : Balance → ℤ) (f : Event → AttemptReservation → ℤ),
      (∀ b, field (settledBalance b e res) = field b + f e res) →
      (∀ key, field (balances.getD key {}) = settledSum (onKey key f) h) → ∀ key,
      field (getD (balances.insert e.balanceKey
        (settledBalance (balances.getD e.balanceKey {}) e res)) key {}) =
        settledSum (onKey key f) (⟨e, some res⟩ :: h) := by
    intro field f hf hb key
    have hb := hb key
    rw [read, settledSum_cons_some, part]
    split_ifs
    · rw [hf]
      omega
    · omega
  exact ⟨split _ committedOf (fun _ => rfl) hb.committed, split _ inputOf (fun _ => rfl) hb.input,
    split _ outputOf (fun _ => rfl) hb.output, split _ unknownOf (fun _ => rfl) hb.unknown⟩

end CommittedExact

namespace ReservedExact

variable {balances : FinMap BalanceKey Balance}
  {reservations : FinMap String AttemptReservation}

section

variable (hb : ReservedExact balances reservations)

include hb

lemma touch (key : BalanceKey) :
    ReservedExact (balances.insert key (balances.getD key {})) reservations := by
  intro k
  rw [getD_insert_getD]
  exact hb k

/-- A new reservation adds its amount to its own key. -/
lemma reserve (hv : e.validate cat = []) (hk : e.kind = .reservationCreated)
    (hnone : reservations.lookup e.attemptID = none) :
    ReservedExact (balances.insert e.balanceKey (reservedBalance (balances.getD e.balanceKey {}) e))
      (reservations.insert e.attemptID (newReservation e)) := by
  intro key
  have hb := hb key
  have held : heldAgainst key e.attemptID (newReservation e) =
      if key = e.balanceKey then e.reservationAmount else 0 := by
    simp only [heldAgainst, newReservation, eq_comm]
  rw [total_insert_of_notMem _ _ hnone, getD_insert, held]
  split_ifs with h1
  · subst h1
    unfold reservedBalance
    split_ifs with hm
    · rw [Event.unknown_reserves_nothing hv hk hm]
      omega
    · show (balances.getD e.balanceKey {}).reservedMicrosUSD + e.reservationAmount = _
      omega
  · omega

/-- Marking an attempt started moves no amount. -/
lemma start {res : AttemptReservation} (hres : reservations.lookup a = some res) :
    ReservedExact balances (reservations.insert a { res with started := true }) := by
  intro key
  rw [hb key, total_insert, hres]
  simp [heldAgainst]

/-- A settlement takes its reservation's amount from its own key. -/
lemma settle {res : AttemptReservation}
    (hres : reservations.lookup e.attemptID = some res) (hkey : res.key = e.balanceKey) :
    ReservedExact (balances.insert e.balanceKey
      (settledBalance (balances.getD e.balanceKey {}) e res))
      (reservations.erase e.attemptID) := by
  intro key
  have hb := hb key
  have held : heldAgainst key e.attemptID res = if key = e.balanceKey then res.amount else 0 := by
    simp only [heldAgainst, hkey, eq_comm]
  rw [total_erase, hres, getD_insert, Option.map_some, Option.getD_some, held]
  split_ifs with h1
  · subst h1
    show (balances.getD e.balanceKey {}).reservedMicrosUSD - res.amount = _
    omega
  · omega

end

end ReservedExact

/-! ## Runs that keep their place -/

/-- Where a Run belongs: its identifier, its project and its Work Unit. -/
def placeOf (r : Run) : String × String × String := (r.id, r.projectID, r.workUnitID)

/-- The same Runs are held, each where it was. -/
def SamePlaces (runs runs' : FinMap String Run) : Prop :=
  ∀ id, (runs'.lookup id).map placeOf = (runs.lookup id).map placeOf

namespace SamePlaces

variable {runs runs' : FinMap String Run}

lemma back (h : SamePlaces runs runs') {run' : Run} (hr : runs'.lookup id = some run') :
    ∃ run, runs.lookup id = some run ∧ run.id = run'.id ∧ run.projectID = run'.projectID ∧
      run.workUnitID = run'.workUnitID := by
  have hplace := h id
  rw [hr] at hplace
  obtain ⟨run, hl, hsame⟩ := Option.map_eq_some_iff.mp hplace.symm
  obtain ⟨hid, hp, hw⟩ := by simpa only [placeOf, Prod.mk.injEq] using hsame
  exact ⟨run, hl, hid, hp, hw⟩

lemma symm (h : SamePlaces runs runs') : SamePlaces runs' runs := fun id => (h id).symm

lemma of_insert {run run' : Run} (hr : runs.lookup id = some run) (hp : placeOf run' = placeOf run) :
    SamePlaces runs (runs.insert id run') := by
  intro j
  rw [lookup_insert_ite]
  split_ifs with hj
  · rw [hj, hr, Option.map_some, Option.map_some, hp]
  · rfl

lemma listed (h : SamePlaces runs runs') {byUnit : FinMap String (List String)}
    (hl : FinMap.Lists Run.workUnitID byUnit runs) :
    FinMap.Lists Run.workUnitID byUnit runs' := by
  refine hl.same fun id => ?_
  have := congrArg (Option.map fun p : String × String × String => p.2.2) (h id)
  rwa [Option.map_map, Option.map_map] at this

lemma runsHeld (h : SamePlaces runs runs') {units : FinMap String WorkUnit}
    (hh : RunsHeld runs units) (hs : ∀ id run', runs'.lookup id = some run' →
      run'.status ≠ .expired) : RunsHeld runs' units := by
  refine ⟨fun id run' hr' => ?_, hs, fun id run' hr' => ?_, fun id run' hr' => ?_⟩
  all_goals obtain ⟨run, hr, hid, hp, hw⟩ := h.back hr'
  · rw [← hid]
    exact hh.id id run hr
  · rw [← hw]
    exact hh.named id run hr
  · rw [← hw, ← hp]
    exact hh.unit id run hr

end SamePlaces

/-- Every Run held before is held still, where it was. -/
def KeepsPlaces (runs runs' : FinMap String Run) : Prop :=
  ∀ id run, runs.lookup id = some run →
    ∃ run', runs'.lookup id = some run' ∧ run'.workUnitID = run.workUnitID

namespace KeepsPlaces

variable {runs runs' : FinMap String Run}

lemma of_same (h : SamePlaces runs runs') : KeepsPlaces runs runs' := by
  intro id run hr
  obtain ⟨run', hr', -, -, hw⟩ := h.symm.back hr
  exact ⟨run', hr', hw⟩

lemma of_fresh (run : Run) (hnone : runs.lookup id = none) :
    KeepsPlaces runs (runs.insert id run) := by
  intro j run' hr'
  have hj : j ≠ id := by
    rintro rfl
    cases hnone.symm.trans hr'
  exact ⟨run', by rw [lookup_insert_ite, if_neg hj, hr'], rfl⟩

lemma requestsHeld (h : KeepsPlaces runs runs') {requestRuns : FinMap String RequestAttribution}
    (hq : RequestsHeld requestRuns runs) : RequestsHeld requestRuns runs' := by
  intro q a ha
  obtain ⟨hne, run, hr, hw⟩ := hq q a ha
  obtain ⟨run', hr', hw'⟩ := h _ run hr
  exact ⟨hne, run', hr', hw'.trans hw⟩

lemma sound (h : KeepsPlaces runs runs') {res : AttemptReservation}
    (hs : ReservationSound cat runs a res) : ReservationSound cat runs' a res := by
  refine { hs with run := fun hne => ?_ }
  obtain ⟨run, hr, hw⟩ := hs.run hne
  obtain ⟨run', hr', hw'⟩ := h _ run hr
  exact ⟨run', hr', hw'.trans hw⟩

end KeepsPlaces

/-! ## Amounts held and settled against Runs -/

section RunTotals

variable {s : State D} {e : Event} {h : List Effect}

lemma run_of_lookup {run : Run} (hr : s.runs.lookup id = some run) :
    s.run id = run := getD_of_lookup _ hr

/-- A reservation raises the reserved amount of its own Run and changes nothing else. -/
lemma reservedRuns_lookup (hheld : e.runID ≠ "" → ∃ run, s.runs.lookup e.runID = some run)
    (id : String) : (s.reservedRuns e).lookup id = (s.runs.lookup id).map fun run =>
      if id = e.runID ∧ e.runID ≠ "" ∧ e.leaseMode ≠ .unknownAllowed then
        { run with reservedMicrosUSD := run.reservedMicrosUSD + e.reservationAmount }
      else run := by
  unfold reservedRuns
  by_cases hc : e.runID = "" ∨ e.leaseMode = .unknownAllowed
  · have hno : ¬ (id = e.runID ∧ e.runID ≠ "" ∧ e.leaseMode ≠ .unknownAllowed) := by tauto
    simp [hc, hno]
  · rw [if_neg hc]
    push Not at hc
    obtain ⟨run, hr⟩ := hheld hc.1
    rw [lookup_insert_ite, run_of_lookup hr]
    by_cases hid : id = e.runID
    · subst hid
      simp [hr, hc]
    · simp [hid]

/-- A settlement moves the totals of its own Run and changes nothing else. -/
lemma settledRuns_lookup (res : AttemptReservation)
    (hheld : e.runID ≠ "" → ∃ run, s.runs.lookup e.runID = some run) (id : String) :
    (s.settledRuns e res).lookup id = (s.runs.lookup id).map fun run =>
      if id = e.runID ∧ e.runID ≠ "" then settledRun run e res else run := by
  unfold settledRuns
  split <;> rename_i hc
  · simp [hc]
  · obtain ⟨run, hr⟩ := hheld hc
    rw [lookup_insert_ite, run_of_lookup hr]
    by_cases hid : id = e.runID
    · subst hid
      simp [hr, hc]
    · simp [hid]

/-- A map over the entries that keeps each Run's place keeps all places. -/
lemma SamePlaces.of_map {runs runs' : FinMap String Run} {f : String → Run → Run}
    (h : ∀ id, runs'.lookup id = (runs.lookup id).map (f id))
    (hf : ∀ id run, placeOf (f id run) = placeOf run) : SamePlaces runs runs' := by
  intro id
  rw [h id, Option.map_map]
  exact congrArg (fun g => (runs.lookup id).map g) (funext fun run => hf id run)

lemma RunReservedExact.reserve (hb : RunReservedExact s.runs s.reservations)
    (hnamed : ∀ id run, s.runs.lookup id = some run → id ≠ "")
    (hheld : e.runID ≠ "" → ∃ run, s.runs.lookup e.runID = some run)
    (hnone : s.reservations.lookup e.attemptID = none) :
    RunReservedExact (s.reservedRuns e) (s.reservations.insert e.attemptID (newReservation e)) := by
  intro id run' hr'
  rw [reservedRuns_lookup hheld] at hr'
  obtain ⟨run, hr, rfl⟩ := Option.map_eq_some_iff.mp hr'
  rw [total_insert_of_notMem _ _ hnone, ← hb id run hr]
  have hid := hnamed id run hr
  have held : heldByRun id e.attemptID (newReservation e) =
      if e.runID = id ∧ e.leaseMode ≠ .unknownAllowed then e.reservationAmount else 0 := rfl
  by_cases hc : id = e.runID ∧ e.runID ≠ "" ∧ e.leaseMode ≠ .unknownAllowed
  · rw [held, if_pos hc, if_pos ⟨hc.1.symm, hc.2.2⟩]
    exact add_comm run.reservedMicrosUSD e.reservationAmount
  · rw [held, if_neg hc, if_neg, zero_add]
    rintro ⟨h1, h2⟩
    exact hc ⟨h1.symm, by rw [h1]; exact hid, h2⟩

variable {res : AttemptReservation}

lemma RunReservedExact.start {runs : FinMap String Run}
    {reservations : FinMap String AttemptReservation} (hb : RunReservedExact runs reservations)
    (hres : reservations.lookup a = some res) :
    RunReservedExact runs (reservations.insert a { res with started := true }) := by
  intro id run hr
  rw [hb id run hr, total_insert, hres]
  simp [heldByRun]

lemma RunReservedExact.settle (hb : RunReservedExact s.runs s.reservations)
    (hnamed : ∀ id run, s.runs.lookup id = some run → id ≠ "")
    (hheld : e.runID ≠ "" → ∃ run, s.runs.lookup e.runID = some run)
    (hres : s.reservations.lookup e.attemptID = some res) (hrun : e.runID = res.lease.runID) :
    RunReservedExact (s.settledRuns e res) (s.reservations.erase e.attemptID) := by
  intro id run' hr'
  rw [settledRuns_lookup res hheld] at hr'
  obtain ⟨run, hr, rfl⟩ := Option.map_eq_some_iff.mp hr'
  have hid := hnamed id run hr
  have hb := hb id run hr
  rw [total_erase, hres, Option.map_some, Option.getD_some, ← hb]
  simp only [heldByRun, ← hrun]
  by_cases hc : id = e.runID
  · subst hc
    unfold settledRun
    split_ifs <;> simp_all
  · rw [if_neg (fun h => hc h.1), if_neg (fun h => hc h.1.symm), sub_zero]

/-- A record that settles nothing and creates no held Run. -/
lemma RunCommittedExact.other {runs : FinMap String Run} (hb : RunCommittedExact runs h)
    (hk : e.kind ≠ .runCreated) : RunCommittedExact runs (⟨e, none⟩ :: h) := by
  have since : ∀ id, sinceRun id (⟨e, none⟩ :: h) = ⟨e, none⟩ :: sinceRun id h :=
    fun id => sinceRun_cons_ne fun hc => hk hc.1
  constructor <;> intro id run hr <;> rw [since, settledSum_cons_none]
  exacts [hb.committed id run hr, hb.unknown id run hr]

lemma RunCommittedExact.of_map {runs runs' : FinMap String Run} {f : String → Run → Run}
    (hb : RunCommittedExact runs h)
    (hm : ∀ id, runs'.lookup id = (runs.lookup id).map (f id))
    (hc : ∀ id run, (f id run).committedMicrosUSD = run.committedMicrosUSD)
    (hu : ∀ id run, (f id run).unknownAttempts = run.unknownAttempts) :
    RunCommittedExact runs' h := by
  constructor <;> intro id run' hr' <;> rw [hm] at hr' <;>
    obtain ⟨run, hr, rfl⟩ := Option.map_eq_some_iff.mp hr'
  · rw [hc]
    exact hb.committed id run hr
  · rw [hu]
    exact hb.unknown id run hr

lemma RunCommittedExact.settle (hb : RunCommittedExact s.runs h) (hk : e.kind = .attemptSettled)
    (hnamed : ∀ id run, s.runs.lookup id = some run → id ≠ "")
    (hheld : e.runID ≠ "" → ∃ run, s.runs.lookup e.runID = some run) :
    RunCommittedExact (s.settledRuns e res) (⟨e, some res⟩ :: h) := by
  have since : ∀ id, sinceRun id (⟨e, some res⟩ :: h) = ⟨e, some res⟩ :: sinceRun id h :=
    fun id => sinceRun_cons_ne fun hc => by cases hk.symm.trans hc.1
  have split : ∀ (field : Run → ℤ) (f : Event → AttemptReservation → ℤ),
      (∀ run, field (settledRun run e res) = field run + f e res) →
      (∀ id run, s.runs.lookup id = some run →
        field run = settledSum (onRun id f) (sinceRun id h)) →
      ∀ id run', (s.settledRuns e res).lookup id = some run' →
        field run' = settledSum (onRun id f) (sinceRun id (⟨e, some res⟩ :: h)) := by
    intro field f hf hb id run' hr'
    rw [settledRuns_lookup res hheld] at hr'
    obtain ⟨run, hr, rfl⟩ := Option.map_eq_some_iff.mp hr'
    have hb := hb id run hr
    have hid := hnamed id run hr
    rw [since, settledSum_cons_some, onRun]
    by_cases hc : id = e.runID
    · rw [if_pos ⟨hc, by rw [← hc]; exact hid⟩, if_pos hc.symm, hf]
      omega
    · rw [if_neg (fun h => hc h.1), if_neg (fun h => hc h.symm)]
      omega
  exact ⟨split _ committedOf (fun _ => rfl) hb.committed,
    split _ unknownOf (fun _ => rfl) hb.unknown⟩

end RunTotals

/-! ## Work Unit costs -/

namespace CostsExact

variable {units units' : FinMap String WorkUnit} {costs : FinMap String WorkUnitCost}
  {h : List Effect} {e : Event}

section

variable (hb : CostsExact units costs h)

include hb

/-- A record that settles nothing and creates no Work Unit. -/
lemma other (hk : e.kind ≠ .workUnitCreated) :
    CostsExact units costs (⟨e, none⟩ :: h) := by
  refine ⟨fun id w hw => ?_, hb.absent⟩
  rw [sinceUnit_cons_ne fun hc => hk hc.1, costOver_cons_none]
  exact hb.held id w hw

/-- The same Work Units are held. -/
lemma same (hs : ∀ id, (units'.lookup id).isSome = (units.lookup id).isSome) :
    CostsExact units' costs h := by
  refine ⟨fun id w hw => ?_, fun id hw => hb.absent id ?_⟩
  · obtain ⟨v, hv⟩ := Option.isSome_iff_exists.mp ((hs id).symm.trans (by rw [hw]; rfl))
    exact hb.held id v hv
  · simpa [hw] using (hs id).symm

lemma create (hk : e.kind = .workUnitCreated)
    (hnone : units.lookup e.workUnitID = none) (w : WorkUnit) :
    CostsExact (units.insert e.workUnitID w) costs (⟨e, none⟩ :: h) := by
  refine ⟨fun id v hv => ?_, fun id hv => hb.absent id ?_⟩
  · rw [lookup_insert_ite] at hv
    split_ifs at hv with hid
    · have self : CreatesUnit id ⟨e, none⟩ := ⟨hk, hid.symm⟩
      rw [sinceUnit_cons_self self, getD_of_none _ (hb.absent _ (hid ▸ hnone))]
      rfl
    · rw [sinceUnit_cons_ne fun hc => hid hc.2.symm, costOver_cons_none]
      exact hb.held id v hv
  · rw [lookup_insert_ite] at hv
    split_ifs at hv
    exact hv

lemma settle (hk : e.kind = .attemptSettled) (hnamed : ∀ id w, units.lookup id = some w → id ≠ "")
    (hheld : e.workUnitID ≠ "" → ∃ w, units.lookup e.workUnitID = some w)
    (res : AttemptReservation) :
    CostsExact units (if e.workUnitID ≠ "" then
        costs.insert e.workUnitID ((costs.getD e.workUnitID {}).add e) else costs)
      (⟨e, some res⟩ :: h) := by
  have since : ∀ id, sinceUnit id (⟨e, some res⟩ :: h) = ⟨e, some res⟩ :: sinceUnit id h :=
    fun id => sinceUnit_cons_ne fun hc => by cases hk.symm.trans hc.1
  by_cases hne : e.workUnitID = ""
  · rw [if_neg (not_not.mpr hne)]
    refine ⟨fun id w hw => ?_, hb.absent⟩
    have hid : e.workUnitID ≠ id := fun hid => hnamed id w hw (hid ▸ hne)
    rw [since, costOver, if_neg (fun hc => hid hc.2)]
    exact hb.held id w hw
  · rw [if_pos hne]
    refine ⟨fun id w hw => ?_, fun id hw => ?_⟩
    · rw [since, costOver, getD_insert]
      by_cases hid : id = e.workUnitID
      · subst hid
        rw [if_pos rfl, if_pos ⟨rfl, rfl⟩, hb.held _ w hw]
      · rw [if_neg hid, if_neg (fun hc => hid hc.2.symm)]
        exact hb.held id w hw
    · obtain ⟨w, hw'⟩ := hheld hne
      have hid : id ≠ e.workUnitID := by
        rintro rfl
        cases hw.symm.trans hw'
      rw [lookup_insert_ite, if_neg hid]
      exact hb.absent id hw

end

end CostsExact

/-! ## Lease records -/

/-- A record that creates no Work Unit leaves the held ones as they were. -/
lemma UnitsHeld.other {workUnits : FinMap String WorkUnit}
    (hb : UnitsHeld workUnits h) (x : Effect) : UnitsHeld workUnits (x :: h) :=
  ⟨hb.keyed, fun id w hw => by
    obtain ⟨y, hy, hc⟩ := hb.born id w hw
    exact ⟨y, List.mem_cons_of_mem x hy, hc⟩⟩

namespace LeasesExact

variable {leases : FinMap String Record} {reservations : FinMap String AttemptReservation}
  {h : List Effect} {r : Record} {x : Option AttemptReservation}

section

variable (hb : LeasesExact leases reservations h)

include hb

/-- A record that neither opens nor settles an attempt. -/
lemma other (hx : e.kind ≠ .reservationCreated) (hy : e.kind ≠ .attemptSettled) :
    LeasesExact leases reservations (⟨e, x⟩ :: h) := by
  have last : ∀ a, lastOn a (⟨e, x⟩ :: h) = lastOn a h := fun a => by
    simp [lastOn, hx, hy]
  refine ⟨hb.keyed, hb.opened, fun a => ?_, fun a => ?_⟩ <;> rw [last]
  exacts [hb.isOpen a, hb.kept a]

lemma reserve (hk : r.event.kind = .reservationCreated) :
    LeasesExact (leases.insert r.event.attemptID r)
      (reservations.insert r.event.attemptID (newReservation r.event))
      (⟨r.event, none⟩ :: h) := by
  have last := fun a => lastOn_cons (a := a) (x := ⟨r.event, none⟩) (h := h) (Or.inl hk)
  refine ⟨forall_insert rfl hb.keyed, fun a res hres => ?_, fun a => ?_, fun a => ?_⟩
  · rw [lookup_insert_ite] at hres ⊢
    split_ifs at hres ⊢
    · cases hres
      exact ⟨r, rfl, rfl⟩
    · exact hb.opened a res hres
  all_goals
    rw [lookup_insert_ite, last]
    by_cases ha : a = r.event.attemptID
    · simp [ha, hk]
    · rw [if_neg ha, if_neg (fun hc => ha hc.symm)]
      first | exact hb.isOpen a | exact hb.kept a

lemma start {res : AttemptReservation} (hres : reservations.lookup a = some res) :
    LeasesExact leases (reservations.insert a { res with started := true }) h := by
  refine ⟨hb.keyed, forall_insert (hb.opened a res hres) hb.opened, fun b => ?_, hb.kept⟩
  rw [lookup_insert_ite, ← hb.isOpen]
  split_ifs with hab
  · rw [hab, hres]
    simp
  · rfl

lemma settle {res : AttemptReservation}
    (hk : e.kind = .attemptSettled) (hres : reservations.lookup e.attemptID = some res) :
    LeasesExact (if e.outcome ≠ outcomePinCommitFailed then leases.erase e.attemptID else leases)
      (reservations.erase e.attemptID) (⟨e, some res⟩ :: h) := by
  have last := fun a => lastOn_cons (a := a) (x := ⟨e, some res⟩) (h := h) (Or.inr hk)
  have lookup : ∀ a, (if e.outcome ≠ outcomePinCommitFailed then leases.erase e.attemptID
      else leases).lookup a = if a = e.attemptID ∧ e.outcome ≠ outcomePinCommitFailed then none
      else leases.lookup a := by
    split_ifs with ho <;> simp_all [lookup_erase_ite]
  refine ⟨fun a v hv => ?_, fun a res' hres' => ?_, fun a => ?_, fun a => ?_⟩
  · rw [lookup] at hv
    split_ifs at hv
    exact hb.keyed a v hv
  · obtain ⟨ha, hres'⟩ := lookup_erase_cases hres'
    rw [lookup, if_neg (fun hc => ha hc.1)]
    exact hb.opened a res' hres'
  · rw [lookup_erase_ite, last]
    by_cases ha : a = e.attemptID
    · simp [ha, hk]
    · rw [if_neg ha, if_neg (fun hc => ha hc.symm)]
      exact hb.isOpen a
  · rw [lookup, last]
    by_cases ha : a = e.attemptID
    · subst ha
      obtain ⟨r, hr, -⟩ := hb.opened _ res hres
      by_cases ho : e.outcome = outcomePinCommitFailed
      · simp [ho, hr]
      · simp [ho, hk]
    · rw [if_neg (fun hc => ha hc.1), if_neg (fun hc => ha hc.symm)]
      exact hb.kept a

end

end LeasesExact

end Ledger

end Halro
