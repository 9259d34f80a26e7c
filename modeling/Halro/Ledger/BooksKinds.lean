import Halro.Ledger.BooksStep

/-!
# Each kind of event keeps the books

The clause lemmas of `BooksStep.lean` put together: for each kind of event, what an accepted
record of that kind stores agrees with the history extended by the record.
-/

namespace Halro

open Framework Framework.FinMap Ledger.State Ledger.EventKind

namespace Ledger

open Effect

variable {D : Type} {cat : Catalogue D} {s : State D} {h : List Effect} {e : Event}

/-! ## What a record finds -/

/-- The Run an event's attribution names is held, in the Work Unit it names. -/
lemma Books.run_of_attribution (hb : Books cat s h) (ha : s.Attribution e) (hne : e.runID ≠ "") :
    ∃ run, s.runs.lookup e.runID = some run ∧ run.workUnitID = e.workUnitID := by
  rcases ha with ha | ⟨-, -, hr⟩
  · exact (hb.requestsHeld _ _ ha).2
  · exact absurd hr hne

lemma Books.run_named (hb : Books cat s h) : ∀ id run, s.runs.lookup id = some run → id ≠ "" :=
  fun id run hr => (hb.runsHeld.named id run hr).1

/-- No open reservation names a Run that is not held. -/
lemma Books.held_eq_zero (hb : Books cat s h) {id : String} (hne : id ≠ "")
    (hnone : s.runs.lookup id = none) : s.reservations.total (heldByRun id) = 0 := by
  refine total_eq_zero fun a res hres => ?_
  rw [heldByRun, if_neg]
  rintro ⟨hid, -⟩
  obtain ⟨run, hr, -⟩ := (hb.sound a res hres).run (by rw [hid]; exact hne)
  rw [hid, hnone] at hr
  cases hr

/-- An event that neither attributes nor finalizes a request. -/
lemma Books.requests_other (hb : Books cat s h) {x : Effect} (hx : x.event.kind ≠ .requestFinalized)
    (hy : x.event.kind = .requestAccepted → x.event.runID = "") (q : String) :
    s.requestRuns.lookup q = attributionIn q (x :: h) := by
  rw [attributionIn_cons_other hx hy]
  exact hb.requests q

section OfMap

/-! Runs whose statuses and Projects stay. -/

variable {runs : FinMap String Run} {f : String → Run → Run} (hb : Books cat s h)
  (hmap : ∀ id, runs.lookup id = (s.runs.lookup id).map (f id))
  (hf : ∀ id run, (f id run).status = run.status ∧ (f id run).projectID = run.projectID)

include hb hmap hf

lemma Books.status_of_map : ∀ id run, runs.lookup id = some run → run.status ≠ .expired := by
  intro id run' hr'
  rw [hmap] at hr'
  obtain ⟨run, hr, rfl⟩ := Option.map_eq_some_iff.mp hr'
  rw [(hf id run).1]
  exact hb.runsHeld.status id run hr

lemma Books.live_of_map : FinMap.Indexes livePlace s.indexes.liveRuns runs := by
  refine hb.live.same fun id => ?_
  rw [filed, hmap, filed, Option.bind_map]
  congr 1
  funext run
  simp only [Function.comp, livePlace, hf]

end OfMap

/-! ## The stored state, kind by kind -/

namespace State

variable {b : Balance}

/-- An event outside the lifecycle stores only its balance. -/
lemma settleIndexes_request (k : State D) (hk : e.kind.isLifecycle = false) :
    k.settleIndexes e b = { k with balances := k.balances.insert e.balanceKey b } := by
  simp [settleIndexes, hk]

/-- What every lifecycle event stores: its balance and its idempotency record. -/
def noted (k : State D) (e : Event) (b : Balance)
    (openByProject liveRuns : FinMap String (Finset String)) : State D :=
  { k with
    balances := k.balances.insert e.balanceKey b,
    governanceIdempotency := k.governanceIdempotency.insert e.idempotencyKey (idempotencyRecord e),
    indexes := { k.indexes with
      idemByUnit := k.indexes.idemByUnit.insert e.workUnitID
        (k.indexes.idemByUnit.getD e.workUnitID [] ++ [e.idempotencyKey]),
      openByProject := openByProject, liveRuns := liveRuns } }

lemma settleIndexes_workUnitCreated (k : State D) (hk : e.kind = .workUnitCreated) :
    k.settleIndexes e b = k.noted e b (k.indexes.openByProject.addMember e.projectID e.workUnitID)
      k.indexes.liveRuns := by
  simp [settleIndexes, noteGovernanceEvent, noted, hk, isLifecycle, code]

lemma settleIndexes_workUnitClosed (k : State D) (hk : e.kind = .workUnitClosed) :
    k.settleIndexes e b =
      k.noted e b (k.indexes.openByProject.removeMember e.projectID e.workUnitID)
        k.indexes.liveRuns := by
  simp [settleIndexes, noteGovernanceEvent, noted, hk, isLifecycle, code]

lemma settleIndexes_runCreated (k : State D) (hk : e.kind = .runCreated) :
    k.settleIndexes e b = k.noted e b k.indexes.openByProject
      (k.indexes.liveRuns.addMember e.projectID e.runID) := by
  simp [settleIndexes, noteGovernanceEvent, noted, hk, isLifecycle, code]

lemma settleIndexes_runClosed (k : State D) (hk : e.kind = .runClosed) :
    k.settleIndexes e b = k.noted e b k.indexes.openByProject
      (k.indexes.liveRuns.removeMember e.projectID e.runID) := by
  simp [settleIndexes, noteGovernanceEvent, noted, hk, isLifecycle, code]

end State

section

variable (hb : Books cat s h)

include hb

section

variable (hf : s.governanceIdempotency.lookup e.idempotencyKey = none)

include hf

/-- The idempotency index after a lifecycle event with a new key. -/
lemma Books.idem_noted :
    FinMap.Lists GovernanceIdempotency.workUnitID (s.indexes.idemByUnit.insert e.workUnitID
        (s.indexes.idemByUnit.getD e.workUnitID [] ++ [e.idempotencyKey]))
      (s.governanceIdempotency.insert e.idempotencyKey (idempotencyRecord e)) :=
  hb.idem.append (v := idempotencyRecord e) hf

/-! ## Lifecycle events -/

lemma Books.workUnitCreated (hv : e.validate cat = []) (hk : e.kind = .workUnitCreated)
    (hnone : s.workUnits.lookup e.workUnitID = none) :
    Books cat (({ s with
        workUnits := s.workUnits.insert e.workUnitID (newWorkUnit e) } : State D).settleIndexes e
      (s.balance e.balanceKey)) (⟨e, none⟩ :: h) := by
  rw [settleIndexes_workUnitCreated _ hk, noted]
  have hname : e.workUnitID ≠ "" :=
    (Event.valid_of_validate hv).lifecycle_workUnit (by rw [hk]; rfl)
  exact { hb with
    reserved := hb.reserved.touch _
    committed := hb.committed.touch e
    runCommitted := hb.runCommitted.other (by simp [hk])
    costs := hb.costs.create hk hnone _
    requests := hb.requests_other (by simp [hk]) (by simp [hk])
    runsHeld := { hb.runsHeld with
      unit := fun id run hr => by
        obtain ⟨w, hw, hp⟩ := hb.runsHeld.unit id run hr
        exact ⟨w, lookup_insert_kept hw (by rw [hnone]; exact nofun), hp⟩ }
    unitsHeld := ⟨forall_insert ⟨rfl, hname⟩ hb.unitsHeld.keyed,
      forall_insert ⟨_, List.mem_cons_self, hk, rfl⟩ (hb.unitsHeld.other _).born⟩
    unitsOpen := by
      refine hb.unitsOpen.add (fun j hj => ?_) fun b => filed_insert
      rw [filed_of_none hnone] at hj
      cases hj
    idem := hb.idem_noted hf
    idemKeyed := forall_insert rfl hb.idemKeyed
    leases := hb.leases.other (by simp [hk]) (by simp [hk]) }

lemma Books.workUnitClosed (hk : e.kind = .workUnitClosed) {w : WorkUnit}
    (hw : s.workUnits.lookup e.workUnitID = some w) (hp : w.projectID = e.projectID)
    (ho : w.status = .open) :
    Books cat (({ s with
        workUnits := s.workUnits.insert w.id (closedUnit w e) } : State D).settleIndexes e
      (s.balance e.balanceKey)) (⟨e, none⟩ :: h) := by
  rw [settleIndexes_workUnitClosed _ hk, noted, (hb.unitsHeld.keyed _ w hw).1]
  exact { hb with
    reserved := hb.reserved.touch _
    committed := hb.committed.touch e
    runCommitted := hb.runCommitted.other (by simp [hk])
    costs := by
      refine (hb.costs.other (by simp [hk])).same fun id => ?_
      rw [lookup_insert_ite]
      split_ifs with hid
      · rw [hid, hw]
        rfl
      · rfl
    requests := hb.requests_other (by simp [hk]) (by simp [hk])
    runsHeld := { hb.runsHeld with
      unit := fun id run hr => by
        obtain ⟨v, hv, hpv⟩ := hb.runsHeld.unit id run hr
        rw [lookup_insert_ite]
        split_ifs with hc
        · rw [hc, hw] at hv
          cases hv
          exact ⟨_, rfl, hpv⟩
        · exact ⟨v, hv, hpv⟩ }
    unitsHeld := ⟨forall_insert (hb.unitsHeld.keyed _ w hw) hb.unitsHeld.keyed,
      forall_insert ((hb.unitsHeld.other _).born _ w hw) (hb.unitsHeld.other _).born⟩
    unitsOpen := by
      refine hb.unitsOpen.remove (fun j hj => ?_) fun b => ?_
      · rw [filed_of_lookup hw, openPlace, if_pos ho, hp] at hj
        exact (Option.some.inj hj).symm
      · exact filed_insert
    idem := hb.idem_noted hf
    idemKeyed := forall_insert rfl hb.idemKeyed
    leases := hb.leases.other (by simp [hk]) (by simp [hk]) }

lemma Books.runCreated (hv : e.validate cat = []) (hk : e.kind = .runCreated)
    (hnone : s.runs.lookup e.runID = none) {w : WorkUnit}
    (hw : s.workUnits.lookup e.workUnitID = some w) (hp : w.projectID = e.projectID) :
    Books cat (({ s with
        runs := s.runs.insert e.runID (newRun e),
        runsByWorkUnit := s.runsByWorkUnit.insert e.workUnitID
          (s.runsOf e.workUnitID ++ [e.runID]) } : State D).settleIndexes e
      (s.balance e.balanceKey)) (⟨e, none⟩ :: h) := by
  rw [settleIndexes_runCreated _ hk, noted]
  have hname : e.runID ≠ "" := (Event.runCreated_fields hv hk).1
  have hkeep := KeepsPlaces.of_fresh (newRun e) hnone
  -- the settled totals of the new Run start from nothing
  have since : ∀ id, sinceRun id (⟨e, none⟩ :: h) =
      if id = e.runID then [] else ⟨e, none⟩ :: sinceRun id h := by
    intro id
    split_ifs with hid
    · exact sinceRun_cons_self ⟨hk, hid.symm⟩
    · exact sinceRun_cons_ne fun hc => hid hc.2.symm
  exact { hb with
    reserved := hb.reserved.touch _
    runReserved := forall_insert (by rw [hb.held_eq_zero hname hnone]; rfl) hb.runReserved
    committed := hb.committed.touch e
    runCommitted := by
      constructor <;> intro id run hr <;> rw [since] <;>
        rcases lookup_insert_cases hr with ⟨rfl, rfl⟩ | ⟨hid, hr⟩
      · rw [if_pos rfl]
        rfl
      · rw [if_neg hid, settledSum_cons_none]
        exact hb.runCommitted.committed id run hr
      · rw [if_pos rfl]
        rfl
      · rw [if_neg hid, settledSum_cons_none]
        exact hb.runCommitted.unknown id run hr
    costs := hb.costs.other (by simp [hk])
    sound := fun a res hres => hkeep.sound (hb.sound a res hres)
    requestsHeld := hkeep.requestsHeld hb.requestsHeld
    requests := hb.requests_other (by simp [hk]) (by simp [hk])
    runsHeld := ⟨forall_insert rfl hb.runsHeld.id,
      forall_insert (fun hc => by cases hc) hb.runsHeld.status,
      forall_insert ⟨hname, (hb.unitsHeld.keyed _ w hw).2⟩ hb.runsHeld.named,
      forall_insert ⟨w, hw, hp⟩ hb.runsHeld.unit⟩
    unitsHeld := hb.unitsHeld.other _
    listed := hb.listed.append (v := newRun e) hnone
    live := by
      refine hb.live.add (fun j hj => ?_) fun b => filed_insert
      rw [filed_of_none hnone] at hj
      cases hj
    idem := hb.idem_noted hf
    idemKeyed := forall_insert rfl hb.idemKeyed
    leases := hb.leases.other (by simp [hk]) (by simp [hk]) }

lemma Books.runClosed (hk : e.kind = .runClosed) {r : Run}
    (hr : s.runs.lookup e.runID = some r) (hp : r.projectID = e.projectID)
    (hact : r.status = .active) :
    Books cat (({ s with
        runs := s.runs.insert r.id (closedRun r e) } : State D).settleIndexes e
      (s.balance e.balanceKey)) (⟨e, none⟩ :: h) := by
  rw [settleIndexes_runClosed _ hk, noted, hb.runsHeld.id _ r hr]
  have hplaces : SamePlaces s.runs (s.runs.insert e.runID (closedRun r e)) :=
    SamePlaces.of_insert hr rfl
  have hkeep := KeepsPlaces.of_same hplaces
  exact { hb with
    reserved := hb.reserved.touch _
    runReserved := forall_insert (hb.runReserved _ r hr) hb.runReserved
    committed := hb.committed.touch e
    runCommitted :=
      have hother := hb.runCommitted.other (e := e) (by simp [hk])
      ⟨forall_insert (hother.committed _ r hr) hother.committed,
        forall_insert (hother.unknown _ r hr) hother.unknown⟩
    costs := hb.costs.other (by simp [hk])
    sound := fun a res hres => hkeep.sound (hb.sound a res hres)
    requestsHeld := hkeep.requestsHeld hb.requestsHeld
    requests := hb.requests_other (by simp [hk]) (by simp [hk])
    runsHeld := hplaces.runsHeld hb.runsHeld
      (forall_insert (fun hc => by cases hc) hb.runsHeld.status)
    unitsHeld := hb.unitsHeld.other _
    listed := hplaces.listed hb.listed
    live := by
      refine hb.live.remove (fun j hj => ?_) fun b => ?_
      · rw [filed_of_lookup hr, livePlace, if_pos hact, hp] at hj
        exact (Option.some.inj hj).symm
      · exact filed_insert
    idem := hb.idem_noted hf
    idemKeyed := forall_insert rfl hb.idemKeyed
    leases := hb.leases.other (by simp [hk]) (by simp [hk]) }

end

/-! ## Attempts -/

lemma Books.reservationCreated {r : Record}
    (hv : r.event.validate cat = []) (hk : r.event.kind = .reservationCreated)
    (hrun : r.event.runID ≠ "" →
      ∃ run, s.runs.lookup r.event.runID = some run ∧ run.workUnitID = r.event.workUnitID)
    (hnone : s.reservations.lookup r.event.attemptID = none) :
    Books cat (({ s.enterReservation r with runs := s.reservedRuns r.event } : State D).settleIndexes
      r.event (reservedBalance (s.balance r.event.balanceKey) r.event))
      (⟨r.event, none⟩ :: h) := by
  rw [settleIndexes_request _ (by rw [hk]; rfl), enterReservation]
  have hheld : r.event.runID ≠ "" → ∃ run, s.runs.lookup r.event.runID = some run :=
    fun hne => (hrun hne).imp fun run hr => hr.1
  have hmap := reservedRuns_lookup (s := s) hheld
  have hplaces : SamePlaces s.runs (s.reservedRuns r.event) :=
    .of_map hmap fun id run => by split_ifs <;> rfl
  have hkeep := KeepsPlaces.of_same hplaces
  exact { hb with
    reserved := hb.reserved.reserve hv hk hnone
    runReserved := hb.runReserved.reserve hb.run_named hheld hnone
    committed := hb.committed.reserve r.event
    runCommitted := by
      refine RunCommittedExact.other (RunCommittedExact.of_map hb.runCommitted hmap ?_ ?_)
        (by simp [hk]) <;> intro id run <;> split_ifs <;> rfl
    costs := hb.costs.other (by simp [hk])
    sound := forall_insert (hkeep.sound ⟨rfl, rfl, hv, hk, rfl, hrun⟩)
      fun a res hres => hkeep.sound (hb.sound a res hres)
    requestsHeld := hkeep.requestsHeld hb.requestsHeld
    requests := hb.requests_other (by simp [hk]) (by simp [hk])
    runsHeld := hplaces.runsHeld hb.runsHeld (hb.status_of_map hmap
      fun id run => by split_ifs <;> exact ⟨rfl, rfl⟩)
    unitsHeld := hb.unitsHeld.other _
    pending := by
      have hfiled : filed pendingPlace s.reservations r.event.attemptID = none :=
        filed_of_none hnone
      have hplace : pendingPlace (newReservation r.event) =
          if r.event.workUnitID = "" then none else some r.event.workUnitID := rfl
      by_cases hw : r.event.workUnitID = ""
      · rw [if_neg (not_not.mpr hw)]
        refine hb.pending.same fun b => ?_
        rw [filed_insert, hplace, if_pos hw]
        split_ifs with hba
        · rw [hba, hfiled]
        · rfl
      · rw [if_pos hw]
        refine hb.pending.add (fun j hj => ?_) fun b => ?_
        · rw [hfiled] at hj
          cases hj
        · rw [filed_insert, hplace, if_neg hw]
    listed := hplaces.listed hb.listed
    live := hb.live_of_map hmap fun id run => by split_ifs <;> exact ⟨rfl, rfl⟩
    leases := hb.leases.reserve hk }

lemma Books.attemptStarted (hk : e.kind = .attemptStarted)
    {res : AttemptReservation} (hres : s.reservations.lookup e.attemptID = some res) :
    Books cat (({ s with
        reservations := s.reservations.insert e.attemptID
          { res with started := true } } : State D).settleIndexes e (s.balance e.balanceKey))
      (⟨e, none⟩ :: h) := by
  rw [settleIndexes_request _ (by rw [hk]; rfl)]
  exact { hb with
    reserved := (hb.reserved.start hres).touch _
    runReserved := hb.runReserved.start hres
    committed := hb.committed.touch e
    runCommitted := hb.runCommitted.other (by simp [hk])
    costs := hb.costs.other (by simp [hk])
    sound := forall_insert { hb.sound _ res hres with } hb.sound
    requests := hb.requests_other (by simp [hk]) (by simp [hk])
    unitsHeld := hb.unitsHeld.other _
    pending := by
      refine hb.pending.same fun b => ?_
      rw [filed_insert]
      split_ifs with hba
      · rw [hba, filed_of_lookup hres]
        rfl
      · rfl
    leases := (hb.leases.start hres).other (by simp [hk]) (by simp [hk]) }

lemma Books.attemptSettled (hk : e.kind = .attemptSettled)
    {res : AttemptReservation} (hres : s.reservations.lookup e.attemptID = some res)
    (hs : State.Settles e res) :
    Books cat (({ s.leaveReservation e with runs := s.settledRuns e res } : State D).settleIndexes e
      (settledBalance (s.balance e.balanceKey) e res)) (⟨e, some res⟩ :: h) := by
  rw [settleIndexes_request _ (by rw [hk]; rfl), leaveReservation]
  have hsound := hb.sound _ res hres
  have hrun : e.runID ≠ "" →
      ∃ run, s.runs.lookup e.runID = some run ∧ run.workUnitID = e.workUnitID := by
    rw [hs.run, hs.workUnit]
    exact hsound.run
  have hheld : e.runID ≠ "" → ∃ run, s.runs.lookup e.runID = some run :=
    fun hne => (hrun hne).imp fun run hr => hr.1
  have hunit : e.workUnitID ≠ "" → ∃ w, s.workUnits.lookup e.workUnitID = some w := by
    intro hne
    have hiff := (Event.valid_of_validate hsound.valid).workUnit_iff_run (by rw [hsound.kind]; rfl)
    have hne' : e.runID ≠ "" := by
      rw [hs.run]
      rw [hs.workUnit] at hne
      exact fun hc => hne (hiff.mpr hc)
    obtain ⟨run, hr, hw⟩ := hrun hne'
    obtain ⟨w, hw', -⟩ := hb.runsHeld.unit _ run hr
    exact ⟨w, hw ▸ hw'⟩
  have hmap := settledRuns_lookup (s := s) res hheld
  have hplaces : SamePlaces s.runs (s.settledRuns e res) :=
    .of_map hmap fun id run => by split_ifs <;> rfl
  have hkeep := KeepsPlaces.of_same hplaces
  exact { hb with
    reserved := hb.reserved.settle hres hs.key
    runReserved := hb.runReserved.settle hb.run_named hheld hres hs.run
    committed := hb.committed.settle e res
    runCommitted := hb.runCommitted.settle hk hb.run_named hheld
    costs := hb.costs.settle hk (fun id w hw => (hb.unitsHeld.keyed id w hw).2) hunit res
    sound := fun a res' hres' =>
      hkeep.sound (hb.sound a res' (lookup_erase_cases hres').2)
    requestsHeld := hkeep.requestsHeld hb.requestsHeld
    requests := hb.requests_other (by simp [hk]) (by simp [hk])
    runsHeld := hplaces.runsHeld hb.runsHeld (hb.status_of_map hmap
      fun id run => by split_ifs <;> exact ⟨rfl, rfl⟩)
    unitsHeld := hb.unitsHeld.other _
    pending := by
      have hfiled : filed pendingPlace s.reservations e.attemptID =
          if e.workUnitID = "" then none else some e.workUnitID := by
        rw [filed_of_lookup hres, pendingPlace, hs.workUnit]
      by_cases hw : e.workUnitID = ""
      · rw [if_neg (not_not.mpr hw)]
        refine hb.pending.same fun b => ?_
        rw [filed_erase]
        split_ifs with hba
        · rw [hba, hfiled, if_pos hw]
        · rfl
      · rw [if_pos hw]
        refine hb.pending.remove (fun j hj => ?_) fun b => filed_erase
        rw [hfiled, if_neg hw] at hj
        exact (Option.some.inj hj).symm
    listed := hplaces.listed hb.listed
    live := hb.live_of_map hmap fun id run => by split_ifs <;> exact ⟨rfl, rfl⟩
    leases := hb.leases.settle hk hres }

/-! ## Requests -/

/-- Whatever a request event leaves of the attributions, if they agree with the extended history
the rest of the books does. -/
lemma Books.requestEvent (hk : e.kind = .requestAccepted ∨ e.kind = .requestFinalized)
    {requestRuns : FinMap String RequestAttribution} {active : FinMap String (Finset String)}
    (hheld : RequestsHeld requestRuns s.runs)
    (hq : ∀ q, requestRuns.lookup q = attributionIn q (⟨e, none⟩ :: h))
    (ha : FinMap.Indexes activePlace active requestRuns) :
    Books cat (({ s with requestRuns := requestRuns, activeByWorkUnit := active } :
      State D).settleIndexes e (s.balance e.balanceKey)) (⟨e, none⟩ :: h) := by
  have hne : e.kind ≠ .runCreated ∧ e.kind ≠ .workUnitCreated ∧ e.kind ≠ .reservationCreated ∧
      e.kind ≠ .attemptSettled := by
    rcases hk with hk | hk <;> simp [hk]
  rw [settleIndexes_request _ (by rcases hk with hk | hk <;> rw [hk] <;> rfl)]
  exact { hb with
    reserved := hb.reserved.touch _
    committed := hb.committed.touch e
    runCommitted := hb.runCommitted.other hne.1
    costs := hb.costs.other hne.2.1
    requestsHeld := hheld
    requests := hq
    unitsHeld := hb.unitsHeld.other _
    active := ha
    leases := hb.leases.other hne.2.2.1 hne.2.2.2 }

lemma Books.requestAccepted_plain (hk : e.kind = .requestAccepted) (hr : e.runID = "") :
    Books cat (s.settleIndexes e (s.balance e.balanceKey)) (⟨e, none⟩ :: h) := by
  refine hb.requestEvent (Or.inl hk) hb.requestsHeld (fun q => ?_) hb.active
  rw [attributionIn_cons_other (by simp [hk]) (fun _ => hr)]
  exact hb.requests q

lemma Books.requestAccepted_attributed (hk : e.kind = .requestAccepted)
    {run : Run} (hopen : s.AttributionOpen e run) :
    Books cat ((s.attributed e).settleIndexes e ((s.attributed e).balance e.balanceKey))
      (⟨e, none⟩ :: h) := by
  refine hb.requestEvent (Or.inl hk) (forall_insert
    ⟨hopen.named, run, hopen.held, hopen.workUnit⟩ hb.requestsHeld) (fun q => ?_) ?_
  · rw [attributionIn, if_neg (by simp [hk]), ← hb.requests, lookup_insert_ite]
    simp only [hk, hopen.named, ne_eq, not_false_eq_true, and_true, eq_comm]
  · refine hb.active.add (fun j hj => ?_) fun b => filed_insert
    -- a request accepted twice keeps its attribution, and so its place
    cases hl : s.requestRuns.lookup e.requestID with
    | none =>
      rw [filed_of_none hl] at hj
      cases hj
    | some a =>
      rw [filed_of_lookup hl, hopen.same a hl] at hj
      exact (Option.some.inj hj).symm

lemma Books.requestFinalized (hk : e.kind = .requestFinalized) :
    Books cat ((s.applyFinalized e).settleIndexes e (s.balance e.balanceKey)) (⟨e, none⟩ :: h) := by
  have hq : ∀ q, attributionIn q (⟨e, none⟩ :: h) =
      if q = e.requestID then none else s.requestRuns.lookup q := by
    intro q
    rw [attributionIn, ← hb.requests]
    by_cases hc : e.requestID = q
    · simp [hc, hk]
    · simp [hc, Ne.symm hc]
  unfold applyFinalized
  cases hl : s.requestRuns.lookup e.requestID with
  | none =>
    refine hb.requestEvent (Or.inr hk) hb.requestsHeld (fun q => ?_) hb.active
    rw [hq]
    split_ifs with hc
    · rw [hc, hl]
    · rfl
  | some a =>
    refine hb.requestEvent (Or.inr hk)
      (fun q b hb' => hb.requestsHeld q b (lookup_erase_cases hb').2) (fun q => ?_) ?_
    · rw [hq, lookup_erase_ite]
    · refine hb.active.remove (fun j hj => ?_) fun b => filed_erase
      rw [filed_of_lookup hl] at hj
      exact (Option.some.inj hj).symm

end

end Ledger

end Halro
