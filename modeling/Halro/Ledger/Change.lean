import Halro.Ledger.Lockstep

/-!
# What an accepted record changes

`Change` says everything an accepted fresh record does to the primary maps: one equation for each
map, apart from the Work Units the record archives, and what is known of those.  Results about other
parts of the program use it and do not look into `State.apply` again.
-/

namespace Halro

open Framework Framework.FinMap Ledger.State

namespace Ledger

variable {D : Type} {cat : Catalogue D} {s t : State D} {h : List Effect} {r : Record} {e : Event}

namespace State

/-! ## The maps after a fresh record -/

/-- The open reservations after an event. -/
def reservationsAfter (s : State D) (e : Event) : FinMap String AttemptReservation :=
  match e.kind with
  | .reservationCreated => s.reservations.insert e.attemptID (newReservation e)
  | .attemptStarted =>
    match s.reservations.lookup e.attemptID with
    | some res => s.reservations.insert e.attemptID { res with started := true }
    | none => s.reservations
  | .attemptSettled => s.reservations.erase e.attemptID
  | _ => s.reservations

/-- The attributed requests after an event. -/
def requestRunsAfter (s : State D) (e : Event) : FinMap String RequestAttribution :=
  match e.kind with
  | .requestAccepted =>
    if e.runID = "" then s.requestRuns
    else s.requestRuns.insert e.requestID ⟨e.workUnitID, e.runID⟩
  | .requestFinalized => s.requestRuns.erase e.requestID
  | _ => s.requestRuns

/-- The Work Units after an event, before archiving. -/
def workUnitsAfter (s : State D) (e : Event) : FinMap String WorkUnit :=
  match e.kind with
  | .workUnitCreated => s.workUnits.insert e.workUnitID (newWorkUnit e)
  | .workUnitClosed =>
    match s.workUnits.lookup e.workUnitID with
    | some w => s.workUnits.insert e.workUnitID (closedUnit w e)
    | none => s.workUnits
  | _ => s.workUnits

/-- The Runs after an event, before archiving. -/
def runsAfter (s : State D) (e : Event) : FinMap String Run :=
  match e.kind with
  | .runCreated => s.runs.insert e.runID (newRun e)
  | .runClosed =>
    match s.runs.lookup e.runID with
    | some run => s.runs.insert e.runID (closedRun run e)
    | none => s.runs
  | .reservationCreated => s.reservedRuns e
  | .attemptSettled =>
    match s.reservations.lookup e.attemptID with
    | some res => s.settledRuns e res
    | none => s.runs
  | _ => s.runs

/-- The lists of Runs after an event, before archiving. -/
def runListsAfter (s : State D) (e : Event) : FinMap String (List String) :=
  match e.kind with
  | .runCreated => s.runsByWorkUnit.insert e.workUnitID (s.runsOf e.workUnitID ++ [e.runID])
  | _ => s.runsByWorkUnit

/-- The idempotency records after an event, before archiving. -/
def idempotencyAfter (s : State D) (e : Event) : FinMap String GovernanceIdempotency :=
  if e.kind.isLifecycle then
    s.governanceIdempotency.insert e.idempotencyKey (idempotencyRecord e)
  else s.governanceIdempotency

/-- The balance an event leaves under its key. -/
def balanceAfter (s : State D) (e : Event) : Balance :=
  match e.kind with
  | .reservationCreated => reservedBalance (s.balance e.balanceKey) e
  | .attemptSettled =>
    match s.reservations.lookup e.attemptID with
    | some res => settledBalance (s.balance e.balanceKey) e res
    | none => s.balance e.balanceKey
  | _ => s.balance e.balanceKey

/-- A state whose primary maps are those of `s` after the event, before archiving. -/
@[mk_iff]
structure Effected (s : State D) (e : Event) (t : State D) : Prop where
  reservations : t.reservations = s.reservationsAfter e
  requestRuns : t.requestRuns = s.requestRunsAfter e
  workUnits : t.workUnits = s.workUnitsAfter e
  runs : t.runs = s.runsAfter e
  runsByWorkUnit : t.runsByWorkUnit = s.runListsAfter e
  governanceIdempotency : t.governanceIdempotency = s.idempotencyAfter e
  balances : t.balances = s.balances.insert e.balanceKey (s.balanceAfter e)

lemma settleIndexes_maps (k : State D) (e : Event) (b : Balance) :
    ∃ indexes, k.settleIndexes e b = { k with
      balances := k.balances.insert e.balanceKey b,
      governanceIdempotency := k.idempotencyAfter e,
      indexes := indexes } := by
  unfold settleIndexes idempotencyAfter
  split_ifs
  · unfold noteGovernanceEvent
    split <;> exact ⟨_, rfl⟩
  · exact ⟨k.indexes, rfl⟩

/-- **The effect of a fresh record on the primary maps**, before archiving. -/
lemma effected (hb : Books cat s h) (hv : r.event.validate cat = []) (hst : s.Staged r t) :
    Effected s r.event t := by
  obtain ⟨k, b, rfl, happl⟩ := hst.kind hv
  obtain ⟨indexes, heq⟩ := settleIndexes_maps k r.event b
  rw [heq, effected_iff]
  simp only [reservationsAfter, requestRunsAfter, workUnitsAfter, runsAfter, runListsAfter,
    balanceAfter, idempotencyAfter]
  cases happl with
  | workUnitCreated hkind | runCreated hkind => simp only [hkind, and_self]
  | workUnitClosed hkind hw =>
    have hid := (hb.unitsHeld.keyed _ _ hw).1
    simp only [hkind, hw, hid, and_self]
  | runClosed hkind hr =>
    have hid := hb.runsHeld.id _ _ hr
    simp only [hkind, hr, hid, and_self]
  | reservationCreated hkind => simp only [hkind, enterReservation, and_self]
  | attemptStarted hkind hres => simp only [hkind, hres, and_self]
  | attemptSettled hkind hres => simp only [hkind, hres, leaveReservation, and_self]
  | requestFinalized hkind =>
    have hreqs : (s.applyFinalized r.event).requestRuns =
        s.requestRuns.erase r.event.requestID := by
      unfold applyFinalized
      cases hl : s.requestRuns.lookup r.event.requestID with
      | none =>
        refine Finmap.ext_lookup fun q => ?_
        rw [lookup_erase_ite]
        split_ifs with hq
        · rw [hq, hl]
        · rfl
      | some attribution => rfl
    have hrest : ∃ requestRuns active, s.applyFinalized r.event = { s with
        requestRuns := requestRuns, activeByWorkUnit := active } := by
      unfold applyFinalized
      split <;> exact ⟨_, _, rfl⟩
    obtain ⟨requestRuns, active, hrest⟩ := hrest
    rw [hrest] at hreqs ⊢
    simp only [hkind, true_and, and_true]
    exact hreqs
  | requestAccepted hkind hr => simp only [hkind, hr, if_true, and_self]
  | requestAttributed hkind hopen =>
    simp only [hkind, attributed, balance, if_neg hopen.named, and_self]

end State

/-! ## Everything a fresh record does -/

/-- **Everything a fresh record does** to the primary maps of a state: `t` is `s` after the event,
with the Work Units `gone` archived. -/
structure Change (s : State D) (r : Record) (gone : Finset String) (t : State D) : Prop where
  reservations : t.reservations = s.reservationsAfter r.event
  requestRuns : t.requestRuns = s.requestRunsAfter r.event
  balances : t.balances = s.balances.insert r.event.balanceKey (s.balanceAfter r.event)
  workUnits : ∀ id, t.workUnits.lookup id =
    if id ∈ gone then none else (s.workUnitsAfter r.event).lookup id
  runs : ∀ id, t.runs.lookup id =
    ((s.runsAfter r.event).lookup id).filter fun run => run.workUnitID ∉ gone
  runsByWorkUnit : ∀ unit, t.runsByWorkUnit.lookup unit =
    if unit ∈ gone then none else (s.runListsAfter r.event).lookup unit
  governanceIdempotency : ∀ key, t.governanceIdempotency.lookup key =
    ((s.idempotencyAfter r.event).lookup key).filter fun g => g.workUnitID ∉ gone
  watermark : t.watermark = r.watermark
  archiving : t.archiving = s.archiving
  digests : ∀ id, id ≠ r.event.eventID → s.eventDigests.lookup id = none →
    t.eventDigests.lookup id = none
  closed : ∀ unit ∈ gone, ∃ w, (s.workUnitsAfter r.event).lookup unit = some w ∧
    w.status = .closed
  unrequested : ∀ unit ∈ gone, ∀ q a, (s.requestRunsAfter r.event).lookup q = some a →
    a.workUnitID ≠ unit
  unreserved : ∀ unit ∈ gone, ∀ a res, (s.reservationsAfter r.event).lookup a = some res →
    res.lease.workUnitID ≠ unit
  expired : ∀ unit ∈ gone, ∀ id run, (s.runsAfter r.event).lookup id = some run →
    run.workUnitID = unit → run.status = .active →
      run.expiresAt ≤ r.event.occurredAt ∨ run.expiresAt ≤ 0
  queue : ∀ unit item, t.indexes.queue.lookup unit = some item →
    s.indexes.queue.lookup unit = some item ∨
      ∀ run ∈ item.runs, (s.runsAfter r.event).lookup run.id = some run ∧ run.workUnitID ∈ gone
  unqueued : ∀ unit, unit ∉ gone → t.indexes.queue.lookup unit = s.indexes.queue.lookup unit
  attributed : r.event.kind.isRequest = true → r.event.kind ≠ .requestAccepted →
    r.event.runID ≠ "" → ∃ run, s.runs.lookup r.event.runID = some run ∧
      run.workUnitID = r.event.workUnitID
  unopened : r.event.kind = .reservationCreated → s.reservations.lookup r.event.attemptID = none
  uncreated : r.event.kind = .runCreated → s.runs.lookup r.event.runID = none
  settles : r.event.kind = .attemptSettled →
    ∃ res, s.reservations.lookup r.event.attemptID = some res ∧ State.Settles r.event res

namespace State

/-- A finished Work Unit, in terms of the primary maps. -/
lemma Finished.maps (hb : Books cat s h) {now : ℤ} {unit : String} (hf : s.Finished now unit) :
    (∃ w, s.workUnits.lookup unit = some w ∧ w.status = .closed) ∧
      (∀ q a, s.requestRuns.lookup q = some a → a.workUnitID ≠ unit) ∧
      (∀ a res, s.reservations.lookup a = some res → res.lease.workUnitID ≠ unit) ∧
      ∀ id run, s.runs.lookup id = some run → run.workUnitID = unit → run.status = .active →
        run.expiresAt ≤ now ∨ run.expiresAt ≤ 0 := by
  obtain ⟨w, hw, hcl⟩ := hf.closed
  have hname := (hb.unitsHeld.keyed unit w hw).2
  refine ⟨⟨w, hw, hcl⟩, fun q a ha hu => ?_, fun a res hres hu => ?_, fun id run hr hu hact => ?_⟩
  · refine hb.active.members_eq_empty_iff.mp hf.quiet.1 q ?_
    rw [filed_of_lookup ha, activePlace, hu]
  · refine hb.pending.members_eq_empty_iff.mp hf.quiet.2 a ?_
    rw [filed_of_lookup hres, pendingPlace, hu, if_neg hname]
  · have hlisted : id ∈ s.runsOf unit := by
      refine (hb.listed.mem unit id).mpr ?_
      rw [hr, Option.map_some, hu]
    have hrun : s.run id = run := run_of_lookup hr
    have hle := le_lastExpiry hlisted (by rw [hrun]; exact hact)
    rw [hrun] at hle
    have hexpired := hf.expired
    omega

end State

namespace State

/-- What the archive receives are Runs that were held. -/
lemma archivedItem_runs (hb : Books cat s h) {w : WorkUnit} {unit : String} {sequence : ℕ} {run : Run}
    (hrun : run ∈ (s.archivedItem w unit sequence).runs) :
    s.runs.lookup run.id = some run ∧ run.workUnitID = unit := by
  obtain ⟨id, hid, rfl⟩ := List.mem_map.mp hrun
  obtain ⟨run, hr, hu⟩ := hb.listed.lookup_of_mem hid
  rw [run_of_lookup hr, hb.runsHeld.id id run hr]
  exact ⟨hr, hu⟩

end State

/-- A fresh record makes a `Change`. -/
lemma change_of_fresh (hb : Books cat s h) (hv : r.event.validate cat = [])
    (hf : s.Fresh r.event) {digest : D} (hok : s.applyFresh r digest = .ok t) :
    ∃ gone, Change s r gone t := by
  obtain ⟨u, hst, rfl⟩ := applyFresh_ok hok
  have hbks := hb.staged hv hf hst
  have heff := effected hb hv hst
  obtain ⟨hdig, -, -, harch⟩ := hst.archived_frame
  obtain ⟨-, -, -, -, hqueue, -⟩ := hst.frame
  obtain ⟨gone, hswept, hfin⟩ := archiveFinished_sound hbks r.event.workUnitID
    r.event.occurredAt r.sequence
  have hkeeps := hswept.untouched
  simp only [untouched, Prod.mk.injEq] at hkeeps
  obtain ⟨hbal, hres, -, -, -, -, hreq, -⟩ := hkeeps
  rw [advance_eq]
  have maps := fun unit hu => (hfin unit hu).maps hbks
  obtain ⟨k, b, -, happl⟩ := hst.kind hv
  refine ⟨gone, ?_⟩
  exact {
    reservations := hres.trans heff.reservations
    requestRuns := hreq.trans heff.requestRuns
    balances := hbal.trans heff.balances
    workUnits := fun id => by rw [← heff.workUnits]; exact hswept.workUnits id
    runs := fun id => by rw [← heff.runs]; exact hswept.runs id
    runsByWorkUnit := fun unit => by rw [← heff.runsByWorkUnit]; exact hswept.runsByWorkUnit unit
    governanceIdempotency := fun key => by
      rw [← heff.governanceIdempotency]
      exact hswept.governanceIdempotency key
    watermark := rfl
    archiving := harch
    digests := fun id hne hnone => by
      rw [← hdig] at hnone
      unfold rememberDigest
      split_ifs
      · rw [lookup_insert_ite, if_neg hne, hnone]
      · rw [lookup_insert_ite, if_neg hne, lookup_erase_ite]
        split_ifs
        · rfl
        · exact hnone
    closed := fun unit hu => by rw [← heff.workUnits]; exact (maps unit hu).1
    unrequested := fun unit hu => by rw [← heff.requestRuns]; exact (maps unit hu).2.1
    unreserved := fun unit hu => by rw [← heff.reservations]; exact (maps unit hu).2.2.1
    expired := fun unit hu => by rw [← heff.runs]; exact (maps unit hu).2.2.2
    queue := fun unit item hitem => by
      rw [← hqueue, ← heff.runs]
      rw [hswept.queue] at hitem
      split_ifs at hitem with hgone
      · obtain ⟨w, -, rfl⟩ := Option.map_eq_some_iff.mp hitem
        refine Or.inr fun run hrun => ?_
        obtain ⟨hr, hu⟩ := archivedItem_runs hbks hrun
        exact ⟨hr, by rw [hu]; exact hgone⟩
      · exact Or.inl hitem
    unqueued := fun unit hu => by
      rw [← hqueue]
      exact (hswept.queue unit).trans (if_neg hu)
    attributed := fun hkind hne hrun => by
      obtain ⟨ha, -⟩ := hst
      exact hb.run_of_attribution (attributeRequest_later hne hkind ha).2 hrun
    unopened := fun hkind => by cases happl <;> simp_all
    uncreated := fun hkind => by cases happl <;> simp_all
    settles := fun hkind => by cases happl <;> simp_all }

/-- Only a Work Unit that was at hand is archived, since one that is just created is open. -/
lemma Change.held {gone : Finset String} {unit : String} (hc : Change s r gone t)
    (hu : unit ∈ gone) : s.workUnits.lookup unit ≠ none := by
  obtain ⟨w, hw, hcl⟩ := hc.closed unit hu
  intro hnone
  unfold workUnitsAfter at hw
  split at hw
  · rw [lookup_insert_ite, hnone] at hw
    split_ifs at hw
    obtain rfl := Option.some.inj hw
    cases hcl
  · split at hw
    · rename_i old hold
      rw [lookup_insert_ite, hnone] at hw
      split_ifs at hw with hid
      rw [← hid, hnone] at hold
      cases hold
    · rw [hnone] at hw
      cases hw
  · rw [hnone] at hw
    cases hw

/-! ## Playing a record -/

/-- A refused record whose Run total fits changes nothing. -/
lemma play_refused [DecidableEq D] {p : State D × List Effect} {err : ApplyError}
    (hr : refusal (p.1.apply cat r) = some err) (hfit : p.1.RunTotalFits r) :
    play cat p r = p := by
  obtain ⟨t, ht⟩ := refusal_eq_some.mp hr
  have hnone : effectOf cat p.1 r = none := by rw [effectOf, ht]
  rw [play, hnone, ht, refused_state ht hfit]
  rfl

/-- **What playing a record does**: nothing but to the digest window and the position, or the change
of a fresh record, which then heads the history. -/
theorem play_cases [DecidableEq D] {p : State D × List Effect} (hb : Books cat p.1 p.2)
    (hfit : p.1.RunTotalFits r) :
    ((play cat p r).2 = p.2 ∧ SameMaps p.1 (play cat p r).1) ∨
      (∃ gone, Change p.1 r gone (play cat p r).1) ∧ r.event.validate cat = [] ∧
        p.1.Fresh r.event ∧ (play cat p r).2 = p.1.entry r.event :: p.2 := by
  cases hr : p.1.apply cat r with
  | error failure =>
    have href : refusal (p.1.apply cat r) = some failure.2 := by rw [hr]; rfl
    rw [play_refused href hfit]
    exact Or.inl ⟨rfl, .refl p.1⟩
  | ok t =>
    rw [play, hr]
    rcases accepted_cases hr with ⟨heff, hsame⟩ | ⟨heff, hv, hf, digest, ok⟩ <;> rw [heff]
    · exact Or.inl ⟨rfl, hsame⟩
    · exact Or.inr ⟨change_of_fresh hb hv hf ok, hv, hf, rfl⟩

end Ledger

end Halro
