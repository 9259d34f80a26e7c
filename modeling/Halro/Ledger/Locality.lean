import Halro.Ledger.Archiving

/-!
# A record changes the Work Unit it names

What decides whether a Work Unit is finished, its status, its requests and attempts in flight and
the expiries of its active Runs, is changed by no record that does not name the Work Unit.  Two
records can still leave an entry of the expiry list too late for its Work Unit: the close of a Run
that expired last among several, and the creation of a Work Unit whose identifier was used before.
`Steady` excludes both, and then the Work Units wait properly after every accepted record
(`Waits.effect`).
-/

namespace Halro

open Framework.FinMap

namespace Ledger

variable {D : Type} {cat : Catalogue D} {s t : State D} {h : List Effect}

namespace State

/-! ## Last expiries -/

lemma le_lastExpiry {unit id : String} (hid : id ∈ s.runsOf unit)
    (hact : (s.run id).status = .active) : (s.run id).expiresAt ≤ s.lastExpiry unit := by
  have fold : ∀ (ids : List String) (latest : ℤ), id ∈ ids →
      (s.run id).expiresAt ≤ ids.foldl s.laterExpiry latest := by
    intro ids
    induction ids with
    | nil => exact fun _ hin => absurd hin List.not_mem_nil
    | cons j ids ih =>
      intro latest hin
      rcases List.mem_cons.mp hin with rfl | hin
      · refine le_trans ?_ (le_foldl_laterExpiry ids _)
        unfold laterExpiry
        split_ifs with hc
        · exact le_rfl
        · push Not at hc
          exact hc hact
      · exact ih _ hin
  exact fold _ 0 hid

lemma lastExpiry_attained (unit : String) : s.lastExpiry unit = 0 ∨
    ∃ id ∈ s.runsOf unit, (s.run id).status = .active ∧
      (s.run id).expiresAt = s.lastExpiry unit := by
  have fold : ∀ (ids : List String) (latest : ℤ), ids.foldl s.laterExpiry latest = latest ∨
      ∃ id ∈ ids, (s.run id).status = .active ∧
        (s.run id).expiresAt = ids.foldl s.laterExpiry latest := by
    intro ids
    induction ids with
    | nil => exact fun _ => Or.inl rfl
    | cons j ids ih =>
      intro latest
      rcases ih (s.laterExpiry latest j) with hsame | ⟨id, hid, hact, heq⟩
      · rw [List.foldl_cons, hsame]
        by_cases hc : (s.run j).status = .active ∧ latest < (s.run j).expiresAt
        · exact Or.inr ⟨j, List.mem_cons_self, hc.1, by rw [laterExpiry, if_pos hc]⟩
        · exact Or.inl (by rw [laterExpiry, if_neg hc])
      · exact Or.inr ⟨id, List.mem_cons_of_mem j hid, hact, heq⟩
  exact fold _ 0

/-- Runs that keep their status and expiry keep every last expiry. -/
lemma lastExpiry_of_map {f : String → Run → Run} (hlist : t.runsByWorkUnit = s.runsByWorkUnit)
    (hmap : ∀ id, t.runs.lookup id = (s.runs.lookup id).map (f id))
    (hf : ∀ id run, (f id run).status = run.status ∧ (f id run).expiresAt = run.expiresAt)
    (unit : String) : t.lastExpiry unit = s.lastExpiry unit := by
  refine lastExpiry_congr (by rw [runsOf, runsOf, hlist]) fun id _ => ?_
  unfold run
  rw [getD, getD, hmap]
  cases s.runs.lookup id with
  | none => exact ⟨rfl, rfl⟩
  | some run => exact hf id run

/-! ## Locality -/

/-- `t` differs from `s` only in what concerns one Work Unit, and for that one, if it is on the
expiry list, neither its status changes nor does its last expiry move, except to nothing. -/
structure LocalTo (unit : String) (s t : State D) : Prop where
  expiries : t.indexes.expiries = s.indexes.expiries
  waiting : t.indexes.waiting = s.indexes.waiting
  queue : t.indexes.queue = s.indexes.queue
  workUnits : ∀ v, v ≠ unit → t.workUnits.lookup v = s.workUnits.lookup v
  quiet : ∀ v, v ≠ unit → (t.Quiet v ↔ s.Quiet v)
  lastExpiry : ∀ v, v ≠ unit → t.lastExpiry v = s.lastExpiry v
  named : unit ∈ s.indexes.waiting → ∀ w', t.workUnits.lookup unit = some w' →
    (∃ w, s.workUnits.lookup unit = some w ∧ w'.status = w.status) ∧
      (t.lastExpiry unit = s.lastExpiry unit ∨ t.lastExpiry unit = 0)

/-- After a change that is local to one Work Unit, only that one may not wait properly. -/
lemma Waits.local {unit : String} (hw : s.Waits ∅) (hl : LocalTo unit s t) : t.Waits {unit} := by
  refine ⟨hw.list.congr hl.expiries hl.waiting, fun item hin w' hw' => ?_, fun v hv hcl hquiet => ?_⟩
  · rw [hl.expiries] at hin
    by_cases hu : item.workUnitID = unit
    · rw [hu] at hw' ⊢
      have hwait : unit ∈ s.indexes.waiting := (hw.list.waiting unit).mpr ⟨item.time, hu ▸ hin⟩
      obtain ⟨⟨w, hlook, hstat⟩, hlast⟩ := hl.named hwait w' hw'
      obtain ⟨hcl, hbound⟩ := hw.bounded item hin w (by rw [hu]; exact hlook)
      rw [hu] at hbound
      refine ⟨hstat.trans hcl, ?_⟩
      rcases hlast with hlast | hlast
      · rw [hlast]
        exact hbound
      · exact Or.inr hlast
    · rw [hl.workUnits _ hu] at hw'
      rw [hl.lastExpiry _ hu]
      exact hw.bounded item hin w' hw'
  · have hne : v ≠ unit := fun hc => hv hc
    rw [hl.lastExpiry v hne, hl.expiries]
    refine hw.listed v (Set.notMem_empty v) ?_ ((hl.quiet v hne).mp hquiet)
    obtain ⟨w, hlook, hc⟩ := hcl
    exact ⟨w, by rw [← hl.workUnits v hne]; exact hlook, hc⟩

/-- A change of nothing that archiving looks at. -/
lemma LocalTo.frame {unit : String} (hexp : t.indexes.expiries = s.indexes.expiries)
    (hwait : t.indexes.waiting = s.indexes.waiting) (hqueue : t.indexes.queue = s.indexes.queue)
    (hunits : t.workUnits = s.workUnits)
    (hact : ∀ v, v ≠ unit → t.activeByWorkUnit.members v = s.activeByWorkUnit.members v)
    (hpend : ∀ v, v ≠ unit → t.pendingByWorkUnit.members v = s.pendingByWorkUnit.members v)
    (hlast : ∀ v, t.lastExpiry v = s.lastExpiry v) : LocalTo unit s t where
  expiries := hexp
  waiting := hwait
  queue := hqueue
  workUnits v _ := by rw [hunits]
  quiet v hv := by rw [Quiet, Quiet, hact v hv, hpend v hv]
  lastExpiry v _ := hlast v
  named _ w' hw' := by
    rw [hunits] at hw'
    exact ⟨⟨w', hw', rfl⟩, Or.inl (hlast unit)⟩

end State

/-! ## Steady records -/

/-- A record that leaves no entry of the expiry list too late: it does not create a Work Unit
under an identifier used before, and it does not close the Run of a closed Work Unit that expires
last while another of its Runs is active. -/
def Steady (p : State D × List Effect) (r : Record) : Prop :=
  p.1.Fresh r.event →
    (r.event.kind = .workUnitCreated → ∀ x ∈ p.2, ¬ x.CreatesUnit r.event.workUnitID) ∧
    (r.event.kind = .runClosed → ∀ w ∈ p.1.workUnits.lookup r.event.workUnitID,
      w.status = .closed →
      (∀ id ∈ p.1.runsOf r.event.workUnitID, id ≠ r.event.runID →
        (p.1.run id).status ≠ .active) ∨
      ∃ id ∈ p.1.runsOf r.event.workUnitID, id ≠ r.event.runID ∧
        (p.1.run id).status = .active ∧
        (p.1.run r.event.runID).expiresAt ≤ (p.1.run id).expiresAt)

instance (p : State D × List Effect) (r : Record) : Decidable (Steady p r) :=
  inferInstanceAs (Decidable (_ → _ ∧ (_ → ∀ w ∈ _, _ → _ ∨ _)))

namespace State

/-- The last expiry of a Work Unit after one of its Runs was closed. -/
lemma lastExpiry_closed {unit : String} {r : Run} (closed : Run)
    (hlist : t.runsByWorkUnit = s.runsByWorkUnit) (hruns : t.runs = s.runs.insert r.id closed)
    (hcl : closed.status = .closed)
    (hstdy : (∀ id ∈ s.runsOf unit, id ≠ r.id → (s.run id).status ≠ .active) ∨
      ∃ id ∈ s.runsOf unit, id ≠ r.id ∧ (s.run id).status = .active ∧
        (s.run r.id).expiresAt ≤ (s.run id).expiresAt) :
    t.lastExpiry unit = s.lastExpiry unit ∨ t.lastExpiry unit = 0 := by
  have hids : t.runsOf unit = s.runsOf unit := by rw [runsOf, runsOf, hlist]
  have hself : (t.run r.id).status = .closed := by
    rw [run, hruns, getD_insert, if_pos rfl, hcl]
  have hother : ∀ id, id ≠ r.id → t.run id = s.run id := by
    intro id hne
    rw [run, hruns, getD_insert, if_neg hne]
    rfl
  have active : ∀ {id}, (t.run id).status = .active → id ≠ r.id := by
    rintro id hact rfl
    rw [hself] at hact
    cases hact
  have later : ∀ {id}, id ∈ s.runsOf unit → id ≠ r.id → (s.run id).status = .active →
      (s.run id).expiresAt ≤ t.lastExpiry unit := by
    intro id hid hne hact
    rw [← hother id hne] at hact ⊢
    exact le_lastExpiry (hids ▸ hid) hact
  rcases hstdy with hnone | ⟨o, ho, hne, hact, hle⟩
  · right
    rcases lastExpiry_attained (s := t) unit with hzero | ⟨id, hid, hact, -⟩
    · exact hzero
    · have hne := active hact
      rw [hother id hne] at hact
      exact absurd hact (hnone id (hids ▸ hid) hne)
  · refine Or.inl (le_antisymm ?_ ?_)
    · rcases lastExpiry_attained (s := t) unit with hzero | ⟨id, hid, hact', heq⟩
      · rw [hzero]
        exact lastExpiry_nonneg unit
      · have hne' := active hact'
        rw [hother id hne'] at hact' heq
        rw [← heq]
        exact le_lastExpiry (hids ▸ hid) hact'
    · rcases lastExpiry_attained (s := s) unit with hzero | ⟨id, hid, hact', heq⟩
      · rw [hzero]
        exact lastExpiry_nonneg unit
      · rw [← heq]
        by_cases hid' : id = r.id
        · rw [hid']
          exact hle.trans (later ho hne hact)
        · exact later hid hid' hact'

/-- **An accepted effect is local** to the Work Unit the record names. -/
lemma localTo_effect {r : Record} (hb : Books cat s h) (hw : s.Waits ∅)
    (hborn : ∀ unit ∈ s.indexes.waiting, ∃ x ∈ h, x.CreatesUnit unit)
    (hv : r.event.validate cat = []) (hf : s.Fresh r.event) (hstdy : Steady (s, h) r)
    (hst : s.Staged r t) : LocalTo r.event.workUnitID s t := by
  -- a Work Unit that is still open is not on the list
  have isOpen : ∀ {w : WorkUnit}, s.workUnits.lookup r.event.workUnitID = some w →
      w.status = .open → r.event.workUnitID ∉ s.indexes.waiting := by
    intro w hl ho hin
    obtain ⟨time, htime⟩ := (hw.list.waiting _).mp hin
    have := (hw.bounded _ htime w hl).1
    rw [ho] at this
    cases this
  obtain ⟨k, b, rfl, happl⟩ := hst.kind hv
  cases happl with
  | workUnitCreated hkind =>
    rw [settleIndexes_workUnitCreated _ hkind, noted]
    refine ⟨rfl, rfl, rfl, fun v hv => ?_, fun v _ => Iff.rfl, fun v _ => rfl, fun hin => ?_⟩
    · rw [lookup_insert_ite, if_neg hv]
    · obtain ⟨x, hx, hcrs⟩ := hborn _ hin
      exact absurd hcrs ((hstdy hf).1 hkind x hx)
  | workUnitClosed hkind hl _ ho =>
    rw [settleIndexes_workUnitClosed _ hkind, noted, (hb.unitsHeld.keyed _ _ hl).1]
    refine ⟨rfl, rfl, rfl, fun v hv => ?_, fun v _ => Iff.rfl, fun v _ => rfl, fun hin => ?_⟩
    · rw [lookup_insert_ite, if_neg hv]
    · exact absurd hin (isOpen hl ho)
  | runCreated hkind hnone hl _ ho =>
    rw [settleIndexes_runCreated _ hkind, noted]
    refine ⟨rfl, rfl, rfl, fun v _ => rfl, fun v _ => Iff.rfl, fun v hv => ?_, fun hin => ?_⟩
    · refine lastExpiry_congr ?_ fun id hid => ?_
      · rw [runsOf, getD_insert, if_neg hv]
        rfl
      · obtain ⟨run, hr, -⟩ := hb.listed.lookup_of_mem hid
        have hne : id ≠ r.event.runID := by
          rintro rfl
          rw [hnone] at hr
          cases hr
        rw [State.run, getD_insert, if_neg hne]
        exact ⟨rfl, rfl⟩
    · exact absurd hin (isOpen hl ho)
  | @runClosed hkind run hr _ hwu =>
    have hid := hb.runsHeld.id _ run hr
    rw [settleIndexes_runClosed _ hkind, noted]
    refine ⟨rfl, rfl, rfl, fun v _ => rfl, fun v _ => Iff.rfl, fun v hv => ?_,
      fun hin w' hw' => ⟨⟨w', hw', rfl⟩, ?_⟩⟩
    · refine lastExpiry_congr rfl fun id hin => ?_
      obtain ⟨run', hr', hwu'⟩ := hb.listed.lookup_of_mem hin
      have hne : id ≠ run.id := by
        rw [hid]
        rintro rfl
        rw [hr] at hr'
        cases hr'
        exact hv (hwu'.symm.trans hwu)
      rw [State.run, getD_insert, if_neg hne]
      exact ⟨rfl, rfl⟩
    · obtain ⟨time, htime⟩ := (hw.list.waiting _).mp hin
      have hcl := (hw.bounded _ htime w' hw').1
      have hcond := (hstdy hf).2 hkind w' hw' hcl
      rw [← hid] at hcond
      exact lastExpiry_closed (closedRun run r.event) rfl rfl rfl hcond
  | reservationCreated hkind hattr =>
    have hheld : r.event.runID ≠ "" → ∃ run, s.runs.lookup r.event.runID = some run :=
      fun hne => (hb.run_of_attribution hattr hne).imp fun run hr => hr.1
    rw [settleIndexes_request _ (by rw [hkind]; rfl), enterReservation]
    refine .frame rfl rfl rfl rfl (fun v _ => rfl) (fun v hv => ?_) fun v => ?_
    · split_ifs
      · rw [members_addMember, if_neg hv]
      · rfl
    · refine lastExpiry_of_map ?_ (reservedRuns_lookup hheld) (fun id run => ?_) v
      · rfl
      · split_ifs <;> exact ⟨rfl, rfl⟩
  | attemptStarted hkind | requestAccepted hkind =>
    rw [settleIndexes_request _ (by rw [hkind]; rfl)]
    exact .frame rfl rfl rfl rfl (fun _ _ => rfl) (fun _ _ => rfl) fun _ => rfl
  | @attemptSettled hkind res hres hset =>
    have hheld : r.event.runID ≠ "" → ∃ run, s.runs.lookup r.event.runID = some run := by
      intro hne
      rw [hset.run] at hne ⊢
      exact ((hb.sound _ res hres).run hne).imp fun run hr => hr.1
    rw [settleIndexes_request _ (by rw [hkind]; rfl), leaveReservation]
    refine .frame rfl rfl rfl rfl (fun v _ => rfl) (fun v hv => ?_) fun v => ?_
    · show members (if r.event.workUnitID ≠ "" then _ else _) v = _
      split_ifs
      · rw [members_removeMember, if_neg hv]
      · rfl
    · refine lastExpiry_of_map ?_ (settledRuns_lookup res hheld) (fun id run => ?_) v
      · rfl
      · split_ifs <;> exact ⟨rfl, rfl⟩
  | requestFinalized hkind hattr =>
    rw [settleIndexes_request _ (by rw [hkind]; rfl), applyFinalized]
    cases hl : s.requestRuns.lookup r.event.requestID with
    | none => exact .frame rfl rfl rfl rfl (fun _ _ => rfl) (fun _ _ => rfl) fun _ => rfl
    | some attribution =>
      refine .frame rfl rfl rfl rfl (fun v hv => ?_) (fun _ _ => rfl) fun _ => rfl
      rcases hattr with hattr | ⟨hattr, -⟩ <;> rw [hl] at hattr <;> cases hattr
      rw [members_removeMember, if_neg hv]
  | requestAttributed hkind =>
    rw [settleIndexes_request _ (by rw [hkind]; rfl)]
    refine .frame rfl rfl rfl rfl (fun v hv => ?_) (fun _ _ => rfl) fun _ => rfl
    show members (addMember _ _ _) v = _
    rw [members_addMember, if_neg hv]

end State

end Ledger

end Halro
