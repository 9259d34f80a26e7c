import Mathlib.Data.Prod.Lex
import Halro.Ledger.Conservation

/-!
# Snapshots of the state (`internal/ledger/state_snapshot.go`)

A snapshot holds every map of the state as a list in a fixed order, and the window of event
digests oldest first.  It does not hold the indexes of archiving: `rebuildArchiveIndexes` derives
them again, and puts every closed Work Unit still held back on the expiry list at the zero time.

`restore_sameCore` is the round trip: a restored state agrees with the one the snapshot was taken
of in everything but those indexes and the position of the digest window in its ring.
-/

namespace Halro

open Framework Framework.FinMap

namespace Ledger

/-- Balances are ordered by project, then period, then version. -/
def BalanceKey.place (k : BalanceKey) : String ×ₗ String ×ₗ ℕ :=
  toLex (k.projectID, toLex (k.periodID, k.timezoneVersion))

def BalanceKey.le (a b : BalanceKey) : Prop := a.place ≤ b.place

instance : DecidableRel BalanceKey.le := fun a b => inferInstanceAs (Decidable (a.place ≤ b.place))

instance : IsTrans BalanceKey BalanceKey.le := ⟨fun _ _ _ hab hbc => le_trans hab hbc⟩

instance : Std.Total BalanceKey.le := ⟨fun a b => le_total a.place b.place⟩

instance : Std.Antisymm BalanceKey.le := ⟨fun a b hab hba => by
  have heq := congrArg ofLex (le_antisymm hab hba)
  cases a
  cases b
  simp_all [BalanceKey.place]⟩

/-- Identifiers are ordered as texts. -/
abbrev idLE (a b : String) : Prop := a ≤ b

/-! ## The snapshot -/

structure Snapshot (D : Type) where
  watermark : Watermark
  balances : List (BalanceKey × Balance)
  reservations : List (String × AttemptReservation)
  leases : List Record
  eventDigests : List (String × D)
  workUnits : List WorkUnit
  runs : List Run
  runOrder : List (String × List String)
  requestRuns : List (String × RequestAttribution)
  activeByWorkUnit : List (String × List String)
  pendingByWorkUnit : List (String × List String)
  workUnitCosts : List (String × WorkUnitCost)
  governanceIdempotency : List GovernanceIdempotency

/-- The values of a map, sorted by a field of each. -/
def valuesBy {V O : Type} [LE O] [DecidableLE O] (field : V → O) (m : FinMap String V) : List V :=
  ((m.entriesSorted idLE).map Prod.snd).insertionSort fun a b => field a ≤ field b

/-- The members of each set, sorted. -/
def membersOf (sets : FinMap String (Finset String)) : List (String × List String) :=
  (sets.entriesSorted idLE).map fun (k, set) => (k, FinMap.sorted idLE set.val)

namespace State

variable {D : Type}

/-- The remembered event identifiers, oldest first. -/
def window (s : State D) : List String := s.eventOrder.rotate s.eventNext

/-- `copySnapshotLocked` and `sortSnapshot`. -/
def copySnapshot (s : State D) : Snapshot D where
  watermark := s.watermark
  balances := s.balances.entriesSorted BalanceKey.le
  reservations := s.reservations.entriesSorted idLE
  leases := valuesBy Record.sequence s.leaseRecords
  eventDigests := s.window.filterMap fun id => (s.eventDigests.lookup id).map fun d => (id, d)
  workUnits := valuesBy WorkUnit.id s.workUnits
  runs := valuesBy Run.id s.runs
  runOrder := s.runsByWorkUnit.entriesSorted idLE
  requestRuns := s.requestRuns.entriesSorted idLE
  activeByWorkUnit := membersOf s.activeByWorkUnit
  pendingByWorkUnit := membersOf s.pendingByWorkUnit
  workUnitCosts := s.workUnitCosts.entriesSorted idLE
  governanceIdempotency := valuesBy GovernanceIdempotency.mapKey s.governanceIdempotency

/-- Derive the indexes of archiving from the maps.  Visiting the idempotency records in key order
leaves every list sorted, as the source's sort does. -/
def rebuildArchiveIndexes (s : State D) : State D :=
  let units := (s.workUnits.entriesSorted idLE).map Prod.snd
  let runs := (s.runs.entriesSorted idLE).map Prod.snd
  let rebuilt : State D := { s with indexes := {
    idemByUnit := FinMap.listsOf GovernanceIdempotency.workUnitID
      (s.governanceIdempotency.entriesSorted idLE),
    openByProject := FinMap.indexOf openPlace (units.map fun w => (w.id, w)),
    liveRuns := FinMap.indexOf livePlace (runs.map fun r => (r.id, r)) } }
  (units.filter fun w => w.status ≠ .open).foldl (fun t w => t.awaitExpiry w.id 0) rebuilt

end State

namespace Snapshot

/-- The maps of a snapshot read back, before its digests and its indexes. -/
def loaded {D : Type} (snapshot : Snapshot D) (archiving : Bool) : State D where
  watermark := snapshot.watermark
  balances := FinMap.ofList Prod.fst Prod.snd snapshot.balances
  reservations := FinMap.ofList Prod.fst Prod.snd snapshot.reservations
  leaseRecords := FinMap.ofList (fun r => r.event.attemptID) id snapshot.leases
  workUnits := FinMap.ofList WorkUnit.id id snapshot.workUnits
  runs := FinMap.ofList Run.id id snapshot.runs
  runsByWorkUnit := FinMap.ofList Prod.fst Prod.snd snapshot.runOrder
  requestRuns := FinMap.ofList Prod.fst Prod.snd snapshot.requestRuns
  activeByWorkUnit := FinMap.ofList Prod.fst (fun item => item.2.toFinset) snapshot.activeByWorkUnit
  pendingByWorkUnit :=
    FinMap.ofList Prod.fst (fun item => item.2.toFinset) snapshot.pendingByWorkUnit
  workUnitCosts := FinMap.ofList Prod.fst Prod.snd snapshot.workUnitCosts
  governanceIdempotency :=
    FinMap.ofList GovernanceIdempotency.mapKey id snapshot.governanceIdempotency
  archiving := archiving

/-- `unmarshalStateSnapshot`, followed by `SetArchive` when there is an archive. -/
def restore {D : Type} (snapshot : Snapshot D) (archiving : Bool) : State D :=
  (snapshot.eventDigests.foldl (fun s item => s.rememberDigest item.1 item.2)
    (snapshot.loaded archiving)).rebuildArchiveIndexes

end Snapshot

/-! ## What a snapshot keeps -/

variable {D : Type}

/-- Two states that agree in everything a snapshot keeps. -/
structure SameCore (s t : State D) : Prop where
  balances : t.balances = s.balances
  reservations : t.reservations = s.reservations
  leaseRecords : t.leaseRecords = s.leaseRecords
  eventDigests : t.eventDigests = s.eventDigests
  window : t.window = s.window
  workUnits : t.workUnits = s.workUnits
  runs : t.runs = s.runs
  requestRuns : t.requestRuns = s.requestRuns
  runsByWorkUnit : t.runsByWorkUnit = s.runsByWorkUnit
  activeByWorkUnit : t.activeByWorkUnit = s.activeByWorkUnit
  pendingByWorkUnit : t.pendingByWorkUnit = s.pendingByWorkUnit
  workUnitCosts : t.workUnitCosts = s.workUnitCosts
  governanceIdempotency : t.governanceIdempotency = s.governanceIdempotency
  watermark : t.watermark = s.watermark
  archiving : t.archiving = s.archiving

/-- The digest window is a ring: as it fills, the oldest entry is first; once full, the oldest is
at `eventNext`.  It names exactly the remembered events, each once. -/
structure WindowSound (s : State D) : Prop where
  nodup : s.window.Nodup
  bound : s.eventOrder.length ≤ recentEventDigests
  next : s.eventNext < recentEventDigests
  filling : s.eventOrder.length < recentEventDigests → s.eventNext = 0
  exact : ∀ id, (s.eventDigests.lookup id).isSome ↔ id ∈ s.window

/-! ## The round trip -/

section RoundTrip

lemma mem_valuesBy {V O : Type} [LE O] [DecidableLE O] {field : V → O} {m : FinMap String V}
    {v : V} : v ∈ valuesBy field m ↔ ∃ k, m.lookup k = some v := by
  unfold valuesBy
  rw [List.mem_insertionSort, mem_values]

/-- Values read back under a field that is their key. -/
lemma ofList_valuesBy {V O : Type} [LE O] [DecidableLE O] {field : V → O} {key : V → String}
    {m : FinMap String V} (hkey : ∀ k v, m.lookup k = some v → key v = k) :
    ofList key id (valuesBy field m) = m := by
  refine ofList_eq (fun v hv => ?_) fun k v hv => ⟨v, mem_valuesBy.mpr ⟨k, hv⟩, hkey k v hv⟩
  obtain ⟨k, hk⟩ := mem_valuesBy.mp hv
  rw [hkey k v hk, hk]
  rfl

/-- Sets read back from their sorted members. -/
lemma ofList_membersOf (sets : FinMap String (Finset String)) :
    ofList Prod.fst (fun item => item.2.toFinset) (membersOf sets) = sets := by
  have back : ∀ set : Finset String, (sorted idLE set.val).toFinset = set := by
    intro set
    ext a
    rw [List.mem_toFinset, mem_sorted]
    exact Iff.rfl
  refine ofList_eq ?_ fun k set hk => ?_
  · intro item hitem
    obtain ⟨⟨k, set⟩, hmem, rfl⟩ := List.mem_map.mp hitem
    rw [mem_entriesSorted.mp hmem, back]
  · exact ⟨_, List.mem_map.mpr ⟨(k, set), mem_entriesSorted.mpr hk, rfl⟩, rfl⟩

namespace State

/-- Digests remembered one by one, as long as the window has room. -/
lemma foldl_rememberDigest (l : List (String × D)) (s : State D)
    (hroom : s.eventOrder.length + l.length ≤ recentEventDigests) :
    l.foldl (fun t item => t.rememberDigest item.1 item.2) s =
      { s with
        eventOrder := s.eventOrder ++ l.map Prod.fst,
        eventDigests := l.foldl (fun m item => m.insert item.1 item.2) s.eventDigests } := by
  induction l generalizing s with
  | nil => simp
  | cons item l ih =>
    rw [List.length_cons] at hroom
    have hone : s.rememberDigest item.1 item.2 = { s with
        eventOrder := s.eventOrder ++ [item.1],
        eventDigests := s.eventDigests.insert item.1 item.2 } := by
      rw [rememberDigest, if_pos (by omega)]
    rw [List.foldl_cons, hone, ih _ (by simp only [List.length_append, List.length_singleton]; omega)]
    simp

/-- The rest of a state, apart from the indexes of archiving. -/
lemma foldl_awaitExpiry (units : List WorkUnit) (time : ℤ) (s : State D) :
    ∃ waiting expiries, units.foldl (fun t w => t.awaitExpiry w.id time) s =
      { s with indexes := { s.indexes with waiting := waiting, expiries := expiries } } := by
  induction units generalizing s with
  | nil => exact ⟨_, _, rfl⟩
  | cons w units ih =>
    obtain ⟨waiting, expiries, heq⟩ := ih (s.awaitExpiry w.id time)
    refine ⟨waiting, expiries, heq.trans ?_⟩
    unfold awaitExpiry
    split_ifs <;> rfl

/-- Rebuilding changes the indexes alone. -/
lemma rebuildArchiveIndexes_eq (s : State D) :
    ∃ waiting expiries, s.rebuildArchiveIndexes = { s with indexes := {
      idemByUnit := listsOf GovernanceIdempotency.workUnitID
        (s.governanceIdempotency.entriesSorted idLE),
      openByProject := indexOf openPlace
        (((s.workUnits.entriesSorted idLE).map Prod.snd).map fun w => (w.id, w)),
      liveRuns := indexOf livePlace
        (((s.runs.entriesSorted idLE).map Prod.snd).map fun r => (r.id, r)),
      waiting := waiting, expiries := expiries } } := by
  exact foldl_awaitExpiry _ 0 _

/-- The digests a snapshot keeps are those of the window, all of them. -/
lemma copySnapshot_eventDigests {s : State D} (hw : WindowSound s) :
    s.copySnapshot.eventDigests.map Prod.fst = s.window ∧
      ofList Prod.fst Prod.snd s.copySnapshot.eventDigests = s.eventDigests := by
  have hheld : ∀ id ∈ s.window, ∃ d, s.eventDigests.lookup id = some d := by
    intro id hid
    rw [← Option.isSome_iff_exists, hw.exact]
    exact hid
  constructor
  · show (s.window.filterMap _).map Prod.fst = s.window
    revert hheld
    induction s.window with
    | nil => exact fun _ => rfl
    | cons id l ih =>
      intro hheld
      obtain ⟨d, hd⟩ := hheld id List.mem_cons_self
      rw [List.filterMap_cons, hd]
      simp only [Option.map_some, List.map_cons]
      rw [ih fun j hj => hheld j (List.mem_cons_of_mem id hj)]
  · refine ofList_eq ?_ fun id d hd => ?_
    · rintro ⟨id, d⟩ hmem
      obtain ⟨j, -, hj⟩ := List.mem_filterMap.mp hmem
      obtain ⟨d', hd', heq⟩ := Option.map_eq_some_iff.mp hj
      cases heq
      exact hd'
    · refine ⟨(id, d), List.mem_filterMap.mpr ⟨id, ?_, by rw [hd, Option.map_some]⟩, rfl⟩
      refine (hw.exact id).mp ?_
      rw [hd]
      rfl

end State

/-- **The round trip.**  A restored state agrees with the one the snapshot was taken of in all
that a snapshot keeps. -/
theorem restore_sameCore {cat : Catalogue D} {s : State D} {h : List Effect} (hb : Books cat s h)
    (hw : WindowSound s) : SameCore s (s.copySnapshot.restore s.archiving) := by
  obtain ⟨hids, hdigs⟩ := State.copySnapshot_eventDigests hw
  have hlen : s.copySnapshot.eventDigests.length ≤ recentEventDigests := by
    rw [← List.length_map, hids, State.window, List.length_rotate]
    exact hw.bound
  have hroom : (s.copySnapshot.loaded s.archiving).eventOrder.length +
      s.copySnapshot.eventDigests.length ≤ recentEventDigests := by
    rw [Snapshot.loaded, List.length_nil, zero_add]
    exact hlen
  obtain ⟨waiting, expiries, heq⟩ := State.rebuildArchiveIndexes_eq
    (s.copySnapshot.eventDigests.foldl (fun t item => t.rememberDigest item.1 item.2)
      (s.copySnapshot.loaded s.archiving))
  rw [Snapshot.restore, heq, State.foldl_rememberDigest _ _ hroom]
  exact {
    balances := ofList_entriesSorted _
    reservations := ofList_entriesSorted _
    leaseRecords := ofList_valuesBy hb.leases.keyed
    eventDigests := hdigs
    window := by
      show List.rotate ([] ++ s.copySnapshot.eventDigests.map Prod.fst) 0 = s.window
      rw [List.nil_append, List.rotate_zero, hids]
    workUnits := ofList_valuesBy fun k w hl => (hb.unitsHeld.keyed k w hl).1
    runs := ofList_valuesBy fun k r hl => hb.runsHeld.id k r hl
    requestRuns := ofList_entriesSorted _
    runsByWorkUnit := ofList_entriesSorted _
    activeByWorkUnit := ofList_membersOf _
    pendingByWorkUnit := ofList_membersOf _
    workUnitCosts := ofList_entriesSorted _
    governanceIdempotency := ofList_valuesBy hb.idemKeyed
    watermark := rfl
    archiving := rfl }

end RoundTrip

end Ledger

end Halro
