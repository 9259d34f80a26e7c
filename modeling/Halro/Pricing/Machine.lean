import Halro.Framework.Run
import Halro.Pricing.Timeline

/-!
# The pricing store over time (`internal/store/bolt/store_pricing.go`, `journal_entry.go`)

The store's pricing operations are transactions, and one transaction runs at a time.  The calls that
prepare and commit pins share transactions: `commitBatch` runs the callbacks of a batch one after the
other in one transaction, drops the caller whose callback fails and starts again with the others in
a new one.  A machine takes one callback at a time, so that anything may happen between two
transactions of a batch, and a call that returned may merge its clock anchor at any later moment.

`stored` is a history variable: the pins the committed transactions stored, in the order they were
stored, each with the timeline its transaction saw.
-/

namespace Halro

open Framework

namespace Pricing

/-! ## Transactions of their own -/

/-- An operation that is a transaction of its own. -/
inductive Update
  | create (price : DeploymentPriceVersion) (request : Option PricingStore.IdempotentRequest)
  | adopt (price : DeploymentPriceVersion)
  | bootstrap (price : DeploymentPriceVersion)
  | putDeployment (deploymentID : String) (expectedRevision : ℕ) (deleted : Bool)
  | cancel (deploymentID priceID actor : String) (cancelledAt : ZonedTime) (expectedRevision : ℕ)
  | deletePin (attemptID : String)
  | quarantineRestored (backupCreatedAt restoredAt : ℤ)
  | confirmRestored (deploymentID : String)
  | recoverClock (deploymentID : String) (expected : PricingStore.PricingClockConfirmation)
      (now : ℤ)
  | recoverPins (lease : String → Option Ledger.Record) (checkedThrough : ℕ) (now : ℤ)

def Update.run (rules : PricingRules) (tx : PricingStore) :
    Update → Except PricingError PricingStore
  | .create price request => (tx.createDeploymentPriceVersion rules price request).map Prod.snd
  | .adopt price => (tx.adoptDeploymentPriceProposal rules price).map Prod.snd
  | .bootstrap price => tx.bootstrap rules price
  | .putDeployment deploymentID expectedRevision deleted =>
    tx.putDeployment deploymentID expectedRevision deleted
  | .cancel deploymentID priceID actor cancelledAt expectedRevision =>
    (tx.cancelDeploymentPriceVersion rules deploymentID priceID actor cancelledAt
      expectedRevision).map Prod.snd
  | .deletePin attemptID => tx.deletePreparedDeploymentPricePin attemptID
  | .quarantineRestored backupCreatedAt restoredAt =>
    tx.quarantineRestoredScheduledPrices backupCreatedAt restoredAt
  | .confirmRestored deploymentID => tx.confirmRestoredPricing deploymentID
  | .recoverClock deploymentID expected now => tx.recoverClockPricing rules deploymentID expected now
  | .recoverPins lease checkedThrough now =>
    tx.recoverDeploymentPricePins rules lease checkedThrough now

/-- The deployment whose clock an operator starts anew. -/
def Update.confirmsClock : Update → Option String
  | .recoverClock deploymentID _ _ => some deploymentID
  | _ => none

/-- The deployment whose quarantine an operator ends. -/
def Update.confirms : Update → Option String
  | .recoverClock deploymentID _ _ => some deploymentID
  | .confirmRestored deploymentID => some deploymentID
  | _ => none

/-- The operation is about versions and deployments. -/
def Update.edits : Update → Bool
  | .create .. | .adopt .. | .bootstrap .. | .putDeployment .. | .cancel .. => true
  | _ => false

/-! ## Batches -/

/-- A call waiting for its batch.  A call that concerns no price still may fail. -/
inductive BatchCall
  | prepare (request : PinRequest)
  | commitPin (attemptID snapshotSHA256 : String) (ledgerSequence : ℕ) (committedAt : ℤ)
  | other
  deriving DecidableEq

/-- A call is refused for its arguments before it queues. -/
def BatchCall.admissible : BatchCall → Bool
  | .prepare r => r.admissible
  | _ => true

/-- A pin and the timeline of its deployment when it was stored. -/
structure StoredPin where
  pin : PricePinIntent
  timeline : List DeploymentPriceVersion
  deriving DecidableEq

/-- What a callback leaves in its transaction: the store, the pins it stored and the clock
readings its caller merges on return. -/
structure CallbackResult where
  tx : PricingStore
  pinned : List StoredPin := []
  anchors : List PinRequest := []

/-- One run of a callback; `none` is a fault, which ends the transaction. -/
def BatchCall.run (rules : PricingRules) (anchors : FinMap String PricingClockObservation)
    (now : ℤ) (tx : PricingStore) : BatchCall → Option CallbackResult
  | .prepare r =>
    match tx.prepareDeploymentPricePin rules (anchors.lookup r.deploymentID) now r with
    | .error _ => none
    | .ok (.refused _, tx') => some { tx := tx' }
    | .ok (.pinned _ _ pin, tx') =>
      let pinned := if (tx.pins.lookup r.attemptID).isSome then []
        else [{ pin := pin, timeline := tx.versionsOf r.deploymentID }]
      some { tx := tx', pinned := pinned, anchors := [r] }
  | .commitPin attemptID snapshotSHA256 ledgerSequence committedAt =>
    match tx.commitDeploymentPricePin attemptID snapshotSHA256 ledgerSequence committedAt with
    | .error _ => none
    | .ok (_, tx') => some { tx := tx' }
  | .other => some { tx := tx }

/-- A transaction of a batch under way: the callbacks that ran, what they left, and those that wait. -/
structure OpenBatch where
  ran : List BatchCall := []
  waiting : List BatchCall
  result : CallbackResult

/-- The callback ran: what it left is added to what the others left. -/
def OpenBatch.add (b : OpenBatch) (c : BatchCall) (r : CallbackResult) : OpenBatch where
  ran := b.ran ++ [c]
  waiting := b.waiting
  result :=
    { tx := r.tx
      pinned := b.result.pinned ++ r.pinned
      anchors := b.result.anchors ++ r.anchors }

/-! ## The machine -/

structure Machine where
  store : PricingStore := {}
  /-- The last trusted reading of each deployment; a process starts without any. -/
  anchors : FinMap String PricingClockObservation := ∅
  /-- The callers of the batch in turn, when its transaction is not under way. -/
  queued : List BatchCall := []
  running : Option OpenBatch := none
  /-- The calls that succeeded and have not returned yet. -/
  returning : List PinRequest := []
  stored : List StoredPin := []

/-- How the end of a transaction comes out.  `unconfirmed` is a transaction that is committed and
whose callers hear an error all the same. -/
inductive Ending
  | committed
  | unconfirmed
  | failed
  deriving DecidableEq

inductive Action
  | update (operation : Update) (ending : Ending)
  | enqueue (calls : List BatchCall)
  | call (now : ℤ) (fault : Bool)
  | finish (ending : Ending)
  | merge (request : PinRequest)
  | restart

namespace Machine

/-- The next callback of the transaction under way, or of a new one over the store as it is now. -/
def next (m : Machine) : Option (BatchCall × OpenBatch) :=
  match m.running with
  | some b =>
    match b.waiting with
    | [] => none
    | c :: rest => some (c, { b with waiting := rest })
  | none =>
    match m.queued with
    | [] => none
    | c :: rest => some (c, { waiting := rest, result := { tx := m.store } })

/-- `mergeClockAnchor` of a call that returns. -/
def mergeAnchor (m : Machine) (r : PinRequest) : FinMap String PricingClockObservation :=
  match mergeClockAnchor (m.anchors.lookup r.deploymentID) r.observation with
  | none => m.anchors
  | some anchor => m.anchors.insert r.deploymentID anchor

def step (rules : PricingRules) (m : Machine) : Action → Machine
  | .update operation ending =>
    -- one writer: a batch's transaction excludes every other
    if m.running.isSome then m
    else
      match operation.run rules m.store, ending with
      | .error _, _ | .ok _, .failed => m
      | .ok tx, .unconfirmed => { m with store := tx }
      | .ok tx, .committed =>
        -- a confirmed clock has no anchor to be compared with
        { m with store := tx
                 anchors := match operation.confirmsClock with
                  | some deploymentID => m.anchors.erase deploymentID
                  | none => m.anchors }
  | .enqueue calls =>
    if m.running.isSome || !m.queued.isEmpty then m
    else { m with queued := calls.filter BatchCall.admissible }
  | .call now fault =>
    match m.next with
    | none => m
    | some (c, b) =>
      match if fault then none else c.run rules m.anchors now b.result.tx with
      | none => { m with running := none, queued := b.ran ++ b.waiting }
      | some r => { m with running := some (b.add c r), queued := [] }
  | .finish ending =>
    match m.running with
    | none => m
    | some b =>
      if !b.waiting.isEmpty then m
      else
        match ending with
        | .failed => { m with running := none }
        | .unconfirmed =>
          { m with running := none, store := b.result.tx, stored := m.stored ++ b.result.pinned }
        | .committed =>
          { m with running := none, store := b.result.tx, stored := m.stored ++ b.result.pinned
                   returning := m.returning ++ b.result.anchors }
  | .merge r =>
    if r ∈ m.returning then
      { m with anchors := m.mergeAnchor r, returning := m.returning.erase r }
    else m
  | .restart => { m with anchors := ∅, queued := [], running := none, returning := [] }

def run (rules : PricingRules) (m : Machine) (actions : List Action) : Machine :=
  actions.foldl (step rules) m

end Machine

/-! ## Operations that leave the versions alone -/

/-- Only pins and marks differ. -/
def SameVersions (tx tx' : PricingStore) : Prop :=
  ∃ pins highWater, tx' = { tx with pins := pins, highWater := highWater }

section SameVersions

variable {rules : PricingRules} {tx tx' : PricingStore}

lemma SameVersions.refl : SameVersions tx tx := ⟨tx.pins, tx.highWater, rfl⟩

lemma SameVersions.keeps (h : SameVersions tx tx') : PricingStore.Keeps rules tx tx' := by
  obtain ⟨pins, highWater, rfl⟩ := h
  exact .of_eq rfl rfl rfl rfl

lemma deletePin_pins {attemptID : String}
    (h : tx.deletePreparedDeploymentPricePin attemptID = .ok tx') :
    ∃ pins, tx' = { tx with pins := pins } := by
  unfold PricingStore.deletePreparedDeploymentPricePin at h
  split at h
  · cases h
    exact ⟨tx.pins, rfl⟩
  · split at h
    · cases h
      exact ⟨_, rfl⟩
    · cases h

lemma commitPin_pins {attemptID snapshotSHA256 : String} {ledgerSequence : ℕ}
    {committedAt : ℤ} {outcome : Except PricingError PricePinIntent}
    (h : tx.commitDeploymentPricePin attemptID snapshotSHA256 ledgerSequence committedAt =
      .ok (outcome, tx')) : ∃ pins, tx' = { tx with pins := pins } := by
  unfold PricingStore.commitDeploymentPricePin at h
  split at h
  · cases h
    exact ⟨tx.pins, rfl⟩
  · split at h
    · cases h
      exact ⟨tx.pins, rfl⟩
    · split at h
      · split_ifs at h <;> cases h <;> exact ⟨tx.pins, rfl⟩
      · obtain ⟨-, h⟩ := guard_eq_ok.mp h
        obtain ⟨-, h⟩ := guard_eq_ok.mp h
        cases h
        exact ⟨_, rfl⟩

/-- Some marks that were not in quarantine are, and nothing else differs. -/
structure Quarantined (tx tx' : PricingStore)
    (updates : List (String × DeploymentPricingHighWater)) : Prop where
  store : tx' = { tx with highWater := tx.highWater.insertAll updates }
  nodup : (updates.map Prod.fst).Nodup
  mark : ∀ e ∈ updates, ∀ mark, tx.highWater.lookup e.1 = some mark →
    e.2.latestSelectedAt = mark.latestSelectedAt ∧ mark.quarantine = none

lemma quarantineIncoherent_marks (h : tx.quarantineIncoherentPricingHighWatersTx = .ok tx') :
    ∃ updates, Quarantined tx tx' updates := by
  obtain ⟨-, h⟩ := guard_eq_ok.mp h
  cases h
  refine ⟨_, rfl, ?_, fun e he mark hmark => ?_⟩
  · rw [List.map_map]
    exact (List.filter_sublist.map _).nodup (FinMap.nodup_entriesSorted _)
  · obtain ⟨⟨key, old⟩, hmem, rfl⟩ := List.mem_map.mp he
    obtain ⟨hentry, hcond⟩ := List.mem_filter.mp hmem
    obtain rfl : old = mark :=
      Option.some.inj ((FinMap.mem_entriesSorted.mp hentry).symm.trans hmark)
    simp only [Bool.and_eq_true, Option.isNone_iff_eq_none] at hcond
    exact ⟨rfl, hcond.1⟩

lemma quarantineRestored_marks {backupCreatedAt restoredAt : ℤ}
    (h : tx.quarantineRestoredScheduledPrices backupCreatedAt restoredAt = .ok tx') :
    ∃ updates, Quarantined tx tx' updates := by
  unfold PricingStore.quarantineRestoredScheduledPrices at h
  split_ifs at h
  · cases h
    exact ⟨[], rfl, List.nodup_nil, fun e he => (by cases he)⟩
  · obtain ⟨-, h⟩ := guard_eq_ok.mp h
    obtain ⟨-, h⟩ := guard_eq_ok.mp h
    cases h
    refine ⟨_, rfl, FinMap.nodup_filterMap_keys (FinMap.nodup_entriesSorted _),
      fun e he mark hmark => ?_⟩
    obtain ⟨due, -, hdue⟩ := List.mem_filterMap.mp he
    obtain ⟨restored, hrest, rfl⟩ := Option.map_eq_some_iff.mp hdue
    rw [hmark, PricingStore.restoredMark] at hrest
    split_ifs at hrest with hquar
    cases hrest
    exact ⟨rfl, Option.not_isSome_iff_eq_none.mp hquar⟩

lemma confirmRestored_mark {deploymentID : String}
    (h : tx.confirmRestoredPricing deploymentID = .ok tx') :
    ∃ mark mark', tx.highWater.lookup deploymentID = some mark ∧
      tx' = { tx with highWater := tx.highWater.insert deploymentID mark' } ∧
      mark'.latestSelectedAt = mark.latestSelectedAt := by
  unfold PricingStore.confirmRestoredPricing at h
  split at h
  · cases h
  · rename_i mark hmark
    obtain ⟨-, h⟩ := guard_eq_ok.mp h
    obtain ⟨-, h⟩ := guard_eq_ok.mp h
    cases h
    exact ⟨mark, _, hmark, rfl, rfl⟩

lemma recoverClock_mark {deploymentID : String}
    {expected : PricingStore.PricingClockConfirmation} {now : ℤ}
    (h : tx.recoverClockPricing rules deploymentID expected now = .ok tx') :
    ∃ mark', tx' = { tx with highWater := tx.highWater.insert deploymentID mark' } := by
  obtain ⟨-, h⟩ := guard_eq_ok.mp h
  obtain ⟨⟨mark, reason, price⟩, -, h⟩ := bind_eq_ok.mp h
  obtain ⟨-, h⟩ := guard_eq_ok.mp h
  obtain ⟨-, h⟩ := guard_eq_ok.mp h
  obtain ⟨-, h⟩ := guard_eq_ok.mp h
  cases h
  exact ⟨_, rfl⟩

lemma recoverPins_pins {lease : String → Option Ledger.Record} {checkedThrough : ℕ}
    {now : ℤ} (h : tx.recoverDeploymentPricePins rules lease checkedThrough now = .ok tx') :
    ∃ mid updates pins, Quarantined tx mid updates ∧ tx' = { mid with pins := pins } := by
  obtain ⟨mid, hmid, h⟩ := bind_eq_ok.mp h
  obtain ⟨resolutions, -, h⟩ := bind_eq_ok.mp h
  obtain ⟨-, h⟩ := guard_eq_ok.mp h
  obtain ⟨-, h⟩ := guard_eq_ok.mp h
  cases h
  obtain ⟨updates, hmarks⟩ := quarantineIncoherent_marks hmid
  exact ⟨mid, updates, _, hmarks, rfl⟩

end SameVersions

/-! ## Preparing a pin, read as a transition -/

section Prepared

variable {rules : PricingRules} {tx tx' : PricingStore}

/-- What a run of the callback that prepares a pin may do. -/
inductive Prepared (rules : PricingRules) (tx : PricingStore) (r : PinRequest) :
    PricingStore → List StoredPin → Prop
  | unchanged : Prepared rules tx r tx []
  | quarantined (mark : DeploymentPricingHighWater) (reason : QuarantineReason)
    (hmark : tx.highWater.lookup r.deploymentID = some mark) (hfree : mark.quarantine = none) :
    Prepared rules tx r
      { tx with highWater := tx.highWater.insert r.deploymentID (mark.quarantineFor reason) } []
  | stored (pin : PricePinIntent) (price : DeploymentPriceVersion)
    (hdeployment : pin.deploymentID = r.deploymentID) (hattempt : pin.attemptID = r.attemptID)
    (hprice : tx.selectDeploymentPriceVersionTx rules r.deploymentID pin.pricingSelectedAt =
      .ok price)
    (hversion : pin.priceVersionID = price.id ∧ pin.priceVersion = price.version)
    (hvalid : pin.valid = true) (hencodable : pin.encodable = true)
    (hnew : tx.pins.lookup r.attemptID = none)
    (hmark : ∀ mark, tx.highWater.lookup r.deploymentID = some mark →
      mark.quarantine = none ∧ mark.latestSelectedAt ≤ pin.pricingSelectedAt) :
    Prepared rules tx r
      { tx with
        pins := tx.pins.insert pin.attemptID pin
        highWater := tx.highWater.insert pin.deploymentID (PricingStore.movedMark
          (tx.highWater.lookup pin.deploymentID) pin.deploymentID price pin.pricingSelectedAt) }
      [{ pin := pin, timeline := tx.versionsOf r.deploymentID }]

variable {r : PinRequest}

/-- A selection is made at the mark or after it, and only of a deployment that is not in
quarantine. -/
lemma decideClock_select {anchor : Option PricingClockObservation}
    {selectedAt gap : ℤ} (h : tx.decideClock rules anchor r = .ok (.select selectedAt gap)) :
    ∀ mark, tx.highWater.lookup r.deploymentID = some mark →
      mark.quarantine = none ∧ mark.latestSelectedAt ≤ selectedAt := by
  intro mark hmark
  unfold PricingStore.decideClock at h
  rw [hmark] at h
  obtain ⟨-, h⟩ := guard_eq_ok.mp h
  by_cases hquar : mark.quarantine.isSome = true
  · rw [if_pos hquar] at h
    cases h
  · refine ⟨Option.not_isSome_iff_eq_none.mp hquar, ?_⟩
    rw [if_neg hquar] at h
    dsimp only at h
    split at h
    · cases h
    · split at h
      · split at h
        · cases h
        · cases h
          exact le_refl _
      · rename_i hbehind
        cases h
        exact not_lt.mp hbehind

lemma decideClock_quarantine {anchor : Option PricingClockObservation}
    {mark : DeploymentPricingHighWater} {reason : QuarantineReason}
    (h : tx.decideClock rules anchor r = .ok (.quarantine mark reason)) :
    tx.highWater.lookup r.deploymentID = some mark ∧ mark.quarantine = none := by
  unfold PricingStore.decideClock at h
  split at h
  · cases h
  · rename_i found hfound
    obtain ⟨-, h⟩ := guard_eq_ok.mp h
    by_cases hquar : found.quarantine.isSome = true
    · rw [if_pos hquar] at h
      cases h
    · rw [if_neg hquar] at h
      dsimp only at h
      have hfree := Option.not_isSome_iff_eq_none.mp hquar
      split at h
      · cases h
        exact ⟨hfound, hfree⟩
      · split at h
        · split at h
          · cases h
            exact ⟨hfound, hfree⟩
          · cases h
        · cases h

lemma storePin_eq_ok {pin : PricePinIntent} {price : DeploymentPriceVersion}
    (h : tx.storePin pin price = .ok tx') : pin.valid = true ∧ pin.encodable = true ∧
      tx' = { tx with
        pins := tx.pins.insert pin.attemptID pin
        highWater := tx.highWater.insert pin.deploymentID (PricingStore.movedMark
          (tx.highWater.lookup pin.deploymentID) pin.deploymentID price
          pin.pricingSelectedAt) } := by
  obtain ⟨hvalid, h⟩ := guard_eq_ok.mp h
  obtain ⟨henc, h⟩ := guard_eq_ok.mp h
  obtain ⟨-, h⟩ := guard_eq_ok.mp h
  obtain ⟨-, h⟩ := guard_eq_ok.mp h
  exact ⟨by simpa using hvalid, by simpa using henc, (Except.ok.inj h).symm⟩

/-- A selection is refused, finds the attempt's pin, or stores a new one. -/
lemma pinSelection_cases {now : ℤ} {selectedAt gap : ℤ}
    {price : DeploymentPriceVersion} {outcome : PricingStore.PrepareOutcome}
    (h : tx.pinSelection rules now r selectedAt gap price = .ok (outcome, tx')) :
    (∃ reason, outcome = .refused reason ∧ tx' = tx) ∨
    (∃ snapshot pin, outcome = .pinned price snapshot pin ∧
      tx.pins.lookup r.attemptID = some pin ∧ tx' = tx) ∨
    ∃ snapshot pin, outcome = .pinned price snapshot pin ∧ tx.pins.lookup r.attemptID = none ∧
      pin.deploymentID = r.deploymentID ∧ pin.attemptID = r.attemptID ∧
      pin.pricingSelectedAt = selectedAt ∧
      (pin.priceVersionID = price.id ∧ pin.priceVersion = price.version) ∧
      tx.storePin pin price = .ok tx' := by
  obtain ⟨snapshot, -, h⟩ := bind_eq_ok.mp h
  obtain ⟨digest, -, h⟩ := bind_eq_ok.mp h
  split at h
  · cases h
    exact Or.inl ⟨_, rfl, rfl⟩
  · split at h
    · rename_i pin hpin
      split_ifs at h
      · cases h
        exact Or.inl ⟨_, rfl, rfl⟩
      · cases h
        exact Or.inr (Or.inl ⟨snapshot, pin, rfl, hpin, rfl⟩)
    · rename_i hnew
      obtain ⟨stored, hstore, h⟩ := bind_eq_ok.mp h
      cases h
      exact Or.inr (Or.inr ⟨snapshot, _, rfl, hnew, rfl, rfl, rfl, ⟨rfl, rfl⟩, hstore⟩)

/-- The callback that prepares a pin does one of the three. -/
lemma prepared_of_run {anchors : FinMap String PricingClockObservation} {now : ℤ}
    {result : CallbackResult} (h : (BatchCall.prepare r).run rules anchors now tx = some result) :
    Prepared rules tx r result.tx result.pinned := by
  unfold BatchCall.run at h
  dsimp only at h
  generalize hprep : tx.prepareDeploymentPricePin rules (anchors.lookup r.deploymentID) now r =
    outcome at h
  unfold PricingStore.prepareDeploymentPricePin at hprep
  split at hprep
  · subst hprep
    cases h
  · subst hprep
    cases h
    exact .unchanged
  · rename_i mark reason hclock
    subst hprep
    cases h
    obtain ⟨hmark, hfree⟩ := decideClock_quarantine hclock
    exact .quarantined mark reason hmark hfree
  · rename_i selectedAt gap hclock
    split at hprep
    · subst hprep
      cases h
      exact .unchanged
    · subst hprep
      cases h
    · rename_i price hselect
      cases outcome with
      | error e => cases h
      | ok pair =>
        obtain ⟨outcome, tx'⟩ := pair
        obtain ⟨reason, rfl, rfl⟩ | ⟨snapshot, pin, rfl, hpin, rfl⟩ |
          ⟨snapshot, pin, rfl, hnew, hdep, hatt, rfl, hver, hstore⟩ :=
          pinSelection_cases hprep
        · cases h
          exact .unchanged
        · cases h
          rw [hpin]
          exact .unchanged
        · obtain ⟨hvalid, henc, rfl⟩ := storePin_eq_ok hstore
          cases h
          rw [hnew]
          exact .stored pin price hdep hatt hselect hver hvalid henc hnew
            (decideClock_select hclock)

lemma Prepared.sameVersions {pinned : List StoredPin}
    (h : Prepared rules tx r tx' pinned) : SameVersions tx tx' := by
  cases h with
  | unchanged => exact .refl
  | quarantined mark reason => exact ⟨tx.pins, _, rfl⟩
  | stored pin price => exact ⟨_, _, rfl⟩

end Prepared

/-! ## Timelines over runs -/

section Runs

variable {rules : PricingRules} {tx tx' : PricingStore}

/-- An operation edits the versions or only touches pins and marks. -/
lemma Update.edits_or_same (h : PricingStore.Timelines rules tx) {u : Update}
    (hrun : u.run rules tx = .ok tx') : PricingStore.Edits rules tx tx' ∨
      u.edits = false ∧ SameVersions tx tx' := by
  -- an operation that also returns a record returns it beside the store
  have hsnd : ∀ {outcome : Except PricingError (DeploymentPriceVersion × PricingStore)},
      outcome.map Prod.snd = .ok tx' → ∃ p, outcome = .ok (p, tx') := by
    intro outcome houtcome
    obtain ⟨pair, rfl, rfl⟩ := map_eq_ok.mp houtcome
    exact ⟨pair.1, rfl⟩
  cases u with
  | create price request =>
    obtain ⟨p, hp⟩ := hsnd hrun
    exact Or.inl (h.edits_create hp)
  | adopt price =>
    obtain ⟨p, hp⟩ := hsnd hrun
    exact Or.inl (h.edits_adopt hp)
  | bootstrap price => exact Or.inl (h.edits_bootstrap hrun)
  | putDeployment deploymentID expectedRevision deleted =>
    exact Or.inl (PricingStore.edits_putDeployment hrun)
  | cancel deploymentID priceID actor cancelledAt expectedRevision =>
    obtain ⟨p, hp⟩ := hsnd hrun
    exact Or.inl (h.edits_cancel hp)
  | deletePin attemptID =>
    obtain ⟨pins, rfl⟩ := deletePin_pins hrun
    exact Or.inr ⟨rfl, pins, tx.highWater, rfl⟩
  | quarantineRestored backupCreatedAt restoredAt =>
    obtain ⟨updates, rfl, -, -⟩ := quarantineRestored_marks hrun
    exact Or.inr ⟨rfl, tx.pins, _, rfl⟩
  | confirmRestored deploymentID =>
    obtain ⟨-, mark', -, rfl, -⟩ := confirmRestored_mark hrun
    exact Or.inr ⟨rfl, tx.pins, _, rfl⟩
  | recoverClock deploymentID expected now =>
    obtain ⟨mark', rfl⟩ := recoverClock_mark hrun
    exact Or.inr ⟨rfl, tx.pins, _, rfl⟩
  | recoverPins lease checkedThrough now =>
    obtain ⟨_, updates, pins, ⟨rfl, -, -⟩, rfl⟩ := recoverPins_pins hrun
    exact Or.inr ⟨rfl, pins, _, rfl⟩

lemma Update.keeps (h : PricingStore.Timelines rules tx) {u : Update}
    (hrun : u.run rules tx = .ok tx') : PricingStore.Keeps rules tx tx' :=
  (u.edits_or_same h hrun).elim (·.toKeeps) (·.2.keeps)

lemma BatchCall.sameVersions {c : BatchCall} {anchors : FinMap String PricingClockObservation}
    {now : ℤ} {result : CallbackResult} (h : c.run rules anchors now tx = some result) :
    SameVersions tx result.tx := by
  cases c with
  | prepare r => exact (prepared_of_run h).sameVersions
  | commitPin attemptID snapshotSHA256 ledgerSequence committedAt =>
    unfold BatchCall.run at h
    dsimp only at h
    split at h
    · cases h
    · rename_i outcome tx' hcmt
      cases h
      obtain ⟨pins, rfl⟩ := commitPin_pins hcmt
      exact ⟨pins, tx.highWater, rfl⟩
  | other =>
    cases h
    exact .refl

/-- What an action does to the store, the transaction under way and the stored pins. -/
inductive StepEffect (rules : PricingRules) (m m' : Machine) : Action → Prop
  | same (a : Action) (hstore : m'.store = m.store) (hstored : m'.stored = m.stored)
    (hrunning : m'.running = m.running ∨ m'.running = none) : StepEffect rules m m' a
  | update (u : Update) (ending : Ending) (hidle : m.running = none)
    (hrun : u.run rules m.store = .ok m'.store) (hstored : m'.stored = m.stored)
    (hrunning : m'.running = none) : StepEffect rules m m' (.update u ending)
  | call (now : ℤ) (fault : Bool) (c : BatchCall) (b : OpenBatch) (r : CallbackResult)
    (hnext : m.next = some (c, b)) (hrun : c.run rules m.anchors now b.result.tx = some r)
    (hstore : m'.store = m.store) (hstored : m'.stored = m.stored)
    (hrunning : m'.running = some (b.add c r)) : StepEffect rules m m' (.call now fault)
  | finish (ending : Ending) (b : OpenBatch) (hwas : m.running = some b)
    (hstore : m'.store = b.result.tx) (hstored : m'.stored = m.stored ++ b.result.pinned)
    (hrunning : m'.running = none) : StepEffect rules m m' (.finish ending)

lemma step_effect (rules : PricingRules) (m : Machine) (a : Action) :
    StepEffect rules m (m.step rules a) a := by
  cases a with
  | update u ending =>
    unfold Machine.step
    dsimp only
    split_ifs with hbusy
    · exact .same _ rfl rfl (Or.inl rfl)
    · have hidle : m.running = none := Option.not_isSome_iff_eq_none.mp hbusy
      split
      · exact .same _ rfl rfl (Or.inl rfl)
      · exact .same _ rfl rfl (Or.inl rfl)
      · rename_i tx hrun
        exact .update u _ hidle hrun rfl hidle
      · rename_i tx hrun
        exact .update u _ hidle hrun rfl hidle
  | enqueue calls =>
    unfold Machine.step
    split_ifs
    all_goals exact .same _ rfl rfl (Or.inl rfl)
  | call now fault =>
    unfold Machine.step
    dsimp only
    split
    · exact .same _ rfl rfl (Or.inl rfl)
    · rename_i c b hnext
      split
      · exact .same _ rfl rfl (Or.inr rfl)
      · rename_i r hrun
        cases fault with
        | true => cases hrun
        | false => exact .call now false c b r hnext hrun rfl rfl rfl
  | finish ending =>
    unfold Machine.step
    dsimp only
    split
    · exact .same _ rfl rfl (Or.inl rfl)
    · rename_i b hwas
      split_ifs with hwaiting
      · exact .same _ rfl rfl (Or.inl rfl)
      · cases ending with
        | failed => exact .same _ rfl rfl (Or.inr rfl)
        | unconfirmed | committed => exact .finish _ b hwas rfl rfl rfl
  | merge r =>
    unfold Machine.step
    dsimp only
    split_ifs
    all_goals exact .same _ rfl rfl (Or.inl rfl)
  | restart => exact .same _ rfl rfl (Or.inr rfl)

/-- The next callback runs over what the transaction under way left, or over the store. -/
lemma next_cases {m : Machine} {c : BatchCall} {b : OpenBatch} (h : m.next = some (c, b)) :
    (∃ b', m.running = some b' ∧ b'.result = b.result) ∨
      m.running = none ∧ b.result = { tx := m.store } := by
  unfold Machine.next at h
  split at h
  · rename_i b' hruns
    split at h
    · cases h
    · cases h
      exact Or.inl ⟨b', hruns, rfl⟩
  · rename_i hruns
    split at h
    · cases h
    · cases h
      exact Or.inr ⟨hruns, rfl⟩

/-- The timelines of the store and of the transaction under way are sound. -/
structure Machine.Sound (rules : PricingRules) (m : Machine) : Prop where
  store : PricingStore.Timelines rules m.store
  running : ∀ b, m.running = some b → PricingStore.Timelines rules b.result.tx

lemma Machine.Sound.step {m : Machine} (h : m.Sound rules) (a : Action) :
    (m.step rules a).Sound rules := by
  cases step_effect rules m a with
  | same a hstore hstor hruns =>
    refine ⟨hstore ▸ h.store, fun b hb => ?_⟩
    rcases hruns with hsame | hnone
    · exact h.running b (hsame ▸ hb)
    · rw [hnone] at hb
      cases hb
  | update u ending hidle hrun hstor hruns =>
    refine ⟨h.store.keeps (u.keeps h.store hrun), fun b hb => ?_⟩
    rw [hruns] at hb
    cases hb
  | call now fault c b r hnext hrun hstore hstor hruns =>
    refine ⟨hstore ▸ h.store, fun b' hb' => ?_⟩
    rw [hruns] at hb'
    cases hb'
    have hfrom : PricingStore.Timelines rules b.result.tx := by
      obtain ⟨b', hb', hrslt⟩ | ⟨-, hrslt⟩ := next_cases hnext
      · exact hrslt ▸ h.running b' hb'
      · rw [hrslt]
        exact h.store
    exact hfrom.keeps (c.sameVersions hrun).keeps
  | finish ending b hwas hstore hstor hruns =>
    refine ⟨hstore ▸ h.running b hwas, fun b' hb' => ?_⟩
    rw [hruns] at hb'
    cases hb'

lemma timelines_empty : PricingStore.Timelines rules {} where
  keyed _ _ hp := by cases hp
  valid _ _ hp := by cases hp
  encodable _ _ hp := by cases hp
  filed _ _ _ := ⟨fun h => (by cases h), fun ⟨_, hp, _⟩ => (by cases hp)⟩
  known _ _ hp := by cases hp
  unnumbered _ _ := rfl
  bounded _ := Nat.zero_le _
  numbered _ _ hp := by cases hp
  distinct _ _ hp := by cases hp
  increasing _ _ hp := by cases hp

/-- In every reachable state the timelines are sound. -/
lemma sound_of_run (rules : PricingRules) (actions : List Action) :
    (Machine.run rules {} actions).Sound rules := by
  have hall : Along (Machine.step rules) (fun _ _ => True) {} actions :=
    Along.of_forall fun _ _ => trivial
  exact hall.invariant (fun m a h _ => h.step a) ⟨timelines_empty, fun b hb => by cases hb⟩

/-- No run breaks a price timeline. -/
theorem timelines_sound (actions : List Action) :
    (Machine.run rules {} actions).store.Timelines rules :=
  (sound_of_run _ _).store

/-! ## Selection -/

/-- The version a selection finds. -/
def found (selection : Except PricingError DeploymentPriceVersion) :
    Option DeploymentPriceVersion := selection.toOption

/-- On every reachable store and for every deployment and instant but the zero time, the cursor of
the request path finds the version the audited selection finds, or both find none; a deployment that
has versions has them all listed and its timeline accepted by the audit; and of two versions that are
not cancelled the one with the later number takes effect strictly later. -/
theorem indexed_selection_agrees (rules : PricingRules) (actions : List Action)
    (deploymentID : String) :
    let tx := (Machine.run rules {} actions).store
    (∀ p, p ∈ tx.versionsOf deploymentID ↔
      tx.prices.lookup p.id = some p ∧ p.deploymentID = deploymentID) ∧
    (tx.versionsOf deploymentID ≠ [] →
      tx.listDeploymentPriceVersions rules deploymentID = .ok (tx.versionsOf deploymentID) ∧
      auditPriceTimeline rules (tx.versionsOf deploymentID) deploymentID = .ok ()) ∧
    (∀ selectedAt : ZonedTime, selectedAt.representable = true → isUTC selectedAt = true →
      selectedAt.isZero = false →
      found (tx.selectDeploymentPriceVersionTx rules deploymentID selectedAt.instant) =
        found (selectAuditedPriceVersion (tx.versionsOf deploymentID) selectedAt)) ∧
    ∀ p ∈ tx.versionsOf deploymentID, ∀ q ∈ tx.versionsOf deploymentID,
      p.cancelledAt = none → q.cancelledAt = none → p.version < q.version →
      p.effectiveFrom.instant < q.effectiveFrom.instant := by
  intro tx
  have h : PricingStore.Timelines rules tx := (sound_of_run rules actions).store
  refine ⟨fun p => h.mem_versionsOf, fun hsome => ?_, fun selectedAt hrep hutc hset => ?_,
    fun p hp q hq hpc hqc hlt => ?_⟩
  · obtain ⟨p, hp⟩ := List.exists_mem_of_ne_nil _ hsome
    have hhas := h.mem_versionsOf.mp hp
    have hex := h.known _ _ hhas.1
    rw [hhas.2] at hex
    exact ⟨h.list_eq hex, h.audit_eq_ok (h.named hhas)⟩
  · rw [h.select_eq_audited deploymentID hrep hset hutc]
  · obtain ⟨hp, hpd⟩ := h.mem_versionsOf.mp hp
    obtain ⟨hq, hqd⟩ := h.mem_versionsOf.mp hq
    exact h.increasing _ _ hp _ _ hq (hpd.trans hqd.symm) hpc hqc hlt

end Runs

/-! ## A version from before the zero time -/

namespace Sample

def rules : PricingRules where
  knownZone _ := true
  localMinute _ instant := some (instant / (60 * nanosPerSecond) % minutesPerDay)
  secretLike _ := false
  evidenceURL _ := true
  sha256 _ := "sha256:" ++ String.ofList (List.replicate 64 '0')

/-- A price per million input tokens, effective from an instant on. -/
def priceFrom (id : String) (effectiveFrom createdAt : ℤ) : DeploymentPriceVersion where
  id := id
  deploymentID := "dep"
  billingMode := .metered
  inputMicrosPerMillion := 3000000
  cachedInputMicrosPerMillion := 300000
  outputMicrosPerMillion := 15000000
  fixedRequestMicrosUSD := 0
  effectiveFrom := { instant := effectiveFrom }
  source := { type := .manual, assurance := .asserted, receivedAt := { instant := createdAt }
              reference := "contract", note := "price list", assertedWithoutArchive := true }
  createdBy := "operator"
  createdAt := { instant := createdAt }

/-- A deployment and a price for it. -/
def priced (price : DeploymentPriceVersion) : List Action :=
  [.update (.putDeployment "dep" 0 false) .committed, .update (.create price none) .committed]

end Sample

/-- One second after a price took effect both selections find it. -/
theorem indexed_selection_agrees_priced :
    let tx := (Machine.run Sample.rules {}
      (Sample.priced (Sample.priceFrom "price_1" nanosPerSecond 1))).store
    found (selectAuditedPriceVersion (tx.versionsOf "dep") { instant := 2 * nanosPerSecond }) ≠
        none ∧
      found (tx.selectDeploymentPriceVersionTx Sample.rules "dep" (2 * nanosPerSecond)) =
        found (selectAuditedPriceVersion (tx.versionsOf "dep")
          { instant := 2 * nanosPerSecond }) := by
  refine ⟨by decide +kernel, ?_⟩
  exact (indexed_selection_agrees Sample.rules (Sample.priced (Sample.priceFrom "price_1"
    nanosPerSecond 1)) "dep").2.2.1 { instant := 2 * nanosPerSecond } (by decide +kernel) rfl
    (by decide +kernel)

/-- At the zero time the cursor finds a version effective one second earlier; the audited selection
refuses the zero time. -/
theorem indexed_selection_at_zero_time :
    let tx := (Machine.run Sample.rules {}
      (Sample.priced (Sample.priceFrom "price_1" (-nanosPerSecond) 1))).store
    (found (tx.selectDeploymentPriceVersionTx Sample.rules "dep" 0)).map (·.id) = some "price_1" ∧
      selectAuditedPriceVersion (tx.versionsOf "dep") { instant := 0 } = .error .invalidArgument := by
  decide +kernel

end Pricing

end Halro
