import Halro.Replication.PrimarySafety
import Halro.Replication.Recovery

/-!
# The start of a Primary (`internal/app/replication_runtime.go`)

`openPrimary` opens a Primary on the files of a stopped member and chooses the index its start-up
waits for: the anchor of its term, when it has to record one, or the anchor among the records above
the confirmed index.  The member serves requests once enough peers have been heard from and the
waiter is told that this index is confirmed.

The records that are searched are those the state file of the stopped member names.  When the member
was stopped between the ordering record of its anchor and the state file, the journal has the anchor
and the state file does not name it: the search does not reach it, the start-up waits for the index
that was confirmed before, and the member is ready at once (`ready_before_anchor`).  That this is the
only way is `startup_ready_iff`.
-/

namespace Halro

open Framework Replication.OrderingJournal

namespace Replication

/-- What a peer reports of itself when it connects. -/
structure Hello where
  nodeID : Bytes
  role : Role
  term : ℕ
  promisedTerm : ℕ
  durableIndex : ℕ
  appliedIndex : ℕ
  deriving DecidableEq

/-- A demoted Primary can follow a peer without a full reseed only from a settled prefix of it. -/
def RequiresReseed (state : MemberState) (peer : Hello) : Prop :=
  state.durableIndex ≠ state.confirmedIndex ∨ state.confirmedIndex ≠ state.appliedIndex ∨
    state.durableIndex > peer.durableIndex ∨ state.appliedIndex > peer.appliedIndex

instance (state : MemberState) (peer : Hello) : Decidable (RequiresReseed state peer) :=
  inferInstanceAs (Decidable (_ ∨ _))

/-- The one goroutine that waits for the start-up index. -/
inductive Waiter
  | idle
  | waiting
  | ended
  deriving DecidableEq

structure PrimaryRuntime where
  primary : Primary
  startupIndex : ℕ
  startupPeerQuorum : ℕ
  startupPeers : Finset Bytes := ∅
  waiter : Waiter := .idle
  startupReady : Bool := false
  /-- The reseed-required marker is in the cluster directory. -/
  reseedRequired : Bool := false

inductive OpenError (E : Type)
  | role
  | reseedRequired
  | journal (error : OrderingError)
  | recovery (error : RecoveryError E)
  | publisher (error : PublishError)
  | coordinator (error : PrimaryError)
  | leadership (error : PrimaryError)
  | record (error : OrderingError)
  deriving DecidableEq

/-- The results of the writes of a start. -/
structure OpenIO where
  roll : WriteResult := .synced
  new : PrimaryCoordinator.NewIO := {}
  anchor : RecordIO := {}

/-- The first index of a list whose record is the anchor of a term. -/
def findAnchor (j : OrderingJournal) (term : ℕ) : List ℕ → Except OrderingError (Option ℕ)
  | [] => .ok none
  | index :: rest =>
    match j.record index with
    | .error err => .error err
    | .ok r =>
      if r.term = term ∧ r.kind = .leadershipEstablished then .ok (some index)
      else findAnchor j term rest

/-- How many peers the start-up waits for. -/
def primaryStartupPeerRequirement (peerCount : ℕ) (recoveredPromotionAnchor : Bool) : ℕ :=
  if recoveredPromotionAnchor ∧ peerCount > 0 then 1 else peerCount

section Opening

variable {S E : Type} (k : Crypto) (c : LineCodec) (d : DurableSource S E)

/-- The start-up index of a Primary whose coordinator has been made, with the state its file had. -/
def startup (s : Primary) (state : MemberState) (io : RecordIO) :
    Except (OpenError E) PrimaryRuntime :=
  if s.journal.head.term < state.term then
    match s.recordDurable k { kind := .leadershipEstablished } io with
    | (.error err, _) => .error (.leadership err)
    | (.ok commit, s) => .ok
        { primary := s
          startupIndex := commit.index
          startupPeerQuorum := primaryStartupPeerRequirement state.peers.length false }
  else
    match findAnchor s.journal state.term
        (List.range' (state.confirmedIndex + 1) (state.durableIndex - state.confirmedIndex)) with
    | .error err => .error (.record err)
    | .ok none => .ok
        { primary := s
          startupIndex := state.confirmedIndex
          startupPeerQuorum := primaryStartupPeerRequirement state.peers.length false }
    | .ok (some index) => .ok
        { primary := s
          startupIndex := index
          startupPeerQuorum := primaryStartupPeerRequirement state.peers.length true }

/-- A Primary on the files of a stopped member. -/
def openPrimary (heads : Store → Digest) (state : MemberState) (segments : List TransitionSegment)
    (ordering : OrderingJournal) (stores : S) (reseedRequired : Bool) (io : OpenIO) :
    Except (OpenError E) PrimaryRuntime :=
  if state.role ≠ .primary then .error .role
  else if reseedRequired then .error .reseedRequired
  else
    match ordering.openExisting k state.durableIndex state.orderingHeadMAC with
    | .error err => .error (.journal err)
    | .ok journal =>
      match recoverLocalCommits k d heads state.clusterID state.incarnation state.confirmedIndex
          journal stores io.roll with
      | (.error err, _, _) => .error (.recovery err)
      | (.ok recovered, journal, _) =>
        match StatePublisher.openPublisher c state segments with
        | .error err => .error (.publisher err)
        | .ok publisher =>
          match PrimaryCoordinator.new k state.clusterID state.incarnation state.nodeID state.term
              state.confirmedIndex (state.peers.map (·.name)) journal publisher recovered io.new with
          | (.error err, _) => .error (.coordinator err)
          | (.ok coordinator, publisher) =>
            startup k ⟨coordinator, journal, publisher⟩ state io.anchor

end Opening

/-! ## Events of a running Primary -/

namespace PrimaryRuntime

/-- What the runtime of a Primary does on its own and with its peers. -/
inductive Event
  /-- A call of the coordinator, by a store, a session or a waiter. -/
  | call (call : Primary.Call)
  /-- A peer connects; `marked` is whether the reseed-required marker could be written. -/
  | hello (peer : Hello) (marked : Bool) (io : TransitionIO)
  /-- The session of a peer is registered; `catchingUp` is whether a queue failure was only that the
  peer is still catching up. -/
  | sessionReady (peer : Hello) (io : RetryIO) (catchingUp : Bool)
  /-- A promotion proposal that passed its checks, with the target index of a planned stepdown. -/
  | proposal (term : ℕ) (planned : Option ℕ) (io : TransitionIO)
  /-- The start-up waiter looks whether its index is confirmed. -/
  | look

variable (k : Crypto) (c : LineCodec)

def authorizePrimaryHello (r : PrimaryRuntime) (peer : Hello) (marked : Bool) (io : TransitionIO) :
    PrimaryRuntime :=
  let state := r.primary.publisher.state
  if peer.role = .awaitingDecision then r
  else if peer.term > state.term ∨ peer.promisedTerm > state.term then
    let adoptedTerm := max state.term peer.term
    let s := r.primary.markUnavailable
      "peer has a higher durable term; Primary must step down before serving data"
    { r with
      primary :=
        { s with publisher :=
          (s.publisher.adoptHigherTerm c adoptedTerm (max adoptedTerm peer.promisedTerm) io).2 }
      reseedRequired := r.reseedRequired || (decide (RequiresReseed state peer) && marked)
      startupReady := false }
  else if peer.role = .primary ∧ peer.term = state.term then
    { r with primary :=
      r.primary.markUnavailable "multiple Primaries reported for the active term" }
  else if peer.role ≠ .replica ∨ peer.term > state.term ∨ peer.promisedTerm ≠ state.term then r
  else if peer.durableIndex > r.primary.journal.head.index then r
  else { r with startupPeers := insert peer.nodeID r.startupPeers }

def catchUpPrimaryPeer (r : PrimaryRuntime) (peer : Hello) (io : RetryIO) (catchingUp : Bool) :
    PrimaryRuntime :=
  if peer.durableIndex > r.primary.journal.head.index then r
  else
    match r.primary.retryPending io with
    | (result, s) =>
      let r := { r with primary := s }
      if result.isOk = false ∧ catchingUp = false then r
      else
        let requiredPeers :=
          if r.startupPeerQuorum = 0 then s.publisher.state.peers.length else r.startupPeerQuorum
        if r.startupPeers.card ≥ requiredPeers ∧ r.waiter = .idle then { r with waiter := .waiting }
        else r

def handlePromotionProposal (r : PrimaryRuntime) (term : ℕ) (planned : Option ℕ)
    (io : TransitionIO) : PrimaryRuntime :=
  match (match planned with
    | none => (.ok (), r.primary.markUnavailable "durable higher-term promise received")
    | some expectedIndex => r.primary.freezeForStepdown expectedIndex :
      Except PrimaryError Unit × Primary) with
  | (.error _, s) => { r with primary := s }
  | (.ok _, s) =>
    { r with
      primary := { s with publisher := (s.publisher.promise c term io).2 }
      startupReady := false }

/-- One look of the start-up waiter. -/
def look (r : PrimaryRuntime) : PrimaryRuntime :=
  if r.waiter = .waiting then
    match r.primary.waitConfirmed r.startupIndex with
    | .ok .confirmed => { r with waiter := .ended, startupReady := true }
    | .ok .asleep => r
    | .error _ => { r with waiter := .ended }
  else r

def step (r : PrimaryRuntime) : Event → PrimaryRuntime
  | .call call => { r with primary := r.primary.after k call }
  | .hello peer marked io => r.authorizePrimaryHello c peer marked io
  | .sessionReady peer io catchingUp => r.catchUpPrimaryPeer peer io catchingUp
  | .proposal term planned io => r.handlePromotionProposal c term planned io
  | .look => r.look

/-- The runtime after a list of events. -/
def run (r : PrimaryRuntime) (events : List Event) : PrimaryRuntime := events.foldl (step k c) r

/-- The anchor of a term is in the order of the member, and confirmed. -/
def AnchorConfirmed (r : PrimaryRuntime) (term : ℕ) : Prop :=
  ∃ a anchor, r.primary.journal.record a = .ok anchor ∧ anchor.kind = .leadershipEstablished ∧
    anchor.term = term ∧ a ≤ r.primary.coordinator.confirmed

/-! ## What a running Primary keeps -/

variable {k c} {tenure prefixed : ℕ} {members : List Bytes}

/-- Every outcome of a call extends the journal. -/
lemma extends_of_called {s t : Primary} {call : Primary.Call} {answer : Primary.Answer}
    (h : Primary.Called k s call answer t) : OrderingJournal.Extends s.journal t.journal := by
  have hsame : ∀ {j : OrderingJournal}, j = s.journal → OrderingJournal.Extends s.journal j := by
    rintro j rfl
    exact .refl _
  cases h with
  | kept silent waits unfrozen core journal => exact hsame journal
  | unordered working appended => exact append_extends appended
  | broken working waits unfrozen broken =>
    rcases broken.journal with journal | ⟨r, w, record, happ, -⟩
    · exact hsame journal
    · exact append_extends happ
  | recorded recorded =>
    obtain ⟨write, record, journal, confirmations, q, w, happ, -, -, hjrnl, -, -⟩ :=
      recorded.recorded
    rw [hjrnl]
    exact append_extends happ
  | known working same core journal => exact hsame journal
  | confirmed confirmed => exact hsame confirmed.journal
  | unavailable waits core journal => exact hsame journal

/-- The start-up index stands at or after the anchor of the tenure, and a member that is ready has
confirmed it. -/
structure Steady (k : Crypto) (tenure : ℕ) (members : List Bytes) (prefixed : ℕ)
    (r : PrimaryRuntime) : Prop where
  kept : Primary.Kept k tenure members prefixed r.primary
  anchored : ∃ a anchor, r.primary.journal.record a = .ok anchor ∧
    anchor.kind = .leadershipEstablished ∧ anchor.term = tenure ∧ a ≤ r.startupIndex
  ready : r.startupReady = true → r.startupIndex ≤ r.primary.coordinator.confirmed

variable {r : PrimaryRuntime}

section

variable (h : Steady k tenure members prefixed r)

include h

/-- A step of the Primary below, with the same start-up index. -/
lemma Steady.moved {s : Primary} (hkept : Primary.Kept k tenure members prefixed s)
    (hext : OrderingJournal.Extends r.primary.journal s.journal)
    (hconf : r.primary.coordinator.confirmed ≤ s.coordinator.confirmed) {ready : Bool}
    (hready : ready = true → r.startupReady = true) :
    Steady k tenure members prefixed { r with primary := s, startupReady := ready } := by
  obtain ⟨a, anchor, hrec, hkind, hterm, hle⟩ := h.anchored
  exact ⟨hkept, ⟨a, anchor, hext.record hrec, hkind, hterm, hle⟩,
    fun hr => (h.ready (hready hr)).trans hconf⟩

/-- A call of the Primary below. -/
lemma Steady.called (call : Primary.Call) (ready : Bool)
    (hready : ready = true → r.startupReady = true) : Steady k tenure members prefixed
      { r with primary := r.primary.after k call, startupReady := ready } :=
  have hcall := h.kept.step call
  h.moved (h.kept.called hcall) (extends_of_called hcall) (h.kept.confirmed_mono hcall) hready

/-- A change of role or terms below. -/
lemma Steady.republished {q : StatePublisher}
    (hq : StatePublisher.SameProgress r.primary.publisher q) :
    Steady k tenure members prefixed { r with primary := { r.primary with publisher := q } } := by
  have hfile : r.primary.coordinator.confirmed ≤ q.file.confirmedIndex := by
    rcases hq.file with hsame | hsame
    · rw [hsame]
      exact h.kept.file
    · rw [hsame]
      exact h.kept.state
  exact h.moved (h.kept.republished ⟨hq.confirmed, hq.durable⟩ hfile) (.refl _) le_rfl id

lemma Steady.hello (peer : Hello) (marked : Bool) (io : TransitionIO) :
    Steady k tenure members prefixed (r.authorizePrimaryHello c peer marked io) := by
  simp only [authorizePrimaryHello]
  split_ifs
  · exact h
  · have hstop := h.called (.markUnavailable
      "peer has a higher durable term; Primary must step down before serving data") false nofun
    exact { hstop.republished (StatePublisher.adoptHigherTerm_progress _ _ _ io) with }
  · exact h.called (.markUnavailable _) _ id
  · exact h
  · exact h
  · exact { h with }

lemma Steady.sessionReady (peer : Hello) (io : RetryIO) (catchingUp : Bool) :
    Steady k tenure members prefixed (r.catchUpPrimaryPeer peer io catchingUp) := by
  have hretr : Steady k tenure members prefixed
      { r with primary := (r.primary.retryPending io).2 } :=
    h.called (.retryPending io) _ id
  simp only [catchUpPrimaryPeer]
  split_ifs
  · exact h
  · exact hretr
  · exact { hretr with }
  · exact hretr
  · exact { hretr with }
  · exact hretr

lemma Steady.proposal (term : ℕ) (planned : Option ℕ) (io : TransitionIO) :
    Steady k tenure members prefixed (r.handlePromotionProposal c term planned io) := by
  have hprom : ∀ call : Primary.Call, Steady k tenure members prefixed
        { r with
          primary := { r.primary.after k call with
            publisher := ((r.primary.after k call).publisher.promise c term io).2 }
          startupReady := false } := by
    intro call
    exact (h.called call false nofun).republished (StatePublisher.promise_progress _ _ io)
  simp only [handlePromotionProposal]
  rcases planned with _ | expectedIndex
  · exact hprom (.markUnavailable "durable higher-term promise received")
  · have hafter : (r.primary.freezeForStepdown expectedIndex).2 =
        r.primary.after k (.freezeForStepdown expectedIndex) := rfl
    dsimp only
    rcases hfreeze : r.primary.freezeForStepdown expectedIndex with ⟨err | u, s⟩
    all_goals
      rw [hfreeze] at hafter
      dsimp only at hafter ⊢
      rw [hafter]
    · exact h.called (.freezeForStepdown expectedIndex) _ id
    · exact hprom _

lemma Steady.look : Steady k tenure members prefixed r.look := by
  simp only [PrimaryRuntime.look]
  split_ifs with hwaiting
  · simp only [Primary.waitConfirmed]
    split_ifs with hle havail
    · exact ⟨h.kept, h.anchored, fun _ => hle⟩
    · exact { h with }
    · exact h
  · exact h

lemma Steady.step (event : Event) :
    Steady k tenure members prefixed (r.step k c event) := by
  cases event with
  | call call => exact h.called call _ id
  | hello peer marked io => exact h.hello peer marked io
  | sessionReady peer io catchingUp => exact h.sessionReady peer io catchingUp
  | proposal term planned io => exact h.proposal term planned io
  | look => exact h.look

lemma Steady.run (events : List Event) :
    Steady k tenure members prefixed (r.run k c events) :=
  List.foldlRecOn events _ h fun _ h event _ => h.step event

end

end PrimaryRuntime

/-! ## Which starts wait for the anchor -/

/-- The journal of a stopped member has the anchor of its term beyond the durable index of its state
file. -/
def UnpublishedAnchor (state : MemberState) (ordering : OrderingJournal) : Prop :=
  ∃ anchor ∈ ordering.records.drop state.durableIndex,
    anchor.kind = .leadershipEstablished ∧ anchor.term = state.term

instance (state : MemberState) (ordering : OrderingJournal) :
    Decidable (UnpublishedAnchor state ordering) :=
  inferInstanceAs (Decidable (∃ anchor ∈ ordering.records.drop state.durableIndex, _))

section Theorem

variable {S E : Type} {k : Crypto} {c : LineCodec} {d : DurableSource S E}

/-- What a search for the anchor finds. -/
lemma findAnchor_ok {j : OrderingJournal} {term : ℕ} {l : List ℕ} {found : Option ℕ}
    (h : findAnchor j term l = .ok found) :
    (∀ index, found = some index → index ∈ l ∧ ∃ r, j.record index = .ok r ∧ r.term = term ∧
      r.kind = .leadershipEstablished) ∧
    (found = none → ∀ index ∈ l, ∀ r, j.record index = .ok r →
      ¬ (r.term = term ∧ r.kind = .leadershipEstablished)) := by
  induction l with
  | nil =>
    cases h
    exact ⟨nofun, nofun⟩
  | cons index rest ih =>
    simp only [findAnchor] at h
    split at h
    · cases h
    rename_i r hrec
    split_ifs at h with hanc
    · cases h
      refine ⟨?_, nofun⟩
      rintro _ ⟨⟩
      exact ⟨List.mem_cons_self, r, hrec, hanc⟩
    · obtain ⟨hsome, hnone⟩ := ih h
      refine ⟨?_, ?_⟩
      · intro other hother
        obtain ⟨hmem, hrest⟩ := hsome other hother
        exact ⟨List.mem_cons_of_mem _ hmem, hrest⟩
      · intro hfound other hother s hs
        rcases List.mem_cons.mp hother with rfl | hmem
        · rw [hrec] at hs
          cases hs
          exact hanc
        · exact hnone hfound other hmem s hs

/-- What a start has when its coordinator is made: the journal that was opened, and the member on the
journal that recovery left. -/
structure Made (k : Crypto) (c : LineCodec) (state : MemberState) (ordering : OrderingJournal)
    (opened : OrderingJournal) (s : Primary) : Prop where
  role : state.role = .primary
  valid : state.validate = .ok ()
  sound : opened.Sound k
  records : opened.records = ordering.records
  complete : ordering.records.length = opened.head.index
  rolled : RolledFrom k opened s.journal
  kept : s.Kept k state.term (state.peers.map (·.name)) state.confirmedIndex
  confirmed : s.coordinator.confirmed = state.confirmedIndex
  published : s.publisher.state.term = state.term ∧ s.publisher.state.peers = state.peers
  behind : s.journal.head.term ≤ state.term

variable {ordering : OrderingJournal} {state : MemberState} {r : PrimaryRuntime}

lemma openPrimary_ok {heads : Store → Digest} {segments : List TransitionSegment} {stores : S}
    {reseedRequired : Bool} {io : OpenIO}
    (h : openPrimary k c d heads state segments ordering stores reseedRequired io = .ok r) :
    ∃ opened s, Made k c state ordering opened s ∧ startup (E := E) k s state io.anchor = .ok r := by
  simp only [openPrimary, guard_eq_ok] at h
  obtain ⟨hrole, -, h⟩ := h
  split at h
  · cases h
  rename_i opened hopen
  split at h
  · cases h
  rename_i recovered journal left hrcvr
  split at h
  · cases h
  rename_i publisher hpubr
  split at h
  · cases h
  rename_i coordinator made hnew
  obtain ⟨hsound, hwork, -, -, hrecs⟩ := openExisting_sound hopen
  obtain ⟨hvalid, hstate, -, -⟩ := StatePublisher.openPublisher_ok hpubr
  have hroll := recoverLocalCommits_ok hrcvr
  have hsound' : journal.Sound k := by
    rcases hroll with rfl | ⟨r, w, record, happ, -⟩
    · exact hsound
    · have := hsound.append r w
      rwa [happ] at this
  obtain ⟨hkept, hconf, -, -, -⟩ := PrimaryCoordinator.new_kept hsound' hnew
  obtain ⟨hterm, hpeers, hbehind⟩ := PrimaryCoordinator.new_published hnew
  refine ⟨opened, ⟨coordinator, journal, made⟩, ?_, h⟩
  exact
    { role := not_not.mp hrole
      valid := hvalid
      sound := hsound
      records := hrecs
      complete := by rw [← hrecs]; exact (hsound.exact hwork).1
      rolled := hroll
      kept := hkept
      confirmed := hconf
      published := ⟨hterm.trans (by rw [hstate]), hpeers.trans (by rw [hstate])⟩
      behind := hbehind }

/-- Recovery keeps the records and the term, and adds no anchor. -/
lemma RolledFrom.anchor {j j' : OrderingJournal} (h : RolledFrom k j j') (hs : j.Sound k) :
    OrderingJournal.Extends j j' ∧ j'.head.term = j.head.term ∧
      ∀ a anchor, j'.record a = .ok anchor → anchor.kind = .leadershipEstablished →
        j.record a = .ok anchor := by
  rcases h with rfl | ⟨r, w, record, happ, hkind, hterm⟩
  · exact ⟨.refl _, rfl, fun _ _ h _ => h⟩
  · have hwrote := append_ok happ
    have hext := append_extends happ
    have hindex := (inOrder_eq_ok hwrote.order).1
    refine ⟨hext, ?_, ?_⟩
    · rw [hwrote.journal]
      exact hterm
    · intro a anchor hanc hlead
      obtain ⟨hpos, hle, -, -⟩ := getElem_of_record hanc
      have hle : a ≤ r.index := by
        rw [hwrote.journal] at hle
        exact hle
      rcases hle.lt_or_eq with hlt | rfl
      · obtain ⟨found, hfound⟩ := hs.record_ok hpos (show a ≤ j.head.index by omega)
        have hsame := hext.record hfound
        rw [hanc] at hsame
        cases hsame
        exact hfound
      · -- The record that recovery adds is a roll.
        have hself := hwrote.record_self hs
        rw [hanc] at hself
        cases hself
        rw [hwrote.sealed] at hlead
        have hlead : r.kind = .leadershipEstablished := hlead
        rw [hkind] at hlead
        cases hlead

variable {opened : OrderingJournal} {s : Primary}

section

variable (h : Made k c state ordering opened s)

include h

/-- The condition, read from the journal that was opened. -/
lemma Made.unpublished_iff :
    UnpublishedAnchor state ordering ↔ ∃ a anchor, opened.record a = .ok anchor ∧
      anchor.kind = .leadershipEstablished ∧ anchor.term = state.term ∧ state.durableIndex < a := by
  have htake : opened.records.take opened.head.index = opened.records := by
    rw [← h.complete, ← h.records, List.take_length]
  constructor
  · rintro ⟨anchor, hmem, hkind, hterm⟩
    obtain ⟨i, hi⟩ := List.mem_iff_getElem?.mp hmem
    rw [List.getElem?_drop, ← h.records, ← htake, ← h.sound.record_succ] at hi
    exact ⟨_, anchor, hi, hkind, hterm, by omega⟩
  · rintro ⟨a, anchor, hanc, hkind, hterm, hlt⟩
    obtain ⟨n, rfl⟩ := exists_succ_of_record hanc
    rw [h.sound.record_succ, htake] at hanc
    refine ⟨anchor, List.mem_iff_getElem?.mpr ⟨n - state.durableIndex, ?_⟩, hkind, hterm⟩
    rw [List.getElem?_drop, ← h.records, Nat.add_sub_cancel' (Nat.le_of_lt_succ hlt), hanc]

/-- A start that finds its anchor, or records it, waits for it. -/
lemma Made.steady {io : RecordIO} (hpubd : ¬ UnpublishedAnchor state ordering)
    (hstup : startup (E := E) k s state io = .ok r) :
    r.Steady k state.term (state.peers.map (·.name)) state.confirmedIndex := by
  obtain ⟨hext, hheadTerm, hancs⟩ := h.rolled.anchor h.sound
  simp only [startup] at hstup
  split_ifs at hstup with hlast
  · -- The term has no anchor yet: the start records it.
    have hcall := h.kept.step (.recordDurable { kind := .leadershipEstablished } io)
    have hkept := h.kept.called hcall
    simp only [Primary.after, Primary.call] at hcall hkept
    split at hstup
    · cases hstup
    · rename_i commit t hrec
      rw [hrec] at hcall hkept
      cases hstup
      refine ⟨hkept, ?_, fun hready => absurd hready Bool.false_ne_true⟩
      cases hcall with
      | kept silent => exact absurd rfl (silent commit)
      | recorded recorded =>
        obtain ⟨write, record, journal, confirmations, q, w, happ, -, -, hjrnl, -, -⟩ :=
          recorded.recorded
        have hwrote := append_ok happ
        refine ⟨commit.index, record, ?_, ?_, ?_, le_rfl⟩
        · rw [hjrnl, recorded.index]
          exact hwrote.record_self h.kept.sound
        · rw [hwrote.sealed]
          rfl
        · rw [hwrote.sealed]
          exact h.kept.term.1
  · -- The journal ends in the term, so it has the anchor.
    have hsame : s.journal.head.term = state.term := le_antisymm h.behind (not_lt.mp hlast)
    have hpos : state.term ≠ 0 := by
      have hvalid := h.valid
      simp only [MemberState.validate, guard_eq_ok] at hvalid
      intro hzero
      exact hvalid.2.2.2.1 ⟨by rw [h.role]; decide, hzero⟩
    obtain ⟨a, anchor, hanc, hkind, hterm⟩ := h.kept.sound.head_anchored (hsame ▸ hpos)
    have hterm : anchor.term = state.term := hterm.trans hsame
    have hwithin : a ≤ state.durableIndex := by
      by_contra hbeyond
      exact hpubd (h.unpublished_iff.mpr
        ⟨a, anchor, hancs a anchor hanc hkind, hkind, hterm, not_le.mp hbeyond⟩)
    split at hstup <;> cases hstup <;> rename_i hfind
    · refine ⟨h.kept, ⟨a, anchor, hanc, hkind, hterm, ?_⟩,
        fun hready => absurd hready Bool.false_ne_true⟩
      show a ≤ state.confirmedIndex
      by_contra habove
      refine (findAnchor_ok hfind).2 rfl a ?_ anchor hanc ⟨hterm, hkind⟩
      rw [List.mem_range'_1]
      omega
    · obtain ⟨-, found, hfound, hfndT, hfndK⟩ := (findAnchor_ok hfind).1 _ rfl
      exact ⟨h.kept, ⟨_, found, hfound, hfndK, hfndT, le_rfl⟩,
        fun hready => absurd hready Bool.false_ne_true⟩

/-- A start whose anchor is beyond the state file waits for what was confirmed before. -/
lemma Made.unpublished {io : RecordIO} (hunpub : UnpublishedAnchor state ordering)
    (hstup : startup (E := E) k s state io = .ok r) :
    (r = { primary := s
           startupIndex := state.confirmedIndex
           startupPeerQuorum := state.peers.length }) ∧
      ∀ a anchor, s.journal.record a = .ok anchor → anchor.kind = .leadershipEstablished →
        anchor.term = state.term → state.durableIndex < a := by
  obtain ⟨hext, hheadTerm, hancs⟩ := h.rolled.anchor h.sound
  obtain ⟨a, anchor, hanc, hkind, hterm, hbeyond⟩ := h.unpublished_iff.mp hunpub
  have honly : ∀ b other, s.journal.record b = .ok other → other.kind = .leadershipEstablished →
      other.term = state.term → state.durableIndex < b := by
    intro b other hother hothK hothT
    rw [h.kept.sound.anchor_unique hother (hext.record hanc) hothK hkind (hothT.trans hterm.symm)]
    exact hbeyond
  refine ⟨?_, honly⟩
  have hlast : ¬ s.journal.head.term < state.term := by
    rw [not_lt, ← hterm]
    exact h.kept.sound.term_le (hext.record hanc)
  simp only [startup, if_neg hlast] at hstup
  split at hstup
  · cases hstup
  · exact (Except.ok.inj hstup).symm
  · -- An anchor among the searched records would not be beyond the state file.
    rename_i index hfind
    obtain ⟨hmem, other, hother, hothT, hothK⟩ := (findAnchor_ok hfind).1 index rfl
    have hlt := honly index other hother hothK hothT
    rw [List.mem_range'_1] at hmem
    omega

end

/-! ## The peers of a start -/

/-- A Replica of the term that has nothing yet. -/
def helloOf (term : ℕ) (name : Bytes) : Hello := ⟨name, .replica, term, term, 0, 0⟩

namespace PrimaryRuntime

/-- Once each of a list of peers has connected, the start-up has heard from all of them. -/
lemma run_hellos {term : ℕ} (hterm : r.primary.publisher.state.term = term) (io : TransitionIO)
    (names : List Bytes) :
    r.run k c (names.map fun name => .hello (helloOf term name) true io) =
      { r with startupPeers := names.foldl (fun peers name => insert name peers) r.startupPeers } := by
  induction names generalizing r with
  | nil => rfl
  | cons name rest ih =>
    have hadmits : r.authorizePrimaryHello c (helloOf term name) true io =
        { r with startupPeers := insert name r.startupPeers } := by
      simp [authorizePrimaryHello, helloOf, hterm]
    show run k c (r.authorizePrimaryHello c (helloOf term name) true io) _ = _
    rw [hadmits]
    exact ih hterm

end PrimaryRuntime

lemma mem_foldl_insert {names : List Bytes} {peers : Finset Bytes} {name : Bytes} :
    name ∈ names.foldl (fun peers name => insert name peers) peers ↔
      name ∈ names ∨ name ∈ peers := by
  induction names generalizing peers with
  | nil => simp
  | cons first rest ih =>
    rw [List.foldl_cons, ih, Finset.mem_insert, List.mem_cons]
    tauto

lemma validatePeers_nodup {nodeID : Bytes} {seen peers : List StatePeer}
    (h : validatePeers nodeID seen peers = .ok ()) :
    (peers.map (·.name)).Nodup ∧ ∀ p ∈ peers, p.name ∉ seen.map (·.name) := by
  induction peers generalizing seen with
  | nil => exact ⟨List.nodup_nil, nofun⟩
  | cons p rest ih =>
    simp only [validatePeers, guard_eq_ok] at h
    obtain ⟨-, hname, -, -, hrest⟩ := h
    obtain ⟨hnodup, hfresh⟩ := ih hrest
    refine ⟨?_, ?_⟩
    · rw [List.map_cons, List.nodup_cons]
      refine ⟨?_, hnodup⟩
      intro hmem
      obtain ⟨q, hq, hsame⟩ := List.mem_map.mp hmem
      exact hfresh q hq (by rw [List.map_cons, hsame]; exact List.mem_cons_self)
    · intro q hq
      rcases List.mem_cons.mp hq with rfl | hlater
      · exact hname
      · intro hmem
        exact hfresh q hlater (by rw [List.map_cons]; exact List.mem_cons_of_mem _ hmem)

/-- A start whose anchor is beyond the state file becomes ready as soon as its peers connect. -/
lemma Made.ready {io : RecordIO} (h : Made k c state ordering opened s)
    (hunpub : UnpublishedAnchor state ordering)
    (hstup : startup (E := E) k s state io = .ok r) :
    ∃ events, (r.run k c events).startupReady = true ∧
      ¬ (r.run k c events).AnchorConfirmed state.term := by
  obtain ⟨rfl, honly⟩ := h.unpublished hunpub hstup
  have hvalid := h.valid
  simp only [MemberState.validate, guard_eq_ok] at hvalid
  obtain ⟨hnodup, -⟩ := validatePeers_nodup hvalid.2.2.2.2.2.2.2.2.2.2.2
  have hpeers : state.peers.length ≠ 0 := by omega
  set names := state.peers.map (·.name) with hnames
  let hellos : List PrimaryRuntime.Event :=
    names.map fun name => .hello (helloOf state.term name) true ⟨0, .synced, .published⟩
  let r : PrimaryRuntime :=
    { primary := s, startupIndex := state.confirmedIndex, startupPeerQuorum := state.peers.length }
  let heard : PrimaryRuntime :=
    { r with startupPeers := names.foldl (fun peers name => insert name peers) r.startupPeers }
  have hheard : r.run k c hellos = heard := PrimaryRuntime.run_hellos h.published.1 _ names
  have hcard : state.peers.length ≤ heard.startupPeers.card := by
    have hsub : names.toFinset ⊆ heard.startupPeers := by
      intro name hname
      exact mem_foldl_insert.mpr (.inl (List.mem_toFinset.mp hname))
    have hle := Finset.card_le_card hsub
    rwa [List.toFinset_card_of_nodup hnodup, hnames, List.length_map] at hle
  -- The session retries what is pending, then the waiter starts, and looks.
  obtain ⟨hcore, hjrnl, -⟩ := Primary.retryPending_kept heard.primary {}
  let waiting : PrimaryRuntime :=
    { heard with primary := (heard.primary.retryPending {}).2, waiter := .waiting }
  have hconf : waiting.primary.coordinator.confirmed = state.confirmedIndex :=
    (congrArg (·.confirmed) hcore).trans h.confirmed
  have hwaiting : heard.catchUpPrimaryPeer (helloOf state.term []) {} true = waiting := by
    have hquorum : heard.startupPeerQuorum = state.peers.length := rfl
    have hzero : ¬ (helloOf state.term []).durableIndex > heard.primary.journal.head.index :=
      Nat.not_lt_zero _
    have hstart : heard.startupPeers.card ≥ (if heard.startupPeerQuorum = 0 then
        (heard.primary.retryPending {}).2.publisher.state.peers.length
        else heard.startupPeerQuorum) ∧ heard.waiter = .idle := by
      rw [hquorum, if_neg hpeers]
      exact ⟨hcard, rfl⟩
    simp only [PrimaryRuntime.catchUpPrimaryPeer, if_neg hzero]
    rw [if_neg (by simp), if_pos hstart]
  have hready : waiting.look = { waiting with waiter := .ended, startupReady := true } := by
    have hle : waiting.startupIndex ≤ waiting.primary.coordinator.confirmed := hconf.ge
    have hlooks : waiting.waiter = .waiting := rfl
    simp only [PrimaryRuntime.look, if_pos hlooks, Primary.waitConfirmed, if_pos hle]
  refine ⟨hellos ++ [.sessionReady (helloOf state.term []) {} true, .look], ?_⟩
  have hrun : r.run k c (hellos ++ [.sessionReady (helloOf state.term []) {} true, .look]) =
      { waiting with waiter := .ended, startupReady := true } := by
    rw [PrimaryRuntime.run, List.foldl_append]
    show ((r.run k c hellos).catchUpPrimaryPeer (helloOf state.term []) {} true).look = _
    rw [hheard, hwaiting, hready]
  rw [hrun]
  refine ⟨rfl, ?_⟩
  rintro ⟨a, anchor, hanc, hkind, hterm, hle⟩
  have hle : a ≤ waiting.primary.coordinator.confirmed := hle
  rw [hjrnl] at hanc
  have hbeyond := honly a anchor hanc hkind hterm
  omega

/-- **A Primary that has become ready has the anchor of its term confirmed, whatever happens after
its start, exactly when the journal it was started on has no anchor of its term beyond the state
file.** -/
theorem startup_ready_iff {heads : Store → Digest} {state : MemberState}
    {segments : List TransitionSegment} {ordering : OrderingJournal} {stores : S}
    {reseedRequired : Bool} {io : OpenIO} {r₀ : PrimaryRuntime}
    (hopen : openPrimary k c d heads state segments ordering stores reseedRequired io = .ok r₀) :
    (∀ events, (r₀.run k c events).startupReady = true →
      (r₀.run k c events).AnchorConfirmed state.term) ↔ ¬ UnpublishedAnchor state ordering := by
  obtain ⟨opened, s, hmade, hstup⟩ := openPrimary_ok hopen
  constructor
  · intro hall hunpub
    obtain ⟨events, hready, hnot⟩ := hmade.ready hunpub hstup
    exact hnot (hall events hready)
  · intro hpubd events hready
    have hsteady := (hmade.steady hpubd hstup).run (c := c) events
    obtain ⟨a, anchor, hrec, hkind, hterm, hle⟩ := hsteady.anchored
    exact ⟨a, anchor, hrec, hkind, hterm, hle.trans (hsteady.ready hready)⟩

end Theorem

namespace Startup.Sample

open Replica.Sample Primary.Sample

/-- Native stores that hold nothing. -/
def source : DurableSource Unit Unit where
  cursor _ _ := .ok {}
  headAt _ _ _ := .error ()
  read _ _ _ _ _ := .error ()
  truncate _ _ _ := (.ok (), ())
  pendingLedgerRoll _ _ := .error ()
  readProviderObjectChunk _ _ := .error ()

/-- A Primary of term 1 that is stopped after the ordering record of its anchor and before its state
file. -/
def stopped : Option Primary :=
  made.1.toOption.map fun coordinator =>
    (Primary.recordDurable crypto ⟨coordinator, ordering, made.2⟩ { kind := .leadershipEstablished }
      { state := .failed false }).2

/-- It is started again on the files it left. -/
def reopened : Option PrimaryRuntime :=
  stopped.bind fun s =>
    (openPrimary crypto codec source (fun _ => .zero) s.publisher.file [] s.journal () false
      {}).toOption

/-- Its peer connects, the session is registered and the waiter looks. -/
def events : List PrimaryRuntime.Event :=
  [.hello (helloOf 1 [98]) true ⟨0, .synced, .published⟩, .sessionReady (helloOf 1 [98]) {} false,
    .look]

end Startup.Sample

open Startup.Sample Replica.Sample Primary.Sample in
theorem startup_ready_empty : ∃ r₀, openPrimary crypto codec source (fun _ => .zero) state []
    ordering () false {} = .ok r₀ ∧ ∀ events, (r₀.run crypto codec events).startupReady = true →
      (r₀.run crypto codec events).AnchorConfirmed 1 := by
  have hopens : (openPrimary crypto codec source (fun _ => .zero) state [] ordering () false
      {}).isOk = true := by
    decide +kernel
  rcases hopen : openPrimary crypto codec source (fun _ => .zero) state [] ordering () false {} with
    err | r₀
  · rw [hopen] at hopens
    cases hopens
  · exact ⟨r₀, rfl, (startup_ready_iff hopen).mpr (by decide +kernel)⟩

open Startup.Sample Replica.Sample in
/-- The restarted Primary is ready with nothing confirmed; the head of its journal is the anchor of
its term. -/
theorem ready_before_anchor : (reopened.map fun r =>
      let t := r.run crypto codec events
      (t.startupReady, t.primary.coordinator.confirmed, t.primary.journal.head.index,
        t.primary.journal.head.term, t.primary.publisher.state.term)) =
      some (true, 0, 1, 1, 1) := by
  decide +kernel

end Replication

end Halro
