import Halro.Replication.PrimaryCalls
import Halro.Replication.ReceiverSafety

/-!
# Safety of the primary coordinator

Over any calls in any order, with any acknowledgements and any failures of the writes, an index is
reported as confirmed only when the whole prefix up to it is durable and published, and when a
configured peer has acknowledged it in the current term, after the anchor of the term
(`primary_safety`).  The one exception is the prefix the coordinator was made with: it was confirmed
before, and is reported so on the strength of the state file.
-/

namespace Halro

open Framework Framework.FinMap Replication.OrderingJournal Replication.StatePublisher Replication.ProjectionState

namespace Replication

/-! ## The projection -/

/-- The metadata position of a projection is that of the cursors. -/
def ProjectionState.At (p : ProjectionState) (cursors : Cursors) : Prop :=
  p.metadataEpoch = cursors.metadata.generation ∧ p.metadataSequence = cursors.metadata.sequence

variable {r : OrderingRecord} {p' p : ProjectionState}

variable {c c' : Cursors}

/-- A record moves both to the same position. -/
lemma ProjectionState.At.advance (h : p.At c) (hp : p.advance r = .ok p')
    (hc : c.advance r = .ok c') : p'.At c' := by
  simp only [ProjectionState.advance] at hp
  split_ifs at hp with hother hstart hrange
  · -- The projection skips the record: the cursors move another store, or none.
    cases hp
    have hsame : c'.metadata = c.metadata := by
      simp only [Cursors.advance] at hc
      split at hc
      · rename_i hkind
        simp only [guard_eq_ok] at hc
        obtain ⟨-, -, hc⟩ := hc
        cases hc
        have hne := hother.resolve_left (not_not.mpr hkind)
        cases hstore : r.store <;> first | rfl | exact absurd hstore hne
      · split at hc
        · cases hc
        · obtain ⟨-, hc⟩ := guard_eq_ok.mp hc
          cases hc
          rfl
      · cases hc
        rfl
    exact ⟨h.1.trans (by rw [hsame]), h.2.trans (by rw [hsame])⟩
  · cases hp
    simp only [not_or, ne_eq, not_not] at hother
    simp only [Cursors.advance, hother.1, guard_eq_ok] at hc
    obtain ⟨-, -, hc⟩ := hc
    cases hc
    rw [hother.2]
    exact ⟨rfl, rfl⟩

variable {j : OrderingJournal}

lemma ProjectionState.through_append {l m : List ℕ} : p.through j (l ++ m) = .ok p' ↔
      ∃ q, p.through j l = .ok q ∧ q.through j m = .ok p' := by
  induction l generalizing p with
  | nil => simp [through]
  | cons i l ih =>
    simp only [List.cons_append, through]
    split
    · simp
    · split
      · simp
      · exact ih

lemma Cursors.through_append {rs ss : List OrderingRecord} :
    c.through (rs ++ ss) = .ok c' ↔ ∃ d, c.through rs = .ok d ∧ d.through ss = .ok c' := by
  induction rs generalizing c with
  | nil => simp [Cursors.through]
  | cons r rs ih =>
    simp only [List.cons_append, Cursors.through]
    rcases c.advance r with err | next
    · simp
    · exact ih

lemma Cursors.through_singleton : c.through [r] = .ok c' ↔ c.advance r = .ok c' := by
  simp only [Cursors.through]
  rcases c.advance r with err | next <;> simp

/-- The positions through an index are those through the index before, and its record. -/
lemma OrderingJournal.storeCursorsThrough_succ {n : ℕ} (hr : j.record (n + 1) = .ok r) {c : Cursors} :
    j.storeCursorsThrough (n + 1) = .ok c ↔
      ∃ d, j.storeCursorsThrough n = .ok d ∧ d.advance r = .ok c := by
  obtain ⟨-, hle, hget, -⟩ := getElem_of_record hr
  rw [Nat.add_sub_cancel] at hget
  have hn : ¬ n > j.head.index := by omega
  simp only [storeCursorsThrough, if_neg (not_lt.mpr hle), if_neg hn]
  have htake : j.records.take (n + 1) = j.records.take n ++ [r] := by
    rw [List.take_add_one, hget]
    rfl
  rw [htake, Cursors.through_append]
  simp only [Cursors.through_singleton]

/-- The projection advanced over the records above an index is the one recomputed at the end. -/
lemma ProjectionState.through_at {k : Crypto} (hs : j.Sound k) {n m : ℕ} {c : Cursors}
    (hm : n + m ≤ j.head.index) (hp : p.through j (List.range' (n + 1) m) = .ok p')
    (hc : j.storeCursorsThrough (n + m) = .ok c)
    (hstart : ∀ d, j.storeCursorsThrough n = .ok d → p.At d) : p'.At c := by
  induction m generalizing p' c with
  | zero =>
    cases hp
    exact hstart c hc
  | succ m ih =>
    obtain ⟨r, hr⟩ := hs.record_ok (i := n + m + 1) (Nat.succ_pos _) hm
    rw [List.range'_concat, through_append] at hp
    obtain ⟨q, hq, hlast⟩ := hp
    obtain ⟨d, hd, hadv⟩ := (storeCursorsThrough_succ hr).mp hc
    have hindex : n + 1 + 1 * m = n + m + 1 := by omega
    simp only [through, hindex, hr] at hlast
    split at hlast <;> cases hlast
    rename_i hnext
    exact (ih (by omega) hq hd).advance hnext hadv

namespace Primary

variable {k : Crypto}

/-! ## The invariant -/

/-- What holds of a member whose coordinator works. -/
structure Working (s : Primary) : Prop where
  tracked : s.coordinator.confirmations.confirmed = s.coordinator.confirmed
  registered : s.coordinator.confirmations.lastRegistered = s.journal.head.index
  confirmed : s.publisher.state.confirmedIndex = s.coordinator.confirmed
  durable : s.publisher.state.durableIndex = s.journal.head.index

/-- What every call preserves, for a coordinator made in a term, with its peers and a confirmed
prefix. -/
structure Kept (k : Crypto) (tenure : ℕ) (members : List Bytes) (prefixed : ℕ) (s : Primary) :
    Prop where
  sound : s.journal.Sound k
  clean : s.coordinator.confirmations.Clean
  peers : s.coordinator.confirmations.peers = members
  term : s.coordinator.term = tenure ∧ s.coordinator.confirmations.term = tenure
  start : prefixed ≤ s.coordinator.confirmed
  durable : s.coordinator.confirmed ≤ s.journal.head.index
  file : s.coordinator.confirmed ≤ s.publisher.file.confirmedIndex
  state : s.coordinator.confirmed ≤ s.publisher.state.confirmedIndex
  ordered : ∀ i, prefixed < i → i ≤ s.journal.head.index →
    ∃ r, s.journal.record i = .ok r ∧ r.term = tenure
  projection : ∀ cursors, s.journal.storeCursorsThrough s.coordinator.confirmed = .ok cursors →
    s.coordinator.projection = .ofCursors s.coordinator.confirmed cursors
  pending : ∀ i, s.coordinator.confirmed < i → i ≤ s.publisher.state.durableIndex →
    ∃ b, s.coordinator.pending.lookup i = some b
  beyond : ∀ i, s.journal.head.index < i → s.coordinator.pending.lookup i = none
  working : s.coordinator.poisoned = none → s.Working

variable {tenure prefixed : ℕ} {members : List Bytes}

variable {s t : Primary}

section

variable (hk : Kept k tenure members prefixed s)

include hk

/-- No more is kept of a coordinator than its core. -/
lemma Kept.same (hcore : t.coordinator.core = s.coordinator.core) (hjrnl : t.journal = s.journal)
    (hpubr : t.publisher = s.publisher) : Kept k tenure members prefixed t := by
  obtain ⟨hterm, htrkr, hconf, hproj, hpend, hpois⟩ := PrimaryCoordinator.Core.mk.inj hcore
  obtain ⟨h1, h2, h3, h4, h5, h6, h7, h7s, h8, h9, h10, h11, h12⟩ := hk
  constructor <;> simp only [hterm, htrkr, hconf, hproj, hpend, hpois, hjrnl,
    hpubr] <;> try assumption
  intro hnone
  obtain ⟨g1, g2, g3, g4⟩ := h12 hnone
  constructor <;> simp only [htrkr, hconf, hjrnl, hpubr] <;> assumption

/-- A member with the order, the journal and the publisher of another, and the bytes of the frames
that are not confirmed. -/
lemma Kept.congr {pending : FinMap ℕ Bytes} {cause : Option Cause} (hcore : t.coordinator.core =
      { s.coordinator.core with pending := pending, manualUnavailable := cause })
    (hlook : ∀ i, s.coordinator.confirmed < i → pending.lookup i = s.coordinator.pending.lookup i)
    (hjrnl : t.journal = s.journal) (hpubr : t.publisher = s.publisher) :
    Kept k tenure members prefixed t := by
  refine Kept.same (s := { s with coordinator := { s.coordinator with
    pending := pending, manualUnavailable := cause } }) ?_ hcore hjrnl hpubr
  exact { hk with
    pending := fun i hlt hle => (hlook i hlt).symm ▸ hk.pending i hlt hle
    beyond := fun i hi => (hlook i (hk.durable.trans_lt hi)).trans (hk.beyond i hi)
    working := fun hnone => { hk.working hnone with } }

/-- The confirmed prefix of a longer journal. -/
lemma Kept.projection_of_extends {journal : OrderingJournal}
    (hext : OrderingJournal.Extends s.journal journal) (cursors : Cursors)
    (hcurs : journal.storeCursorsThrough s.coordinator.confirmed = .ok cursors) :
    s.coordinator.projection = .ofCursors s.coordinator.confirmed cursors := by
  rw [hext.storeCursorsThrough hk.sound hk.durable] at hcurs
  exact hk.projection cursors hcurs

/-- A journal that a failed or refused append left. -/
lemma Kept.unordered {w : WriteResult} {err : OrderingError}
    (happ : s.journal.append k r w = (.error err, t.journal))
    (hcoord : t.coordinator = s.coordinator) (hpubr : t.publisher = s.publisher) :
    Kept k tenure members prefixed t := by
  have hext := append_extends happ
  have hhead := append_error_head happ
  have hsound := hk.sound.append r w
  rw [happ] at hsound
  obtain ⟨coordinator, journal, publisher⟩ := t
  subst hcoord hpubr
  refine
    { hk with
      sound := hsound
      durable := hhead ▸ hk.durable
      ordered := fun i hlt hle => ?_
      projection := hk.projection_of_extends hext
      beyond := hhead ▸ hk.beyond
      working := fun hnone =>
        { hk.working hnone with
          registered := hhead ▸ (hk.working hnone).registered
          durable := hhead ▸ (hk.working hnone).durable } }
  obtain ⟨record, hrec, hterm⟩ := hk.ordered i hlt (hhead ▸ hle)
  exact ⟨record, hext.record hrec, hterm⟩

/-- The record an append of the tenure adds. -/
lemma Kept.ordered_append {record : OrderingRecord}
    {w : WriteResult} {journal : OrderingJournal}
    (happ : s.journal.append k r w = (.ok record, journal)) (hterm : r.term = tenure) :
    journal.head.index = s.journal.head.index + 1 ∧ ∀ i, prefixed < i → i ≤ journal.head.index →
        ∃ found, journal.record i = .ok found ∧ found.term = tenure := by
  have hwrote := append_ok happ
  have hext := append_extends happ
  have hindex := (inOrder_eq_ok hwrote.order).1
  have hhead : journal.head.index = r.index := by rw [hwrote.journal]
  refine ⟨hhead.trans hindex, ?_⟩
  intro i hlt hle
  rw [hhead] at hle
  rcases hle.lt_or_eq with hbef | rfl
  · obtain ⟨found, hfound, hfndT⟩ := hk.ordered i hlt (by omega)
    exact ⟨found, hext.record hfound, hfndT⟩
  · refine ⟨record, hwrote.record_self hk.sound, ?_⟩
    rw [hwrote.sealed]
    exact hterm

lemma Kept.broken (hnone : s.coordinator.poisoned = none) (h : Broken k s t) :
    Kept k tenure members prefixed t := by
  obtain ⟨hpois, ⟨confirmations, cause, hclean, hpeers, hten, hcore⟩, hjrnl, hpubr⟩ := h
  have hpubd := (hk.working hnone).confirmed
  -- The journal is the one before, or has one more record of the tenure.
  have hext : OrderingJournal.Extends s.journal t.journal ∧ t.journal.Sound k ∧
      ∀ i, prefixed < i → i ≤ t.journal.head.index →
        ∃ r, t.journal.record i = .ok r ∧ r.term = tenure := by
    rcases hjrnl with hsame | ⟨r, w, record, happ, hrterm⟩
    · rw [hsame]
      exact ⟨.refl _, hk.sound, hk.ordered⟩
    · have hsound := hk.sound.append r w
      rw [happ] at hsound
      exact ⟨append_extends happ, hsound, (hk.ordered_append happ (hrterm.trans hk.term.1)).2⟩
  obtain ⟨hext, hsound, hord⟩ := hext
  -- The publisher holds the state before, and its file is not behind.
  have hstate : t.publisher.state = s.publisher.state ∧
      s.coordinator.confirmed ≤ t.publisher.file.confirmedIndex := by
    rcases hpubr with hsame | ⟨progress, w, err, hpub⟩
    · rw [hsame]
      exact ⟨rfl, hk.file⟩
    · obtain ⟨hstate, hfile'⟩ := publishPrimary_error hpub
      refine ⟨hstate, ?_⟩
      rcases hfile' with hsame | hle
      · rw [hsame]
        exact hk.file
      · rwa [hpubd] at hle
  refine Kept.same (s := { t with coordinator := { s.coordinator with
    confirmations := confirmations, poisoned := cause } }) ?_ hcore rfl rfl
  exact { hk with
    sound := hsound
    clean := hclean
    peers := hpeers.trans hk.peers
    term := ⟨hk.term.1, hten.trans hk.term.2⟩
    durable := hk.durable.trans hext.head
    file := hstate.2
    state := hk.state.trans_eq (congrArg (·.confirmedIndex) hstate.1.symm)
    ordered := hord
    projection := hk.projection_of_extends hext
    pending := fun i hlt hle => hk.pending i hlt (hle.trans_eq (congrArg (·.durableIndex) hstate.1))
    beyond := fun i hi => hk.beyond i (hext.head.trans_lt hi)
    working := fun h => absurd ((congrArg (·.poisoned) hcore).trans h) hpois }

lemma Kept.recorded {f : Frame} {commit : LocalCommit} (h : Recorded k s f commit t) :
    Kept k tenure members prefixed t := by
  obtain ⟨⟨hnone, hmanual⟩, hindex, hvalid, hencoded, write, record, journal, confirmations, q, w,
    happ, hreg, hpub, hjrnl, hpubr, hcore⟩ := h
  have hregd := ConfirmationTracker.register_ok hreg
  obtain ⟨hpubd, -⟩ := publishPrimary_ok hpub
  obtain ⟨htrk, hlast, hstate, hdur⟩ := hk.working hnone
  obtain ⟨hhead, hord⟩ := hk.ordered_append happ hk.term.1
  have hsound := hk.sound.append (.ofFrame (s.coordinator.stamp s.journal.head.index f)
    ((s.coordinator.stamp s.journal.head.index f).digest k.sha256)) write
  rw [happ] at hsound
  have hext := append_extends happ
  have hcmt : commit.index = journal.head.index := hindex.trans hhead.symm
  subst hjrnl hpubr
  have hprog : t.publisher.state.durableIndex = commit.index ∧
      t.publisher.state.confirmedIndex = s.coordinator.confirmed := by
    rw [hpubd.state]
    exact ⟨rfl, rfl⟩
  refine Kept.same (s := { t with coordinator := { s.coordinator with
    confirmations := confirmations
    pending := s.coordinator.pending.insert commit.index commit.encoded } }) ?_ hcore rfl rfl
  refine { hk with
    sound := hsound
    clean := hregd.clean hk.clean
    peers := (congrArg (·.peers) hregd.eq).trans hk.peers
    term := ⟨hk.term.1, (congrArg (·.term) hregd.eq).trans hk.term.2⟩
    durable := hk.durable.trans hext.head
    file := (congrArg (·.confirmedIndex) hpubd.file).ge
    state := hprog.2.ge
    ordered := hord
    projection := hk.projection_of_extends hext
    pending := fun i hlt hle => ?_
    beyond := fun i hi => ?_
    working := fun _ => ⟨(congrArg (·.confirmed) hregd.eq).trans htrk,
      (congrArg (·.lastRegistered) hregd.eq).trans hhead.symm, hprog.2,
      hprog.1.trans hcmt⟩ }
  · rw [lookup_insert_ite]
    split_ifs with hi
    · exact ⟨_, rfl⟩
    · have hle : i ≤ t.publisher.state.durableIndex := hle
      exact hk.pending i hlt (by omega)
  · have hi : t.journal.head.index < i := hi
    rw [lookup_insert_ite, if_neg (by omega)]
    exact hk.beyond i (by omega)

lemma Kept.confirmed {ack : Acknowledgement} (h : Confirmed s ack t) :
    Kept k tenure members prefixed t := by
  obtain ⟨⟨hnone, hmanual⟩, hpeer, habove, hregd, hjrnl, confirmations, projection, q, w,
    hclean, heq, hprojectionThrough, hpub, hpubr, hcore⟩ := h
  obtain ⟨hpubd, -⟩ := publishPrimary_ok hpub
  obtain ⟨htrk, hlast, hstate, hdur⟩ := hk.working hnone
  rw [htrk] at habove
  rw [hlast] at hregd
  have hlook : ∀ i, ack.index < i →
      (s.coordinator.pending.eraseAll (List.range (ack.index + 1))).lookup i =
        s.coordinator.pending.lookup i := by
    intro i hi
    rw [lookup_eraseAll, if_neg]
    rw [List.mem_range]
    omega
  subst hpubr
  have hprog : t.publisher.state.durableIndex = s.journal.head.index ∧
      t.publisher.state.confirmedIndex = ack.index := by
    rw [hpubd.state]
    exact ⟨rfl, rfl⟩
  refine Kept.same (s := { s with publisher := t.publisher, coordinator := { s.coordinator with
    confirmations := confirmations, confirmed := ack.index, projection := projection
    pending := s.coordinator.pending.eraseAll (List.range (ack.index + 1)) } }) ?_ hcore hjrnl rfl
  refine { hk with
    clean := hclean
    peers := (congrArg (·.peers) heq).trans hk.peers
    term := ⟨hk.term.1, (congrArg (·.term) heq).trans hk.term.2⟩
    start := hk.start.trans habove.le
    durable := hregd
    file := (congrArg (·.confirmedIndex) hpubd.file).ge
    state := hprog.2.ge
    projection := fun cursors hcurs => ?_
    pending := fun i hlt hle => ?_
    beyond := fun i hi => (hlook i (hregd.trans_lt hi)).trans (hk.beyond i hi)
    working := fun _ => ⟨congrArg (·.confirmed) heq, (congrArg (·.lastRegistered) heq).trans hlast,
      hprog.2, hprog.1⟩ }
  · obtain ⟨p, hthru, rfl⟩ := map_eq_ok.mp hprojectionThrough
    have hsum : s.coordinator.confirmed + (ack.index - s.coordinator.confirmed) = ack.index := by
      omega
    have hat : p.At cursors := by
      refine through_at hk.sound (by omega) hthru (by rwa [hsum]) ?_
      intro d hd
      rw [hk.projection d hd]
      exact ⟨rfl, rfl⟩
    rw [ofCursors, ← hat.1, ← hat.2]
  · have hle : i ≤ s.journal.head.index := hle.trans_eq hprog.1
    obtain ⟨b, hb⟩ := hk.pending i (habove.trans hlt) (hle.trans_eq hdur.symm)
    exact ⟨b, (hlook i hlt).trans hb⟩

/-- Dropping confirmed frames again, or refusing further work, changes nothing of it. -/
lemma Kept.known (hcore : t.coordinator.core = { s.coordinator.core with
      pending := s.coordinator.pending.eraseAll (List.range (s.coordinator.confirmed + 1)) })
    (hjrnl : t.journal = s.journal) (hpubr : t.publisher = s.publisher) :
    Kept k tenure members prefixed t := by
  refine hk.congr hcore (fun i hi => ?_) hjrnl hpubr
  rw [lookup_eraseAll, if_neg]
  rw [List.mem_range]
  omega

lemma Kept.unavailable {cause : Cause}
    (hcore : t.coordinator.core = { s.coordinator.core with manualUnavailable := some cause })
    (hjrnl : t.journal = s.journal) (hpubr : t.publisher = s.publisher) :
    Kept k tenure members prefixed t :=
  hk.congr hcore (fun _ _ => rfl) hjrnl hpubr

end

variable {answer : Answer} {call : Call}

section

variable (hk : Kept k tenure members prefixed s)

include hk

/-- **Every call keeps the invariant.** -/
lemma Kept.called (h : Called k s call answer t) :
    Kept k tenure members prefixed t := by
  cases h with
  | kept silent waits unfrozen core journal publisher => exact hk.same core journal publisher
  | unordered working appended coordinator publisher =>
    exact hk.unordered appended coordinator publisher
  | broken working waits unfrozen broken => exact hk.broken working.1 broken
  | recorded recorded => exact hk.recorded recorded
  | known working same core journal publisher => exact hk.known core journal publisher
  | confirmed confirmed => exact hk.confirmed confirmed
  | unavailable waits core journal publisher => exact hk.unavailable core journal publisher

lemma Kept.step (call : Call) :
    Called k s call (s.call k call).1 (s.after k call) :=
  Primary.called s hk.clean (fun hnone => (hk.working hnone).tracked) call

lemma Kept.run (calls : List Call) :
    Kept k tenure members prefixed (s.run k calls) :=
  List.foldlRecOn calls _ hk fun _ hk call _ => hk.called (hk.step call)

/-- A publisher with the progress of another, whose file is not behind. -/
lemma Kept.republished {q : StatePublisher}
    (hstate : q.state.confirmedIndex = s.publisher.state.confirmedIndex ∧
      q.state.durableIndex = s.publisher.state.durableIndex)
    (hfile : s.coordinator.confirmed ≤ q.file.confirmedIndex) :
    Kept k tenure members prefixed { s with publisher := q } := by
  refine { hk with file := hfile, state := ?_, pending := ?_, working := ?_ }
  · rw [hstate.1]
    exact hk.state
  · intro i hlt hle
    rw [hstate.2] at hle
    exact hk.pending i hlt hle
  · intro hnone
    obtain ⟨htrk, hlast, hconf, hdur⟩ := hk.working hnone
    exact ⟨htrk, hlast, hstate.1.trans hconf, hstate.2.trans hdur⟩

/-! ## Confirmed indexes and kept bytes -/

/-- A call leaves the confirmed index, or is the acknowledgement that moves it to its own. -/
lemma Called.confirmed_le (h : Called k s call answer t) :
    t.coordinator.confirmed = s.coordinator.confirmed ∨
      ∃ ack io, call = .acknowledge ack io ∧ t.coordinator.confirmed = ack.index ∧
        s.coordinator.confirmed < ack.index ∧ ack.index ≤ s.journal.head.index ∧
        s.coordinator.confirmations.OfPeer ack := by
  cases h with
  | kept silent waits unfrozen core | known working same core | unavailable waits core =>
    exact .inl (congrArg (·.confirmed) core)
  | unordered working appended coordinator => exact .inl (by rw [coordinator])
  | broken working waits unfrozen broken =>
    obtain ⟨confirmations, cause, -, -, -, hcore⟩ := broken.core
    exact .inl (congrArg (·.confirmed) hcore)
  | recorded recorded =>
    obtain ⟨write, record, journal, confirmations, q, w, -, -, -, -, -, hcore⟩ := recorded.recorded
    exact .inl (congrArg (·.confirmed) hcore)
  | @confirmed ack io _ confirmed =>
    obtain ⟨confirmations, projection, q, w, -, -, -, -, -, hcore⟩ := confirmed.published
    obtain ⟨htrk, hlast, -, -⟩ := hk.working confirmed.working.1
    refine .inr ⟨ack, io, rfl, congrArg (·.confirmed) hcore, ?_, ?_, confirmed.peer⟩
    · rw [← htrk]
      exact confirmed.above
    · rw [← hlast]
      exact confirmed.registered

lemma Kept.confirmed_mono (h : Called k s call answer t) :
    s.coordinator.confirmed ≤ t.coordinator.confirmed := by
  rcases h.confirmed_le hk with hsame | ⟨ack, io, -, hack, hlt, -, -⟩
  · exact hsame.ge
  · rw [hack]
    exact hlt.le

/-- The bytes of a frame stay until its index is confirmed. -/
lemma Kept.bytes (h : Called k s call answer t) {i : ℕ}
    {b : Bytes} (hb : i ≤ s.coordinator.confirmed ∨ s.coordinator.pending.lookup i = some b) :
    i ≤ t.coordinator.confirmed ∨ t.coordinator.pending.lookup i = some b := by
  have hmono := hk.confirmed_mono h
  rcases hb with hle | hb
  · exact .inl (hle.trans hmono)
  have hsame : t.coordinator.pending = s.coordinator.pending →
      i ≤ t.coordinator.confirmed ∨ t.coordinator.pending.lookup i = some b :=
    fun hpend => .inr (hpend ▸ hb)
  have herased : ∀ {n : ℕ}, t.coordinator.confirmed = n →
      t.coordinator.pending = s.coordinator.pending.eraseAll (List.range (n + 1)) →
      i ≤ t.coordinator.confirmed ∨ t.coordinator.pending.lookup i = some b := by
    intro n hn hpend
    by_cases hi : i ≤ n
    · exact .inl (hn ▸ hi)
    · right
      rw [hpend, lookup_eraseAll, if_neg]
      · exact hb
      · rw [List.mem_range]
        omega
  cases h with
  | kept silent waits unfrozen core | unavailable waits core =>
    exact hsame (congrArg (·.pending) core)
  | unordered working appended coordinator => exact hsame (by rw [coordinator])
  | broken working waits unfrozen broken =>
    obtain ⟨confirmations, cause, -, -, -, hcore⟩ := broken.core
    exact hsame (congrArg (·.pending) hcore)
  | @recorded f io commit _ recorded =>
    obtain ⟨write, record, journal, confirmations, q, w, -, -, -, -, -, hcore⟩ := recorded.recorded
    right
    rw [show t.coordinator.pending = s.coordinator.pending.insert commit.index commit.encoded from
      congrArg (·.pending) hcore, lookup_insert_ite, if_neg]
    · exact hb
    · -- The new index is beyond the head, where nothing was kept.
      intro hi
      rw [hi, hk.beyond commit.index (by rw [recorded.index]; exact Nat.lt_succ_self _)] at hb
      cases hb
  | known working same core =>
    exact herased (congrArg (·.confirmed) core) (congrArg (·.pending) core)
  | confirmed confirmed =>
    obtain ⟨confirmations, projection, q, w, -, -, -, -, -, hcore⟩ := confirmed.published
    exact herased (congrArg (·.confirmed) hcore) (congrArg (·.pending) hcore)

lemma Kept.bytes_run {i : ℕ} {b : Bytes}
    (hb : i ≤ s.coordinator.confirmed ∨ s.coordinator.pending.lookup i = some b) (calls : List Call) :
    i ≤ (s.run k calls).coordinator.confirmed ∨
      (s.run k calls).coordinator.pending.lookup i = some b := by
  induction calls generalizing s with
  | nil => exact hb
  | cons call calls ih =>
    have hcall := hk.step call
    exact ih (hk.called hcall) (hk.bytes hcall hb)

end

/-- The bytes a recorded frame is kept with. -/
lemma Called.commit {commit : LocalCommit} (h : Called k s call (.ok (.commit commit)) t) :
    t.coordinator.pending.lookup commit.index = some commit.encoded := by
  cases h with
  | kept silent => exact absurd rfl (silent commit)
  | recorded recorded =>
    obtain ⟨write, record, journal, confirmations, q, w, -, -, -, -, -, hcore⟩ := recorded.recorded
    rw [show t.coordinator.pending = s.coordinator.pending.insert commit.index commit.encoded from
      congrArg (·.pending) hcore, lookup_insert_ite, if_pos rfl]

/-! ## What confirmed an index -/

/-- An earlier acknowledgement of the calls that confirms an index: of the tenure, from a configured
peer, at or above the index, at an index of the term that stands after the anchor of the term. -/
def Acked (k : Crypto) (tenure : ℕ) (members : List Bytes) (s₀ : Primary) (calls : List Call)
    (index : ℕ) : Prop :=
  ∃ before ack io after, calls = before ++ .acknowledge ack io :: after ∧ index ≤ ack.index ∧
    ack.validate = .ok () ∧ ack.term = tenure ∧ ack.nodeID ∈ members ∧
    ∃ record anchor anchorRecord,
      (s₀.run k before).journal.record ack.index = .ok record ∧ record.term = tenure ∧
      anchor ≤ ack.index ∧ (s₀.run k before).journal.record anchor = .ok anchorRecord ∧
      anchorRecord.kind = .leadershipEstablished ∧ anchorRecord.term = tenure

lemma Acked.concat {s₀ : Primary} {calls : List Call} {index : ℕ}
    (h : Acked k tenure members s₀ calls index) (call : Call) :
    Acked k tenure members s₀ (calls ++ [call]) index := by
  obtain ⟨before, ack, io, after, hcalls, hrest⟩ := h
  refine ⟨before, ack, io, after ++ [call], ?_, hrest⟩
  rw [hcalls, List.append_assoc, List.cons_append]

lemma run_concat (s : Primary) (calls : List Call) (call : Call) :
    s.run k (calls ++ [call]) = (s.run k calls).after k call := by
  simp only [Primary.run, List.foldl_append, List.foldl_cons, List.foldl_nil]

/-- Every index above the prefix that is confirmed was acknowledged. -/
lemma Kept.acked {s₀ : Primary} (hk₀ : Kept k tenure members prefixed s₀)
    (hstart : s₀.coordinator.confirmed = prefixed) (calls : List Call) {index : ℕ}
    (habove : prefixed < index) (hindex : index ≤ (s₀.run k calls).coordinator.confirmed) :
    Acked k tenure members s₀ calls index := by
  induction calls using List.reverseRecOn with
  | nil =>
    have hindex : index ≤ s₀.coordinator.confirmed := hindex
    omega
  | append_singleton calls call ih =>
    rw [run_concat] at hindex
    have hk := hk₀.run calls
    rcases (hk.step call).confirmed_le hk with hsame | ⟨ack, io, rfl, hack, hlt, hle, hpeer⟩
    · rw [hsame] at hindex
      exact (ih hindex).concat call
    · rw [hack] at hindex
      obtain ⟨record, hrec, hterm⟩ := hk.ordered ack.index (habove.trans_le hindex) hle
      obtain ⟨anchor, hanc, anchorRecord, hanchorRecord, hkind, hancT⟩ := hk.sound.anchored hrec
      refine ⟨calls, ack, io, [], rfl, hindex, hpeer.valid, hpeer.term.trans hk.term.2, ?_, record,
        anchor, anchorRecord, hrec, hterm, hanc, hanchorRecord, hkind,
        hancT.trans hterm⟩
      rw [← hk.peers]
      exact hpeer.peer

/-! ## A frozen Primary -/

/-- A Primary that was told to stop taking work leaves the order as it is. -/
lemma Called.frozen (h : Called k s call answer t)
    (hfrozen : s.coordinator.manualUnavailable ≠ none) :
    t.journal = s.journal ∧ t.coordinator.confirmed = s.coordinator.confirmed ∧
      t.publisher = s.publisher ∧ t.coordinator.manualUnavailable ≠ none ∧ answer.Silent := by
  cases h with
  | kept silent waits unfrozen core journal publisher =>
    refine ⟨journal, congrArg (·.confirmed) core, publisher, ?_, silent⟩
    rwa [show t.coordinator.manualUnavailable = s.coordinator.manualUnavailable from
      congrArg (·.manualUnavailable) core]
  | unordered working | broken working | known working => exact absurd working.2 hfrozen
  | recorded recorded => exact absurd recorded.working.2 hfrozen
  | confirmed confirmed => exact absurd confirmed.working.2 hfrozen
  | @unavailable _ _ cause waits core journal publisher =>
    refine ⟨journal, congrArg (·.confirmed) core, publisher, ?_, nofun⟩
    rw [show t.coordinator.manualUnavailable = some cause from congrArg (·.manualUnavailable) core]
    nofun

lemma Called.freezes {expectedIndex : ℕ} {reply : Reply}
    (h : Called k s (.freezeForStepdown expectedIndex) (.ok reply) t) :
    t.coordinator.manualUnavailable ≠ none := by
  cases h with
  | kept silent waits unfrozen =>
    obtain ⟨err, herr⟩ := unfrozen expectedIndex rfl
    cases herr
  | @unavailable _ _ cause waits core =>
    rw [show t.coordinator.manualUnavailable = some cause from congrArg (·.manualUnavailable) core]
    nofun

section

variable (hk : Kept k tenure members prefixed s)

include hk

lemma Kept.frozen_run (hfrozen : s.coordinator.manualUnavailable ≠ none) (calls : List Call) :
    (s.run k calls).coordinator.manualUnavailable ≠ none := by
  induction calls generalizing s with
  | nil => exact hfrozen
  | cons call calls ih =>
    have hcall := hk.step call
    exact ih (hk.called hcall) (hcall.frozen hfrozen).2.2.2.1

/-! ## Frames that continue their stores -/

/-- A frame to be recorded continues the positions of the native stores, as their commits do. -/
def Call.Continues (s : Primary) : Call → Prop
  | .recordDurable f _ => ∀ cursors, s.journal.storeCursors = .ok cursors →
    ∃ next, cursors.advance (.ofFrame f .zero) = .ok next
  | _ => True

/-- The positions of the native stores can be recomputed at the confirmed index, and as long as the
coordinator works at the head. -/
structure Ranged (s : Primary) : Prop where
  confirmed : ∃ cursors, s.journal.storeCursorsThrough s.coordinator.confirmed = .ok cursors
  head : s.coordinator.poisoned = none → ∃ cursors, s.journal.storeCursors = .ok cursors

omit hk in
lemma storeCursorsThrough_le {n m : ℕ} {cursors : Cursors} (hnm : n ≤ m)
    (h : j.storeCursorsThrough m = .ok cursors) :
    ∃ before, j.storeCursorsThrough n = .ok before := by
  simp only [OrderingJournal.storeCursorsThrough] at h ⊢
  obtain ⟨hm, h⟩ := guard_eq_ok.mp h
  have hsplit : j.records.take n ++ (j.records.take m).drop n = j.records.take m := by
    rw [← Nat.min_eq_left hnm, ← List.take_take, Nat.min_eq_left hnm, List.take_append_drop]
  rw [← hsplit, Cursors.through_append] at h
  obtain ⟨before, hbef, -⟩ := h
  exact ⟨before, by rw [if_neg (by omega)]; exact hbef⟩

lemma Kept.ranged (h : Called k s call answer t)
    (hs : s.Ranged) (hconts : call.Continues s) : t.Ranged := by
  obtain ⟨⟨cursors, hcurs⟩, hhead⟩ := hs
  have hsame : t.coordinator.confirmed = s.coordinator.confirmed →
      t.coordinator.poisoned = s.coordinator.poisoned → t.journal = s.journal → t.Ranged :=
    fun hconf hpois hjrnl => ⟨⟨cursors, by rwa [hjrnl, hconf]⟩, by rwa [hjrnl, hpois]⟩
  cases h with
  | kept silent waits unfrozen core journal | known working same core journal
  | unavailable waits core journal =>
    exact hsame (congrArg (·.confirmed) core) (congrArg (·.poisoned) core) journal
  | unordered working appended coordinator =>
    have hext := append_extends appended
    refine ⟨⟨cursors, ?_⟩, fun _ => ?_⟩
    · rw [coordinator, hext.storeCursorsThrough hk.sound hk.durable]
      exact hcurs
    · rw [storeCursors, append_error_head appended, hext.storeCursorsThrough hk.sound le_rfl]
      exact hhead working.1
  | broken working waits unfrozen broken =>
    obtain ⟨confirmations, cause, -, -, -, hcore⟩ := broken.core
    refine ⟨⟨cursors, ?_⟩, fun hnone => absurd hnone broken.poisoned⟩
    rw [show t.coordinator.confirmed = s.coordinator.confirmed from congrArg (·.confirmed) hcore]
    rcases broken.journal with hsame | ⟨r, w, record, happ, -⟩
    · rwa [hsame]
    · rwa [(append_extends happ).storeCursorsThrough hk.sound hk.durable]
  | @recorded f io commit _ recorded =>
    obtain ⟨write, record, journal, confirmations, q, w, happ, -, -, hjrnl, -, hcore⟩ :=
      recorded.recorded
    have hext := append_extends happ
    have hwrote := append_ok happ
    have hindex := (inOrder_eq_ok hwrote.order).1
    subst hjrnl
    refine ⟨⟨cursors, ?_⟩, fun _ => ?_⟩
    · rwa [show t.coordinator.confirmed = s.coordinator.confirmed from congrArg (·.confirmed) hcore,
        hext.storeCursorsThrough hk.sound hk.durable]
    · obtain ⟨before, hbef⟩ := hhead recorded.working.1
      obtain ⟨next, hnext⟩ := hconts before hbef
      have hself := hwrote.record_self hk.sound
      have hend : t.journal.head.index = s.journal.head.index + 1 := by
        rw [hwrote.journal]
        exact hindex
      refine ⟨next, ?_⟩
      rw [storeCursors, hend, storeCursorsThrough_succ hself]
      refine ⟨before, ?_, ?_⟩
      · rw [hext.storeCursorsThrough hk.sound le_rfl]
        exact hbef
      · rw [hwrote.sealed]
        exact hnext
  | @confirmed ack io _ confirmed =>
    obtain ⟨confirmations, projection, q, w, -, -, -, -, -, hcore⟩ := confirmed.published
    obtain ⟨whole, hwhole⟩ := hhead confirmed.working.1
    have hwithin : ack.index ≤ s.journal.head.index := by
      rw [← (hk.working confirmed.working.1).registered]
      exact confirmed.registered
    refine ⟨?_, fun _ => ⟨whole, ?_⟩⟩
    · rw [confirmed.journal, show t.coordinator.confirmed = ack.index from
        congrArg (·.confirmed) hcore]
      exact storeCursorsThrough_le hwithin hwhole
    · rw [confirmed.journal]
      exact hwhole

lemma Kept.ranged_run (hs : s.Ranged) {calls : List Call}
    (hcalls : Along (after k) (fun s call => call.Continues s) s calls) :
    (s.run k calls).Ranged := by
  induction calls generalizing s with
  | nil => exact hs
  | cons call calls ih =>
    have hcall := hk.step call
    exact ih (hk.called hcall) (hk.ranged hcall hs hcalls.1) hcalls.2

end

end Primary

/-! ## A coordinator that has just been made -/

namespace PrimaryCoordinator

variable {k : Crypto}

/-- A coordinator with a recovered suffix entered from an index on. -/
structure Recovered (j : OrderingJournal) (c : PrimaryCoordinator) (first : ℕ)
    (recovered : List LocalCommit) (c' : PrimaryCoordinator) : Prop where
  term : c'.term = c.term
  confirmed : c'.confirmed = c.confirmed
  projection : c'.projection = c.projection
  poisoned : c'.poisoned = c.poisoned
  manual : c'.manualUnavailable = c.manualUnavailable
  clean : c'.confirmations.Clean
  peers : c'.confirmations.peers = c.confirmations.peers
  tracked : c'.confirmations.term = c.confirmations.term ∧
    c'.confirmations.confirmed = c.confirmations.confirmed
  last : c'.confirmations.lastRegistered = c.confirmations.lastRegistered + recovered.length
  records : ∀ i, first ≤ i → i < first + recovered.length →
    ∃ r, j.record i = .ok r ∧ r.term = c.term
  covered : ∀ i, first ≤ i → i < first + recovered.length → ∃ b, c'.pending.lookup i = some b
  kept : ∀ i, (i < first ∨ first + recovered.length ≤ i) →
    c'.pending.lookup i = c.pending.lookup i
  commits : ∀ commit ∈ recovered, first ≤ commit.index ∧
    c'.pending.lookup commit.index = some commit.encoded

variable {c : PrimaryCoordinator}

/-- Entering one commit. -/
lemma recover_ok {c' : PrimaryCoordinator} {expected : ℕ} {commit : LocalCommit}
    (h : c.recover k j expected commit = .ok c') :
    commit.index = expected ∧ (∃ r, j.record expected = .ok r ∧ r.term = c.term) ∧
      ∃ f confirmations, f.index = expected ∧ c.confirmations.register f = .ok confirmations ∧
        c' = { c with confirmations := confirmations
                      pending := c.pending.insert expected commit.encoded } := by
  obtain ⟨hindex, h⟩ := guard_eq_ok.mp h
  split at h
  · cases h
  split at h
  · cases h
  rename_i record hrec
  obtain ⟨hmatch, h⟩ := guard_eq_ok.mp h
  simp only [not_or, not_not, ne_eq] at hmatch
  split at h
  · cases h
  rename_i hreg
  cases h
  refine ⟨not_not.mp hindex, ⟨record, hrec, ?_⟩, _, _, hmatch.1, hreg, rfl⟩
  exact hmatch.2.2.2.2.1.trans hmatch.2.2.2.1

variable {recovered : List LocalCommit}

lemma recoverAll_ok {first : ℕ} {c' : PrimaryCoordinator} (hclean : c.confirmations.Clean)
    (h : recoverAll k j first recovered c = .ok c') : Recovered j c first recovered c' := by
  induction recovered generalizing first c with
  | nil =>
    cases h
    refine ⟨rfl, rfl, rfl, rfl, rfl, hclean, rfl, ⟨rfl, rfl⟩, rfl, ?_, ?_, fun _ _ => rfl, nofun⟩
    all_goals
      intro i hle hlt
      rw [List.length_nil] at hlt
      omega
  | cons commit rest ih =>
    simp only [recoverAll] at h
    split at h
    · cases h
    rename_i hone
    obtain ⟨hindex, hrec, f, confirmations, hf, hreg, rfl⟩ := recover_ok hone
    have hregd := ConfirmationTracker.register_ok hreg
    have hnext : confirmations.lastRegistered = c.confirmations.lastRegistered + 1 :=
      (congrArg (·.lastRegistered) hregd.eq).trans hregd.next
    have hrest := ih (hregd.clean hclean) h
    have hfirst : c'.pending.lookup first = some commit.encoded := by
      rw [hrest.kept first (.inl (Nat.lt_succ_self _)), lookup_insert_ite, if_pos rfl]
    have hlen : (commit :: rest).length = rest.length + 1 := rfl
    refine
      { hrest with
        peers := hrest.peers.trans (congrArg (·.peers) hregd.eq)
        tracked := ⟨hrest.tracked.1.trans (congrArg (·.term) hregd.eq),
          hrest.tracked.2.trans (congrArg (·.confirmed) hregd.eq)⟩
        last := ?_
        records := fun i hle hlt => ?_
        covered := fun i hle hlt => ?_
        kept := fun i hi => ?_
        commits := fun found hfound => ?_ }
    · rw [hrest.last, hnext, hlen]
      omega
    · rw [hlen] at hlt
      rcases hle.lt_or_eq with hafter | rfl
      · exact hrest.records i hafter (by omega)
      · exact hrec
    · rw [hlen] at hlt
      rcases hle.lt_or_eq with hafter | rfl
      · exact hrest.covered i hafter (by omega)
      · exact ⟨_, hfirst⟩
    · rw [hlen] at hi
      rw [hrest.kept i (by omega), lookup_insert_ite, if_neg (by omega)]
    · rcases List.mem_cons.mp hfound with rfl | hlater
      · rw [hindex]
        exact ⟨le_rfl, hfirst⟩
      · obtain ⟨hle, hlook⟩ := hrest.commits found hlater
        exact ⟨(Nat.le_succ first).trans hle, hlook⟩

variable {incarnation clusterID : Bytes} {peers : List Bytes}

/-- The coordinator before its suffix. -/
lemma fresh_ok {nodeID : Bytes} {term confirmed : ℕ} {established : Bool}
    (h : fresh clusterID incarnation nodeID term confirmed peers j = .ok (c, established)) :
    confirmed ≤ j.head.index ∧ c.term = term ∧ c.confirmed = confirmed ∧ c.poisoned = none ∧
      c.manualUnavailable = none ∧ c.pending = ∅ ∧ c.confirmations.Clean ∧
      c.confirmations.peers = peers ∧ c.confirmations.term = term ∧
      c.confirmations.confirmed = confirmed ∧ c.confirmations.lastRegistered = confirmed ∧
      ∃ cursors, j.storeCursorsThrough confirmed = .ok cursors ∧
        c.projection = .ofCursors confirmed cursors := by
  simp only [fresh, guard_eq_ok] at h
  obtain ⟨-, hhead, -, h⟩ := h
  split at h
  · cases h
  split at h
  · cases h
  rename_i htrkr
  split at h
  · cases h
  rename_i cursors hcurs
  cases h
  obtain ⟨hclean, hterm, hpeers, hconf, hlast, -, -, -⟩ := ConfirmationTracker.new_clean htrkr
  exact ⟨not_lt.mp hhead, rfl, rfl, rfl, rfl, rfl, hclean, hpeers, hterm, hconf, hlast, cursors,
    hcurs, rfl⟩

variable {nodeID : Bytes} {term confirmed : ℕ} {p p' : StatePublisher} {io : NewIO}

section

variable (h : new k clusterID incarnation nodeID term confirmed peers j p recovered io = (.ok c, p'))

include h

/-- Making a coordinator: one before its suffix, the suffix, and the progress it publishes. -/
lemma new_ok : ∃ made established full,
      fresh clusterID incarnation nodeID term confirmed peers j = .ok (made, established) ∧
      recovered.length = j.head.index - confirmed ∧
      recoverAll k j (confirmed + 1) recovered made = .ok full ∧ c.core = full.core ∧
      p.publishPrimary ⟨j.head.index, confirmed, j.head.mac, full.projection⟩ io.state =
        (.ok (), p') := by
  simp only [new] at h
  split at h
  · cases h
  rename_i hfresh
  obtain ⟨hlen, h⟩ := guard_pair_eq_ok.mp h
  split at h
  · cases h
  rename_i full hrcvr
  split at h <;> cases h
  rename_i hpub
  exact ⟨_, _, full, hfresh, not_not.mp hlen, hrcvr, by simp, hpub⟩

/-- What making a coordinator publishes, and the term it is made in. -/
lemma new_published :
    p'.state.term = p.state.term ∧ p'.state.peers = p.state.peers ∧ j.head.term ≤ term := by
  obtain ⟨made, established, full, hfresh, -, -, -, hpub⟩ := new_ok h
  obtain ⟨hpubd, -⟩ := publishPrimary_ok hpub
  refine ⟨?_, ?_, ?_⟩
  · rw [hpubd.state]
    rfl
  · rw [hpubd.state]
    rfl
  · simp only [fresh, guard_eq_ok] at hfresh
    exact not_lt.mp hfresh.2.2.1

end

/-- **A coordinator starts in the invariant**, with the bytes of its recovered suffix. -/
lemma new_kept (hs : j.Sound k)
    (h : new k clusterID incarnation nodeID term confirmed peers j p recovered io = (.ok c, p')) :
    Primary.Kept k term peers confirmed ⟨c, j, p'⟩ ∧ c.confirmed = confirmed ∧
      c.poisoned = none ∧ c.manualUnavailable = none ∧
      ∀ commit ∈ recovered, c.pending.lookup commit.index = some commit.encoded := by
  obtain ⟨made, established, full, hfresh, hlen, hrcvr, hcore, hpub⟩ := new_ok h
  obtain ⟨hhead, hterm, hconf, hpois, hmanual, hpend, hclean, hpeers, htterm,
    htconfirmed, htlast, cursors, hcurs, hproj⟩ := fresh_ok hfresh
  have hfull := recoverAll_ok hclean hrcvr
  obtain ⟨hpubd, -⟩ := publishPrimary_ok hpub
  have hat : full.confirmed = confirmed := hfull.confirmed.trans hconf
  have hprog : p'.state.durableIndex = j.head.index ∧ p'.state.confirmedIndex = confirmed := by
    rw [hpubd.state]
    exact ⟨rfl, rfl⟩
  have hkept : Primary.Kept k term peers confirmed ⟨full, j, p'⟩ := by
    refine
      { sound := hs
        clean := hfull.clean
        peers := hfull.peers.trans hpeers
        term := ⟨hfull.term.trans hterm, hfull.tracked.1.trans htterm⟩
        start := hat.ge
        durable := hat.trans_le hhead
        file := hat.trans_le (congrArg (·.confirmedIndex) hpubd.file).ge
        state := (hat.trans hprog.2.symm).le
        ordered := fun i hlt hle => ?_
        projection := fun found hfound => ?_
        pending := fun i hlt hle => hfull.covered i (hat.symm.trans_lt hlt) ?_
        beyond := fun i hi => ?_
        working := fun _ => ⟨hfull.tracked.2.trans (htconfirmed.trans hat.symm), ?_,
          hprog.2.trans hat.symm, hprog.1⟩ }
    · have hle : i ≤ j.head.index := hle
      obtain ⟨r, hr, hrterm⟩ := hfull.records i hlt (by omega)
      exact ⟨r, hr, hrterm.trans hterm⟩
    · rw [hat, hcurs] at hfound
      cases hfound
      rw [hat, hfull.projection, hproj]
    · have hle : i ≤ j.head.index := hle.trans_eq hprog.1
      omega
    · have hi : j.head.index < i := hi
      rw [hfull.kept i (.inr (by omega)), hpend]
      exact Finmap.lookup_empty i
    · show full.confirmations.lastRegistered = j.head.index
      rw [hfull.last, htlast]
      omega
  refine ⟨hkept.same hcore rfl rfl, ?_, ?_, ?_, ?_⟩
  · exact (congrArg Core.confirmed hcore).trans hat
  · exact (congrArg Core.poisoned hcore).trans (hfull.poisoned.trans hpois)
  · exact (congrArg Core.manualUnavailable hcore).trans (hfull.manual.trans hmanual)
  · intro commit hcmt
    rw [show c.pending = full.pending from congrArg Core.pending hcore]
    exact (hfull.commits commit hcmt).2

end PrimaryCoordinator

/-! ## Safety -/

namespace Primary

variable {k : Crypto}

/-- **Safety of the primary coordinator.**  A coordinator is made on any sound journal, with any
publisher and any recovered suffix, and serves any calls with any failures of its writes. -/
theorem primary_safety {clusterID incarnation nodeID : Bytes} {term confirmed : ℕ}
    {peers : List Bytes} {j : OrderingJournal} {p p₀ : StatePublisher}
    {recovered : List LocalCommit} {io : PrimaryCoordinator.NewIO} {c₀ : PrimaryCoordinator}
    (hj : j.Sound k)
    (hnew : PrimaryCoordinator.new k clusterID incarnation nodeID term confirmed peers j p recovered
      io = (.ok c₀, p₀))
    (calls : List Call) (next : Call) :
    let s₀ : Primary := ⟨c₀, j, p₀⟩
    let s := s₀.run k calls
    let t := s.after k next
    let answer := (s.call k next).1
    -- An index a waiter is told of is durable with all before it, published, and acknowledged in the
    -- term unless the coordinator was made with it.
    (∀ index, next = .waitConfirmed index → answer = .ok (.waited .confirmed) →
      (∀ i, 0 < i → i ≤ index → ∃ r, s.journal.record i = .ok r) ∧
      index ≤ s.publisher.file.confirmedIndex ∧
      (index ≤ confirmed ∨ Acked k term peers s₀ calls index)) ∧
    s.coordinator.confirmed ≤ t.coordinator.confirmed ∧
    -- The bytes of what is recorded or recovered are kept until it is confirmed, and no index of the
    -- published prefix above the confirmed one is without them; the published prefix of a coordinator
    -- that works reaches the head.
    (∀ before f io after commit, calls = before ++ .recordDurable f io :: after →
      ((s₀.run k before).call k (.recordDurable f io)).1 = .ok (.commit commit) →
      commit.index ≤ s.coordinator.confirmed ∨
        s.coordinator.pending.lookup commit.index = some commit.encoded) ∧
    (∀ commit ∈ recovered, commit.index ≤ s.coordinator.confirmed ∨
      s.coordinator.pending.lookup commit.index = some commit.encoded) ∧
    (∀ i, s.coordinator.confirmed < i → i ≤ s.publisher.state.durableIndex →
      ∃ b, s.coordinator.pending.lookup i = some b) ∧
    (s.coordinator.poisoned = none → s.publisher.state.durableIndex = s.journal.head.index) ∧
    -- The projection is the recomputed one, which exists when the frames continue their stores.
    (∀ cursors, s.journal.storeCursorsThrough s.coordinator.confirmed = .ok cursors →
      s.coordinator.projection = .ofCursors s.coordinator.confirmed cursors) ∧
    ((∃ cursors, j.storeCursors = .ok cursors) →
      Along (after k) (fun s call => call.Continues s) s₀ calls →
      ∃ cursors, s.journal.storeCursorsThrough s.coordinator.confirmed = .ok cursors) ∧
    -- After a freeze nothing is recorded and nothing is confirmed.
    (∀ before expectedIndex after, calls = before ++ .freezeForStepdown expectedIndex :: after →
      ((s₀.run k before).call k (.freezeForStepdown expectedIndex)).1 = .ok .done →
      t.journal = s.journal ∧ t.coordinator.confirmed = s.coordinator.confirmed ∧
        t.publisher = s.publisher ∧ ∀ commit, answer ≠ .ok (.commit commit)) := by
  intro s₀ s t answer
  obtain ⟨hk₀, hstart, hpois₀, -, hrecovered⟩ := PrimaryCoordinator.new_kept hj hnew
  have hk : Kept k term peers confirmed s := hk₀.run calls
  have hnext : Called k s next answer t := hk.step next
  have hsplit : ∀ before call after, calls = before ++ call :: after →
      s = ((s₀.run k before).after k call).run k after := by
    intro before call after hcalls
    show s₀.run k calls = _
    rw [hcalls]
    exact List.foldl_append
  refine ⟨?_, hk.confirmed_mono hnext, ?_, ?_, hk.pending, fun hnone => (hk.working hnone).durable,
    hk.projection, ?_, ?_⟩
  · intro index hwait hans
    have hwithin : index ≤ s.coordinator.confirmed := by
      rw [hans] at hnext
      cases hnext with
      | kept silent waits => exact waits index hwait rfl
    refine ⟨?_, hwithin.trans hk.file, ?_⟩
    · intro i hpos hi
      exact hk.sound.record_ok hpos ((hi.trans hwithin).trans hk.durable)
    · by_cases hbef : index ≤ confirmed
      · exact .inl hbef
      · exact .inr (hk₀.acked hstart calls (not_le.mp hbef) hwithin)
  · intro before f io after commit hcalls hcmt
    have hbef := hk₀.run before
    have hrecd := hbef.step (.recordDurable f io)
    have hkept := hbef.called hrecd
    rw [hcmt] at hrecd
    have hbytes := hkept.bytes_run (.inr hrecd.commit) after
    rwa [← hsplit before _ after hcalls] at hbytes
  · intro commit hcmt
    exact hk₀.bytes_run (.inr (hrecovered commit hcmt)) calls
  · intro hcurs hconts
    obtain ⟨cursors, hcurs⟩ := hcurs
    have hranged : s₀.Ranged :=
      ⟨storeCursorsThrough_le hk₀.durable hcurs, fun _ => ⟨cursors, hcurs⟩⟩
    exact (hk₀.ranged_run hranged hconts).confirmed
  · intro before expectedIndex after hcalls hfreeze
    have hbef := hk₀.run before
    have hcall := hbef.step (.freezeForStepdown expectedIndex)
    have hkept := hbef.called hcall
    rw [hfreeze] at hcall
    have hfrozen := hkept.frozen_run hcall.freezes after
    rw [← hsplit before _ after hcalls] at hfrozen
    obtain ⟨hjrnl, hconf, hpubr, -, hsilent⟩ := hnext.frozen hfrozen
    exact ⟨hjrnl, hconf, hpubr, hsilent⟩

namespace Sample

open Replica.Sample

/-- A Primary in term 1 that has recorded nothing. -/
def state : MemberState :=
  { Replica.Sample.file with
    nodeID := [97]
    role := .primary
    peers := [⟨[98], [50], [115, 104, 97, 50, 53, 54, 58] ++ List.replicate 64 48⟩] }

/-- The result of making its coordinator. -/
def made : Except PrimaryError PrimaryCoordinator × StatePublisher :=
  PrimaryCoordinator.new crypto cluster incarnation [97] 1 0 [[98]] ordering ⟨state, state, none, false⟩ [] {}

/-- It records its anchor, and its peer acknowledges it. -/
def calls : List Call :=
  [.recordDurable { kind := .leadershipEstablished } {},
    .acknowledge ⟨cluster, incarnation, [98], 1, 1, 1, 0⟩ {}]

/-- The journal with the anchor of term 1. -/
def anchored : OrderingJournal :=
  (ordering.append crypto (.ofFrame anchor (anchor.digest crypto.sha256)) .synced).2

/-- The state after index 1 was confirmed in term 1 and the member was promoted to term 2. -/
def promoted : MemberState :=
  { state with
    term := 2
    promisedTerm := 2
    durableIndex := 1
    confirmedIndex := 1
    appliedIndex := 1
    orderingHeadMAC := anchored.head.mac
    projection := ⟨1, 0, 0⟩ }

/-- The result of making its coordinator. -/
def tenured : Except PrimaryError PrimaryCoordinator × StatePublisher :=
  PrimaryCoordinator.new crypto cluster incarnation [97] 2 1 [[98]] anchored
    ⟨promoted, promoted, none, false⟩ [] {}

end Sample

open Sample in
/-- A coordinator of term 2 that has received no acknowledgement, and whose journal has no anchor of
term 2, reports the index it was made with. -/
theorem waitConfirmed_before_anchor : (tenured.1.map fun c => (c.term, anchored.head.term,
      Primary.waitConfirmed ⟨c, anchored, tenured.2⟩ 1)) = .ok (2, 1, .ok .confirmed) := by
  decide +kernel

open Sample Replica.Sample in
theorem primary_safety_sample :
    ∃ c₀, made.1 = .ok c₀ ∧ Acked crypto 1 [[98]] ⟨c₀, ordering, made.2⟩ Sample.calls 1 := by
  have hsound : ordering.Sound crypto := ⟨rfl, le_rfl, fun _ => ⟨rfl, rfl⟩⟩
  have hans : (made.1.map fun c₀ => ((run crypto ⟨c₀, ordering, made.2⟩ Sample.calls).call crypto
      (.waitConfirmed 1)).1) = .ok (.ok (.waited .confirmed)) := by
    decide +kernel
  rcases hmade : made with ⟨err | c₀, p₀⟩
  · rw [hmade] at hans
    cases hans
  · rw [hmade] at hans
    have hsafety := primary_safety hsound hmade Sample.calls (.waitConfirmed 1)
    obtain ⟨-, -, hacked⟩ := hsafety.1 1 rfl (Except.ok.inj hans)
    exact ⟨c₀, rfl, hacked.resolve_left (by decide)⟩

end Primary

end Replication

end Halro
