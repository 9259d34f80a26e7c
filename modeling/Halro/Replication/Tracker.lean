import Halro.Framework.FinMap
import Halro.Replication.Receiver
import Mathlib.Order.Interval.Finset.Nat

/-!
# The confirmation tracker (`internal/replication/ack.go`)

The tracker of a Primary counts which indexes of its term its peers have acknowledged.  One peer is
enough: with two configured peers that is a majority of three members, with one it is both members.
An acknowledgement of an index covers every index before it, so between two calls nothing that is
still pending has been acknowledged (`Clean`), and an accepted acknowledgement moves the confirmed
index to its own (`acknowledge_cases`).
-/

namespace Halro

open Framework

namespace Replication

structure PendingConfirmation where
  kind : Kind
  acks : Finset Bytes := ∅
  deriving DecidableEq

structure ConfirmationTracker where
  clusterID : Bytes
  incarnation : Bytes
  term : ℕ
  peers : List Bytes
  confirmed : ℕ
  lastRegistered : ℕ
  /-- The index of the leadership anchor of the term, or zero when it has none yet. -/
  anchorIndex : ℕ := 0
  pending : FinMap ℕ PendingConfirmation := ∅

inductive TrackerError
  | construction
  | peerCount
  | peer
  | duplicatePeer
  | established
  | frame (error : FrameError)
  | identity
  | index (found last : ℕ)
  | missingAnchor
  | secondAnchor
  | acknowledgement (error : AckError)
  | tenure
  | unconfiguredPeer
  | future
  | unregistered
  deriving DecidableEq

def TrackerError.message : TrackerError → String
  | .construction => "confirmation tracker identity or term is invalid"
  | .peerCount => "confirmation tracker requires one or two peers"
  | .peer => "confirmation tracker peer is invalid"
  | .duplicatePeer => "confirmation tracker peer is duplicated"
  | .established => "an established term requires a confirmed leadership anchor"
  | .frame err => err.message
  | .identity => "registered frame identity or term does not match the confirmation tracker"
  | .index found last => "registered frame index " ++ toString found ++ " does not continue " ++
      toString last
  | .missingAnchor => "the first frame in a term must establish leadership"
  | .secondAnchor => "a term cannot contain a second leadership anchor"
  | .acknowledgement err => err.message
  | .tenure => "acknowledgement identity or term does not match the active tenure"
  | .unconfiguredPeer => "acknowledgement came from an unconfigured peer"
  | .future => "acknowledgement refers to an unknown future index"
  | .unregistered => "acknowledgement crosses an unregistered index"

namespace ConfirmationTracker

/-- The checks of the configured peers, each against those before it. -/
def validatePeers : List Bytes → List Bytes → Except TrackerError Unit
  | _, [] => .ok ()
  | seen, peer :: rest =>
    if ¬ ValidIdentity peer then .error .peer
    else if peer ∈ seen then .error .duplicatePeer
    else validatePeers (peer :: seen) rest

def new (clusterID incarnation : Bytes) (term confirmed : ℕ) (peers : List Bytes)
    (termEstablished : Bool) : Except TrackerError ConfirmationTracker :=
  if ¬ ValidIdentity clusterID ∨ ¬ ValidIdentity incarnation ∨ term = 0 then .error .construction
  else if peers.length < 1 ∨ peers.length > 2 then .error .peerCount
  else
    match validatePeers [] peers with
    | .error err => .error err
    | .ok _ =>
      if termEstablished ∧ confirmed = 0 then .error .established
      else .ok
        { clusterID := clusterID
          incarnation := incarnation
          term := term
          peers := peers
          confirmed := confirmed
          lastRegistered := confirmed
          anchorIndex := if termEstablished then confirmed else 0 }

def register (t : ConfirmationTracker) (f : Frame) : Except TrackerError ConfirmationTracker :=
  match f.validate with
  | .error err => .error (.frame err)
  | .ok _ =>
    if f.clusterID ≠ t.clusterID ∨ f.incarnation ≠ t.incarnation ∨ f.term ≠ t.term then
      .error .identity
    else if f.index ≠ t.lastRegistered + 1 then .error (.index f.index t.lastRegistered)
    else if t.anchorIndex = 0 ∧ f.kind ≠ .leadershipEstablished then .error .missingAnchor
    else if t.anchorIndex ≠ 0 ∧ f.kind = .leadershipEstablished then .error .secondAnchor
    else .ok
      { t with
        anchorIndex := if t.anchorIndex = 0 then f.index else t.anchorIndex
        pending := t.pending.insert f.index ⟨f.kind, ∅⟩
        lastRegistered := f.index }

/-- The peer has the listed indexes; the first that is not registered stops it. -/
def mark (t : ConfirmationTracker) (nodeID : Bytes) :
    List ℕ → Except TrackerError Unit × ConfirmationTracker
  | [] => (.ok (), t)
  | index :: rest =>
    match t.pending.lookup index with
    | none => (.error .unregistered, t)
    | some p =>
      mark { t with pending := t.pending.insert index { p with acks := insert nodeID p.acks } }
        nodeID rest

/-- Confirming the next index while it is acknowledged.  The first index confirmed in a term is its
anchor.  Every round takes an entry away, so as many rounds as there are entries are enough. -/
def advance : ℕ → ConfirmationTracker → ConfirmationTracker
  | 0, t => t
  | rounds + 1, t =>
    match t.pending.lookup (t.confirmed + 1) with
    | none => t
    | some next =>
      if next.acks = ∅ then t
      else if t.confirmed < t.anchorIndex ∧ t.confirmed + 1 ≠ t.anchorIndex then t
      else advance rounds
        { t with pending := t.pending.erase (t.confirmed + 1), confirmed := t.confirmed + 1 }

/-- An acknowledgement: the greatest confirmed index after it. -/
def acknowledge (t : ConfirmationTracker) (ack : Acknowledgement) :
    Except TrackerError ℕ × ConfirmationTracker :=
  match ack.validate with
  | .error err => (.error (.acknowledgement err), t)
  | .ok _ =>
    if ack.clusterID ≠ t.clusterID ∨ ack.incarnation ≠ t.incarnation ∨ ack.term ≠ t.term then
      (.error .tenure, t)
    else if ack.nodeID ∉ t.peers then (.error .unconfiguredPeer, t)
    else if ack.index ≤ t.confirmed then (.ok t.confirmed, t)
    else if ack.index > t.lastRegistered then (.error .future, t)
    else
      match t.mark ack.nodeID (List.range' (t.confirmed + 1) (ack.index - t.confirmed)) with
      | (.error err, t) => (.error err, t)
      | (.ok _, t) =>
        let t := t.advance t.pending.size
        (.ok t.confirmed, t)

/-! ## Between two calls -/

/-- A tracker between two calls: the registered indexes above the confirmed one are pending and none
of them is acknowledged, and the anchor of the term, once registered, is at most the next index. -/
structure Clean (t : ConfirmationTracker) : Prop where
  registered : t.confirmed ≤ t.lastRegistered
  pending : ∀ i, t.confirmed < i → i ≤ t.lastRegistered →
    ∃ p, t.pending.lookup i = some p ∧ p.acks = ∅
  nothing : ∀ i, (i ≤ t.confirmed ∨ t.lastRegistered < i) → t.pending.lookup i = none
  anchor : t.anchorIndex ≤ t.confirmed + 1
  anchored : t.anchorIndex = 0 → t.lastRegistered = t.confirmed

variable {t : ConfirmationTracker}

lemma new_clean {clusterID incarnation : Bytes} {term confirmed : ℕ} {peers : List Bytes}
    {established : Bool} (h : new clusterID incarnation term confirmed peers established = .ok t) :
    t.Clean ∧ t.term = term ∧ t.peers = peers ∧ t.confirmed = confirmed ∧
      t.lastRegistered = confirmed ∧ t.clusterID = clusterID ∧ t.incarnation = incarnation ∧
      t.anchorIndex = if established then confirmed else 0 := by
  simp only [new, guard_eq_ok] at h
  obtain ⟨-, -, h⟩ := h
  split at h
  · cases h
  obtain ⟨-, h⟩ := guard_eq_ok.mp h
  cases h
  refine ⟨⟨le_rfl, ?_, ?_, ?_, ?_⟩, rfl, rfl, rfl, rfl, rfl, rfl, rfl⟩
  · intro i hlt hle
    exact absurd hle (not_le.mpr hlt)
  · intro i _
    exact Finmap.lookup_empty i
  · show (if established = true then confirmed else 0) ≤ confirmed + 1
    split_ifs <;> omega
  · intro _
    rfl

/-- What registering a frame does. -/
structure Registered (t : ConfirmationTracker) (f : Frame) (t' : ConfirmationTracker) : Prop where
  next : f.index = t.lastRegistered + 1
  valid : f.validate = .ok ()
  anchor : t.anchorIndex = 0 ↔ f.kind = .leadershipEstablished
  eq : t' = { t with
    anchorIndex := if t.anchorIndex = 0 then f.index else t.anchorIndex
    pending := t.pending.insert f.index ⟨f.kind, ∅⟩
    lastRegistered := f.index }

lemma register_ok {t' : ConfirmationTracker} {f : Frame} (h : t.register f = .ok t') :
    Registered t f t' := by
  simp only [register] at h
  split at h
  · cases h
  rename_i hvalid
  simp only [guard_eq_ok] at h
  obtain ⟨-, hindex, hmiss, hsecond, h⟩ := h
  refine ⟨not_not.mp hindex, hvalid, ?_, (Except.ok.inj h).symm⟩
  constructor
  · intro hzero
    by_contra hkind
    exact hmiss ⟨hzero, hkind⟩
  · intro hkind
    by_contra hzero
    exact hsecond ⟨hzero, hkind⟩

lemma Registered.clean {t' : ConfirmationTracker} {f : Frame} (h : Registered t f t')
    (hclean : t.Clean) : t'.Clean := by
  obtain ⟨hnext, -, -, rfl⟩ := h
  have hregd := hclean.registered
  refine ⟨?_, ?_, ?_, ?_, ?_⟩
  · show t.confirmed ≤ f.index
    omega
  · intro i hlt hle
    rw [FinMap.lookup_insert_ite]
    split_ifs with hi
    · exact ⟨_, rfl, rfl⟩
    · have hle : i ≤ f.index := hle
      exact hclean.pending i hlt (by omega)
  · intro i hi
    have hi : i ≤ t.confirmed ∨ f.index < i := hi
    rw [FinMap.lookup_insert_ite, if_neg (by omega)]
    exact hclean.nothing i (by omega)
  · show (if t.anchorIndex = 0 then f.index else t.anchorIndex) ≤ t.confirmed + 1
    split_ifs with hzero
    · have hsame := hclean.anchored hzero
      omega
    · exact hclean.anchor
  · intro hzero
    have hzero : (if t.anchorIndex = 0 then f.index else t.anchorIndex) = 0 := hzero
    split_ifs at hzero with hanc
    · omega
    · exact absurd hzero hanc

/-! ## Acknowledgements -/

/-- A peer that has registered indexes is entered at each of them. -/
lemma mark_ok (nodeID : Bytes) {l : List ℕ} (hl : ∀ i ∈ l, ∃ p, t.pending.lookup i = some p) :
    ∃ marked, t.mark nodeID l = (.ok (), { t with pending := marked }) ∧
      ∀ i, marked.lookup i = (t.pending.lookup i).map fun p =>
        if i ∈ l then { p with acks := insert nodeID p.acks } else p := by
  induction l generalizing t with
  | nil => exact ⟨t.pending, rfl, fun i => by simp⟩
  | cons index rest ih =>
    obtain ⟨p, hp⟩ := hl index List.mem_cons_self
    set entered := t.pending.insert index { p with acks := insert nodeID p.acks } with hent
    have hrest : ∀ i ∈ rest, ∃ q, entered.lookup i = some q := by
      intro i hi
      rw [FinMap.lookup_insert_ite]
      split_ifs
      · exact ⟨_, rfl⟩
      · exact hl i (List.mem_cons_of_mem _ hi)
    obtain ⟨marked, hmark, hlook⟩ := ih (t := { t with pending := entered }) hrest
    refine ⟨marked, ?_, ?_⟩
    · simp only [mark, hp]
      exact hmark
    · intro i
      rw [hlook i]
      rw [FinMap.lookup_insert_ite]
      by_cases hi : i = index
      · subst hi
        simp [hp]
      · simp [hi]

/-- The tracker after the indexes up to one are confirmed. -/
structure Advanced (t : ConfirmationTracker) (target : ℕ) (t' : ConfirmationTracker) : Prop where
  lookup : ∀ i, t'.pending.lookup i = if i ≤ target then none else t.pending.lookup i
  eq : t' = { t with confirmed := target, pending := t'.pending }

/-- Confirming runs through the acknowledged indexes and stops after them. -/
lemma advance_spec {rounds target : ℕ} (hle : t.confirmed ≤ target)
    (hrounds : target - t.confirmed ≤ rounds) (hanc : t.anchorIndex ≤ t.confirmed + 1)
    (hbelow : ∀ i ≤ t.confirmed, t.pending.lookup i = none)
    (hmarked : ∀ i, t.confirmed < i → i ≤ target → ∃ p, t.pending.lookup i = some p ∧ p.acks ≠ ∅)
    (hrest : ∀ p, t.pending.lookup (target + 1) = some p → p.acks = ∅) :
    Advanced t target (t.advance rounds) := by
  induction rounds generalizing t with
  | zero =>
    have hsame : t.confirmed = target := by omega
    subst hsame
    refine ⟨fun i => ?_, rfl⟩
    split_ifs with hi
    · exact hbelow i hi
    · rfl
  | succ rounds ih =>
    rcases hle.lt_or_eq with hlt | hsame
    · obtain ⟨p, hp, hacks⟩ := hmarked (t.confirmed + 1) (Nat.lt_succ_self _) hlt
      have hblk : ¬ (t.confirmed < t.anchorIndex ∧ t.confirmed + 1 ≠ t.anchorIndex) := by omega
      simp only [advance, hp, if_neg hacks, if_neg hblk]
      set taken : ConfirmationTracker :=
        { t with pending := t.pending.erase (t.confirmed + 1), confirmed := t.confirmed + 1 }
        with htaken
      have hlook : ∀ i, taken.pending.lookup i =
          if i = t.confirmed + 1 then none else t.pending.lookup i := by
        intro i
        exact FinMap.lookup_erase_ite t.pending (t.confirmed + 1) i
      have hconf : taken.confirmed = t.confirmed + 1 := rfl
      have hadvd : Advanced taken target (taken.advance rounds) := by
        refine ih hlt (by omega) ?_ ?_ ?_ ?_
        · show t.anchorIndex ≤ t.confirmed + 1 + 1
          omega
        · intro i hi
          rw [hlook]
          split_ifs with heq
          · rfl
          · exact hbelow i (by omega)
        · intro i hlt' hle'
          rw [hlook, if_neg (by omega)]
          exact hmarked i (by omega) hle'
        · intro q hq
          rw [hlook, if_neg (by omega)] at hq
          exact hrest q hq
      refine ⟨fun i => ?_, hadvd.eq⟩
      rw [hadvd.lookup i]
      split_ifs with hi
      · rfl
      · rw [hlook, if_neg (by omega)]
    · subst hsame
      have hstop : t.advance (rounds + 1) = t := by
        simp only [advance]
        rcases hp : t.pending.lookup (t.confirmed + 1) with _ | p
        · rfl
        · simp [hrest p hp]
      rw [hstop]
      refine ⟨fun i => ?_, rfl⟩
      split_ifs with hi
      · exact hbelow i hi
      · rfl

/-- An acknowledgement of the tenure from a configured peer. -/
structure OfPeer (t : ConfirmationTracker) (ack : Acknowledgement) : Prop where
  valid : ack.validate = .ok ()
  term : ack.term = t.term
  peer : ack.nodeID ∈ t.peers

/-- What an acknowledgement does to a tracker between two calls. -/
inductive Acknowledged (t : ConfirmationTracker) (ack : Acknowledgement) :
    Except TrackerError ℕ × ConfirmationTracker → Prop
  | refused (err : TrackerError) : Acknowledged t ack (.error err, t)
  | known (peer : OfPeer t ack) (confirmed : ack.index ≤ t.confirmed) :
      Acknowledged t ack (.ok t.confirmed, t)
  | advanced {t' : ConfirmationTracker} (peer : OfPeer t ack) (above : t.confirmed < ack.index)
      (registered : ack.index ≤ t.lastRegistered) (clean : t'.Clean)
      (eq : t' = { t with confirmed := ack.index, pending := t'.pending }) :
      Acknowledged t ack (.ok ack.index, t')

lemma acknowledge_advances {ack : Acknowledgement} (hclean : t.Clean)
    (habove : t.confirmed < ack.index) (hregd : ack.index ≤ t.lastRegistered) :
    ∃ marked t', t.mark ack.nodeID (List.range' (t.confirmed + 1) (ack.index - t.confirmed)) =
        (.ok (), marked) ∧ marked.advance marked.pending.size = t' ∧ t'.Clean ∧
      t' = { t with confirmed := ack.index, pending := t'.pending } := by
  have hmem : ∀ {i}, i ∈ List.range' (t.confirmed + 1) (ack.index - t.confirmed) ↔
      t.confirmed < i ∧ i ≤ ack.index := by
    intro i
    rw [List.mem_range'_1]
    omega
  obtain ⟨marked, hmark, hlook⟩ := mark_ok ack.nodeID (by
    intro i hi
    obtain ⟨hlt, hle⟩ := hmem.mp hi
    obtain ⟨p, hp, -⟩ := hclean.pending i hlt (hle.trans hregd)
    exact ⟨p, hp⟩)
  have hmarked : ∀ i, t.confirmed < i → i ≤ ack.index →
      ∃ p, marked.lookup i = some p ∧ p.acks ≠ ∅ := by
    intro i hlt hle
    obtain ⟨p, hp, -⟩ := hclean.pending i hlt (hle.trans hregd)
    refine ⟨{ p with acks := insert ack.nodeID p.acks }, ?_, Finset.insert_ne_empty _ _⟩
    rw [hlook i, hp, Option.map_some, if_pos (hmem.mpr ⟨hlt, hle⟩)]
  have hother : ∀ i, ack.index < i → marked.lookup i = t.pending.lookup i := by
    intro i hi
    have hnot : i ∉ List.range' (t.confirmed + 1) (ack.index - t.confirmed) := by
      intro h
      exact absurd (hmem.mp h).2 (not_le.mpr hi)
    rw [hlook i]
    cases t.pending.lookup i <;> simp [hnot]
  -- There is a round for each index to confirm.
  have hrounds : ack.index - t.confirmed ≤ marked.size := by
    rw [← Nat.card_Ioc]
    refine Finset.card_le_card fun i hi => ?_
    obtain ⟨hlt, hle⟩ := Finset.mem_Ioc.mp hi
    obtain ⟨p, hp, -⟩ := hmarked i hlt hle
    rw [Finmap.mem_keys, ← Finmap.lookup_isSome, hp]
    rfl
  have hadvd : Advanced { t with pending := marked } ack.index
      (({ t with pending := marked } : ConfirmationTracker).advance marked.size) :=
    advance_spec habove.le hrounds hclean.anchor (by
      intro i hi
      rw [hlook i, hclean.nothing i (.inl hi)]
      rfl) hmarked (by
      intro p hp
      rw [hother _ (Nat.lt_succ_self _)] at hp
      rcases Nat.lt_or_ge t.lastRegistered (ack.index + 1) with hlast | hlast
      · rw [hclean.nothing _ (.inr hlast)] at hp
        cases hp
      · obtain ⟨q, hq, hacks⟩ := hclean.pending (ack.index + 1) (by omega) hlast
        rw [hq] at hp
        cases hp
        exact hacks)
  refine ⟨_, _, hmark, rfl, ?_, hadvd.eq⟩
  rw [hadvd.eq]
  refine ⟨hregd, ?_, ?_, ?_, ?_⟩
  · intro i hlt hle
    have hlt : ack.index < i := hlt
    obtain ⟨p, hp, hacks⟩ := hclean.pending i (by omega) hle
    refine ⟨p, ?_, hacks⟩
    refine (hadvd.lookup i).trans ?_
    rw [if_neg (not_le.mpr hlt)]
    exact (hother i hlt).trans hp
  · intro i hi
    refine (hadvd.lookup i).trans ?_
    have hi : i ≤ ack.index ∨ t.lastRegistered < i := hi
    split_ifs with hle
    · rfl
    · exact (hother i (by omega)).trans (hclean.nothing i (by omega))
  · show t.anchorIndex ≤ ack.index + 1
    have hanc := hclean.anchor
    omega
  · intro hzero
    have hsame := hclean.anchored hzero
    omega

/-- **An acknowledgement is refused, or known, or moves the confirmed index to its own.** -/
lemma acknowledge_cases (hclean : t.Clean) (ack : Acknowledgement) :
    Acknowledged t ack (t.acknowledge ack) := by
  simp only [acknowledge]
  split
  · exact .refused _
  rename_i hvalid
  have hterm (hten : ¬ (ack.clusterID ≠ t.clusterID ∨ ack.incarnation ≠ t.incarnation ∨
      ack.term ≠ t.term)) : ack.term = t.term := by
    simp only [not_or, not_not] at hten
    exact hten.2.2
  split_ifs with hten hpeer hknown hfuture
  · exact .refused _
  · exact .known ⟨hvalid, hterm hten, hpeer⟩ hknown
  · exact .refused _
  · obtain ⟨marked, t', hmark, hadv, hclean', heq⟩ :=
      acknowledge_advances hclean (not_le.mp hknown) (not_lt.mp hfuture)
    simp only [hmark, hadv]
    rw [show t'.confirmed = ack.index by rw [heq]]
    exact .advanced ⟨hvalid, hterm hten, hpeer⟩ (not_le.mp hknown) (not_lt.mp hfuture) hclean' heq
  · exact .refused _

end ConfirmationTracker

end Replication

end Halro
