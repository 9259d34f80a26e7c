import Halro.Replication.Ordering

/-!
# Member state (`internal/replication/state.go`)

The authenticated state file of a member: its identity, its role and terms, how far it has durably
received, confirmed and applied the global order, and the peers it was configured with.  The JSON
text of the file and its message authentication code are not modelled: a file holds a state.
-/

namespace Halro

open Framework

namespace Replication

inductive Role
  | primary
  | replica
  | awaitingDecision
  deriving DecidableEq

structure StatePeer where
  name : Bytes
  address : Bytes
  spkiSHA256 : Bytes
  deriving DecidableEq

structure ProjectionState where
  index : ℕ := 0
  metadataEpoch : ℕ := 0
  metadataSequence : ℕ := 0
  deriving DecidableEq

/-- The metadata position of a projection is not behind that of another. -/
def ProjectionState.NotBehind (new old : ProjectionState) : Prop :=
  ¬ (new.metadataEpoch < old.metadataEpoch ∨
    new.metadataEpoch = old.metadataEpoch ∧ new.metadataSequence < old.metadataSequence)

instance (new old : ProjectionState) : Decidable (new.NotBehind old) :=
  inferInstanceAs (Decidable (¬ (_ ∨ _)))

structure TransitionCursor where
  journalID : Bytes := []
  sequence : ℕ := 0
  digest : Digest := .zero
  deriving DecidableEq

/-- The two versions of the state file; the second carries a transition cursor. -/
inductive StateVersion
  | plain
  | transition
  deriving DecidableEq

structure MemberState where
  version : StateVersion
  clusterID : Bytes
  incarnation : Bytes
  nodeID : Bytes
  role : Role
  term : ℕ
  promisedTerm : ℕ
  durableIndex : ℕ := 0
  confirmedIndex : ℕ := 0
  appliedIndex : ℕ := 0
  orderingHeadMAC : Digest := .zero
  projection : ProjectionState := {}
  peers : List StatePeer
  transition : TransitionCursor := {}
  deriving DecidableEq

inductive StateError
  | plainCursor
  | transitionCursor
  | identity
  | positiveTerm
  | promisedTerm
  | confirmedIndex
  | appliedIndex
  | projectionIndex
  | missingHead
  | unexpectedHead
  | peerCount
  | peer
  | peerName
  | peerAddress
  | peerPin
  deriving DecidableEq

def StateError.message : StateError → String
  | .plainCursor => "version-2 member state cannot carry a transition cursor"
  | .transitionCursor =>
      "version-3 member state requires a transition journal identity and digest"
  | .identity => "member-state identities must be 1-64 bytes"
  | .positiveTerm => "primary or replica member-state requires a positive term"
  | .promisedTerm => "member-state promised_term cannot be lower than term"
  | .confirmedIndex => "member-state confirmed_index cannot exceed durable_index"
  | .appliedIndex => "member-state applied_index cannot exceed confirmed_index"
  | .projectionIndex => "member-state projection index cannot exceed applied_index"
  | .missingHead => "member-state with a durable index requires an ordering head MAC"
  | .unexpectedHead => "member-state without a durable index cannot name an ordering head MAC"
  | .peerCount => "member-state must snapshot one or two peers"
  | .peer => "member-state peer identity, address or SPKI pin is invalid"
  | .peerName => "member-state peer name is duplicated"
  | .peerAddress => "member-state peer address is duplicated"
  | .peerPin => "member-state peer SPKI pin is duplicated"

/-- A lower-case hexadecimal digit. -/
def isHexByte (b : UInt8) : Bool := (48 ≤ b && b ≤ 57) || (97 ≤ b && b ≤ 102)

/-- A transition journal identity: 32 lower-case hexadecimal digits. -/
def ValidJournalID (id : Bytes) : Prop := id.length = 32 ∧ id.all isHexByte

instance (id : Bytes) : Decidable (ValidJournalID id) := inferInstanceAs (Decidable (_ ∧ _))

/-- A key pin: `sha256:` and 64 lower-case hexadecimal digits. -/
def ValidStatePin (pin : Bytes) : Prop :=
  pin.length = 71 ∧ pin.take 7 = [115, 104, 97, 50, 53, 54, 58] ∧ (pin.drop 7).all isHexByte

instance (pin : Bytes) : Decidable (ValidStatePin pin) := inferInstanceAs (Decidable (_ ∧ _))

def validatePeers (nodeID : Bytes) : List StatePeer → List StatePeer → Except StateError Unit
  | _, [] => .ok ()
  | seen, p :: ps =>
    if ¬ ValidIdentity p.name ∨ p.name = nodeID ∨ p.address = [] ∨ ¬ ValidStatePin p.spkiSHA256 then
      .error .peer
    else if p.name ∈ seen.map (·.name) then .error .peerName
    else if p.address ∈ seen.map (·.address) then .error .peerAddress
    else if p.spkiSHA256 ∈ seen.map (·.spkiSHA256) then .error .peerPin
    else validatePeers nodeID (p :: seen) ps

def MemberState.validate (s : MemberState) : Except StateError Unit :=
  if s.version = .plain ∧ s.transition ≠ {} then .error .plainCursor
  else if s.version = .transition ∧
      (¬ ValidJournalID s.transition.journalID ∨ s.transition.digest = .zero) then
    .error .transitionCursor
  else if ¬ ValidIdentity s.clusterID ∨ ¬ ValidIdentity s.incarnation ∨ ¬ ValidIdentity s.nodeID then
    .error .identity
  else if s.role ≠ .awaitingDecision ∧ s.term = 0 then .error .positiveTerm
  else if s.promisedTerm < s.term then .error .promisedTerm
  else if s.confirmedIndex > s.durableIndex then .error .confirmedIndex
  else if s.appliedIndex > s.confirmedIndex then .error .appliedIndex
  else if s.projection.index > s.appliedIndex then .error .projectionIndex
  else if s.durableIndex > 0 ∧ s.orderingHeadMAC = .zero then .error .missingHead
  else if s.durableIndex = 0 ∧ s.orderingHeadMAC ≠ .zero then .error .unexpectedHead
  else if s.peers.length < 1 ∨ s.peers.length > 2 then .error .peerCount
  else validatePeers s.nodeID [] s.peers

end Replication

end Halro
