import Halro.Framework.Bytes
import Halro.Framework.Outcome

/-!
# Replication frames (`internal/replication/frame.go`)

A frame is one physical record of the replication protocol.  This module holds its fields, the
checks every frame passes, the metadata of the control frames, and the version-1 encoding with its
embedded digest.  The hash function is a parameter: what the protocol gets from it is that two
frames with the same digest are the same bytes, as long as the hash does not collide on them
(`eq_of_digest_eq`).
-/

namespace Halro

open Framework

namespace Replication

/-! ## Digests -/

/-- A SHA-256 value. -/
abbrev Digest := Vector UInt8 32

/-- The zero value of a digest. -/
def Digest.zero : Digest := Vector.replicate 32 0

/-- A digest copied out of a byte string. -/
def Digest.ofBytes (b : Bytes) : Digest := Vector.ofFn fun i => b.getD i 0

@[simp] lemma Digest.ofBytes_toList (d : Digest) : Digest.ofBytes d.toList = d := by
  simp [Digest.ofBytes]

/-! ## Fields -/

def maxIdentityBytes : ℕ := 64
def maxMetadataBytes : ℕ := 4096
def maxPayloadBytes : ℕ := 16777216
def protocolVersion : ℕ := 1

/-- The kind of a frame; a kind this version does not know keeps its code. -/
inductive Kind
  | data
  | ledgerRoll
  | leadershipEstablished
  | schemaBoundary
  | providerObject
  | unknown (code : ℕ)
  deriving DecidableEq

def Kind.ofCode : ℕ → Kind
  | 1 => .data
  | 2 => .ledgerRoll
  | 3 => .leadershipEstablished
  | 4 => .schemaBoundary
  | 5 => .providerObject
  | code => .unknown code

def Kind.code : Kind → ℕ
  | .data => 1
  | .ledgerRoll => 2
  | .leadershipEstablished => 3
  | .schemaBoundary => 4
  | .providerObject => 5
  | .unknown code => code

inductive Store
  | none
  | ledger
  | audit
  | governance
  | metadata
  | unknown (code : ℕ)
  deriving DecidableEq

def Store.ofCode : ℕ → Store
  | 0 => .none
  | 1 => .ledger
  | 2 => .audit
  | 3 => .governance
  | 4 => .metadata
  | code => .unknown code

def Store.code : Store → ℕ
  | .none => 0
  | .ledger => 1
  | .audit => 2
  | .governance => 3
  | .metadata => 4
  | .unknown code => code

/-- One of the four stores whose bytes a data frame carries. -/
def Store.isNative : Store → Bool
  | .ledger | .audit | .governance | .metadata => true
  | _ => false

/-- A store that never changes its generation. -/
def Store.isSingle : Store → Bool
  | .audit | .governance => true
  | _ => false

structure Frame where
  kind : Kind
  store : Store := .none
  index : ℕ := 0
  term : ℕ := 0
  confirmedIndex : ℕ := 0
  storeGeneration : ℕ := 0
  storeSequenceFirst : ℕ := 0
  storeSequenceLast : ℕ := 0
  clusterID : Bytes := []
  incarnation : Bytes := []
  metadata : Bytes := []
  payload : Bytes := []
  deriving DecidableEq

/-- A control frame names no store and no range of one. -/
def Frame.Storeless (f : Frame) : Prop :=
  f.store = .none ∧ f.storeGeneration = 0 ∧ f.storeSequenceFirst = 0 ∧ f.storeSequenceLast = 0

instance (f : Frame) : Decidable f.Storeless := inferInstanceAs (Decidable (_ ∧ _))

/-! ## Errors -/

inductive FrameError
  | position
  | confirmedIndex
  | identities
  | metadataSize
  | payloadSize
  | dataStore
  | dataShape
  | dataSequence
  | storeGeneration
  | ledgerRollShape
  | leadershipShape
  | schemaBoundaryShape
  | providerObjectShape
  | providerObjectPayload
  | providerObjectFinal
  | unknownKind (code : ℕ)
  | ledgerRollLength
  | ledgerRollMetadata
  | schemaBoundaryLength
  | schemaBoundaryMetadata
  | providerObjectTruncated
  | providerObjectLength
  | providerObjectMarker
  | providerObjectName
  | providerObjectRange
  | providerObjectEmpty
  | short
  | declared (length declared : ℕ)
  | bound
  | magic
  | version (version : ℕ)
  | reserved
  | fieldLength
  | fieldSum
  | digest
  deriving DecidableEq

def FrameError.message : FrameError → String
  | .position => "replication frame index and term must be positive"
  | .confirmedIndex => "replication frame confirmed index must precede its own index"
  | .identities => "replication frame identities must be 1-64 bytes"
  | .metadataSize => "replication frame metadata exceeds 4096 bytes"
  | .payloadSize => "replication frame payload exceeds 16777216 bytes"
  | .dataStore => "data replication frame has an invalid store"
  | .dataShape => "data replication frame requires payload and forbids metadata"
  | .dataSequence => "data replication frame has an invalid store generation or sequence range"
  | .storeGeneration => "audit and governance frames must use store generation 1"
  | .ledgerRollShape => "ledger-roll frame has an invalid shape"
  | .leadershipShape => "leadership-established frame has an invalid shape"
  | .schemaBoundaryShape => "schema-boundary frame has an invalid shape"
  | .providerObjectShape => "provider-object frame has an invalid store shape"
  | .providerObjectPayload => "provider-object frame payload does not match its chunk metadata"
  | .providerObjectFinal => "provider-object final marker does not match its total length"
  | .unknownKind code => "unknown replication frame kind " ++ toString code
  | .ledgerRollLength => "ledger-roll metadata length is invalid"
  | .ledgerRollMetadata => "ledger-roll metadata has invalid generation, sequence, length or epoch"
  | .schemaBoundaryLength => "schema-boundary metadata length is invalid"
  | .schemaBoundaryMetadata => "schema boundary must advance exactly one version"
  | .providerObjectTruncated => "provider-object metadata is truncated"
  | .providerObjectLength => "provider-object metadata length is not canonical"
  | .providerObjectMarker => "provider-object final marker is invalid"
  | .providerObjectName => "provider-object name is not a safe basename"
  | .providerObjectRange => "provider-object chunk range is invalid"
  | .providerObjectEmpty => "provider-object non-empty files require non-empty chunks"
  | .short => "replication frame is shorter than its fixed header"
  | .declared actual stated => "replication frame length is " ++ toString actual ++
      ", declared " ++ toString stated
  | .bound => "replication frame exceeds the version-1 size bound"
  | .magic => "replication frame magic is invalid"
  | .version found => "unsupported replication frame version " ++ toString found
  | .reserved => "replication frame reserved field is non-zero"
  | .fieldLength => "replication frame declares an excessive field length"
  | .fieldSum => "replication frame field lengths do not consume the record"
  | .digest => "replication frame digest mismatch"

/-! ## Metadata of control frames -/

/-- The signed reading of an unsigned 64-bit number. -/
def int64 (n : ℕ) : ℤ := if n < 2 ^ 63 then n else (n : ℤ) - 2 ^ 64

/-- The unsigned reading of a signed 64-bit number. -/
def uint64 (z : ℤ) : ℕ := (z % 2 ^ 64).toNat

structure LedgerRollMetadata where
  generation : ℕ
  firstSequence : ℕ
  lastSequence : ℕ
  length : ℕ
  endEpoch : ℕ
  startHash : Digest := .zero
  endHash : Digest := .zero
  plainChecksum : Digest := .zero
  sealedAtUnix : ℤ := 0
  deriving DecidableEq

def ledgerRollMetadataBytes : ℕ := 144

def LedgerRollMetadata.marshalBinary (m : LedgerRollMetadata) : Except FrameError Bytes :=
  if m.generation = 0 ∨ m.generation = 2 ^ 64 - 1 ∨ m.firstSequence = 0 ∨
      m.lastSequence < m.firstSequence ∨ m.length = 0 ∨ m.endEpoch = 0 then
    .error .ledgerRollMetadata
  else
    .ok (List.flatten [bigEndian 8 m.generation, bigEndian 8 m.firstSequence,
      bigEndian 8 m.lastSequence, bigEndian 8 m.length, bigEndian 8 m.endEpoch,
      m.startHash.toList, m.endHash.toList, m.plainChecksum.toList,
      bigEndian 8 (uint64 m.sealedAtUnix)])

def decodeLedgerRollMetadata (encoded : Bytes) : Except FrameError LedgerRollMetadata :=
  if encoded.length ≠ ledgerRollMetadataBytes then .error .ledgerRollLength
  else
    let m : LedgerRollMetadata :=
      { generation := uint (slice encoded 0 8)
        firstSequence := uint (slice encoded 8 8)
        lastSequence := uint (slice encoded 16 8)
        length := uint (slice encoded 24 8)
        endEpoch := uint (slice encoded 32 8)
        startHash := Digest.ofBytes (slice encoded 40 32)
        endHash := Digest.ofBytes (slice encoded 72 32)
        plainChecksum := Digest.ofBytes (slice encoded 104 32)
        sealedAtUnix := int64 (uint (slice encoded 136 8)) }
    m.marshalBinary.map fun _ => m

structure SchemaBoundaryMetadata where
  fromVersion : ℕ
  toVersion : ℕ
  deriving DecidableEq

def schemaBoundaryMetadataBytes : ℕ := 8

def SchemaBoundaryMetadata.marshalBinary (m : SchemaBoundaryMetadata) : Except FrameError Bytes :=
  -- The successor is taken in 32 bits.
  if m.fromVersion = 0 ∨ m.toVersion ≠ (m.fromVersion + 1) % 2 ^ 32 then
    .error .schemaBoundaryMetadata
  else .ok (bigEndian 4 m.fromVersion ++ bigEndian 4 m.toVersion)

def decodeSchemaBoundaryMetadata (encoded : Bytes) : Except FrameError SchemaBoundaryMetadata :=
  if encoded.length ≠ schemaBoundaryMetadataBytes then .error .schemaBoundaryLength
  else
    let m : SchemaBoundaryMetadata :=
      { fromVersion := uint (slice encoded 0 4), toVersion := uint (slice encoded 4 4) }
    m.marshalBinary.map fun _ => m

structure ProviderObjectMetadata where
  name : Bytes
  offset : ℕ
  chunkLength : ℕ
  totalLength : ℕ
  digest : Digest
  final : Bool
  deriving DecidableEq

/-- Where the chunk ends, in the 64 bits of the source. -/
def ProviderObjectMetadata.chunkEnd (m : ProviderObjectMetadata) : ℕ :=
  (m.offset + m.chunkLength) % 2 ^ 64

/-- A basename: not empty, not a directory reference, without separators. -/
def SafeName (name : Bytes) : Prop :=
  name ≠ [] ∧ name.length ≤ maxIdentityBytes ∧ name ≠ [46] ∧ name ≠ [46, 46] ∧
    47 ∉ name ∧ 92 ∉ name ∧ 0 ∉ name

instance (name : Bytes) : Decidable (SafeName name) := inferInstanceAs (Decidable (_ ∧ _))

def ProviderObjectMetadata.validate (m : ProviderObjectMetadata) : Except FrameError Unit :=
  if ¬ SafeName m.name then .error .providerObjectName
  else if m.offset > m.totalLength ∨ m.chunkLength > maxPayloadBytes ∨ m.chunkEnd < m.offset ∨
      m.chunkEnd > m.totalLength then
    .error .providerObjectRange
  else if m.chunkLength = 0 ∧ m.totalLength ≠ 0 then .error .providerObjectEmpty
  else if m.final ≠ decide (m.chunkEnd = m.totalLength) then .error .providerObjectFinal
  else .ok ()

def providerObjectMetadataFixedBytes : ℕ := 59

def ProviderObjectMetadata.marshalBinary (m : ProviderObjectMetadata) : Except FrameError Bytes :=
  m.validate.map fun _ => List.flatten [bigEndian 2 m.name.length, bigEndian 8 m.offset,
    bigEndian 8 m.chunkLength, bigEndian 8 m.totalLength, m.digest.toList,
    [if m.final then 1 else 0], m.name]

def decodeProviderObjectMetadata (encoded : Bytes) : Except FrameError ProviderObjectMetadata :=
  if encoded.length < providerObjectMetadataFixedBytes then .error .providerObjectTruncated
  else if encoded.length ≠ providerObjectMetadataFixedBytes + uint (slice encoded 0 2) then
    .error .providerObjectLength
  else
    let m : ProviderObjectMetadata :=
      { name := encoded.drop 59
        offset := uint (slice encoded 2 8)
        chunkLength := uint (slice encoded 10 8)
        totalLength := uint (slice encoded 18 8)
        digest := Digest.ofBytes (slice encoded 26 32)
        final := decide (slice encoded 58 1 = [1]) }
    if uint (slice encoded 58 1) > 1 then .error .providerObjectMarker
    else m.validate.map fun _ => m

/-! ## Validation -/

/-- A cluster, incarnation or node identity. -/
def ValidIdentity (identity : Bytes) : Prop :=
  identity ≠ [] ∧ identity.length ≤ maxIdentityBytes

instance (identity : Bytes) : Decidable (ValidIdentity identity) :=
  inferInstanceAs (Decidable (_ ∧ _))

def Frame.validateKind (f : Frame) : Except FrameError Unit :=
  match f.kind with
  | .data =>
    if ¬ f.store.isNative then .error .dataStore
    else if f.payload = [] ∨ f.metadata ≠ [] then .error .dataShape
    else if f.storeGeneration = 0 ∨ f.storeSequenceFirst = 0 ∨
        f.storeSequenceLast < f.storeSequenceFirst then
      .error .dataSequence
    else if f.store.isSingle ∧ f.storeGeneration ≠ 1 then .error .storeGeneration
    else .ok ()
  | .ledgerRoll =>
    if ¬ f.Storeless ∨ f.payload ≠ [] ∨ f.metadata.length ≠ ledgerRollMetadataBytes then
      .error .ledgerRollShape
    else (decodeLedgerRollMetadata f.metadata).map fun _ => ()
  | .leadershipEstablished =>
    if ¬ f.Storeless ∨ f.payload ≠ [] ∨ f.metadata ≠ [] then .error .leadershipShape
    else .ok ()
  | .schemaBoundary =>
    if ¬ f.Storeless ∨ f.payload ≠ [] ∨ f.metadata.length ≠ schemaBoundaryMetadataBytes then
      .error .schemaBoundaryShape
    else (decodeSchemaBoundaryMetadata f.metadata).map fun _ => ()
  | .providerObject =>
    if ¬ f.Storeless then .error .providerObjectShape
    else
      match decodeProviderObjectMetadata f.metadata with
      | .error err => .error err
      | .ok m =>
        if f.payload.length ≠ m.chunkLength ∨ m.chunkEnd > m.totalLength then
          .error .providerObjectPayload
        else if m.final ≠ decide (m.chunkEnd = m.totalLength) then .error .providerObjectFinal
        else .ok ()
  | .unknown code => .error (.unknownKind code)

def Frame.validate (f : Frame) : Except FrameError Unit :=
  if f.index = 0 ∨ f.term = 0 then .error .position
  else if f.confirmedIndex ≥ f.index then .error .confirmedIndex
  else if ¬ ValidIdentity f.clusterID ∨ ¬ ValidIdentity f.incarnation then .error .identities
  else if f.metadata.length > maxMetadataBytes then .error .metadataSize
  else if f.payload.length > maxPayloadBytes then .error .payloadSize
  else f.validateKind

/-! ## Encoding -/

def frameBodyFixedBytes : ℕ := 108
def frameDigestOffset : ℕ := 76

/-- `HLRPL001`. -/
def frameMagic : Bytes := [72, 76, 82, 80, 76, 48, 48, 49]

/-- `halro:replication-frame:v1` and a NUL. -/
def frameDomain : Bytes :=
  [104, 97, 108, 114, 111, 58, 114, 101, 112, 108, 105, 99, 97, 116, 105, 111, 110, 45, 102, 114,
    97, 109, 101, 58, 118, 49, 0]

section Encoding

variable (sha256 : Bytes → Digest)

/-- What is hashed: the body with its digest field zeroed, under the frame domain. -/
def digestInput (body : Bytes) : Bytes :=
  frameDomain ++ body.take frameDigestOffset ++ Digest.zero.toList ++
    body.drop (frameDigestOffset + 32)

def frameDigest (body : Bytes) : Digest := sha256 (digestInput body)

/-- The fields of a body, in order, around the given digest field. -/
def Frame.parts (f : Frame) (digest : Bytes) : List Bytes :=
  [frameMagic, bigEndian 2 protocolVersion, bigEndian 2 f.kind.code, bigEndian 2 f.store.code,
    [0, 0], bigEndian 8 f.index, bigEndian 8 f.term, bigEndian 8 f.confirmedIndex,
    bigEndian 8 f.storeGeneration, bigEndian 8 f.storeSequenceFirst,
    bigEndian 8 f.storeSequenceLast, bigEndian 2 f.clusterID.length,
    bigEndian 2 f.incarnation.length, bigEndian 4 f.metadata.length,
    bigEndian 4 f.payload.length, digest, f.clusterID, f.incarnation, f.metadata, f.payload]

/-- The digest of a frame: that of its body before the digest is put in. -/
def Frame.digest (f : Frame) : Digest :=
  frameDigest sha256 (f.parts Digest.zero.toList).flatten

/-- The encoded frame: its length, then its body with the digest. -/
def Frame.encode (f : Frame) : Bytes :=
  let body := (f.parts (f.digest sha256).toList).flatten
  bigEndian 4 body.length ++ body

def Frame.marshalBinaryAndDigest (f : Frame) : Except FrameError (Bytes × Digest) :=
  f.validate.map fun _ => (f.encode sha256, f.digest sha256)

/-- The frame whose fields a body holds. -/
def frameOfBody (body : Bytes) : Frame :=
  let clusterLength := uint (slice body 64 2)
  let incarnationLength := uint (slice body 66 2)
  let metadataLength := uint (slice body 68 4)
  { kind := Kind.ofCode (uint (slice body 10 2))
    store := Store.ofCode (uint (slice body 12 2))
    index := uint (slice body 16 8)
    term := uint (slice body 24 8)
    confirmedIndex := uint (slice body 32 8)
    storeGeneration := uint (slice body 40 8)
    storeSequenceFirst := uint (slice body 48 8)
    storeSequenceLast := uint (slice body 56 8)
    clusterID := slice body 108 clusterLength
    incarnation := slice body (108 + clusterLength) incarnationLength
    metadata := slice body (108 + clusterLength + incarnationLength) metadataLength
    payload := slice body (108 + clusterLength + incarnationLength + metadataLength)
      (uint (slice body 72 4)) }

def unmarshalFrameAndDigest (encoded : Bytes) : Except FrameError (Frame × Digest) :=
  if encoded.length < 4 + frameBodyFixedBytes then .error .short
  else
    let declared := uint (slice encoded 0 4)
    let body := encoded.drop 4
    if declared ≠ body.length then .error (.declared body.length declared)
    else if declared > frameBodyFixedBytes + 2 * maxIdentityBytes + maxMetadataBytes +
        maxPayloadBytes then
      .error .bound
    else if slice body 0 8 ≠ frameMagic then .error .magic
    else if uint (slice body 8 2) ≠ protocolVersion then .error (.version (uint (slice body 8 2)))
    else if uint (slice body 14 2) ≠ 0 then .error .reserved
    else if uint (slice body 64 2) > maxIdentityBytes ∨ uint (slice body 66 2) > maxIdentityBytes ∨
        uint (slice body 68 4) > maxMetadataBytes ∨ uint (slice body 72 4) > maxPayloadBytes then
      .error .fieldLength
    else if uint (slice body 64 2) + uint (slice body 66 2) + uint (slice body 68 4) +
        uint (slice body 72 4) ≠ body.length - frameBodyFixedBytes then
      .error .fieldSum
    else if slice body frameDigestOffset 32 ≠ (frameDigest sha256 body).toList then .error .digest
    else (frameOfBody body).validate.map fun _ => (frameOfBody body, frameDigest sha256 body)

end Encoding

/-! ## What the decoder accepts -/

/-- What the checks of the decoder leave of an accepted byte string. -/
structure Decodes (sha256 : Bytes → Digest) (encoded : Bytes) (f : Frame) (d : Digest) : Prop where
  long : 4 + frameBodyFixedBytes ≤ encoded.length
  declared : uint (slice encoded 0 4) = (encoded.drop 4).length
  embedded : slice (encoded.drop 4) frameDigestOffset 32 = d.toList
  digest : d = frameDigest sha256 (encoded.drop 4)
  frame : f = frameOfBody (encoded.drop 4)
  valid : f.validate = .ok ()

lemma decodes_of_unmarshal {sha256 : Bytes → Digest} {encoded : Bytes} {f : Frame} {d : Digest}
    (h : unmarshalFrameAndDigest sha256 encoded = .ok (f, d)) : Decodes sha256 encoded f d := by
  simp only [unmarshalFrameAndDigest, guard_eq_ok] at h
  obtain ⟨hshort, hdeclared, -, -, -, -, -, -, hdig, h⟩ := h
  obtain ⟨_, hvalid, h⟩ := map_eq_ok.mp h
  cases h
  exact
    { long := by omega
      declared := not_not.mp hdeclared
      embedded := not_not.mp hdig
      digest := rfl
      frame := rfl
      valid := hvalid }

/-- Byte strings of one length are determined by the number they stand for. -/
lemma eq_of_uint_eq {b c : Bytes} (hlen : b.length = c.length) (h : uint b = uint c) : b = c := by
  induction b using List.reverseRecOn generalizing c with
  | nil => exact (List.length_eq_zero_iff.mp hlen.symm).symm
  | append_singleton b x ih =>
    obtain ⟨c, y, rfl⟩ : ∃ c' y, c = c' ++ [y] := by
      cases c using List.reverseRecOn with
      | nil => simp at hlen
      | append_singleton c y => exact ⟨c, y, rfl⟩
    rw [uint_concat, uint_concat] at h
    have hx : x.toNat < 256 := x.toNat_lt
    have hy : y.toNat < 256 := y.toNat_lt
    have hlast : x = y := UInt8.toNat_inj.mp (by omega)
    have hinit : b = c := ih (by simpa using hlen) (by omega)
    rw [hinit, hlast]

/-- A body is what precedes its digest field, the field, and what follows it. -/
lemma body_split (body : Bytes) : body = body.take frameDigestOffset ++
      (slice body frameDigestOffset 32 ++ body.drop (frameDigestOffset + 32)) := by
  have hrest : body.drop frameDigestOffset =
      slice body frameDigestOffset 32 ++ body.drop (frameDigestOffset + 32) := by
    rw [slice, ← List.drop_drop, List.take_append_drop]
  rw [← hrest, List.take_append_drop]

/-- **Two accepted byte strings with one digest are the same bytes**, as long as the hash does not
collide on what it hashes of them. -/
theorem eq_of_digest_eq {sha256 : Bytes → Digest} {b c : Bytes} {f g : Frame} {d : Digest}
    (hb : Decodes sha256 b f d) (hc : Decodes sha256 c g d)
    (hcoll : sha256 (digestInput (b.drop 4)) = sha256 (digestInput (c.drop 4)) →
      digestInput (b.drop 4) = digestInput (c.drop 4)) : b = c := by
  have hb4 : frameBodyFixedBytes ≤ (b.drop 4).length := by
    have := hb.long
    rw [List.length_drop]
    omega
  have hc4 : frameBodyFixedBytes ≤ (c.drop 4).length := by
    have := hc.long
    rw [List.length_drop]
    omega
  -- The hashed inputs agree, so the bodies agree around their digest fields.
  have hinput := hcoll (hb.digest.symm.trans hc.digest)
  simp only [digestInput, List.append_assoc, List.append_cancel_left_eq] at hinput
  obtain ⟨htake, hdrop⟩ := List.append_inj hinput (by
    simp only [List.length_take, frameDigestOffset, frameBodyFixedBytes] at hb4 hc4 ⊢
    omega)
  have hdrop := List.append_cancel_left hdrop
  have hbody : b.drop 4 = c.drop 4 := by
    rw [body_split (b.drop 4), body_split (c.drop 4), hb.embedded, hc.embedded, htake, hdrop]
  -- The length field is determined by the body.
  have hlens : b.length = c.length := by
    have hlong := hb.long
    have hlong' := hc.long
    have := congrArg List.length hbody
    simp only [List.length_drop] at this
    omega
  have htake4 : b.take 4 = c.take 4 := by
    refine eq_of_uint_eq (by simp [hlens]) ?_
    have h1 := hb.declared
    have h2 := hc.declared
    rw [hbody] at h1
    simpa [slice] using h1.trans h2.symm
  rw [← List.take_append_drop 4 b, ← List.take_append_drop 4 c, htake4, hbody]

end Replication

end Halro
