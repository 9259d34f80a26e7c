import Halro.Framework.Stream
import Halro.Ledger.Event
import Halro.Replication.Frame

/-!
# The bytes of a ledger frame (`internal/ledger/log.go`)

A frame is a header of 24 bytes with its sequence, the length of its payload and a checksum, for the
authenticated epochs the chain hash it follows and its code, and the payload.  `frameReader` is the
loop body of `scanFrom`: it takes one frame off the front of a file.

The checksum, the code, the hash of a code and the JSON of an event are parameters.
-/

namespace Halro

open Framework Replication

namespace Ledger

namespace Wire

/-- What the frames are made with.  A payload that was made from an event gives it back. -/
structure Codec where
  crc32 : Bytes → ℕ
  crc32_lt : ∀ b, crc32 b < 256 ^ 4
  hmac : Digest → Bytes → Digest
  sha256 : Digest → Digest
  marshal : Event → Option Bytes
  unmarshal : Bytes → Option Event
  unmarshal_marshal : ∀ e b, marshal e = some b → unmarshal b = some e

/-! ## Frames -/

/-- `HLDG`. -/
def frameMagic : Bytes := [72, 76, 68, 71]

def frameVersionLegacy : ℕ := 1
def frameVersionCurrent : ℕ := 2
def frameVersionPeriod : ℕ := 3
def frameVersionLedgerIntegrity : ℕ := 4
def frameVersionRunAttribution : ℕ := 5
def frameHeaderSize : ℕ := 24
def chainPreviousHashSize : ℕ := 32
def chainMACSize : ℕ := 32
def maxPayloadSize : ℕ := 2 ^ 20

def authenticatedFrameEpoch (epoch : ℕ) : Bool :=
  epoch = frameVersionLedgerIntegrity || epoch = frameVersionRunAttribution

def EventKind.ofCode : ℕ → EventKind
  | 1 => .requestAccepted
  | 2 => .reservationCreated
  | 3 => .attemptStarted
  | 4 => .attemptSettled
  | 5 => .requestFinalized
  | 6 => .workUnitCreated
  | 7 => .workUnitClosed
  | 8 => .runCreated
  | 9 => .runClosed
  | code => .invalid code

lemma EventKind.ofCode_code {kind : EventKind} (h : kind.valid = true) :
    EventKind.ofCode kind.code = kind := by
  cases kind with
  | invalid code => exact nomatch h
  | _ => rfl

lemma EventKind.code_lt {kind : EventKind} (h : kind.valid = true) : kind.code < 256 := by
  cases kind with
  | invalid code => exact nomatch h
  | _ => decide

section Encoder

variable (k : Codec)

/-- The part of a header between the magic and the checksum. -/
def headerFields (version : ℕ) (sequence : ℕ) (kind : EventKind) (payload : Bytes) : Bytes :=
  bigEndian 1 version ++ bigEndian 1 kind.code ++ [0, 0] ++ bigEndian 8 sequence ++
    bigEndian 4 payload.length

def frameHeader (version : ℕ) (sequence : ℕ) (kind : EventKind) (payload : Bytes) : Bytes :=
  let fields := headerFields version sequence kind payload
  frameMagic ++ fields ++ bigEndian 4 (k.crc32 (fields ++ payload))

/-- A frame of an epoch without a chain. -/
def encodeFrameVersion (version : ℕ) (sequence : ℕ) (kind : EventKind) (payload : Bytes) : Bytes :=
  frameHeader k version sequence kind payload ++ payload

/-- A frame with the hash it follows and its code, and the hash the next one follows. -/
def encodeChainFrameVersion (version : ℕ) (key : Digest) (sequence : ℕ) (kind : EventKind)
    (payload : Bytes) (previousHash : Digest) : Bytes × Digest :=
  let header := frameHeader k version sequence kind payload
  let mac := k.hmac key (header ++ previousHash.toList ++ payload)
  (header ++ previousHash.toList ++ mac.toList ++ payload, k.sha256 mac)

end Encoder

/-! ## Reading one frame -/

/-- Where a scan stands: the last sequence, the highest authenticated epoch and the running hash. -/
structure Position where
  sequence : ℕ := 0
  epoch : ℕ := 0
  hash : Digest := .zero
  deriving DecidableEq

structure Record where
  sequence : ℕ
  epoch : ℕ
  event : Event
  previousHash : Digest
  hash : Digest
  deriving DecidableEq

inductive ScanError
  | frameHeader
  | frameEpoch (epoch : ℕ)
  | followsAuthenticated (epoch : ℕ)
  | followsRunAttribution (epoch : ℕ)
  | eventKind (code epoch : ℕ)
  | sequenceOrder
  | payloadTooLarge
  | checksum
  | chainLink
  | chainCode
  | invalidEvent
  | kindMismatch
  | payloadEpochFields
  | periodIdentity (epoch : ℕ)
  deriving DecidableEq

def ScanError.message : ScanError → String
  | .frameHeader => "invalid frame header"
  | .frameEpoch epoch => "frame epoch " ++ toString epoch
  | .followsAuthenticated epoch => "frame epoch " ++ toString epoch ++
      " follows an authenticated frame"
  | .followsRunAttribution epoch => "frame epoch " ++ toString epoch ++
      " follows run-attribution epoch"
  | .eventKind code epoch => "event kind " ++ toString code ++ " is not supported by epoch " ++
      toString epoch
  | .sequenceOrder => "non-monotonic sequence"
  | .payloadTooLarge => "payload too large"
  | .checksum => "checksum mismatch"
  | .chainLink => "chain link does not match the running hash"
  | .chainCode => "MAC does not authenticate"
  | .invalidEvent => "invalid event"
  | .kindMismatch => "event kind mismatch"
  | .payloadEpochFields => "v2 accounting event is missing its payload epoch fields"
  | .periodIdentity epoch => "v" ++ toString epoch ++ " event is missing its period identity"

structure Header where
  epoch : ℕ
  kind : EventKind
  sequence : ℕ
  payloadLength : ℕ
  deriving DecidableEq

/-- The checks on a header, before anything after it is read. -/
def readHeader (p : Position) (header : Bytes) : Except ScanError Header :=
  let epoch := uint (slice header 4 1)
  let kind := EventKind.ofCode (uint (slice header 5 1))
  let sequence := uint (slice header 8 8)
  let payloadLength := uint (slice header 16 4)
  if slice header 0 4 ≠ frameMagic then .error .frameHeader
  else if ¬ (epoch = frameVersionLegacy ∨ epoch = frameVersionCurrent ∨
      epoch = frameVersionPeriod ∨ authenticatedFrameEpoch epoch) then .error (.frameEpoch epoch)
  else if 0 < p.epoch ∧ authenticatedFrameEpoch epoch = false then
    .error (.followsAuthenticated epoch)
  else if p.epoch = frameVersionRunAttribution ∧ epoch = frameVersionLedgerIntegrity then
    .error (.followsRunAttribution epoch)
  else if kind.valid = false ∨ epoch < frameVersionRunAttribution ∧ kind.isLifecycle then
    .error (.eventKind kind.code epoch)
  else if sequence ≤ p.sequence then .error .sequenceOrder
  else if maxPayloadSize < payloadLength then .error .payloadTooLarge
  else .ok ⟨epoch, kind, sequence, payloadLength⟩

/-- The bytes between the header and the payload. -/
def Header.tailSize (h : Header) : ℕ :=
  if authenticatedFrameEpoch h.epoch then chainPreviousHashSize + chainMACSize else 0

/-- The epoch counts from the header on, also when the rest of the frame is torn off. -/
def Position.enter (p : Position) (epoch : ℕ) : Position :=
  if authenticatedFrameEpoch epoch && decide (p.epoch < epoch) then { p with epoch := epoch } else p

section Reader

variable (k : Codec) (key : Option Digest)

/-- The event of a payload with the rules of its epoch. -/
def readEvent (h : Header) (payload : Bytes) : Except ScanError Event :=
  match k.unmarshal payload with
  | none => .error .invalidEvent
  | some event =>
    if event.kind ≠ h.kind then .error .kindMismatch
    else if h.epoch = frameVersionCurrent ∧
        (h.kind = .reservationCreated ∨ h.kind = .attemptSettled) ∧ event.leaseMode = .legacy then
      .error .payloadEpochFields
    else if (h.epoch = frameVersionPeriod ∨ authenticatedFrameEpoch h.epoch) ∧
        event.periodTimezone = "" then .error (.periodIdentity h.epoch)
    else .ok event

/-- What follows a header: the link and the code for the authenticated epochs, which are checked when
there is a key, and the payload. -/
def readBody (p : Position) (h : Header) (header body : Bytes) :
    Except ScanError (Position × Record) :=
  let authenticated := authenticatedFrameEpoch h.epoch
  let previousHash := if authenticated then Digest.ofBytes (slice body 0 32) else .zero
  let mac := if authenticated then Digest.ofBytes (slice body 32 32) else .zero
  let payload := slice body h.tailSize h.payloadLength
  if k.crc32 (slice header 4 16 ++ payload) ≠ uint (slice header 20 4) then .error .checksum
  else if authenticated ∧ key.isSome ∧ previousHash ≠ p.hash then .error .chainLink
  else if authenticated ∧
      key.any (fun key => k.hmac key (header ++ previousHash.toList ++ payload) ≠ mac) then
    .error .chainCode
  else
    match readEvent k h payload with
    | .error err => .error err
    | .ok event => .ok
      ({ sequence := h.sequence
         epoch := (p.enter h.epoch).epoch
         hash := if authenticated && key.isSome then k.sha256 mac else p.hash },
       { sequence := h.sequence
         epoch := h.epoch
         event := event
         previousHash := previousHash
         hash := if authenticated then k.sha256 mac else .zero })

/-- One turn of the loop of `scanFrom`. -/
def readFrame (p : Position) (b : Bytes) : Read Position Record ScanError :=
  if b = [] then .done
  else if b.length < frameHeaderSize then .torn p
  else
    let header := b.take frameHeaderSize
    let body := b.drop frameHeaderSize
    match readHeader p header with
    | .error err => .refused err
    | .ok h =>
      if body.length < h.tailSize + h.payloadLength then .torn (p.enter h.epoch)
      else
        match readBody k key p h header body with
        | .error err => .refused err
        | .ok (q, record) => .next q record (body.drop (h.tailSize + h.payloadLength))

/-- The parts of a frame that was taken. -/
structure Taken (p : Position) (b : Bytes) (h : Header) (q : Position) (record : Record)
    (rest : Bytes) : Prop where
  header : readHeader p (b.take frameHeaderSize) = .ok h
  length : frameHeaderSize + (h.tailSize + h.payloadLength) ≤ b.length
  body : readBody k key p h (b.take frameHeaderSize) (b.drop frameHeaderSize) = .ok (q, record)
  rest : rest = (b.drop frameHeaderSize).drop (h.tailSize + h.payloadLength)

variable {k key}

lemma readFrame_next {p q : Position} {b rest : Bytes} {record : Record} :
    readFrame k key p b = .next q record rest ↔ ∃ h, Taken k key p b h q record rest := by
  constructor
  · intro hread
    rw [readFrame] at hread
    split_ifs at hread with hnil hshort
    dsimp only at hread
    split at hread
    · exact nomatch hread
    · rename_i h hhdr
      split_ifs at hread with htorn
      rw [List.length_drop] at htorn
      split at hread
      · exact nomatch hread
      · rename_i hbody
        obtain ⟨rfl, rfl, rfl⟩ := Read.next.inj hread
        refine ⟨h, hhdr, by omega, hbody, rfl⟩
  · rintro ⟨h, hhdr, hlen, hbody, rfl⟩
    have hpos : frameHeaderSize = 24 := rfl
    have hnil : b ≠ [] := by
      rintro rfl
      rw [List.length_nil] at hlen
      omega
    rw [readFrame, if_neg hnil, if_neg (by omega)]
    dsimp only
    rw [hhdr]
    dsimp only
    rw [if_neg (by rw [List.length_drop]; omega), hbody]

end Reader

/-- The reader of ledger files. -/
def frameReader (k : Codec) (key : Option Digest) : Reader Position Record ScanError where
  read := readFrame k key
  atEnd _ := rfl
  progress := by
    intro p b q record rest hread
    obtain ⟨h, hheader, hlength, -, rfl⟩ := readFrame_next.mp hread
    have hpos : frameHeaderSize = 24 := rfl
    rw [List.length_drop, List.length_drop]
    omega

lemma frameReader_read (k : Codec) (key : Option Digest) :
    (frameReader k key).read = readFrame k key := rfl

/-- A torn frame leaves the sequence and the hash as they were. -/
def SameHead (p q : Position) : Prop := q.sequence = p.sequence ∧ q.hash = p.hash

lemma sameHead_enter (p : Position) (epoch : ℕ) : SameHead p (p.enter epoch) := by
  unfold Position.enter
  split_ifs
  · exact ⟨rfl, rfl⟩
  · exact ⟨rfl, rfl⟩

/-- The first bytes of a frame that is taken are torn. -/
lemma readFrame_cut {k : Codec} {key : Option Digest} {p q : Position} {f rest : Bytes} {r : Record}
    (hread : readFrame k key p f = .next q r rest) {n : ℕ} (hn : 0 < n)
    (hcut : n + rest.length < f.length) :
    ∃ t, readFrame k key p (f.take n) = .torn t ∧ SameHead p t := by
  obtain ⟨h, hhdr, hlen, -, hrest⟩ := readFrame_next.mp hread
  have hsize := congrArg List.length hrest
  rw [List.length_drop, List.length_drop] at hsize
  have htaken : (f.take n).length = n := by
    rw [List.length_take]
    omega
  have hnil : f.take n ≠ [] := by
    intro h
    rw [h, List.length_nil] at htaken
    omega
  rw [readFrame, if_neg hnil, htaken]
  by_cases hshort : n < frameHeaderSize
  · exact ⟨p, by rw [if_pos hshort], rfl, rfl⟩
  · have htake : (f.take n).take frameHeaderSize = f.take frameHeaderSize := by
      rw [List.take_take, min_eq_left (by omega)]
    refine ⟨p.enter h.epoch, ?_, sameHead_enter p _⟩
    rw [if_neg hshort]
    simp only [htake, hhdr]
    rw [if_pos]
    rw [List.length_drop, htaken]
    omega

/-- A frame that is taken whatever comes after it is a piece for the reader. -/
lemma reads_of_next {k : Codec} {key : Option Digest} {p : Position} {g : Piece Position Record}
    (hread : ∀ rest, readFrame k key p (g.bytes ++ rest) = .next g.after g.record rest) :
    (frameReader k key).Reads SameHead p g where
  nonempty hnil := by
    have hdone := hread []
    rw [hnil] at hdone
    exact nomatch hdone
  whole := hread
  cut n hn hcut := by
    have hwhole := hread []
    rw [List.append_nil] at hwhole
    exact readFrame_cut hwhole hn hcut

/-! ## Frames that were written are read -/

section Written

variable {k : Codec} {version sequence : ℕ} {kind : EventKind} {payload : Bytes}

lemma length_headerFields : (headerFields version sequence kind payload).length = 16 := by
  simp [headerFields]

lemma length_frameHeader : (frameHeader k version sequence kind payload).length = frameHeaderSize := by
  simp [frameHeader, length_headerFields, frameMagic, frameHeaderSize]

/-- The fields of a header at their offsets. -/
lemma slice_frameHeader (k : Codec) (version sequence : ℕ) (kind : EventKind) (payload : Bytes) :
    let header := frameHeader k version sequence kind payload
    slice header 0 4 = frameMagic ∧ slice header 4 1 = bigEndian 1 version ∧
      slice header 5 1 = bigEndian 1 kind.code ∧ slice header 8 8 = bigEndian 8 sequence ∧
      slice header 16 4 = bigEndian 4 payload.length ∧
      slice header 4 16 = headerFields version sequence kind payload ∧
      slice header 20 4 =
        bigEndian 4 (k.crc32 (headerFields version sequence kind payload ++ payload)) := by
  intro header
  have hparts : header = [frameMagic, bigEndian 1 version, bigEndian 1 kind.code, [0, 0],
      bigEndian 8 sequence, bigEndian 4 payload.length,
      bigEndian 4 (k.crc32 (headerFields version sequence kind payload ++ payload))].flatten := by
    simp [header, frameHeader, headerFields]
  have hwhole : header = [frameMagic, headerFields version sequence kind payload,
      bigEndian 4 (k.crc32 (headerFields version sequence kind payload ++ payload))].flatten := by
    simp [header, frameHeader]
  refine ⟨?_, ?_, ?_, ?_, ?_, ?_, ?_⟩
  · rw [hparts]
    exact slice_flatten (i := 0) (by simp) rfl rfl
  · rw [hparts]
    exact slice_flatten (i := 1) (by simp) (by simp [frameMagic]) (by simp)
  · rw [hparts]
    exact slice_flatten (i := 2) (by simp) (by simp [frameMagic]) (by simp)
  · rw [hparts]
    exact slice_flatten (i := 4) (by simp) (by simp [frameMagic]) (by simp)
  · rw [hparts]
    exact slice_flatten (i := 5) (by simp) (by simp [frameMagic]) (by simp)
  · rw [hwhole]
    exact slice_flatten (i := 1) (by simp) (by simp [frameMagic]) (by simp [length_headerFields])
  · rw [hwhole]
    exact slice_flatten (i := 2) (by simp) (by simp [frameMagic, length_headerFields]) (by simp)

/-- The header a writer of this build makes is accepted after any position with a lower sequence. -/
lemma readHeader_frameHeader {p : Position} (hkind : kind.valid = true) (hnext : p.sequence < sequence)
    (hseq : sequence < 256 ^ 8) (hlen : payload.length ≤ maxPayloadSize) :
    readHeader p (frameHeader k frameVersionRunAttribution sequence kind payload) =
      .ok ⟨frameVersionRunAttribution, kind, sequence, payload.length⟩ := by
  obtain ⟨hmagic, hver, hcode, hnum, hsize, -, -⟩ := slice_frameHeader k
    frameVersionRunAttribution sequence kind payload
  have hepoch : uint (bigEndian 1 frameVersionRunAttribution) = frameVersionRunAttribution := rfl
  have hkind' : EventKind.ofCode (uint (bigEndian 1 kind.code)) = kind := by
    rw [uint_bigEndian (by simpa using EventKind.code_lt hkind), EventKind.ofCode_code hkind]
  have hpay : uint (bigEndian 4 payload.length) = payload.length :=
    uint_bigEndian (lt_of_le_of_lt hlen (by decide))
  rw [readHeader]
  simp only [hmagic, hver, hcode, hnum, hsize, hepoch, hkind', uint_bigEndian hseq, hpay]
  rw [if_neg (not_not.mpr rfl), if_neg (by decide), if_neg fun h => absurd h.2 (by decide),
    if_neg fun h => absurd h.2 (by decide), if_neg (by simp [hkind]), if_neg (not_le.mpr hnext),
    if_neg (not_lt.mpr hlen)]

/-- The parts of what follows a header. -/
lemma slice_body (d e : Digest) (payload rest : Bytes) :
    let body := d.toList ++ e.toList ++ payload ++ rest
    slice body 0 32 = d.toList ∧ slice body 32 32 = e.toList ∧
      slice body 64 payload.length = payload ∧ body.drop (64 + payload.length) = rest := by
  intro body
  have hparts : body = [d.toList, e.toList, payload, rest].flatten := by simp [body]
  refine ⟨?_, ?_, ?_, ?_⟩
  · rw [hparts]
    exact slice_flatten (i := 0) (by simp) rfl (by simp)
  · rw [hparts]
    exact slice_flatten (i := 1) (by simp) (by simp) (by simp)
  · rw [hparts]
    exact slice_flatten (i := 2) (by simp) (by simp) (by simp)
  · rw [List.drop_left' (by simp; omega)]

/-- The position and the record after a frame of this build. -/
def afterFrame (k : Codec) (key : Digest) (p : Position) (event : Event) (payload : Bytes) :
    Position × Record :=
  let hash := (encodeChainFrameVersion k frameVersionRunAttribution key (p.sequence + 1) event.kind
    payload p.hash).2
  (⟨p.sequence + 1, (p.enter frameVersionRunAttribution).epoch, hash⟩,
    ⟨p.sequence + 1, frameVersionRunAttribution, event, p.hash, hash⟩)

/-- The body of a frame of this build: everything is accepted but an event without a timezone. -/
lemma readBody_written {key : Digest} {p : Position} {event : Event}
    (hevent : k.unmarshal payload = some event) (rest : Bytes) :
    let header := frameHeader k frameVersionRunAttribution (p.sequence + 1) event.kind payload
    readBody k (some key) p
        ⟨frameVersionRunAttribution, event.kind, p.sequence + 1, payload.length⟩ header
        (p.hash.toList ++ (k.hmac key (header ++ p.hash.toList ++ payload)).toList ++ payload ++ rest) =
      if event.periodTimezone = "" then .error (.periodIdentity frameVersionRunAttribution)
      else .ok (afterFrame k key p event payload) := by
  intro header
  obtain ⟨-, -, -, -, -, hflds, hcsum⟩ := slice_frameHeader k frameVersionRunAttribution
    (p.sequence + 1) event.kind payload
  obtain ⟨hprev, hmac, hpay, -⟩ := slice_body p.hash
    (k.hmac key (header ++ p.hash.toList ++ payload)) payload rest
  have hauth : authenticatedFrameEpoch frameVersionRunAttribution = true := rfl
  have htail : (⟨frameVersionRunAttribution, event.kind, p.sequence + 1, payload.length⟩ :
    Header).tailSize = 64 := rfl
  have hepoch : ¬ frameVersionRunAttribution = frameVersionCurrent := by decide
  simp only [readBody, hauth, if_true, htail, hprev, hmac, hpay, hflds, hcsum,
    Digest.ofBytes_toList, uint_bigEndian (k.crc32_lt _), ne_eq, not_true_eq_false, if_false,
    and_false, Option.any_some, decide_false, Bool.false_eq_true, readEvent, hevent, hepoch, false_and,
    or_true, true_and, Option.isSome_some, Bool.and_true, header]
  split_ifs with hzone
  · rfl
  · rfl

end Written

/-! ## Batches -/

variable {D : Type} {cat : Catalogue D} {k : Codec}

/-- An event `Append` accepted, with its payload. -/
structure Request (k : Codec) (cat : Catalogue D) where
  event : Event
  payload : Bytes
  encoded : k.marshal event = some payload
  accepted : event.validateForAppend cat = .ok ()
  fits : payload.length ≤ maxPayloadSize

lemma Request.kind_valid (r : Request k cat) : r.event.kind.valid = true :=
  (Event.valid_of_validate (Event.validate_of_validateForAppend r.accepted)).kind_valid

lemma Request.unmarshal (r : Request k cat) : k.unmarshal r.payload = some r.event :=
  k.unmarshal_marshal _ _ r.encoded

/-- The frame of a request after a position. -/
def Request.frame (key : Digest) (p : Position) (r : Request k cat) : Bytes :=
  (encodeChainFrameVersion k frameVersionRunAttribution key (p.sequence + 1) r.event.kind r.payload
    p.hash).1

/-- The frame with what is read from it. -/
def Request.piece (key : Digest) (p : Position) (r : Request k cat) : Piece Position Record :=
  ⟨r.frame key p, (afterFrame k key p r.event r.payload).2, (afterFrame k key p r.event r.payload).1⟩

/-- The frames of requests one after the other. -/
def pieces (key : Digest) : Position → List (Request k cat) → List (Piece Position Record)
  | _, [] => []
  | p, r :: requests => r.piece key p :: pieces key (r.piece key p).after requests

section Request

variable (r : Request k cat) (key : Digest) (p : Position)

lemma Request.bytes_piece : (r.piece key p).bytes = r.frame key p := rfl

lemma Request.frame_eq : r.frame key p =
    frameHeader k frameVersionRunAttribution (p.sequence + 1) r.event.kind r.payload ++
      (p.hash.toList ++ (k.hmac key (frameHeader k frameVersionRunAttribution (p.sequence + 1)
        r.event.kind r.payload ++ p.hash.toList ++ r.payload)).toList ++ r.payload) := by
  simp [frame, encodeChainFrameVersion]

lemma Request.length_frame : (r.frame key p).length = frameHeaderSize + (64 + r.payload.length) := by
  rw [r.frame_eq, List.length_append, length_frameHeader]
  simp
  omega

lemma Request.readHeader {p : Position} (hseq : p.sequence + 1 < 256 ^ 8) :
    readHeader p (frameHeader k frameVersionRunAttribution (p.sequence + 1) r.event.kind r.payload) =
      .ok ⟨frameVersionRunAttribution, r.event.kind, p.sequence + 1, r.payload.length⟩ :=
  readHeader_frameHeader r.kind_valid (Nat.lt_succ_self _) hseq r.fits

/-- Reading a frame at the front of a file. -/
lemma Request.readFrame_whole {p : Position} (hseq : p.sequence + 1 < 256 ^ 8) (rest : Bytes) :
    readFrame k (some key) p (r.frame key p ++ rest) =
      if r.event.periodTimezone = "" then .refused (.periodIdentity frameVersionRunAttribution)
      else .next (r.piece key p).after (r.piece key p).record rest := by
  have hlen := r.length_frame key p
  have hnil : r.frame key p ++ rest ≠ [] := by
    intro h
    have := congrArg List.length h
    simp only [List.length_append, List.length_nil] at this
    omega
  have hshort : ¬ (r.frame key p ++ rest).length < frameHeaderSize := by
    rw [List.length_append]
    omega
  have htake : (r.frame key p ++ rest).take frameHeaderSize =
      frameHeader k frameVersionRunAttribution (p.sequence + 1) r.event.kind r.payload := by
    rw [r.frame_eq, List.append_assoc, ← length_frameHeader, List.take_left]
  have hdrop : (r.frame key p ++ rest).drop frameHeaderSize =
      p.hash.toList ++ (k.hmac key (frameHeader k frameVersionRunAttribution (p.sequence + 1)
        r.event.kind r.payload ++ p.hash.toList ++ r.payload)).toList ++ r.payload ++ rest := by
    rw [r.frame_eq, List.append_assoc, ← length_frameHeader, List.drop_left]
  have htail : (⟨frameVersionRunAttribution, r.event.kind, p.sequence + 1, r.payload.length⟩ :
    Header).tailSize = 64 := rfl
  have henough : ¬ ((r.frame key p ++ rest).drop frameHeaderSize).length < 64 + r.payload.length := by
    rw [List.length_drop, List.length_append]
    omega
  obtain ⟨-, -, -, hrest⟩ := slice_body p.hash
    (k.hmac key (frameHeader k frameVersionRunAttribution (p.sequence + 1) r.event.kind r.payload ++
      p.hash.toList ++ r.payload)) r.payload rest
  rw [readFrame, if_neg hnil, if_neg hshort]
  simp only [htake, r.readHeader hseq, htail, if_neg henough]
  rw [hdrop, readBody_written r.unmarshal rest]
  split_ifs with hzone
  · rfl
  · simp only [hrest]
    rfl

/-- A frame with a timezone is a piece for the reader. -/
lemma Request.reads {p : Position} (hseq : p.sequence + 1 < 256 ^ 8)
    (hzone : r.event.periodTimezone ≠ "") :
    (frameReader k (some key)).Reads SameHead p (r.piece key p) := by
  refine reads_of_next fun rest => ?_
  rw [r.bytes_piece, r.readFrame_whole key hseq, if_neg hzone]

end Request

/-! ### Lists of requests -/

section Requests

variable {key : Digest} {p : Position} {requests more : List (Request k cat)}

lemma pieces_append (key : Digest) (p : Position) (requests more : List (Request k cat)) :
    pieces key p (requests ++ more) =
      pieces key p requests ++ pieces key (stateAfter p (pieces key p requests)) more := by
  induction requests generalizing p with
  | nil => rfl
  | cons r requests ih => simp [pieces, ih]

@[simp] lemma length_pieces (key : Digest) (p : Position) (requests : List (Request k cat)) :
    (pieces key p requests).length = requests.length := by
  induction requests generalizing p with
  | nil => rfl
  | cons r requests ih => simp [pieces, ih]

/-- Requests with a timezone are written for the reader. -/
lemma written_pieces (hseq : p.sequence + requests.length < 256 ^ 8)
    (hzone : ∀ r ∈ requests, r.event.periodTimezone ≠ "") :
    (frameReader k (some key)).Written SameHead p (pieces key p requests) := by
  induction requests generalizing p with
  | nil => trivial
  | cons r requests ih =>
    rw [List.length_cons] at hseq
    obtain ⟨hr, hrest⟩ := List.forall_mem_cons.mp hzone
    refine ⟨r.reads key (by omega) hr, ih ?_ hrest⟩
    show p.sequence + 1 + requests.length < _
    omega

/-- A request without a timezone is refused by every scan that reaches it. -/
lemma stamped_of_scan {rest : Bytes} {x : Scanned Position Record}
    (hseq : p.sequence + requests.length < 256 ^ 8)
    (hscan : (frameReader k (some key)).scan p (bytesOf (pieces key p requests) ++ rest) = .ok x) :
    ∀ r ∈ requests, r.event.periodTimezone ≠ "" := by
  induction requests generalizing p x with
  | nil => exact fun _ hr => absurd hr List.not_mem_nil
  | cons r requests ih =>
    rw [List.length_cons] at hseq
    have hnext : p.sequence + 1 < 256 ^ 8 := by omega
    have hread := r.readFrame_whole key hnext
      (bytesOf (pieces key (r.piece key p).after requests) ++ rest)
    rw [pieces, bytesOf_cons, r.bytes_piece, List.append_assoc] at hscan
    rw [← frameReader_read] at hread
    by_cases hzone : r.event.periodTimezone = ""
    · rw [if_pos hzone] at hread
      rw [Reader.scan_of_refused hread] at hscan
      exact nomatch hscan
    · rw [if_neg hzone] at hread
      rw [Reader.scan_of_next hread] at hscan
      rcases hmore : (frameReader k (some key)).scan (r.piece key p).after
          (bytesOf (pieces key (r.piece key p).after requests) ++ rest) with e | y
      · rw [hmore] at hscan
        exact nomatch hscan
      · refine List.forall_mem_cons.mpr ⟨hzone, ih ?_ hmore⟩
        show p.sequence + 1 + requests.length < _
        omega

end Requests

end Wire

end Ledger

end Halro
