import Halro.Ledger.ReplicaAppend
import Mathlib.Data.List.TakeWhile

/-!
# Verifying a ledger (`internal/ledger/seal.go`, `segment.go`, `log.go`)

`VerifySegments` goes through the sealed generations a manifest names, and `VerifyChain` through the
active file from where the manifest says the last of them ended.  Neither the manifest nor the files
are trusted.

Only authenticated frames are evidence: what is accepted of them is a first part of what the holder
of the key wrote (`accepted_extends_anchor`).  Frames of the older epochs carry a checksum alone.
They are accepted as long as no authenticated frame was seen, so an adversary can write some
(`unsigned_history_accepted`), and none after a trusted anchor that has an authenticated frame.
-/

namespace Halro

open Framework Replication

namespace Ledger

namespace Wire

/-! ## The manifest -/

/-- One sealed generation in the manifest. -/
structure Segment where
  generation : ℕ
  file : String
  compressed : Bool := false
  lastSequence : ℕ
  length : ℕ
  startHash : String := ""
  endHash : String := ""
  endEpoch : ℕ := 0
  plainChecksum : String
  storedChecksum : String
  deriving DecidableEq

structure SegmentManifest where
  version : ℕ
  segments : List Segment
  pending : Option Segment := none
  deriving DecidableEq

inductive VerifyError
  | manifestUnreadable
  | manifestVersion (version : ℕ)
  | manifestGap (position generation : ℕ)
  | pendingGap (generation sealed : ℕ)
  | unreadableRoll (generation : ℕ)
  | malformedHash
  | discontinuous (generation : ℕ)
  | segmentMissing (generation : ℕ) (file : String)
  | storedChecksum (generation length : ℕ)
  | unreadable (generation : ℕ)
  | scan (error : ScanError)
  | endsMidFrame (generation : ℕ)
  | segmentEnd (generation offset sequence length lastSequence : ℕ)
  | chainHead (generation : ℕ)
  | runAttributionEpoch (generation : ℕ)
  | endEpoch (generation epoch recorded : ℕ)
  | noLedger
  deriving DecidableEq

def VerifyError.message : VerifyError → String
  | .manifestUnreadable => "ledger segment manifest is unreadable"
  | .manifestVersion version => "ledger segment manifest version " ++ toString version
  | .manifestGap position generation => "ledger segment " ++ toString position ++
      " is generation " ++ toString generation ++ "; the sealed history must run from 1 without gaps"
  | .pendingGap generation sealed => "ledger roll intent names generation " ++
      toString generation ++ " after " ++ toString sealed ++ " sealed generations"
  | .unreadableRoll generation => "interrupted ledger roll left generation " ++
      toString generation ++ " unreadable"
  | .malformedHash => "ledger segment chain hash is malformed"
  | .discontinuous generation => "generation " ++ toString generation ++
      " does not continue the chain of its predecessor"
  | .segmentMissing generation file => "generation " ++ toString generation ++ " (" ++ file ++ ")"
  | .storedChecksum generation length => "generation " ++ toString generation ++
      " does not match its recorded checksum (" ++ toString length ++ " bytes)"
  | .unreadable generation => "generation " ++ toString generation ++ " is not readable"
  | .scan error => error.message
  | .endsMidFrame generation => "generation " ++ toString generation ++ " ends mid-frame"
  | .segmentEnd generation offset sequence length lastSequence => "generation " ++
      toString generation ++ " ends at " ++ toString offset ++ "/" ++ toString sequence ++
      ", manifest says " ++ toString length ++ "/" ++ toString lastSequence
  | .chainHead generation => "generation " ++ toString generation ++
      " does not end at its recorded chain head"
  | .runAttributionEpoch generation => "generation " ++ toString generation ++
      " omits or misstates its run-attribution epoch"
  | .endEpoch generation epoch recorded => "generation " ++ toString generation ++
      " ends at epoch " ++ toString epoch ++ ", manifest says " ++ toString recorded
  | .noLedger => "no such file or directory"

/-- A directory of the ledger.  The manifest is absent, unreadable or there. -/
structure Directory where
  manifest : Option (Option SegmentManifest)
  files : String → Option Bytes

/-- What is computed from whole files. -/
structure FileCodec where
  checksum : Bytes → String
  gunzip : Bytes → Option Bytes

def hexDigit (c : Char) : Option ℕ :=
  if '0' ≤ c ∧ c ≤ '9' then some (c.toNat - '0'.toNat)
  else if 'a' ≤ c ∧ c ≤ 'f' then some (c.toNat - 'a'.toNat + 10)
  else if 'A' ≤ c ∧ c ≤ 'F' then some (c.toNat - 'A'.toNat + 10)
  else none

def hexBytes : List Char → Option Bytes
  | [] => some []
  | [_] => none
  | c :: d :: rest =>
    match hexDigit c, hexDigit d, hexBytes rest with
    | some h, some l, some b => some (UInt8.ofNat (h * 16 + l) :: b)
    | _, _, _ => none

def decodeChainHash (value : String) : Except VerifyError Digest :=
  if value = "" then .ok .zero
  else
    match hexBytes value.toList with
    | none => .error .malformedHash
    | some raw => if raw.length ≠ 32 then .error .malformedHash else .ok (Digest.ofBytes raw)

def segmentManifestVersion : ℕ := 1

/-- The generations have to be numbered from one. -/
def checkGenerations : ℕ → List Segment → Except VerifyError Unit
  | _, [] => .ok ()
  | position, segment :: segments =>
    if segment.generation ≠ position + 1 then .error (.manifestGap position segment.generation)
    else checkGenerations (position + 1) segments

def loadSegmentManifest (d : Directory) : Except VerifyError SegmentManifest :=
  match d.manifest with
  | none => .ok ⟨segmentManifestVersion, [], none⟩
  | some none => .error .manifestUnreadable
  | some (some manifest) =>
    if manifest.version < 1 ∨ segmentManifestVersion < manifest.version then
      .error (.manifestVersion manifest.version)
    else do
      checkGenerations 0 manifest.segments
      match manifest.pending with
      | none => .ok manifest
      | some pending =>
        if pending.generation ≠ manifest.segments.length + 1 then
          .error (.pendingGap pending.generation manifest.segments.length)
        else .ok manifest

section Verify

variable (k : Codec) (fc : FileCodec) (key : Digest)

/-- The sealed history, with a generation whose roll was interrupted after the rename. -/
def resolveSegments (d : Directory) : Except VerifyError (List Segment) := do
  let manifest ← loadSegmentManifest d
  match manifest.pending with
  | none => .ok manifest.segments
  | some pending =>
    match d.files pending.file with
    | none => .ok manifest.segments
    | some b =>
      if b.length ≠ pending.length ∨ fc.checksum b ≠ pending.plainChecksum then
        .error (.unreadableRoll pending.generation)
      else .ok (manifest.segments ++ [pending])

def segmentEndEpoch (segment : Segment) : ℕ :=
  if segment.endEpoch ≠ 0 then segment.endEpoch
  else if segment.lastSequence ≠ 0 then frameVersionLedgerIntegrity else 0

/-- Where the manifest says that a generation ends. -/
def recordedEnd (segment : Segment) : Except VerifyError Position := do
  let hash ← decodeChainHash segment.endHash
  .ok ⟨segment.lastSequence, segmentEndEpoch segment, hash⟩

def sealedTail (segments : List Segment) : Except VerifyError Position :=
  match segments.getLast? with
  | none => .ok {}
  | some last => recordedEnd last

/-- The frames of a generation, whatever its storage. -/
def openSegment (segment : Segment) (stored : Bytes) : Except VerifyError Bytes :=
  if segment.compressed then
    match fc.gunzip stored with
    | none => .error (.unreadable segment.generation)
    | some plain => .ok plain
  else .ok stored

/-- What a verification read: the records, and the offset and the position after them. -/
structure ChainReport where
  records : List Record
  offset : ℕ
  head : Position
  deriving DecidableEq

/-- One sealed generation after the position its predecessor ended at. -/
def verifySegment (d : Directory) (previous : Position) (segment : Segment) :
    Except VerifyError ChainReport := do
  let start ← decodeChainHash segment.startHash
  if start ≠ previous.hash then .error (.discontinuous segment.generation)
  else
    match d.files segment.file with
    | none => .error (.segmentMissing segment.generation segment.file)
    | some stored =>
      if fc.checksum stored ≠ segment.storedChecksum then
        .error (.storedChecksum segment.generation stored.length)
      else do
        let plain ← openSegment fc segment stored
        match (frameReader k (some key)).scan ⟨previous.sequence, previous.epoch, start⟩ plain with
        | .error err => .error (.scan err)
        | .ok x =>
          if x.torn.isSome then .error (.endsMidFrame segment.generation)
          else if x.consumed ≠ segment.length ∨ x.state.sequence ≠ segment.lastSequence then
            .error (.segmentEnd segment.generation x.consumed x.state.sequence segment.length
              segment.lastSequence)
          else do
            let stop ← decodeChainHash segment.endHash
            if x.state.hash ≠ stop then .error (.chainHead segment.generation)
            else if x.state.epoch = frameVersionRunAttribution ∧
                segment.endEpoch ≠ frameVersionRunAttribution then
              .error (.runAttributionEpoch segment.generation)
            else if segment.endEpoch ≠ 0 ∧ segment.endEpoch ≠ x.state.epoch then
              .error (.endEpoch segment.generation x.state.epoch segment.endEpoch)
            else .ok ⟨x.records, x.consumed, x.state⟩

/-- The loop of `VerifySegments`: a generation before `since` only hands on what the manifest says of
its end. -/
def verifyFrom (d : Directory) (since : ℕ) :
    Position → List Segment → Except VerifyError (List ChainReport)
  | _, [] => .ok []
  | previous, segment :: segments =>
    if segment.generation < since then do
      let next ← recordedEnd segment
      verifyFrom d since next segments
    else do
      let report ← verifySegment k fc key d previous segment
      let reports ← verifyFrom d since report.head segments
      .ok (report :: reports)

def verifySegments (d : Directory) (since : ℕ) : Except VerifyError (List ChainReport) := do
  let segments ← resolveSegments fc d
  verifyFrom k fc key d since {} segments

/-- The active file, and whether it ends in a torn frame. -/
def verifyChain (d : Directory) (path : String) : Except VerifyError (ChainReport × Bool) := do
  let segments ← resolveSegments fc d
  let anchor ← sealedTail segments
  match d.files path with
  | none => .error .noLedger
  | some file =>
    match (frameReader k (some key)).scan anchor file with
    | .error err => .error (.scan err)
    | .ok x => .ok (⟨x.records, x.consumed, x.state⟩, x.torn.isSome)

end Verify

/-! ## What is accepted -/

section Accepted

variable {k : Codec} {fc : FileCodec} {key : Digest} {origin anchor p q : Position}
  {before frames : List (Piece Position Record)} {records : List Record} {d : Directory}

/-- An anchor stands after a part of the chain. -/
structure Trusted (origin : Position) (before : List (Piece Position Record)) (anchor : Position) :
    Prop where
  hash : anchor.hash = (stateAfter origin before).hash
  epoch : before ≠ [] → 0 < anchor.epoch
  sequence : 0 < anchor.epoch → 0 < anchor.sequence

/-- Records of the older epochs were accepted after an anchor, and then frames of the chain. -/
structure Evidence (origin : Position) (before : List (Piece Position Record)) (anchor : Position)
    (unsigned : List Record) (taken : List (Piece Position Record)) (q : Position) : Prop where
  older : ∀ r ∈ unsigned, authenticatedFrameEpoch r.epoch = false
  anchored : 0 < anchor.epoch → unsigned = [] ∧ 0 < q.epoch
  position : Trusted origin (before ++ taken) q

/-- What was accepted so far, up to a position. -/
def Accepted (origin : Position) (frames before : List (Piece Position Record)) (anchor : Position)
    (records : List Record) (q : Position) : Prop :=
  ∃ unsigned taken, records = unsigned ++ taken.map Piece.record ∧ before ++ taken <+: frames ∧
    Evidence origin before anchor unsigned taken q

lemma accepted_nil (h : Trusted origin before anchor) (hbef : before <+: frames) :
    Accepted origin frames before anchor [] anchor :=
  ⟨[], [], rfl, by rwa [List.append_nil], fun _ hr => absurd hr List.not_mem_nil,
    fun hpos => ⟨rfl, hpos⟩, by rwa [List.append_nil]⟩

section

variable (h : Accepted origin frames before anchor records p)

include h

/-- A position with the hash of another that knows of the authenticated frames as well. -/
lemma Accepted.handed (hhash : q.hash = p.hash)
    (hepoch : 0 < p.epoch → 0 < q.epoch) (hseq : 0 < q.epoch → 0 < q.sequence) :
    Accepted origin frames before anchor records q := by
  obtain ⟨unsigned, taken, hrecs, hfrs, hevid⟩ := h
  refine ⟨unsigned, taken, hrecs, hfrs, hevid.older, fun hpos => ?_, ?_, ?_, hseq⟩
  · exact ⟨(hevid.anchored hpos).1, hepoch (hevid.anchored hpos).2⟩
  · rw [hhash, hevid.position.hash]
  · exact fun hne => hepoch (hevid.position.epoch hne)

lemma Accepted.sequence_pos : 0 < p.epoch → 0 < p.sequence := by
  obtain ⟨unsigned, taken, -, -, hevid⟩ := h
  exact hevid.position.sequence

variable (hgenuine : Genuine k key origin frames) (hheads : (heads origin frames).Nodup)

include hgenuine hheads

/-- One frame. -/
lemma Accepted.read {b rest : Bytes} {r : Record} (hunf : Unforged k key frames b)
    (hread : readFrame k (some key) p b = .next q r rest) :
    Accepted origin frames before anchor (records ++ [r]) q := by
  obtain ⟨unsigned, taken, rfl, ⟨later, hfrs⟩, hevid⟩ := h
  have hent := entered_of_read hread
  have hposn := hevid.position
  have hseq : 0 < q.sequence := Nat.zero_lt_of_lt hent.order
  by_cases hsign : authenticatedFrameEpoch r.epoch = true
  · -- It is the next frame of the chain.
    rw [← hfrs] at hgenuine hheads hunf
    obtain ⟨g, later', rfl, -, rfl, hsame⟩ := hgenuine.next hheads hposn.hash hunf hread hsign
    have hepoch : 0 < q.epoch := hent.epoch_pos hsign
    refine ⟨unsigned, taken ++ [g], ?_, ⟨later', ?_⟩, hevid.older,
      fun hpos => ⟨(hevid.anchored hpos).1, hepoch⟩, ?_, fun _ => hepoch, fun _ => hseq⟩
    · rw [List.map_append, List.append_assoc]
      rfl
    · rw [← hfrs]
      simp
    · rw [hsame.2, ← List.append_assoc, stateAfter_append]
      rfl
  · -- No authenticated frame was seen, neither here nor before the anchor.
    have hnone : ¬ 0 < p.epoch := fun hpos => hsign (hent.signed hpos)
    have hold : authenticatedFrameEpoch r.epoch = false := by simpa using hsign
    obtain ⟨rfl, rfl⟩ : before = [] ∧ taken = [] := by
      rw [← List.append_eq_nil_iff]
      by_contra hsome
      exact hnone (hposn.epoch hsome)
    refine ⟨unsigned ++ [r], [], by simp, ⟨later, hfrs⟩, ?_, ?_, ?_, ?_, fun _ => hseq⟩
    · intro r' hr'
      rcases List.mem_append.mp hr' with hearlier | hlast
      · exact hevid.older r' hearlier
      · rwa [List.mem_singleton.mp hlast]
    · exact fun hpos => absurd (hevid.anchored hpos).2 hnone
    · rw [hent.unsigned hold]
      exact hposn.hash
    · exact fun hne => absurd rfl hne

/-- A whole scan. -/
lemma Accepted.steps {b rest : Bytes} {more : List Record} (hunf : Unforged k key frames b)
    (hsteps : (frameReader k (some key)).Steps p b more q rest) :
    Accepted origin frames before anchor (records ++ more) q := by
  induction hsteps generalizing records with
  | refl p b => rwa [List.append_nil]
  | @step p t q b rest' rest r more hread hmore ih =>
    have hfirst := h.read hgenuine hheads hunf hread
    obtain ⟨f, rfl, -⟩ := readFrame_taken hread
    have hrest := ih hfirst (hunf.of_infix (List.suffix_append f rest').isInfix)
    rwa [List.append_assoc, List.singleton_append] at hrest

lemma Accepted.scan {b : Bytes} {x : Scanned Position Record} (hunf : Unforged k key frames b)
    (hscan : (frameReader k (some key)).scan p b = .ok x) :
    Accepted origin frames before anchor (records ++ x.records) x.state := by
  obtain ⟨rest, hsteps, -, -⟩ := Reader.steps_of_scan hscan
  exact h.steps hgenuine hheads hunf hsteps

end

/-! ### The sealed generations -/

/-- What the files of a directory hold, compressed or not, has no code the key holder did not make. -/
def Directory.Unforged (fc : FileCodec) (k : Codec) (key : Digest)
    (frames : List (Piece Position Record)) (d : Directory) : Prop :=
  ∀ name b, d.files name = some b → Wire.Unforged k key frames b ∧
    ∀ plain, fc.gunzip b = some plain → Wire.Unforged k key frames plain

/-- What a generation that was accepted has passed. -/
structure Passed (k : Codec) (fc : FileCodec) (key : Digest) (d : Directory) (previous : Position)
    (segment : Segment) (report : ChainReport) (plain : Bytes) (x : Scanned Position Record) :
    Prop where
  contents : ∃ stored, d.files segment.file = some stored ∧
    openSegment fc segment stored = .ok plain
  scan : (frameReader k (some key)).scan previous plain = .ok x
  report : report = ⟨x.records, x.consumed, x.state⟩
  sequence : x.state.sequence = segment.lastSequence
  hash : decodeChainHash segment.endHash = .ok x.state.hash
  epoch : segment.endEpoch ≠ 0 → segment.endEpoch = x.state.epoch

lemma passed_of_verify {segment : Segment} {report : ChainReport}
    (h : verifySegment k fc key d p segment = .ok report) :
    ∃ plain x, Passed k fc key d p segment report plain x := by
  rw [verifySegment, bind_eq_ok] at h
  obtain ⟨start, -, h⟩ := h
  rw [guard_eq_ok, not_not] at h
  obtain ⟨rfl, h⟩ := h
  split at h
  · exact nomatch h
  rename_i stored hfile
  rw [guard_eq_ok, bind_eq_ok] at h
  obtain ⟨-, plain, hplain, h⟩ := h
  split at h
  · exact nomatch h
  rename_i x hscan
  rw [guard_eq_ok, guard_eq_ok, bind_eq_ok] at h
  obtain ⟨-, hend, stop, hstop, h⟩ := h
  rw [guard_eq_ok, guard_eq_ok, guard_eq_ok, not_not] at h
  obtain ⟨hhash, -, hepoch, hreport⟩ := h
  refine ⟨plain, x, ⟨stored, hfile, hplain⟩, hscan, (Except.ok.inj hreport).symm, ?_, ?_, ?_⟩
  · by_contra hne
    exact hend (.inr hne)
  · rw [hstop, hhash]
  · intro hsome
    by_contra hne
    exact hepoch ⟨hsome, hne⟩

/-- One generation, and what the manifest says of its end. -/
lemma Accepted.segment (h : Accepted origin frames before anchor records p)
    (hgenuine : Genuine k key origin frames) (hheads : (heads origin frames).Nodup)
    (hunf : d.Unforged fc k key frames) {segment : Segment} {report : ChainReport}
    (hvfy : verifySegment k fc key d p segment = .ok report) :
    Accepted origin frames before anchor (records ++ report.records) report.head ∧
      ∃ tail, recordedEnd segment = .ok tail ∧
        Accepted origin frames before anchor (records ++ report.records) tail := by
  obtain ⟨plain, x, ⟨stored, hfile, hopen⟩, hscan, rfl, hseq, hhash, hepoch⟩ :=
    passed_of_verify hvfy
  have hbytes : Wire.Unforged k key frames plain := by
    obtain ⟨hplain, hcmpr⟩ := hunf _ _ hfile
    rw [openSegment] at hopen
    split_ifs at hopen
    · split at hopen
      · exact nomatch hopen
      · rename_i b hgunzip
        exact hcmpr plain (by rw [hgunzip, Except.ok.inj hopen])
    · rwa [← Except.ok.inj hopen]
  have hscnd := h.scan hgenuine hheads hbytes hscan
  refine ⟨hscnd, ⟨segment.lastSequence, segmentEndEpoch segment, x.state.hash⟩, ?_, ?_⟩
  · rw [recordedEnd, hhash]
    rfl
  have hnumd : 0 < x.state.epoch → 0 < segment.lastSequence := by
    rw [← hseq]
    exact hscnd.sequence_pos
  refine hscnd.handed rfl ?_ ?_
  · intro hpos
    show 0 < segmentEndEpoch segment
    rw [segmentEndEpoch]
    split_ifs with hrecd hlast
    · omega
    · decide
    · omega
  · intro hpos
    show 0 < segment.lastSequence
    by_cases hrecd : segment.endEpoch = 0
    · by_contra hzero
      have hnone : segmentEndEpoch segment = 0 := by
        rw [segmentEndEpoch, if_neg (not_not.mpr hrecd), if_neg (by omega)]
      exact absurd hpos (by simp [hnone])
    · refine hnumd ?_
      omega

variable {reports : List ChainReport}

/-- The generations that are verified. -/
lemma Accepted.segments {since : ℕ} {segments : List Segment}
    (h : Accepted origin frames before anchor records p) (hgenuine : Genuine k key origin frames)
    (hheads : (heads origin frames).Nodup) (hunf : d.Unforged fc k key frames)
    (hsince : ∀ s ∈ segments, ¬ s.generation < since)
    (hvfy : verifyFrom k fc key d since p segments = .ok reports) {tail : Position}
    (htail : sealedTail segments = .ok tail) (hne : segments ≠ []) :
    Accepted origin frames before anchor (records ++ reports.flatMap ChainReport.records) tail := by
  induction segments generalizing p records reports with
  | nil => exact absurd rfl hne
  | cons segment segments ih =>
    obtain ⟨hfirst, hrest⟩ := List.forall_mem_cons.mp hsince
    rw [verifyFrom, if_neg hfirst, bind_eq_ok] at hvfy
    obtain ⟨report, hreport, hvfy⟩ := hvfy
    rw [bind_eq_ok] at hvfy
    obtain ⟨more, hmore, hreports⟩ := hvfy
    obtain ⟨hhead, last, hlast, hend⟩ := h.segment hgenuine hheads hunf hreport
    rw [← Except.ok.inj hreports, List.flatMap_cons, ← List.append_assoc]
    cases segments with
    | nil =>
      have hnone : more = [] := (Except.ok.inj hmore).symm
      have hsame : last = tail := Except.ok.inj (hlast.symm.trans htail)
      rw [hnone, List.flatMap_nil, List.append_nil, ← hsame]
      exact hend
    | cons second segments =>
      exact ih hhead hrest hmore (by rwa [sealedTail, List.getLast?_cons_cons] at htail)
        (List.cons_ne_nil _ _)

/-- The generations before the ones that are verified hand on the end of the last of them. -/
lemma verifyFrom_skipped {since : ℕ} {skipped segments : List Segment}
    (hskipped : ∀ s ∈ skipped, s.generation < since)
    (hvfy : verifyFrom k fc key d since p (skipped ++ segments) = .ok reports)
    (hanc : (skipped.getLast?.elim (.ok p) recordedEnd) = .ok anchor) :
    verifyFrom k fc key d since anchor segments = .ok reports := by
  induction skipped generalizing p with
  | nil => rwa [← Except.ok.inj hanc]
  | cons segment skipped ih =>
    obtain ⟨hfirst, hrest⟩ := List.forall_mem_cons.mp hskipped
    rw [List.cons_append, verifyFrom, if_pos hfirst, bind_eq_ok] at hvfy
    obtain ⟨next, hnext, hvfy⟩ := hvfy
    refine ih hrest hvfy ?_
    cases skipped with
    | nil => exact hnext.symm.trans hanc
    | cons second skipped => rwa [List.getLast?_cons_cons] at hanc

lemma sealedTail_eq (segments : List Segment) :
    sealedTail segments = segments.getLast?.elim (.ok {}) recordedEnd := by
  rw [sealedTail]
  cases segments.getLast? with
  | none => rfl
  | some last => rfl

/-! ### The numbering of the generations -/

lemma generations_of_check {position : ℕ} {segments : List Segment}
    (h : checkGenerations position segments = .ok ()) :
    (segments.map Segment.generation) = List.range' (position + 1) segments.length := by
  induction segments generalizing position with
  | nil => rfl
  | cons segment segments ih =>
    rw [checkGenerations, guard_eq_ok, not_not] at h
    rw [List.map_cons, h.1, ih h.2, List.length_cons, List.range'_succ]

/-- A manifest that was read numbers its generations, and the one of a roll after them. -/
lemma generations_of_load {manifest : SegmentManifest} (h : loadSegmentManifest d = .ok manifest) :
    manifest.segments.map Segment.generation = List.range' 1 manifest.segments.length ∧
      ∀ pending ∈ manifest.pending, pending.generation = 1 + manifest.segments.length := by
  rw [loadSegmentManifest] at h
  split at h
  · rw [← Except.ok.inj h]
    exact ⟨rfl, nofun⟩
  · exact nomatch h
  · rw [guard_eq_ok, bind_eq_ok] at h
    obtain ⟨-, ⟨⟩, hcheck, h⟩ := h
    split at h
    · rename_i hpend
      obtain rfl := Except.ok.inj h
      exact ⟨generations_of_check hcheck, by rw [hpend]; nofun⟩
    · rename_i pending hpend
      rw [guard_eq_ok, not_not] at h
      obtain ⟨hnext, h⟩ := h
      obtain rfl := Except.ok.inj h
      refine ⟨generations_of_check hcheck, fun x hx => ?_⟩
      rw [hpend] at hx
      rw [← Option.some.inj hx, hnext, Nat.add_comm]

lemma generations_of_resolve {segments : List Segment} (h : resolveSegments fc d = .ok segments) :
    (segments.map Segment.generation).Pairwise (· < ·) := by
  rw [resolveSegments, bind_eq_ok] at h
  obtain ⟨manifest, hload, h⟩ := h
  obtain ⟨hsegs, hnext⟩ := generations_of_load hload
  have hsealed : (manifest.segments.map Segment.generation).Pairwise (· < ·) := by
    rw [hsegs]
    exact List.pairwise_lt_range'
  split at h
  · rwa [← Except.ok.inj h]
  rename_i pending hpend
  split at h
  · rwa [← Except.ok.inj h]
  · rw [guard_eq_ok] at h
    rw [← Except.ok.inj h.2, List.map_append, hsegs, List.map_singleton, hnext pending hpend,
      ← List.range'_1_concat]
    exact List.pairwise_lt_range'

/-- After the first generation that is verified all are. -/
lemma not_lt_of_dropWhile (since : ℕ) {segments : List Segment}
    (h : (segments.map Segment.generation).Pairwise (· < ·)) :
    ∀ s ∈ segments.dropWhile (fun s => s.generation < since), ¬ s.generation < since := by
  induction segments with
  | nil => exact fun _ hs => absurd hs List.not_mem_nil
  | cons segment segments ih =>
    rw [List.dropWhile_cons]
    split_ifs with hfirst
    · exact ih h.of_cons
    · have hle : since ≤ segment.generation := by simpa using hfirst
      intro s hs
      rcases List.mem_cons.mp hs with rfl | hlater
      · omega
      · have := List.rel_of_pairwise_cons h (List.mem_map_of_mem hlater)
        omega

/-- All sealed generations, from an anchor that was handed on, to the anchor of the active file. -/
lemma Accepted.sealed {since : ℕ} {segments : List Segment}
    (h : Accepted origin frames before anchor [] anchor) (hgenuine : Genuine k key origin frames)
    (hheads : (heads origin frames).Nodup) (hunf : d.Unforged fc k key frames)
    (hgens : (segments.map Segment.generation).Pairwise (· < ·))
    (hanc : sealedTail (segments.takeWhile fun s => s.generation < since) = .ok anchor)
    (hvfy : verifyFrom k fc key d since {} segments = .ok reports) {tail : Position}
    (htail : sealedTail segments = .ok tail) :
    Accepted origin frames before anchor (reports.flatMap ChainReport.records) tail := by
  have hsplit := List.takeWhile_append_dropWhile (p := fun s : Segment => s.generation < since)
    (l := segments)
  have hlater := not_lt_of_dropWhile since hgens
  set skipped := segments.takeWhile fun s => s.generation < since
  set rest := segments.dropWhile fun s => s.generation < since
  have hskipped : ∀ s ∈ skipped, s.generation < since := fun s hs => by
    simpa using List.mem_takeWhile_imp hs
  rw [← hsplit] at hvfy htail
  have hrest := verifyFrom_skipped hskipped hvfy (by rw [← sealedTail_eq, hanc])
  by_cases hnil : rest = []
  · rw [hnil, List.append_nil, hanc] at htail
    rw [hnil] at hrest
    rw [← Except.ok.inj hrest, ← Except.ok.inj htail]
    exact h
  · rw [sealedTail, List.getLast?_append_of_ne_nil _ hnil, ← sealedTail] at htail
    exact h.segments hgenuine hheads hunf hlater hrest htail hnil

end Accepted

/-- The position before everything this build wrote, after a number of records of older ones. -/
def genesis (sequence : ℕ) : Position := ⟨sequence, 0, .zero⟩

/-- **Tamper evidence.**  The holder of the key wrote frames after any records of older builds.  Of
any directory and active file whatsoever, in which no code occurs that the holder of the key did not
make, the sealed generations are verified from any one on and then the active file.  If both are
accepted, and the manifest's end of the generations that are not verified is where the chain was,
the records that were read are some of the epochs without a code, and then a first part of what was
written after that position.  There are none without a code if the anchor is one with an
authenticated frame; and no record follows an authenticated one of a later epoch. -/
theorem accepted_extends_anchor (k : Codec) (fc : FileCodec) (key : Digest) (sequence : ℕ)
    (before after : List (Piece Position Record))
    (hgenuine : Genuine k key (genesis sequence) (before ++ after))
    (hfree : CollisionFree k key (genesis sequence) (before ++ after)) (d : Directory)
    (hunforged : d.Unforged fc k key (before ++ after)) (path : String) (since : ℕ)
    (segments : List Segment) (hsegments : resolveSegments fc d = .ok segments) (anchor : Position)
    (hanchor : sealedTail (segments.takeWhile fun s => s.generation < since) = .ok anchor)
    (htrusted : Trusted (genesis sequence) before anchor) (reports : List ChainReport)
    (hsealed : verifySegments k fc key d since = .ok reports) (report : ChainReport) (torn : Bool)
    (hactive : verifyChain k fc key d path = .ok (report, torn)) :
    let accepted := reports.flatMap ChainReport.records ++ report.records
    (∃ unsigned taken, accepted = unsigned ++ taken.map Piece.record ∧ taken <+: after ∧
      (∀ r ∈ unsigned, authenticatedFrameEpoch r.epoch = false) ∧
      (0 < anchor.epoch → unsigned = [])) ∧
    accepted.Pairwise fun r s => authenticatedFrameEpoch r.epoch = true → r.epoch ≤ s.epoch := by
  intro accepted
  have hheads := hgenuine.heads_nodup hfree
  have hstart : Accepted (genesis sequence) (before ++ after) before anchor [] anchor :=
    accepted_nil htrusted (List.prefix_append _ _)
  rw [verifySegments, hsegments] at hsealed
  rw [verifyChain, hsegments] at hactive
  obtain ⟨_, hsame, hactive⟩ := bind_eq_ok.mp hactive
  obtain rfl := Except.ok.inj hsame
  obtain ⟨tail, htail, hactive⟩ := bind_eq_ok.mp hactive
  have hhist := hstart.sealed hgenuine hheads hunforged (generations_of_resolve hsegments) hanchor
    hsealed htail
  split at hactive
  · exact nomatch hactive
  rename_i file hfile
  split at hactive
  · exact nomatch hactive
  rename_i x hscan
  have hreport : x.records = report.records :=
    congrArg ChainReport.records (Prod.mk.inj (Except.ok.inj hactive)).1
  have hall := hhist.scan hgenuine hheads (hunforged path file hfile).1 hscan
  rw [hreport] at hall
  obtain ⟨unsigned, taken, hrecs, hpre, hevid⟩ := hall
  have htaken : taken <+: after := (List.prefix_append_right_inj before).mp hpre
  refine ⟨⟨unsigned, taken, hrecs, htaken, hevid.older, fun hpos => (hevid.anchored hpos).1⟩, ?_⟩
  -- The older records have no code, and the epochs of the chain do not fall.
  obtain ⟨later, rfl⟩ := htaken
  rw [show accepted = _ from hrecs]
  refine List.pairwise_append.mpr ⟨?_, ?_, ?_⟩
  · exact List.pairwise_of_forall_mem_list fun r hr s _ hsign =>
      absurd (hevid.older r hr) (by rw [hsign]; exact Bool.noConfusion)
  · have hepochs := (hgenuine.epochs (Nat.zero_le _)).1
    rw [List.map_append, List.map_append, List.pairwise_append, List.pairwise_append] at hepochs
    exact (List.pairwise_map.mp hepochs.2.1.1).map _ fun f g hle _ => hle
  · exact fun r hr s _ hsign => absurd (hevid.older r hr) (by rw [hsign]; exact Bool.noConfusion)

namespace Sample

def fileCodec : FileCodec where
  checksum _ := "sum"
  gunzip _ := none

def generation : Segment where
  generation := 1
  file := "ledger-1.wal"
  lastSequence := 1
  length := 89
  endHash := "3a3a3a3a3a3a3a3a3a3a3a3a3a3a3a3a3a3a3a3a3a3a3a3a3a3a3a3a3a3a3a3a"
  endEpoch := 5
  plainChecksum := "sum"
  storedChecksum := "sum"

/-- The Primary's frame in a sealed generation, and an empty active file. -/
def sealed : Directory where
  manifest := some (some { version := 1, segments := [generation] })
  files name :=
    if name = "ledger-1.wal" then some (bytesOf primary)
    else if name = "ledger.wal" then some [] else none

/-- No sealed generation, and an active file of one frame without a code. -/
def replaced : Directory where
  manifest := none
  files name := if name = "ledger.wal" then some unsigned else none

def report (frames : List (Piece Position Record)) : ChainReport :=
  ⟨frames.map Piece.record, (bytesOf frames).length, stateAfter {} frames⟩

lemma collisionFree_primary : CollisionFree codec key (genesis 0) primary where
  hmac f hf g hg _ := by
    rw [List.mem_singleton.mp hf, List.mem_singleton.mp hg]
  sha256 f hf g hg _ := by
    rw [List.mem_singleton.mp hf, List.mem_singleton.mp hg]
  start := by decide +kernel

lemma unforged_sealed : sealed.Unforged fileCodec codec key primary := by
  intro name b hb
  refine ⟨?_, fun _ hplain => nomatch hplain⟩
  simp only [sealed] at hb
  split_ifs at hb
  · rw [← Option.some.inj hb]
    exact unforged_primary
  · rw [← Option.some.inj hb]
    exact unforged_primary.of_infix List.nil_infix

lemma unforged_replaced : replaced.Unforged fileCodec codec key primary := by
  intro name b hb
  refine ⟨?_, fun _ hplain => nomatch hplain⟩
  simp only [replaced] at hb
  split_ifs at hb
  rw [← Option.some.inj hb]
  exact unforged_of_slices (by decide +kernel)

end Sample

theorem accepted_extends_anchor_sealed :
    let accepted := (Sample.report Sample.primary).records ++ []
    (∃ unsigned taken, accepted = unsigned ++ taken.map Piece.record ∧ taken <+: Sample.primary ∧
      (∀ r ∈ unsigned, authenticatedFrameEpoch r.epoch = false) ∧
      (0 < ({} : Position).epoch → unsigned = [])) ∧
    accepted.Pairwise fun r s => authenticatedFrameEpoch r.epoch = true → r.epoch ≤ s.epoch :=
  accepted_extends_anchor Sample.codec Sample.fileCodec Sample.key 0 [] Sample.primary
    Sample.genuine_primary Sample.collisionFree_primary Sample.sealed Sample.unforged_sealed
    "ledger.wal" 0 [Sample.generation] (by decide +kernel) {} (by decide +kernel)
    ⟨rfl, fun h => absurd rfl h, fun h => absurd h (by decide)⟩ [Sample.report Sample.primary]
    (by decide +kernel) ⟨[], 0, stateAfter {} Sample.primary⟩ false (by decide +kernel)

/-- A directory in which the history was replaced by a frame without a code is accepted from the
start, with a record that the holder of the key did not write. -/
theorem unsigned_history_accepted : Genuine Sample.codec Sample.key (genesis 0) Sample.primary ∧
      CollisionFree Sample.codec Sample.key (genesis 0) Sample.primary ∧
      Sample.replaced.Unforged Sample.fileCodec Sample.codec Sample.key Sample.primary ∧
      verifySegments Sample.codec Sample.fileCodec Sample.key Sample.replaced 0 = .ok [] ∧
      ∃ report, verifyChain Sample.codec Sample.fileCodec Sample.key Sample.replaced "ledger.wal" =
          .ok (report, false) ∧
        report.records ≠ [] ∧ ¬ report.records <+: Sample.primary.map Piece.record := by
  refine ⟨Sample.genuine_primary, Sample.collisionFree_primary, Sample.unforged_replaced,
    by decide +kernel, ⟨[⟨1, frameVersionLegacy, Sample.settlement "UTC", .zero, .zero⟩], 25,
      ⟨1, 0, .zero⟩⟩, ?_⟩
  decide +kernel

end Wire

end Ledger

end Halro
