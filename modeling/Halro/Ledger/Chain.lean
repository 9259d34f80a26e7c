import Halro.Ledger.Wire
import Mathlib.Data.List.Nodup

/-!
# Authenticated frames and the chain they form (`internal/ledger/log.go`)

What the keyed reader has checked of an authenticated frame is that it follows the running hash and
that its code is that of its message.  If every message with a valid code was signed by the holder of
the key (`Unforged`), a frame the reader takes is one of the key holder's; and since the heads of the
key holder's chain differ, it is the one that comes next (`Genuine.next`).
-/

namespace Halro

open Framework Replication

namespace Ledger

namespace Wire

variable {k : Codec}

/-! ## What a taken frame is -/

variable {b : Bytes}

lemma Digest.toList_ofBytes (h : b.length = 32) : (Digest.ofBytes b).toList = b := by
  refine List.ext_getElem (by simp [h]) fun i hi hi' => ?_
  simp [Digest.ofBytes, List.getD_eq_getElem?_getD, List.getElem?_eq_getElem hi']

/-- The fields a header stands for. -/
def headerOf (header : Bytes) : Header where
  epoch := uint (slice header 4 1)
  kind := EventKind.ofCode (uint (slice header 5 1))
  sequence := uint (slice header 8 8)
  payloadLength := uint (slice header 16 4)

variable {p : Position}

/-- A header that was accepted says what its bytes say. -/
lemma readHeader_ok {header : Bytes} {h : Header} (hread : readHeader p header = .ok h) :
    h = headerOf header ∧ p.sequence < h.sequence ∧
      (0 < p.epoch → authenticatedFrameEpoch h.epoch = true) ∧
      (p.epoch = frameVersionRunAttribution → h.epoch ≠ frameVersionLedgerIntegrity) := by
  simp only [readHeader, guard_eq_ok, Except.ok.injEq] at hread
  obtain ⟨-, -, hlegacy, hdowngrade, -, hseq, -, rfl⟩ := hread
  refine ⟨rfl, not_le.mp hseq, fun hpos => ?_, fun hp hepoch => hdowngrade ⟨hp, hepoch⟩⟩
  by_contra hfalse
  exact hlegacy ⟨hpos, by simpa using hfalse⟩

/-- What every taken frame has passed, of whatever epoch, and how the position goes on. -/
structure Entered (p : Position) (b : Bytes) (q : Position) (r : Record) : Prop where
  epoch : r.epoch = uint (slice b 4 1)
  signed : 0 < p.epoch → authenticatedFrameEpoch r.epoch = true
  downgrade : p.epoch = frameVersionRunAttribution → r.epoch ≠ frameVersionLedgerIntegrity
  order : p.sequence < q.sequence
  sequence : q.sequence = r.sequence
  after : q.epoch = (p.enter r.epoch).epoch
  unsigned : authenticatedFrameEpoch r.epoch = false → q.hash = p.hash

variable {q : Position} {r : Record}

variable {key : Option Digest}

lemma entered_of_read {rest : Bytes}
    (hread : readFrame k key p b = .next q r rest) : Entered p b q r := by
  obtain ⟨h, hhdr, -, hbody, -⟩ := readFrame_next.mp hread
  obtain ⟨hflds, hseq, hsign, hdowngrade⟩ := readHeader_ok hhdr
  simp only [readBody, guard_eq_ok] at hbody
  obtain ⟨-, -, -, hbody⟩ := hbody
  rcases hevent : readEvent k h (slice (b.drop frameHeaderSize) h.tailSize h.payloadLength) with
    err | event
  · rw [hevent] at hbody
    cases hbody
  · rw [hevent] at hbody
    obtain ⟨rfl, rfl⟩ := Prod.mk.inj (Except.ok.inj hbody)
    refine ⟨?_, hsign, hdowngrade, hseq, rfl, rfl, fun hfalse => ?_⟩
    · have hslice : slice (b.take frameHeaderSize) 4 1 = slice b 4 1 := by
        rw [slice, slice, List.drop_take, List.take_take, min_eq_left (by decide)]
      rw [hflds, ← hslice]
      rfl
    · simp only [show authenticatedFrameEpoch h.epoch = false from hfalse, Bool.false_and,
        Bool.false_eq_true, if_false]

/-- After an authenticated frame the position has an epoch. -/
lemma Entered.epoch_pos (h : Entered p b q r)
    (hsign : authenticatedFrameEpoch r.epoch = true) : 0 < q.epoch := by
  have hpos : 0 < r.epoch := by
    rcases Nat.eq_zero_or_pos r.epoch with hzero | hpos
    · rw [hzero] at hsign
      exact nomatch hsign
    · exact hpos
  rw [h.after, Position.enter]
  split_ifs with hlower
  · exact hpos
  · simp only [hsign, Bool.true_and, decide_eq_true_eq, not_lt] at hlower
    omega

/-- The body counts only as far as the frame goes. -/
lemma readBody_congr {h : Header} {header body body' : Bytes}
    (hsame : ∀ o n, o + n ≤ h.tailSize + h.payloadLength → slice body o n = slice body' o n) :
    readBody k key p h header body = readBody k key p h header body' := by
  have hpay := hsame h.tailSize h.payloadLength le_rfl
  by_cases hauth : authenticatedFrameEpoch h.epoch = true
  · have htail : h.tailSize = 64 := by rw [Header.tailSize, if_pos hauth]; rfl
    have hprev := hsame 0 32 (by omega)
    have hmac := hsame 32 32 (by omega)
    simp only [readBody, hpay, hprev, hmac]
  · simp only [readBody, hpay, if_neg hauth]

lemma slice_take_append {xs more : Bytes} {n o m : ℕ} (h : o + m ≤ n) (hn : n ≤ xs.length) :
    slice (xs.take n ++ more) o m = slice xs o m := by
  rw [slice, slice, List.drop_append_of_le_length (by rw [List.length_take]; omega),
    List.take_append_of_le_length (by rw [List.length_drop, List.length_take]; omega), List.drop_take,
    List.take_take, min_eq_left (by omega)]

/-- A taken frame is the first part of the bytes, and is taken whatever comes after it. -/
lemma readFrame_taken {rest : Bytes} (hread : readFrame k key p b = .next q r rest) :
    ∃ f, b = f ++ rest ∧ ∀ more, readFrame k key p (f ++ more) = .next q r more := by
  obtain ⟨h, hhdr, hlen, hbody, hrest⟩ := readFrame_next.mp hread
  set size := frameHeaderSize + (h.tailSize + h.payloadLength) with hsize
  refine ⟨b.take size, ?_, fun more => ?_⟩
  · rw [hrest, List.drop_drop, List.take_append_drop]
  · have hhead : (b.take size ++ more).take frameHeaderSize = b.take frameHeaderSize := by
      rw [List.take_append_of_le_length (by rw [List.length_take]; omega), List.take_take,
        min_eq_left (by omega)]
    have hdrop : (b.take size ++ more).drop frameHeaderSize =
        (b.drop frameHeaderSize).take (h.tailSize + h.payloadLength) ++ more := by
      rw [List.drop_append_of_le_length (by rw [List.length_take]; omega), List.drop_take,
        show size - frameHeaderSize = h.tailSize + h.payloadLength by omega]
    have henough : h.tailSize + h.payloadLength ≤ (b.drop frameHeaderSize).length := by
      rw [List.length_drop]
      omega
    refine readFrame_next.mpr ⟨h, ?_, ?_, ?_, ?_⟩
    · rw [hhead]
      exact hhdr
    · rw [List.length_append, List.length_take]
      omega
    · rw [hhead, hdrop, ← hbody]
      exact readBody_congr fun o n hon => slice_take_append hon henough
    · rw [hdrop, List.drop_append_of_le_length (by rw [List.length_take]; omega), List.drop_take,
        Nat.sub_self, List.take_zero, List.nil_append]

/-- The bytes of a frame without its code: what the code is made from. -/
def message (f : Bytes) : Bytes := f.take 56 ++ f.drop 88

/-- The code of a frame. -/
def frameCode (f : Bytes) : Digest := Digest.ofBytes (slice f 56 32)

/-- What the keyed reader has checked of an authenticated frame, and what it made of it. -/
structure Authentic (k : Codec) (key : Digest) (p : Position) (f : Bytes) (q : Position)
    (r : Record) : Prop where
  length : 88 ≤ f.length
  link : slice f 24 32 = p.hash.toList
  code : frameCode f = k.hmac key (message f)
  payload : readEvent k (headerOf (f.take 24)) (f.drop 88) = .ok r.event
  record : r = ⟨(headerOf (f.take 24)).sequence, (headerOf (f.take 24)).epoch, r.event, p.hash,
    k.sha256 (frameCode f)⟩
  after : q.sequence = r.sequence ∧ q.hash = r.hash ∧ q.epoch = (p.enter r.epoch).epoch
  order : p.sequence < r.sequence

lemma authentic_of_read {key : Digest} {f : Bytes}
    (hread : readFrame k (some key) p f = .next q r [])
    (hepoch : authenticatedFrameEpoch r.epoch = true) : Authentic k key p f q r := by
  obtain ⟨h, hhdr, hlen, hbody, hrest⟩ := readFrame_next.mp hread
  obtain ⟨hflds, hseq, -, -⟩ := readHeader_ok hhdr
  have hpos : frameHeaderSize = 24 := rfl
  have hflds' : h = headerOf (f.take 24) := hflds
  simp only [readBody, guard_eq_ok] at hbody
  obtain ⟨-, hlink, hmac, hbody⟩ := hbody
  rcases hevent : readEvent k h (slice (f.drop frameHeaderSize) h.tailSize h.payloadLength) with
    err | event
  · rw [hevent] at hbody
    cases hbody
  rw [hevent] at hbody
  obtain ⟨rfl, rfl⟩ := Prod.mk.inj (Except.ok.inj hbody)
  have hauth : authenticatedFrameEpoch h.epoch = true := hepoch
  have htail : h.tailSize = 64 := by rw [Header.tailSize, if_pos hauth]; rfl
  have hexact : f.length = 88 + h.payloadLength := by
    have hnil := congrArg List.length hrest
    rw [List.length_nil, List.length_drop, List.length_drop] at hnil
    omega
  simp only [hauth, if_true, Option.isSome_some, true_and, not_not, Option.any_some,
    decide_not, Bool.not_eq_true', decide_eq_false_iff_not] at hlink hmac
  have hprev : slice (f.drop frameHeaderSize) 0 32 = slice f 24 32 := by
    rw [slice, slice, List.drop_drop, hpos]
  have hcode : slice (f.drop frameHeaderSize) 32 32 = slice f 56 32 := by
    rw [slice, slice, List.drop_drop, hpos]
  have hpay : slice (f.drop frameHeaderSize) h.tailSize h.payloadLength = f.drop 88 := by
    rw [slice, List.drop_drop, htail, hpos, List.take_of_length_le]
    rw [List.length_drop]
    omega
  have hdig : (Digest.ofBytes (slice f 24 32)).toList = slice f 24 32 :=
    Digest.toList_ofBytes (length_slice (by omega))
  have hmsg : f.take frameHeaderSize ++ slice f 24 32 ++ f.drop 88 = message f := by
    rw [message, hpos, slice, show 56 = 24 + 32 from rfl, List.take_add]
  rw [hprev] at hlink
  rw [hprev, hcode, hpay, hdig, hmsg] at hmac
  rw [hpay, hflds] at hevent
  refine ⟨by omega, ?_, hmac.symm, hevent, ?_, ⟨rfl, ?_, rfl⟩, hseq⟩
  · rw [← hdig, hlink]
  · simp only [hauth, if_true, hprev, hcode, hlink, frameCode, ← hflds']
  · simp only [hauth, if_true, Option.isSome_some, Bool.and_self]

/-- Two frames with the same message are the same frame, whatever positions they were read at. -/
lemma Authentic.eq_of_message {key : Digest} {p p' q' : Position} {f g : Bytes} {r' : Record}
    (hf : Authentic k key p f q r) (hg : Authentic k key p' g q' r') (h : message f = message g) :
    f = g ∧ p.hash = p'.hash := by
  have hlf := hf.length
  have hlg := hg.length
  have htake : f.take 56 = g.take 56 := (List.append_inj h (by simp; omega)).1
  have hdrop : f.drop 88 = g.drop 88 := (List.append_inj h (by simp; omega)).2
  have hlink : slice f 24 32 = slice g 24 32 := by
    have hsame := congrArg (List.drop 24) htake
    rwa [List.drop_take, List.drop_take] at hsame
  have hcode : slice f 56 32 = slice g 56 32 := by
    have hsame : frameCode f = frameCode g := by rw [hf.code, hg.code, h]
    have hlist := congrArg Vector.toList hsame
    rwa [frameCode, frameCode, Digest.toList_ofBytes (length_slice (by omega)),
      Digest.toList_ofBytes (length_slice (by omega))] at hlist
  have hsplit : ∀ b : Bytes, b = b.take 56 ++ slice b 56 32 ++ b.drop 88 := by
    intro b
    rw [slice, ← List.take_add, List.take_append_drop]
  refine ⟨?_, ?_⟩
  · rw [hsplit f, hsplit g, htake, hcode, hdrop]
  · rw [← Digest.ofBytes_toList p.hash, ← Digest.ofBytes_toList p'.hash, ← hf.link, ← hg.link, hlink]

/-- What is read from a frame does not depend on where it is read. -/
lemma Authentic.same {key : Digest} {p p' q' : Position} {f : Bytes} {r' : Record}
    (h : Authentic k key p f q r) (h' : Authentic k key p' f q' r') : r = r' ∧ SameHead q' q := by
  have hhash : p.hash = p'.hash := (h.eq_of_message h' rfl).2
  have hevent : r.event = r'.event := Except.ok.inj (h.payload.symm.trans h'.payload)
  have hrec : r = r' := by rw [h.record, h'.record, hevent, hhash]
  refine ⟨hrec, ?_, ?_⟩
  · rw [h.after.1, h'.after.1, hrec]
  · rw [h.after.2.1, h'.after.2.1, hrec]

/-! ## The chain of the key holder -/

/-- Frames the holder of the key wrote one after the other from a position. -/
def Genuine (k : Codec) (key : Digest) : Position → List (Piece Position Record) → Prop
  | _, [] => True
  | p, g :: frames => readFrame k (some key) p g.bytes = .next g.after g.record [] ∧
      authenticatedFrameEpoch g.record.epoch = true ∧ Genuine k key g.after frames

/-- The hashes a chain goes through. -/
def heads (p : Position) (frames : List (Piece Position Record)) : List Digest :=
  p.hash :: frames.map fun g => g.after.hash

/-- No part of a byte string is a message with a valid code that the holder of the key did not sign. -/
def Unforged (k : Codec) (key : Digest) (frames : List (Piece Position Record)) (b : Bytes) : Prop :=
  ∀ f, f <:+: b → 88 ≤ f.length → frameCode f = k.hmac key (message f) →
    ∃ g ∈ frames, message g.bytes = message f

/-- No two of the messages have one code, no two of the codes one hash, and none the hash the chain
starts with. -/
structure CollisionFree (k : Codec) (key : Digest) (p : Position)
    (frames : List (Piece Position Record)) : Prop where
  hmac : ∀ f ∈ frames, ∀ g ∈ frames, k.hmac key (message f.bytes) = k.hmac key (message g.bytes) →
    message f.bytes = message g.bytes
  sha256 : ∀ f ∈ frames, ∀ g ∈ frames,
    k.sha256 (frameCode f.bytes) = k.sha256 (frameCode g.bytes) → frameCode f.bytes = frameCode g.bytes
  start : ∀ g ∈ frames, k.sha256 (frameCode g.bytes) ≠ p.hash

section Genuine

variable {key : Digest} {p : Position} {frames : List (Piece Position Record)}

lemma Unforged.of_infix {c : Bytes} (h : Unforged k key frames b) (hin : c <:+: b) :
    Unforged k key frames c :=
  fun f hf => h f (hf.trans hin)

/-- It is enough to look at the parts that are long enough for a frame. -/
lemma unforged_of_slices (h : ∀ i < b.length - 87, ∀ n < b.length - 87,
      frameCode (slice b i (88 + n)) = k.hmac key (message (slice b i (88 + n))) →
        ∃ g ∈ frames, message g.bytes = message (slice b i (88 + n))) :
    Unforged k key frames b := by
  rintro f ⟨xs, ys, rfl⟩ hlen hcode
  have hsize : (xs ++ f ++ ys).length = xs.length + f.length + ys.length := by
    rw [List.length_append, List.length_append]
  have hslice : slice (xs ++ f ++ ys) xs.length (88 + (f.length - 88)) = f := by
    rw [slice, List.append_assoc, List.drop_left, show 88 + (f.length - 88) = f.length by omega,
      List.take_left]
  have hpart := h xs.length (by omega) (f.length - 88) (by omega)
  rw [hslice] at hpart
  exact hpart hcode

variable {xs ys : List (Piece Position Record)}

lemma genuine_append :
    Genuine k key p (xs ++ ys) ↔ Genuine k key p xs ∧ Genuine k key (stateAfter p xs) ys := by
  induction xs generalizing p with
  | nil => simp [Genuine, stateAfter]
  | cons g xs ih => simp [Genuine, ih, and_assoc]

/-- A frame of the chain at its place. -/
lemma Genuine.authentic {g : Piece Position Record} (h : Genuine k key p (xs ++ g :: ys)) :
    Authentic k key (stateAfter p xs) g.bytes g.after g.record := by
  obtain ⟨-, hread, hepoch, -⟩ := genuine_append.mp h
  exact authentic_of_read hread hepoch

section

variable (h : Genuine k key p frames)

include h

/-- The frames of a chain are read where they stand. -/
lemma Genuine.written : (frameReader k (some key)).Written SameHead p frames := by
  induction frames generalizing p with
  | nil => trivial
  | cons g frames ih =>
    obtain ⟨hread, -, hfrs⟩ := h
    obtain ⟨f, hf, htaken⟩ := readFrame_taken hread
    rw [List.append_nil] at hf
    subst hf
    exact ⟨reads_of_next htaken, ih hfrs⟩

/-- The sequences of a chain rise. -/
lemma Genuine.sequences :
    (p.sequence :: frames.map fun g => g.record.sequence).Pairwise (· < ·) := by
  induction frames generalizing p with
  | nil => exact List.pairwise_singleton _ _
  | cons g frames ih =>
    have hfirst := authentic_of_read h.1 h.2.1
    have hrest := ih h.2.2
    rw [hfirst.after.1] at hrest
    refine List.pairwise_cons.mpr ⟨fun n hn => ?_, hrest⟩
    rcases List.mem_cons.mp hn with rfl | hlater
    · exact hfirst.order
    · exact hfirst.order.trans (List.rel_of_pairwise_cons hrest hlater)

/-- No frame is after the position the chain ends at. -/
lemma Genuine.sequence_le : p.sequence ≤ (stateAfter p frames).sequence ∧
      ∀ g ∈ frames, g.record.sequence ≤ (stateAfter p frames).sequence := by
  induction frames generalizing p with
  | nil => exact ⟨le_rfl, fun _ hg => absurd hg List.not_mem_nil⟩
  | cons g frames ih =>
    have hfirst := authentic_of_read h.1 h.2.1
    obtain ⟨hlast, hrest⟩ := ih h.2.2
    rw [hfirst.after.1] at hlast
    exact ⟨hfirst.order.le.trans hlast, List.forall_mem_cons.mpr ⟨hlast, hrest⟩⟩

lemma Genuine.authentic_of_mem {g : Piece Position Record}
    (hg : g ∈ frames) : ∃ q, Authentic k key q g.bytes g.after g.record := by
  obtain ⟨xs, ys, rfl⟩ := List.append_of_mem hg
  exact ⟨_, h.authentic⟩

/-- Without collisions the hashes of the chain differ. -/
lemma Genuine.heads_nodup (hfree : CollisionFree k key p frames) : (heads p frames).Nodup := by
  have hhash : ∀ g ∈ frames, g.after.hash = k.sha256 (frameCode g.bytes) := by
    intro g hg
    obtain ⟨q, hq⟩ := h.authentic_of_mem hg
    rw [hq.after.2.1, hq.record]
  have hseqs : (frames.map fun g => g.record.sequence).Nodup := h.sequences.of_cons.imp Nat.ne_of_lt
  have hfirst : p.hash ∉ frames.map fun g => g.after.hash := by
    intro hmem
    obtain ⟨g, hg, hsame⟩ := List.mem_map.mp hmem
    exact hfree.start g hg ((hhash g hg).symm.trans hsame)
  refine List.nodup_cons.mpr ⟨hfirst, List.Nodup.map_on ?_ hseqs.of_map⟩
  -- Frames with one hash have one message, and so one sequence.
  intro f hf g hg hsame
  obtain ⟨q, hq⟩ := h.authentic_of_mem hf
  obtain ⟨q', hq'⟩ := h.authentic_of_mem hg
  have hcode : frameCode f.bytes = frameCode g.bytes := by
    refine hfree.sha256 f hf g hg ?_
    rw [← hhash f hf, ← hhash g hg, hsame]
  have hmsg : message f.bytes = message g.bytes :=
    hfree.hmac f hf g hg (by rw [← hq.code, ← hq'.code, hcode])
  have hbytes : f.bytes = g.bytes := (hq.eq_of_message hq' hmsg).1
  refine List.inj_on_of_nodup_map hseqs hf hg ?_
  rw [hq.record, hq'.record, hbytes]

/-- The epochs of a chain that starts before the authenticated ones do not fall. -/
lemma Genuine.epochs (hp : p.epoch ≤ frameVersionRunAttribution) :
    (frames.map fun g => g.record.epoch).Pairwise (· ≤ ·) ∧
      ∀ g ∈ frames, p.epoch ≤ g.record.epoch := by
  induction frames generalizing p with
  | nil => exact ⟨List.Pairwise.nil, fun _ hg => absurd hg List.not_mem_nil⟩
  | cons g frames ih =>
    obtain ⟨hread, hsign, hfrs⟩ := h
    have hent := entered_of_read hread
    have hsome : g.record.epoch = frameVersionLedgerIntegrity ∨
        g.record.epoch = frameVersionRunAttribution := by
      simpa [authenticatedFrameEpoch] using hsign
    have hfour : frameVersionLedgerIntegrity = 4 := rfl
    have hfive : frameVersionRunAttribution = 5 := rfl
    have hle : p.epoch ≤ g.record.epoch := by
      rcases hsome with h4 | h5
      · have hnot : p.epoch ≠ frameVersionRunAttribution := fun h => hent.downgrade h h4
        omega
      · omega
    have hafter : g.after.epoch = g.record.epoch := by
      rw [hent.after, Position.enter, hsign, Bool.true_and]
      split_ifs with hlt
      · rfl
      · exact le_antisymm hle (not_lt.mp (of_decide_eq_false (by simpa using hlt)))
    obtain ⟨hrest, hlater⟩ := ih hfrs (by omega)
    rw [hafter] at hlater
    refine ⟨List.pairwise_cons.mpr ⟨?_, hrest⟩, List.forall_mem_cons.mpr ⟨hle, ?_⟩⟩
    · intro epoch hepoch
      obtain ⟨f, hf, rfl⟩ := List.mem_map.mp hepoch
      exact hlater f hf
    · exact fun f hf => hle.trans (hlater f hf)

end

lemma head_stateAfter (p : Position) (xs ys : List (Piece Position Record)) :
    (heads p (xs ++ ys))[xs.length]? = some (stateAfter p xs).hash := by
  induction xs generalizing p with
  | nil => rfl
  | cons g xs ih =>
    exact ih g.after

/-- The keyed reader takes nothing but the next frame of the chain. -/
theorem Genuine.next (h : Genuine k key p (xs ++ ys)) (hheads : (heads p (xs ++ ys)).Nodup)
    {q' : Position} {rest : Bytes} (hhash : q.hash = (stateAfter p xs).hash)
    (hunf : Unforged k key (xs ++ ys) b) (hread : readFrame k (some key) q b = .next q' r rest)
    (hepoch : authenticatedFrameEpoch r.epoch = true) :
    ∃ g ys', ys = g :: ys' ∧ b = g.bytes ++ rest ∧ r = g.record ∧ SameHead g.after q' := by
  obtain ⟨f, hb, htaken⟩ := readFrame_taken hread
  have hf : readFrame k (some key) q f = .next q' r [] := by
    have hnil := htaken []
    rwa [List.append_nil] at hnil
  have hauth := authentic_of_read hf hepoch
  obtain ⟨g, hg, hmsg⟩ := hunf f (hb ▸ List.infix_append' [] f rest) hauth.length hauth.code
  obtain ⟨us, vs, hsplit⟩ := List.append_of_mem hg
  have hgenu : Authentic k key (stateAfter p us) g.bytes g.after g.record := by
    rw [hsplit] at h
    exact h.authentic
  obtain ⟨rfl, hsame⟩ := hauth.eq_of_message hgenu hmsg.symm
  -- The heads of the chain differ, so the frame is at the place the reader is at.
  have hplace : us.length = xs.length := by
    have hu := head_stateAfter p us (g :: vs)
    have hx := head_stateAfter p xs ys
    rw [← hsplit, ← hsame, hhash] at hu
    have hlt : us.length < (heads p (xs ++ ys)).length := (List.getElem?_eq_some_iff.mp hu).1
    exact (List.getElem?_inj hlt hheads).mp (hu.trans hx.symm)
  obtain ⟨rfl, hys⟩ := List.append_inj hsplit.symm hplace
  obtain ⟨hrec, hafter⟩ := hauth.same hgenu
  exact ⟨g, vs, hys.symm, hb, hrec, hafter⟩

end Genuine

end Wire

end Ledger

end Halro
