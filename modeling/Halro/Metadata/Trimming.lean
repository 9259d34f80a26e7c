import Halro.Metadata.Directory
import Halro.Metadata.Scan

/-!
# Trimming is transparent (`internal/metadatajournal/trim.go`)

A journal that was trimmed is compared with the journal it was before.  Whatever is done to both from
then on, appends, trims, writes that stop inside a frame and openings that cut a torn frame off, is
accepted or refused alike, with the same error, and leaves the same head and the same frames above
the cut.  The anchors are not compared: theirs counts what was cut off, and each cut off anchor is
counted as well.
-/

namespace Halro

open Framework Replication

namespace Metadata

variable {V : Type}

/-! ## What is done to a journal -/

inductive Change (V : Type)
  /-- `Open` and `Append`. -/
  | append (ops : List (Op V))
  | trim (through : ℕ)
  /-- A write stops at some byte of a frame. -/
  | tear
  /-- `Open`, which cuts a torn frame off. -/
  | reopen

namespace JournalFile

/-- The frames that record a transaction. -/
def operations (file : JournalFile V) : List (Frame V) := file.frames.filter (·.isOperations)

variable (k : Codec V) (key : Digest)

/-- What an append asks of its operations. -/
def checkOps (ops : List (Op V)) : Except StoreError Unit :=
  if ops = [] then .error .recordsNothing
  else do
    validateOps ops
    let bytes := k.payloadLength (.operations ops)
    if bytes > maxPayloadSize then .error (.overFrameLimit bytes) else .ok ()

/-- The file after a change that is not refused. -/
def change (file : JournalFile V) : Change V → Except StoreError (JournalFile V)
  | .append ops =>
    match scan k key file, checkOps k ops with
    | .error err, _ => .error err
    | .ok _, .error err => .error err
    | .ok (head, _), .ok () => .ok ⟨file.frames ++ [operationsFrame k key head ops], false⟩
  | .trim through =>
    match planTrim k key through file with
    | .error err => .error err
    | .ok none => .ok file
    | .ok (some cut) => .ok (cut.file k key through)
  | .tear => .ok { file with torn := true }
  | .reopen =>
    match scan k key file with
    | .error err => .error err
    | .ok _ => .ok { file with torn := false }

/-- A refused change leaves the file as it is. -/
def changed (file : JournalFile V) (c : Change V) : JournalFile V :=
  match file.change k key c with
  | .error _ => file
  | .ok file => file

/-- The answer to a change. -/
def answer (file : JournalFile V) (c : Change V) : Option StoreError :=
  match file.change k key c with
  | .error err => some err
  | .ok _ => none

/-- The answers to changes one after the other. -/
def answers : JournalFile V → List (Change V) → List (Option StoreError)
  | _, [] => []
  | file, c :: changes => file.answer k key c :: answers (file.changed k key c) changes

/-- The journal a new epoch starts with. -/
def opened (header : EpochHeader) : JournalFile V := ⟨[epochFrame k key header], false⟩

end JournalFile

open JournalFile

variable {k : Codec V} {key : Digest} {file : JournalFile V} {h : Head} {through : ℕ}

/-! ## One file -/

/-- The recorded frames of a file are numbered from its cut. -/
lemma Reads.filter_operations (hreads : Reads k key file.frames h) (cut : ℕ) :
    file.operations.filter (cut < ·.sequence) = file.operations.drop (cut - h.trimmedThrough) := by
  obtain ⟨first, rest, hfrs, hfirst, hstart, hrest⟩ := hreads.opening
  have hnumd := numbered_of_scanFrom hrest
  rw [operations, hfrs, filter_isOperations hfirst hrest, hnumd.trimmed, ← hstart]
  exact (filter_of_sequences cut hnumd.sequences).2

/-- A cut between the last one and the end of the file is made. -/
lemma Reads.trim (hreads : Reads k key file.frames h) (htorn : file.torn = false)
    (hpast : h.trimmedThrough ≤ through) (hend : through ≤ h.sequence) :
    ∃ next, file.change k key (.trim through) = .ok next ∧ next.torn = false ∧
      Reads k key next.frames { h with trimmedThrough := through } ∧
      next.operations = file.operations.filter (through < ·.sequence) := by
  rw [hreads.filter_operations]
  have hplan := hreads.planTrim_eq htorn through
  rw [if_neg (not_lt.mpr hpast), if_neg (not_lt.mpr hend)] at hplan
  by_cases hsame : through = h.trimmedThrough
  · rw [if_pos hsame, ite_self] at hplan
    refine ⟨file, by rw [change, hplan], htorn, hsame ▸ hreads, ?_⟩
    rw [hsame, Nat.sub_self, List.drop_zero]
  · rw [if_neg (by omega), if_neg hsame] at hplan
    obtain ⟨-, -, hcut, hsplit, hret, hlen⟩ := hreads.cut hplan
    refine ⟨_, by rw [change, hplan], rfl, hcut, ?_⟩
    rw [operations, hret, operations, hsplit, ← hlen, List.drop_left]

/-! ## Two files -/

/-- One journal, whole and trimmed at a sequence or past it. -/
structure Mirrors (k : Codec V) (key : Digest) (through : ℕ) (whole trimmed : JournalFile V)
    (h : Head) (cut : ℕ) : Prop where
  reads : Reads k key whole.frames h
  readsTrimmed : Reads k key trimmed.frames { h with trimmedThrough := cut }
  torn : trimmed.torn = whole.torn
  frames : trimmed.operations = whole.operations.filter (cut < ·.sequence)
  past : h.trimmedThrough ≤ cut
  above : through ≤ cut
  level : cut = through ∨ cut = h.trimmedThrough

/-- A change that asks for nothing below a sequence. -/
def Change.Above (through : ℕ) : Change V → Prop
  | .trim next => next = 0 ∨ through ≤ next
  | _ => True

/-- What a change comes to in both files. -/
inductive Alike (k : Codec V) (key : Digest) (through : ℕ) (whole trimmed : JournalFile V)
    (c : Change V) : Prop
  | refused {err : StoreError} (whole : whole.change k key c = .error err)
      (trimmed : trimmed.change k key c = .error err)
  | accepted {whole' trimmed' : JournalFile V} (whole : whole.change k key c = .ok whole')
      (trimmed : trimmed.change k key c = .ok trimmed')
      (mirrors : ∃ h cut, Mirrors k key through whole' trimmed' h cut)

namespace Mirrors

variable {whole trimmed : JournalFile V} {cut : ℕ} (m : Mirrors k key through whole trimmed h cut)

include m

lemma append (ops : List (Op V)) : Alike k key through whole trimmed (.append ops) := by
  cases hops : checkOps k ops with
  | error err =>
    exact .refused (by rw [change, scan_of_reads m.reads, hops])
      (by rw [change, scan_of_reads m.readsTrimmed, hops])
  | ok _ =>
    have hfoll : Follows k key h (operationsFrame k key h ops) := by
      unfold checkOps at hops
      split_ifs at hops with hne
      obtain ⟨_, hvalid, -⟩ := bind_eq_ok.mp hops
      exact follows_encodeFrame hne hvalid
    set frame := operationsFrame k key h ops with hframe
    have hconcat : ∀ file : JournalFile V,
        (⟨file.frames ++ [frame], false⟩ : JournalFile V).operations = file.operations ++ [frame] := by
      simp [operations, hfoll.operations]
    have hnew : cut < frame.sequence := Nat.lt_succ_of_le m.readsTrimmed.trimmed_le
    have happ : ∀ {file : JournalFile V} {cut : ℕ},
        Reads k key file.frames { h with trimmedThrough := cut } →
        file.change k key (.append ops) = .ok ⟨file.frames ++ [frame], false⟩ := by
      intro file cut hreads
      rw [change, scan_of_reads hreads, hops]
      rfl
    refine .accepted (happ m.reads) (happ m.readsTrimmed) ⟨h.after k frame, cut,
      m.reads.concat hfoll, m.readsTrimmed.concat { hfoll with }, rfl, ?_, m.past, m.above,
      m.level⟩
    rw [hconcat, hconcat, List.filter_append, ← m.frames, List.filter_cons_of_pos (by simpa using hnew),
      List.filter_nil]

lemma trim (next : ℕ) (habove : next = 0 ∨ through ≤ next) :
    Alike k key through whole trimmed (.trim next) := by
  cases htorn : whole.torn with
  | true =>
    have hplan : ∀ {file : JournalFile V} {h : Head}, Reads k key file.frames h → file.torn = true →
        file.change k key (.trim next) = .error .partialFrame := by
      intro file h hreads htorn
      rw [change, planTrim, replayFrames, scan_of_reads hreads, htorn]
      rfl
    exact .refused (hplan m.reads htorn) (hplan m.readsTrimmed (m.torn.trans htorn))
  | false =>
    have htorn' := m.torn.trans htorn
    have hplan := m.reads.planTrim_eq htorn next
    have hplan' := m.readsTrimmed.planTrim_eq htorn' next
    by_cases hzero : next = 0
    · rw [if_pos hzero] at hplan hplan'
      exact .accepted (by rw [change, hplan]) (by rw [change, hplan']) ⟨h, cut, m⟩
    have hthru := habove.resolve_left hzero
    have hpast := m.past
    have hend := m.readsTrimmed.trimmed_le
    have hlevel := m.level
    dsimp only at hend hplan'
    by_cases hbelow : next < h.trimmedThrough
    · -- the whole journal was trimmed past the first cut, and so was the other
      obtain rfl : cut = h.trimmedThrough := by omega
      rw [if_neg hzero, if_pos hbelow] at hplan hplan'
      exact .refused (by rw [change, hplan]) (by rw [change, hplan'])
    by_cases hafter : h.sequence < next
    · rw [if_neg hzero, if_neg (by omega), if_pos hafter] at hplan hplan'
      exact .refused (by rw [change, hplan]) (by rw [change, hplan'])
    have hcut : cut ≤ next := by omega
    obtain ⟨whole', hwhole, hwtorn, hreads, hfrs⟩ :=
      m.reads.trim htorn (not_lt.mp hbelow) (not_lt.mp hafter)
    obtain ⟨trimmed', htrim, httorn, hreads', hfrs'⟩ :=
      m.readsTrimmed.trim htorn' hcut (not_lt.mp hafter)
    refine .accepted hwhole htrim ⟨{ h with trimmedThrough := next }, next, hreads, hreads',
      httorn.trans hwtorn.symm, ?_, le_rfl, hthru, .inr rfl⟩
    rw [hfrs', hfrs, m.frames, List.filter_filter, List.filter_filter]
    refine List.filter_congr fun f _ => ?_
    rw [Bool.and_self, Bool.and_eq_left_iff_imp]
    simp only [decide_eq_true_eq]
    omega

/-- **Step lemma.** -/
lemma change {c : Change V} (habove : c.Above through) : Alike k key through whole trimmed c := by
  cases c with
  | append ops => exact m.append ops
  | trim next => exact m.trim next habove
  | tear => exact .accepted rfl rfl ⟨h, cut, { m with torn := rfl }⟩
  | reopen =>
    have hopen : ∀ {file : JournalFile V} {h : Head}, Reads k key file.frames h →
        file.change k key .reopen = .ok { file with torn := false } := by
      intro file h hreads
      rw [JournalFile.change, scan_of_reads hreads]
    exact .accepted (hopen m.reads) (hopen m.readsTrimmed) ⟨h, cut, { m with torn := rfl }⟩

end Mirrors

/-- **Run lemma.** -/
lemma Mirrors.run {whole trimmed : JournalFile V} {cut : ℕ} {changes : List (Change V)}
    (m : Mirrors k key through whole trimmed h cut) (habove : ∀ c ∈ changes, c.Above through) :
    trimmed.answers k key changes = whole.answers k key changes ∧
      ∃ h cut, Mirrors k key through (changes.foldl (changed k key) whole)
        (changes.foldl (changed k key) trimmed) h cut := by
  induction changes generalizing whole trimmed h cut with
  | nil => exact ⟨rfl, h, cut, m⟩
  | cons c changes ih =>
    obtain ⟨hc, hrest⟩ := List.forall_mem_cons.mp habove
    rw [List.foldl_cons, List.foldl_cons]
    cases m.change hc with
    | refused hwhole htrim =>
      simp only [answers, answer, changed, hwhole, htrim]
      exact (ih m hrest).imp_left fun h => by rw [h]
    | accepted hwhole htrim mirrors =>
      obtain ⟨h, cut, m⟩ := mirrors
      simp only [answers, answer, changed, hwhole, htrim]
      exact (ih m hrest).imp_left fun h => by rw [h]

/-! ## Every journal -/

/-- A journal is trimmed where it was trimmed last. -/
lemma Reads.mirrors (hreads : Reads k key file.frames h) :
    Mirrors k key 0 file file h h.trimmedThrough where
  reads := hreads
  readsTrimmed := hreads
  torn := rfl
  frames := by rw [hreads.filter_operations, Nat.sub_self, List.drop_zero]
  past := le_rfl
  above := Nat.zero_le _
  level := .inr rfl

end Metadata

end Halro
