import Halro.Metadata.Journal

/-!
# What the scan of a journal file accepts

A file the scan accepts opens with one frame that records nothing, and its other frames are
numbered without a gap from where that frame puts the head.  From there: what an append adds
(`Reads.concat`), and that a cut of the head ends where the file ended (`Reads.cut`).
-/

namespace Halro

open Replication

namespace Metadata

variable {V : Type} {k : Codec V} {key : Digest}

variable {f : Frame V}

lemma Frame.payload_of_isOperations (h : f.isOperations) : ∃ ops, f.payload = .operations ops := by
  unfold Frame.isOperations at h
  cases hpay : f.payload with
  | operations ops => exact ⟨ops, rfl⟩
  | epoch header | trim anchor =>
    rw [hpay] at h
    exact absurd h Bool.false_ne_true

/-! ## Frames that follow a head -/

/-- What the scan asks of a frame that does not open the file. -/
structure Follows (k : Codec V) (key : Digest) (head : Head) (f : Frame V) : Prop where
  mac : f.mac = k.mac key f.payload f.epoch f.sequence f.previous
  operations : f.isOperations
  decoded : decodePayload f.payload = .ok ()
  epoch : f.epoch = head.epoch
  sequence : f.sequence = head.sequence + 1
  previous : f.previous = head.hash

variable {frames : List (Frame V)} {head h : Head}

lemma scanFrom_cons {first : Bool} : scanFrom k key head first (f :: frames) = .ok h ↔
      f.mac = k.mac key f.payload f.epoch f.sequence f.previous ∧ decodePayload f.payload = .ok () ∧
        checkPlacement head first f = .ok () ∧ scanFrom k key (head.after k f) false frames = .ok h := by
  rw [scanFrom]
  by_cases hmac : f.mac = k.mac key f.payload f.epoch f.sequence f.previous
  · rw [if_neg (not_not.mpr hmac)]
    cases hdec : decodePayload f.payload with
    | error err => simp
    | ok u =>
      cases hplace : checkPlacement head first f with
      | error err => simp
      | ok u => simp [hmac]
  · simp [hmac]

lemma checkPlacement_false :
    checkPlacement head false f = .ok () ↔ f.isOperations ∧ f.epoch = head.epoch ∧
      f.sequence = head.sequence + 1 ∧ f.previous = head.hash := by
  unfold checkPlacement Frame.isOperations
  cases f.payload with
  | operations ops =>
    by_cases hepoch : f.epoch = head.epoch <;> by_cases hseq : f.sequence = head.sequence + 1 <;>
      by_cases hprev : f.previous = head.hash <;> simp [hepoch, hseq, hprev]
  | epoch header => simp
  | trim anchor => simp

lemma follows_iff : scanFrom k key head false (f :: frames) = .ok h ↔
      Follows k key head f ∧ scanFrom k key (head.after k f) false frames = .ok h := by
  rw [scanFrom_cons, checkPlacement_false]
  constructor
  · rintro ⟨hmac, hdec, ⟨hops, hepoch, hseq, hprev⟩, hrest⟩
    exact ⟨⟨hmac, hops, hdec, hepoch, hseq, hprev⟩, hrest⟩
  · rintro ⟨hfoll, hrest⟩
    exact ⟨hfoll.mac, hfoll.decoded,
      ⟨hfoll.operations, hfoll.epoch, hfoll.sequence, hfoll.previous⟩, hrest⟩

/-- The head after a recorded transaction. -/
lemma Head.after_operations (head : Head) (h : f.isOperations) :
    head.after k f = ⟨f.epoch, f.sequence, k.hash f, head.trimmedThrough⟩ := by
  obtain ⟨ops, hpay⟩ := Frame.payload_of_isOperations h
  rw [Head.after, hpay]

lemma Follows.after (h : Follows k key head f) :
    head.after k f = ⟨head.epoch, head.sequence + 1, k.hash f, head.trimmedThrough⟩ := by
  rw [Head.after_operations head h.operations, h.epoch, h.sequence]

variable {rest : List (Frame V)}

lemma scanFrom_append {middle : Head} {first : Bool}
    (h : scanFrom k key head first frames = .ok middle) (hne : frames ≠ []) :
    scanFrom k key head first (frames ++ rest) = scanFrom k key middle false rest := by
  induction frames generalizing head first with
  | nil => exact absurd rfl hne
  | cons f frames ih =>
    obtain ⟨hmac, hdec, hplace, hrest⟩ := scanFrom_cons.mp h
    rw [List.cons_append, scanFrom, if_neg (not_not.mpr hmac), hdec, hplace]
    cases frames with
    | nil =>
      obtain rfl := Except.ok.inj hrest
      rfl
    | cons g frames => exact ih hrest (List.cons_ne_nil _ _)

/-- The scan of a list in two parts. -/
lemma scanFrom_split (hscan : scanFrom k key head false (frames ++ rest) = .ok h) :
    ∃ middle, scanFrom k key head false frames = .ok middle ∧
      scanFrom k key middle false rest = .ok h := by
  induction frames generalizing head with
  | nil => exact ⟨head, rfl, hscan⟩
  | cons f frames ih =>
    obtain ⟨hfoll, hrest⟩ := follows_iff.mp hscan
    obtain ⟨middle, hfirst, hsecond⟩ := ih hrest
    exact ⟨middle, follows_iff.mpr ⟨hfoll, hfirst⟩, hsecond⟩

/-- Frames that follow a head are numbered from it. -/
structure Numbered (head h : Head) (frames : List (Frame V)) : Prop where
  operations : ∀ f ∈ frames, f.isOperations
  sequences : frames.map (·.sequence) = List.range' (head.sequence + 1) frames.length
  last : h.sequence = head.sequence + frames.length
  epoch : h.epoch = head.epoch
  trimmed : h.trimmedThrough = head.trimmedThrough

lemma numbered_of_scanFrom (hscan : scanFrom k key head false frames = .ok h) :
    Numbered head h frames := by
  induction frames generalizing head with
  | nil =>
    obtain rfl := Except.ok.inj hscan
    exact ⟨by simp, rfl, rfl, rfl, rfl⟩
  | cons f frames ih =>
    obtain ⟨hfoll, hrest⟩ := follows_iff.mp hscan
    rw [hfoll.after] at hrest
    obtain ⟨hops, hseqs, hlast, hepoch, htrim⟩ := ih hrest
    refine ⟨List.forall_mem_cons.mpr ⟨hfoll.operations, hops⟩, ?_, ?_, hepoch, htrim⟩
    · rw [List.map_cons, hseqs, hfoll.sequence, List.length_cons, List.range'_succ]
    · rw [hlast, List.length_cons]
      dsimp only
      omega

/-- The scan does not look at where a head was cut. -/
lemma scanFrom_retrim (trimmed : ℕ) (hscan : scanFrom k key head false frames = .ok h) :
    scanFrom k key { head with trimmedThrough := trimmed } false frames =
      .ok { h with trimmedThrough := trimmed } := by
  induction frames generalizing head with
  | nil =>
    obtain rfl := Except.ok.inj hscan
    rfl
  | cons f frames ih =>
    obtain ⟨hfoll, hrest⟩ := follows_iff.mp hscan
    refine follows_iff.mpr ⟨{ hfoll with }, ?_⟩
    rw [Head.after_operations _ hfoll.operations] at hrest ⊢
    exact ih hrest

/-! ## Files -/

/-- A file's frames are accepted and end at a head. -/
def Reads (k : Codec V) (key : Digest) (frames : List (Frame V)) (h : Head) : Prop :=
  frames ≠ [] ∧ scanFrom k key {} true frames = .ok h

variable {file : JournalFile V}

lemma scan_of_reads (hreads : Reads k key file.frames h) :
    scan k key file = .ok (h, file.torn) := by
  rw [scan, if_neg (not_and_of_not_left _ hreads.1), hreads.2]

lemma reads_of_scan (hscan : scan k key file = .ok (h, false)) :
    Reads k key file.frames h ∧ file.torn = false := by
  unfold scan at hscan
  split_ifs at hscan with hempty
  split at hscan
  · exact nomatch hscan
  · rename_i head hfrs
    obtain ⟨rfl, htorn⟩ := Prod.mk.inj (Except.ok.inj hscan)
    refine ⟨⟨fun hnil => hempty ⟨hnil, ?_⟩, hfrs⟩, htorn⟩
    rw [htorn]
    exact Bool.false_ne_true

/-- The frame that opens a file puts the head where the file was cut. -/
lemma Reads.opening (hreads : Reads k key frames h) :
    ∃ first rest, frames = first :: rest ∧ first.isOperations = false ∧
      (Head.after k {} first).sequence = (Head.after k {} first).trimmedThrough ∧
      scanFrom k key (Head.after k {} first) false rest = .ok h := by
  obtain ⟨hne, hscan⟩ := hreads
  obtain ⟨first, rest, rfl⟩ := List.exists_cons_of_ne_nil hne
  obtain ⟨-, -, hplace, hrest⟩ := scanFrom_cons.mp hscan
  refine ⟨first, rest, rfl, ?_, ?_, hrest⟩
  · unfold checkPlacement at hplace
    unfold Frame.isOperations
    cases hpay : first.payload with
    | operations ops =>
      rw [hpay] at hplace
      exact nomatch hplace
    | epoch header => rfl
    | trim anchor => rfl
  · unfold checkPlacement at hplace
    unfold Head.after
    cases hpay : first.payload with
    | operations ops =>
      rw [hpay] at hplace
      exact nomatch hplace
    | epoch header =>
      simp only [hpay] at hplace
      split_ifs at hplace with hseq
      exact not_not.mp hseq
    | trim anchor => rfl

/-- The frames of a file that record something. -/
lemma Reads.trimmed_le (hreads : Reads k key frames h) : h.trimmedThrough ≤ h.sequence := by
  obtain ⟨first, rest, -, -, hstart, hrest⟩ := hreads.opening
  have hnumd := numbered_of_scanFrom hrest
  rw [hnumd.last, hnumd.trimmed, hstart]
  exact Nat.le_add_right _ _

lemma filter_isOperations {first : Frame V} (hfirst : first.isOperations = false)
    (hrest : scanFrom k key head false rest = .ok h) :
    (first :: rest).filter (·.isOperations) = rest := by
  rw [List.filter_cons, if_neg (by simp [hfirst]), List.filter_eq_self]
  exact (numbered_of_scanFrom hrest).operations

lemma validateOps_ok {ops : List (Op V)} :
    validateOps ops = .ok () ↔ ∀ op ∈ ops, op.validate = .ok () := by
  induction ops with
  | nil => simp [validateOps, pure, Except.pure]
  | cons op ops ih =>
    unfold validateOps at ih ⊢
    rw [List.forall_mem_cons, ← ih]
    show (op.validate >>= fun _ => ops.forM Op.validate) = .ok () ↔ _
    cases hop : op.validate with
    | error err => simp [bind, Except.bind]
    | ok u => simp [bind, Except.bind]

lemma follows_encodeFrame {ops : List (Op V)} (hops : ops ≠ []) (hvalid : validateOps ops = .ok ()) :
    Follows k key head
      (encodeFrame k key (.operations ops) head.epoch (head.sequence + 1) head.hash) where
  mac := rfl
  operations := rfl
  decoded := (if_neg hops).trans hvalid
  epoch := rfl
  sequence := rfl
  previous := rfl

/-- An append. -/
lemma Reads.concat (hreads : Reads k key frames h) (hfoll : Follows k key h f) :
    Reads k key (frames ++ [f]) (h.after k f) := by
  refine ⟨by simp, ?_⟩
  rw [scanFrom_append hreads.2 hreads.1]
  exact follows_iff.mpr ⟨hfoll, rfl⟩

lemma reads_epochFrame (header : EpochHeader) :
    Reads k key [encodeFrame k key (.epoch header) header.epoch 0 .zero]
      (Head.after k {} (encodeFrame k key (.epoch header) header.epoch 0 .zero)) :=
  ⟨List.cons_ne_nil _ _, scanFrom_cons.mpr ⟨rfl, rfl, rfl, rfl⟩⟩

/-! ## Frames up to a sequence -/

lemma filter_of_sequences {n : ℕ} (a : ℕ)
    (h : frames.map (·.sequence) = List.range' (n + 1) frames.length) :
    frames.filter (fun f => f.sequence ≤ a) = frames.take (a - n) ∧
      frames.filter (fun f => a < f.sequence) = frames.drop (a - n) := by
  induction frames generalizing n with
  | nil => simp
  | cons f frames ih =>
    rw [List.map_cons, List.length_cons, List.range'_succ] at h
    obtain ⟨hf, hrest⟩ := List.cons.inj h
    obtain ⟨hlow, hhigh⟩ := ih hrest
    rw [List.filter_cons, List.filter_cons, hlow, hhigh, hf]
    rcases Nat.lt_or_ge n a with hlt | hge
    · obtain ⟨d, rfl⟩ : ∃ d, a = n + 1 + d := ⟨a - (n + 1), by omega⟩
      rw [Nat.add_sub_cancel_left, show n + 1 + d - n = d + 1 by omega, List.take_succ_cons,
        List.drop_succ_cons, if_pos (by simp), if_neg (by rw [decide_eq_true_iff]; omega)]
      exact ⟨rfl, rfl⟩
    · rw [if_neg (by rw [decide_eq_true_iff]; omega), if_pos (decide_eq_true (by omega)),
        show a - (n + 1) = 0 by omega, show a - n = 0 by omega]
      exact ⟨rfl, rfl⟩

/-! ## Cutting off the head -/

/-- What a cut collects from frames that record something. -/
structure Collected (k : Codec V) (through : ℕ) (c c' : Cut V) (frames : List (Frame V)) : Prop where
  epoch : c'.epoch = c.epoch
  existing : c'.existing = c.existing
  dropped : c'.dropped = c.dropped ++ frames.filter (fun f => f.sequence ≤ through)
  retained : c'.retained = c.retained ++ frames.filter (fun f => through < f.sequence)
  chainHead : c'.chainHeadAtTrim =
    ((frames.filter (fun f => f.sequence ≤ through)).getLast?.map k.hash).getD c.chainHeadAtTrim

lemma collected_foldl (through : ℕ) (c : Cut V) (hops : ∀ f ∈ frames, f.isOperations) :
    Collected k through c (frames.foldl (Cut.visit k through) c) frames := by
  induction frames generalizing c with
  | nil => exact ⟨rfl, rfl, by simp, by simp, rfl⟩
  | cons f frames ih =>
    obtain ⟨hf, hrest⟩ := List.forall_mem_cons.mp hops
    obtain ⟨ops, hpay⟩ := Frame.payload_of_isOperations hf
    rw [List.foldl_cons, Cut.visit, hpay]
    dsimp only
    by_cases hle : f.sequence ≤ through
    · rw [if_pos hle]
      obtain ⟨hepoch, hexs, hdrop, hret, hchain⟩ := ih _ hrest
      refine ⟨hepoch, hexs, ?_, ?_, ?_⟩
      · rw [hdrop, List.filter_cons, if_pos (by simpa using hle)]
        simp
      · rw [hret, List.filter_cons, if_neg (by simpa using hle)]
      · rw [hchain, List.filter_cons, if_pos (by simpa using hle), List.getLast?_cons]
        cases (frames.filter _).getLast? <;> rfl
    · rw [if_neg hle]
      obtain ⟨hepoch, hexs, hdrop, hret, hchain⟩ := ih _ hrest
      refine ⟨hepoch, hexs, ?_, ?_, ?_⟩
      · rw [hdrop, List.filter_cons, if_neg (by simpa using hle)]
      · rw [hret, List.filter_cons, if_pos (by simpa using hle)]
        simp
      · rw [hchain, List.filter_cons, if_neg (by simpa using hle)]

/-- The hash of a head is that of its last frame. -/
lemma hash_of_scanFrom (hscan : scanFrom k key head false frames = .ok h) :
    h.hash = (frames.getLast?.map k.hash).getD head.hash := by
  induction frames generalizing head with
  | nil =>
    obtain rfl := Except.ok.inj hscan
    rfl
  | cons f frames ih =>
    obtain ⟨hfoll, hrest⟩ := follows_iff.mp hscan
    rw [hfoll.after] at hrest
    rw [ih hrest, List.getLast?_cons]
    cases frames.getLast? <;> rfl

/-- The frame that opens a file in the eyes of a cut. -/
lemma Cut.visit_opening (through : ℕ) {first : Frame V} (hfirst : first.isOperations = false) :
    (Cut.visit k through {} first).epoch = (Head.after k {} first).epoch ∧
      (Cut.visit k through {} first).dropped = [] ∧ (Cut.visit k through {} first).retained = [] ∧
      (((Cut.visit k through {} first).existing = none ∧ (Head.after k {} first).trimmedThrough = 0) ∨
        ∃ anchor, (Cut.visit k through {} first).existing = some anchor ∧
          (Head.after k {} first).trimmedThrough = anchor.trimmedThrough) := by
  unfold Frame.isOperations at hfirst
  unfold Cut.visit Head.after
  cases hpay : first.payload with
  | operations ops =>
    rw [hpay] at hfirst
    exact absurd hfirst.symm Bool.false_ne_true
  | epoch header => exact ⟨rfl, rfl, rfl, .inl ⟨rfl, rfl⟩⟩
  | trim anchor => exact ⟨rfl, rfl, rfl, .inr ⟨anchor, rfl, rfl⟩⟩

/-- What a trim of a whole file comes to: the sequence it was cut at before decides, whether it is
that of an anchor or of an epoch header. -/
lemma Reads.planTrim_eq (hreads : Reads k key file.frames h) (htorn : file.torn = false)
    (through : ℕ) :
    planTrim k key through file =
      if through = 0 then .ok none
      else if through < h.trimmedThrough then .error (.alreadyTrimmed h.trimmedThrough through)
      else if h.sequence < through then .error (.trimBeyondEnd through h.sequence)
      else if through = h.trimmedThrough then .ok none
      else .ok (some (file.frames.foldl (Cut.visit k through) {})) := by
  obtain ⟨first, rest, hfrs, hfirst, -, hrest⟩ := hreads.opening
  have hnumd := numbered_of_scanFrom hrest
  obtain ⟨-, -, -, hexs⟩ := Cut.visit_opening (k := k) through hfirst
  have hcollected := collected_foldl (k := k) through (Cut.visit k through {} first)
    hnumd.operations
  rw [← hcollected.existing, ← List.foldl_cons, ← hfrs, ← hnumd.trimmed] at hexs
  rw [planTrim, replayFrames, scan_of_reads hreads, htorn]
  simp only [Bool.false_eq_true, if_false]
  rcases hexs with ⟨hnone, hzero⟩ | ⟨anchor, hsome, htrim⟩
  · rw [hnone, hzero]
    split_ifs with hthru <;> first | rfl | simp_all
  · rw [hsome, htrim]
    simp

/-- A published cut: what it drops and retains, and where its file ends. -/
lemma Reads.cut {through : ℕ} {cut : Cut V} (hreads : Reads k key file.frames h)
    (hplan : planTrim k key through file = .ok (some cut)) :
    h.trimmedThrough ≤ through ∧ through ≤ h.sequence ∧
      Reads k key (cut.file k key through).frames { h with trimmedThrough := through } ∧
      (file.frames.filter (·.isOperations)) = cut.dropped ++ cut.retained ∧
      (cut.file k key through).frames.filter (·.isOperations) = cut.retained ∧
      cut.dropped.length = through - h.trimmedThrough := by
  obtain ⟨first, rest, hfrs, hfirst, hstart, hrest⟩ := hreads.opening
  have hnumd := numbered_of_scanFrom hrest
  have htorn : file.torn = false := by
    by_contra htorn
    unfold planTrim replayFrames at hplan
    rw [scan_of_reads hreads, (Bool.not_eq_false _).mp htorn] at hplan
    exact nomatch hplan
  rw [hreads.planTrim_eq htorn] at hplan
  split_ifs at hplan with hzero hbelow habove hsame
  · exact nomatch hplan
  · exact nomatch hplan
  obtain rfl := Option.some.inj (Except.ok.inj hplan)
  rw [hfrs, List.foldl_cons]
  obtain ⟨hepoch, hdrop, hret, -⟩ := Cut.visit_opening (k := k) through hfirst
  obtain ⟨cepoch, -, cdropped, cretained, cchain⟩ :=
    collected_foldl (k := k) through (Cut.visit k through {} first) hnumd.operations
  have hT := hnumd.trimmed
  have hseq := hnumd.last
  have hsplit := List.take_append_drop (through - (Head.after k {} first).sequence) rest
  obtain ⟨hlow, hhigh⟩ := filter_of_sequences through hnumd.sequences
  rw [hdrop, List.nil_append, hlow] at cdropped
  rw [hret, List.nil_append, hhigh] at cretained
  have hscan := hrest
  rw [← hsplit] at hscan
  obtain ⟨middle, hfront, hback⟩ := scanFrom_split hscan
  have hmiddle := numbered_of_scanFrom hfront
  have hlen : (rest.take (through - (Head.after k {} first).sequence)).length =
      through - (Head.after k {} first).sequence := by
    rw [List.length_take]
    omega
  have hnonempty : rest.take (through - (Head.after k {} first).sequence) ≠ [] := by
    intro hnil
    rw [hnil, List.length_nil] at hlen
    omega
  refine ⟨by omega, by omega, ⟨by simp [Cut.file], ?_⟩, ?_, ?_, ?_⟩
  · -- The anchor leaves the scan where it was after the dropped frames.
    refine scanFrom_cons.mpr ⟨rfl, rfl, rfl, ?_⟩
    rw [cretained]
    have hhead : Head.after k {} (encodeFrame k key (.trim (Cut.anchor through
        (rest.foldl (Cut.visit k through) (Cut.visit k through {} first))))
        (rest.foldl (Cut.visit k through) (Cut.visit k through {} first)).epoch through .zero) =
        { middle with trimmedThrough := through } := by
      show (⟨_, through, _, through⟩ : Head) = ⟨middle.epoch, middle.sequence, middle.hash, through⟩
      rw [Head.mk.injEq]
      refine ⟨?_, ?_, ?_, rfl⟩
      · show (rest.foldl (Cut.visit k through) (Cut.visit k through {} first)).epoch = middle.epoch
        rw [cepoch, hepoch, hmiddle.epoch]
      · rw [hmiddle.last, hlen]
        omega
      · show (rest.foldl (Cut.visit k through) (Cut.visit k through {} first)).chainHeadAtTrim =
          middle.hash
        rw [cchain, hlow, hash_of_scanFrom hfront, List.getLast?_eq_some_getLast hnonempty]
        rfl
    rw [hhead]
    exact scanFrom_retrim through hback
  · rw [filter_isOperations hfirst hrest, cdropped, cretained, hsplit]
  · rw [Cut.file, filter_isOperations rfl (cretained ▸ scanFrom_retrim through hback)]
  · rw [cdropped, hlen]
    omega

end Metadata

end Halro
