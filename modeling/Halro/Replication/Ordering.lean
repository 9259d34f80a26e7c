import Halro.Replication.Frame

/-!
# The ordering journal (`internal/replication/ordering.go`, `internal/replication/journal.go`)

The ordering journal is the durable global order of a member: one record for each frame, with
consecutive indexes, terms that never regress, one leadership anchor at the start of each term, and
a chain of message authentication codes.  `follow` is the check of one record against the head it
continues.  Opening a journal scans its file with it, and `append` makes the same checks before it
writes, so a journal always holds what a scan accepts (`OrderingJournal.Sound`).

A failed append may leave the record on disk in whole, in part or not at all, and stops the journal
until it is opened again; a partial record at the end of a file is cut off when it is opened.
Records are kept decoded: the version-1 encoding of an ordering record is not modelled, and its
message authentication code is a parameter.
-/

namespace Halro

open Framework

namespace Replication

/-! ## Records -/

structure StoreCursor where
  generation : ℕ := 0
  sequence : ℕ := 0
  deriving DecidableEq

/-- The positions of the four native stores. -/
structure Cursors where
  ledger : StoreCursor := {}
  audit : StoreCursor := {}
  governance : StoreCursor := {}
  metadata : StoreCursor := {}
  deriving DecidableEq

def Cursors.get (c : Cursors) : Store → StoreCursor
  | .ledger => c.ledger
  | .audit => c.audit
  | .governance => c.governance
  | .metadata => c.metadata
  | _ => {}

def Cursors.set (c : Cursors) (store : Store) (cursor : StoreCursor) : Cursors :=
  match store with
  | .ledger => { c with ledger := cursor }
  | .audit => { c with audit := cursor }
  | .governance => { c with governance := cursor }
  | .metadata => { c with metadata := cursor }
  | _ => c

structure OrderingRecord where
  kind : Kind
  store : Store
  index : ℕ
  term : ℕ
  confirmedIndex : ℕ
  storeGeneration : ℕ
  storeSequenceFirst : ℕ
  storeSequenceLast : ℕ
  metadata : Bytes
  frameDigest : Digest
  previousMAC : Digest := .zero
  mac : Digest := .zero
  deriving DecidableEq

/-- The record that orders a frame. -/
def OrderingRecord.ofFrame (f : Frame) (digest : Digest) : OrderingRecord where
  kind := f.kind
  store := f.store
  index := f.index
  term := f.term
  confirmedIndex := f.confirmedIndex
  storeGeneration := f.storeGeneration
  storeSequenceFirst := f.storeSequenceFirst
  storeSequenceLast := f.storeSequenceLast
  metadata := f.metadata
  frameDigest := digest

/-- The functions of the hash and of the cluster key. -/
structure Crypto where
  sha256 : Bytes → Digest
  /-- The code of a record of a cluster and incarnation, computed with its own code cleared. -/
  orderingMAC : Bytes → Bytes → OrderingRecord → Digest

inductive OrderingError
  | position
  | confirmedIndex
  | emptyDigest
  | dataRange
  | storeGeneration
  | controlRange
  | ledgerRollLength
  | metadata (error : FrameError)
  | leadershipShape
  | schemaBoundaryShape
  | providerObjectShape
  | unknownKind (code : ℕ)
  | identity
  | chain
  | mac
  | index (found last : ℕ)
  | termRegress (found last : ℕ)
  | termStart
  | secondAnchor
  | poisoned
  | write
  | outOfRange
  | otherIndex
  | expectedHead
  | missingSuffix
  | prefixHead
  | cursorBeyondHead
  | storeStart (store : Store) (first : ℕ)
  | storeRange (store : Store)
  | rollCursor
  deriving DecidableEq

def OrderingError.message : OrderingError → String
  | .position => "ordering record index and term must be positive"
  | .confirmedIndex => "ordering record confirmed index must precede its own index"
  | .emptyDigest => "ordering record frame digest is empty"
  | .dataRange => "ordering data record has an invalid store, generation or sequence range"
  | .storeGeneration => "audit and governance ordering records must use store generation 1"
  | .controlRange => "ordering control record has an invalid store or sequence range"
  | .ledgerRollLength => "ledger-roll ordering metadata length is invalid"
  | .metadata err => err.message
  | .leadershipShape => "leadership ordering record has an invalid shape"
  | .schemaBoundaryShape => "schema-boundary ordering record has an invalid shape"
  | .providerObjectShape => "provider-object ordering record has an invalid store shape"
  | .unknownKind code => "unknown ordering record kind " ++ toString code
  | .identity => "ordering record identity is invalid"
  | .chain => "ordering record does not continue the expected MAC chain"
  | .mac => "ordering record MAC mismatch"
  | .index found last => "ordering record index " ++ toString found ++ " does not continue " ++
      toString last
  | .termRegress found last => "ordering record term " ++ toString found ++ " regresses from " ++
      toString last
  | .termStart => "ordering record term must begin with leadership_established"
  | .secondAnchor => "ordering record term already has a leadership anchor"
  | .poisoned => "ordering journal requires restart after an uncertain append"
  | .write => "append ordering record"
  | .outOfRange => "ordering journal index is out of range"
  | .otherIndex => "ordering journal offset contains a different index"
  | .expectedHead => "ordering journal expected index requires a head MAC"
  | .missingSuffix =>
      "ordering journal is missing an authenticated suffix required by member state"
  | .prefixHead => "ordering journal prefix does not match the head MAC in member state"
  | .cursorBeyondHead => "ordering cursor index is beyond the journal head"
  | .storeStart store first => "ordering store " ++ toString store.code ++
      " begins at sequence " ++ toString first
  | .storeRange store => "ordering store " ++ toString store.code ++
      " range does not continue its durable cursor"
  | .rollCursor => "ordering Ledger Roll does not continue its durable cursor"

/-- A control record names no store and no range of one. -/
def OrderingRecord.Storeless (r : OrderingRecord) : Prop :=
  r.store = .none ∧ r.storeGeneration = 0 ∧ r.storeSequenceFirst = 0 ∧ r.storeSequenceLast = 0

instance (r : OrderingRecord) : Decidable r.Storeless := inferInstanceAs (Decidable (_ ∧ _))

def OrderingRecord.validateKind (r : OrderingRecord) : Except OrderingError Unit :=
  match r.kind with
  | .data =>
    if ¬ r.store.isNative ∨ r.storeGeneration = 0 ∨ r.storeSequenceFirst = 0 ∨
        r.storeSequenceLast < r.storeSequenceFirst ∨ r.metadata ≠ [] then
      .error .dataRange
    else if r.store.isSingle ∧ r.storeGeneration ≠ 1 then .error .storeGeneration
    else .ok ()
  | .ledgerRoll =>
    if ¬ r.Storeless then .error .controlRange
    else if r.metadata.length ≠ ledgerRollMetadataBytes then .error .ledgerRollLength
    else ((decodeLedgerRollMetadata r.metadata).mapError .metadata).map fun _ => ()
  | .leadershipEstablished =>
    if ¬ r.Storeless ∨ r.metadata ≠ [] then .error .leadershipShape else .ok ()
  | .schemaBoundary =>
    if ¬ r.Storeless ∨ r.metadata.length ≠ schemaBoundaryMetadataBytes then
      .error .schemaBoundaryShape
    else ((decodeSchemaBoundaryMetadata r.metadata).mapError .metadata).map fun _ => ()
  | .providerObject =>
    if ¬ r.Storeless then .error .providerObjectShape
    else ((decodeProviderObjectMetadata r.metadata).mapError .metadata).map fun _ => ()
  | .unknown code => .error (.unknownKind code)

def OrderingRecord.validate (r : OrderingRecord) : Except OrderingError Unit :=
  if r.index = 0 ∨ r.term = 0 then .error .position
  else if r.confirmedIndex ≥ r.index then .error .confirmedIndex
  else if r.frameDigest = .zero then .error .emptyDigest
  else r.validateKind

/-! ## The chain -/

structure OrderingHeader where
  clusterID : Bytes
  incarnation : Bytes
  /-- The native store positions at index zero. -/
  storeCursors : Cursors := {}
  deriving DecidableEq

/-- Where a journal ends: its last index, its last term and the code the next record continues. -/
structure Head where
  index : ℕ := 0
  term : ℕ := 0
  mac : Digest := .zero
  deriving DecidableEq

section Chain

variable (k : Crypto)

/-- The code a record of the journal with this header carries. -/
def OrderingHeader.macOf (h : OrderingHeader) (r : OrderingRecord) : Digest :=
  k.orderingMAC h.clusterID h.incarnation { r with mac := .zero }

/-- The record as it is written after the given head. -/
def OrderingHeader.sealRecord (h : OrderingHeader) (last : Head) (r : OrderingRecord) :
    OrderingRecord :=
  { r with previousMAC := last.mac, mac := h.macOf k { r with previousMAC := last.mac } }

/-- The order a record keeps with the head it follows: the next index, and a term that begins with
its one leadership anchor. -/
def inOrder (last : Head) (r : OrderingRecord) : Except OrderingError Unit :=
  if r.index ≠ last.index + 1 then .error (.index r.index last.index)
  else if r.term < last.term then .error (.termRegress r.term last.term)
  else if r.term > last.term ∧ r.kind ≠ .leadershipEstablished then .error .termStart
  else if r.term = last.term ∧ r.kind = .leadershipEstablished then .error .secondAnchor
  else .ok ()

/-- The head after a record read from a file, if it authenticates and continues the head before. -/
def OrderingHeader.follow (h : OrderingHeader) (last : Head) (r : OrderingRecord) :
    Except OrderingError Head :=
  if r.previousMAC ≠ last.mac then .error .chain
  else if r.mac ≠ h.macOf k r then .error .mac
  else
    match r.validate with
    | .error err => .error err
    | .ok _ => (inOrder last r).map fun _ => ⟨r.index, r.term, r.mac⟩

/-- The head after the records of a file. -/
def OrderingHeader.scan (h : OrderingHeader) : Head → List OrderingRecord → Except OrderingError Head
  | last, [] => .ok last
  | last, r :: rs =>
    match h.follow k last r with
    | .error err => .error err
    | .ok next => h.scan next rs

end Chain

/-! ## The journal -/

/-- What a failed append leaves of its record on disk. -/
inductive Leftover
  | nothing
  | part
  | whole
  deriving DecidableEq

/-- The result of the write and the sync of one record. -/
inductive WriteResult
  | synced
  | failed (left : Leftover)
  deriving DecidableEq

/-- An ordering journal: the complete records of its file, whether a partial one follows them, the
head it continues from, and whether an append has failed. -/
structure OrderingJournal where
  header : OrderingHeader
  records : List OrderingRecord := []
  torn : Bool := false
  head : Head := {}
  poisoned : Bool := false

namespace OrderingJournal

variable (k : Crypto)

/-- The journal with what a write of the record left on its file. -/
def leave (j : OrderingJournal) (r : OrderingRecord) : Leftover → OrderingJournal
  | .nothing => j
  | .part => { j with torn := true }
  | .whole => { j with records := j.records ++ [r] }

def append (j : OrderingJournal) (r : OrderingRecord) (write : WriteResult) :
    Except OrderingError OrderingRecord × OrderingJournal :=
  if j.poisoned then (.error .poisoned, j)
  else
    match inOrder j.head r with
    | .error err => (.error err, j)
    | .ok _ =>
      if ¬ ValidIdentity j.header.clusterID ∨ ¬ ValidIdentity j.header.incarnation then
        (.error .identity, j)
      else
        let sealed := j.header.sealRecord k j.head r
        match sealed.validate with
        | .error err => (.error err, j)
        | .ok _ =>
          match write with
          | .failed left => (.error .write, { j.leave sealed left with poisoned := true })
          | .synced =>
            (.ok sealed,
              { j with records := j.records ++ [sealed]
                       head := ⟨sealed.index, sealed.term, sealed.mac⟩ })

/-- A durable record. -/
def record (j : OrderingJournal) (index : ℕ) : Except OrderingError OrderingRecord :=
  if index = 0 ∨ index > j.head.index then .error .outOfRange
  else
    match j.records[index - 1]? with
    | none => .error .outOfRange
    | some r => if r.index ≠ index then .error .otherIndex else .ok r

/-- Opening the file of a journal that the member state says reaches an index and a code. -/
def openExisting (j : OrderingJournal) (expectedIndex : ℕ) (expectedHead : Digest) :
    Except OrderingError OrderingJournal :=
  if expectedIndex = 0 ∧ expectedHead ≠ .zero ∨ 0 < expectedIndex ∧ expectedHead = .zero then
    .error .expectedHead
  else
    match j.header.scan k {} j.records with
    | .error err => .error err
    | .ok last =>
      if last.index < expectedIndex then .error .missingSuffix
      else if 0 < expectedIndex ∧
          (j.records[expectedIndex - 1]?).map (·.mac) ≠ some expectedHead then
        .error .prefixHead
      else .ok { header := j.header, records := j.records, head := last }

end OrderingJournal

/-! ## Store positions -/

/-- The positions after one more record. -/
def Cursors.advance (c : Cursors) (r : OrderingRecord) : Except OrderingError Cursors :=
  match r.kind with
  | .data =>
    let cursor := c.get r.store
    if cursor.generation = 0 ∧ r.storeSequenceFirst ≠ 1 then
      .error (.storeStart r.store r.storeSequenceFirst)
    else if cursor.generation ≠ 0 ∧ (cursor.generation ≠ r.storeGeneration ∨
        cursor.sequence + 1 ≠ r.storeSequenceFirst) then
      .error (.storeRange r.store)
    else .ok (c.set r.store ⟨r.storeGeneration, r.storeSequenceLast⟩)
  | .ledgerRoll =>
    match decodeLedgerRollMetadata r.metadata with
    | .error err => .error (.metadata err)
    | .ok roll =>
      if c.ledger.generation ≠ roll.generation ∨ c.ledger.sequence ≠ roll.lastSequence then
        .error .rollCursor
      else .ok (c.set .ledger ⟨roll.generation + 1, roll.lastSequence⟩)
  | _ => .ok c

/-- The positions after a list of records. -/
def Cursors.through (c : Cursors) : List OrderingRecord → Except OrderingError Cursors
  | [] => .ok c
  | r :: rs =>
    match c.advance r with
    | .error err => .error err
    | .ok next => next.through rs

namespace OrderingJournal

def storeCursorsThrough (j : OrderingJournal) (through : ℕ) : Except OrderingError Cursors :=
  if through > j.head.index then .error .cursorBeyondHead
  else j.header.storeCursors.through (j.records.take through)

def storeCursors (j : OrderingJournal) : Except OrderingError Cursors :=
  j.storeCursorsThrough j.head.index

end OrderingJournal

/-! ## What a scan accepts -/

section Soundness

variable {k : Crypto}

variable {r : OrderingRecord} {last : Head}

lemma inOrder_eq_ok (h : inOrder last r = .ok ()) : r.index = last.index + 1 ∧ last.term ≤ r.term ∧
      (r.kind = .leadershipEstablished ↔ last.term < r.term) := by
  simp only [inOrder, guard_eq_ok] at h
  obtain ⟨hindex, hterm, hstart, hsecond, -⟩ := h
  refine ⟨not_not.mp hindex, not_lt.mp hterm, ?_⟩
  constructor
  · intro hkind
    exact lt_of_le_of_ne (not_lt.mp hterm) fun heq => hsecond ⟨heq.symm, hkind⟩
  · intro hlt
    by_contra hkind
    exact hstart ⟨hlt, hkind⟩

/-- What a record that continues a head satisfies, and the head it leaves. -/
structure Follows (k : Crypto) (h : OrderingHeader) (last : Head) (r : OrderingRecord)
    (next : Head) : Prop where
  chained : r.previousMAC = last.mac
  authentic : r.mac = h.macOf k r
  valid : r.validate = .ok ()
  order : inOrder last r = .ok ()
  head : next = ⟨r.index, r.term, r.mac⟩

variable {h : OrderingHeader} {next : Head}

lemma follow_eq_ok : h.follow k last r = .ok next ↔ Follows k h last r next := by
  simp only [OrderingHeader.follow, guard_eq_ok, ne_eq, not_not]
  constructor
  · rintro ⟨hchain, hmac, hrest⟩
    split at hrest
    · cases hrest
    · rename_i hvalid
      obtain ⟨_, horder, rfl⟩ := map_eq_ok.mp hrest
      exact ⟨hchain, hmac, hvalid, horder, rfl⟩
  · rintro ⟨hchain, hmac, hvalid, horder, rfl⟩
    simp [hchain, hmac, hvalid, horder, Except.map]

lemma Follows.index (hf : Follows k h last r next) : next.index = last.index + 1 := by
  rw [hf.head]
  exact (inOrder_eq_ok hf.order).1

variable {rs : List OrderingRecord}

lemma scan_append {ss : List OrderingRecord} : h.scan k last (rs ++ ss) = .ok next ↔
      ∃ middle, h.scan k last rs = .ok middle ∧ h.scan k middle ss = .ok next := by
  induction rs generalizing last with
  | nil => simp [OrderingHeader.scan]
  | cons r rs ih =>
    simp only [List.cons_append, OrderingHeader.scan]
    cases hfol : h.follow k last r with
    | error err => simp
    | ok middle => exact ih

lemma scan_cons : h.scan k last (r :: rs) = .ok next ↔
      ∃ middle, Follows k h last r middle ∧ h.scan k middle rs = .ok next := by
  rw [OrderingHeader.scan]
  simp only [← follow_eq_ok]
  cases h.follow k last r <;> simp

/-- A scan counts its records. -/
lemma scan_index (hscan : h.scan k last rs = .ok next) : next.index = last.index + rs.length := by
  induction rs generalizing last with
  | nil =>
    cases hscan
    rfl
  | cons r rs ih =>
    obtain ⟨middle, hfoll, hrest⟩ := scan_cons.mp hscan
    rw [ih hrest, hfoll.index, List.length_cons]
    omega

variable {i : ℕ}

namespace OrderingJournal

/-- A journal in use: its head is where a scan of its file up to that index ends, and as long as no
append has failed the file ends there. -/
structure Sound (k : Crypto) (j : OrderingJournal) : Prop where
  scanned : j.header.scan k {} (j.records.take j.head.index) = .ok j.head
  within : j.head.index ≤ j.records.length
  exact : j.poisoned = false → j.records.length = j.head.index ∧ j.torn = false

variable {j : OrderingJournal}

lemma openExisting_sound {opened : OrderingJournal} {index : ℕ} {mac : Digest}
    (h : j.openExisting k index mac = .ok opened) :
    opened.Sound k ∧ opened.poisoned = false ∧ index ≤ opened.head.index ∧
      opened.header = j.header ∧ opened.records = j.records := by
  obtain ⟨-, h⟩ := guard_eq_ok.mp h
  split at h
  · cases h
  · rename_i last hscan
    obtain ⟨hmiss, h⟩ := guard_eq_ok.mp h
    obtain ⟨-, h⟩ := guard_eq_ok.mp h
    cases h
    have hlen : j.records.length = last.index := by simpa using (scan_index hscan).symm
    refine ⟨?_, rfl, not_lt.mp hmiss, rfl, rfl⟩
    exact
      { scanned := by
          rw [← hlen, List.take_length, hscan]
        within := hlen.ge
        exact := fun _ => ⟨hlen, rfl⟩ }

/-- What an append can do: refuse and change nothing, fail in its write, or extend the journal by
the sealed record. -/
inductive Appended (k : Crypto) (j : OrderingJournal) (r : OrderingRecord) (write : WriteResult) :
    Except OrderingError OrderingRecord × OrderingJournal → Prop
  | refused (err : OrderingError) : Appended k j r write (.error err, j)
  | failed (left : Leftover) (working : j.poisoned = false)
      (written : write = .failed left) :
      Appended k j r write
        (.error .write, { j.leave (j.header.sealRecord k j.head r) left with poisoned := true })
  | written (working : j.poisoned = false) (order : inOrder j.head r = .ok ())
      (valid : (j.header.sealRecord k j.head r).validate = .ok ()) (synced : write = .synced) :
      Appended k j r write
        (.ok (j.header.sealRecord k j.head r),
          { j with records := j.records ++ [j.header.sealRecord k j.head r]
                   head := ⟨r.index, r.term, (j.header.sealRecord k j.head r).mac⟩ })

lemma append_cases (j : OrderingJournal) (r : OrderingRecord) (write : WriteResult) :
    Appended k j r write (j.append k r write) := by
  simp only [append]
  split
  · exact .refused _
  rename_i hpois
  split
  · exact .refused _
  rename_i horder
  split_ifs
  · exact .refused _
  split
  · exact .refused _
  rename_i hvalid
  have hwork : j.poisoned = false := by simpa using hpois
  split
  · exact .failed _ hwork rfl
  · exact .written hwork horder hvalid rfl

/-- A journal stays sound whatever its append does. -/
lemma Sound.append (hs : j.Sound k) (r : OrderingRecord) (write : WriteResult) :
    (j.append k r write).2.Sound k := by
  have hcases := j.append_cases (k := k) r write
  generalize j.append k r write = result at hcases ⊢
  cases hcases with
  | refused err => exact hs
  | failed left working written =>
    cases left with
    | nothing | part => exact ⟨hs.scanned, hs.within, fun h => absurd h (by simp)⟩
    | whole =>
      refine ⟨?_, ?_, fun h => absurd h (by simp)⟩
      · show j.header.scan k {} ((j.records ++ _).take j.head.index) = .ok j.head
        rw [List.take_append_of_le_length hs.within]
        exact hs.scanned
      · show j.head.index ≤ (j.records ++ _).length
        rw [List.length_append]
        exact hs.within.trans (Nat.le_add_right _ _)
  | written working order valid synced =>
    obtain ⟨hlen, htorn⟩ := hs.exact working
    have hindex := (inOrder_eq_ok order).1
    have hfull : (j.records ++ [j.header.sealRecord k j.head r]).length = r.index := by
      rw [List.length_append, List.length_singleton, hlen, hindex]
    refine ⟨?_, hfull.ge, fun _ => ⟨hfull, htorn⟩⟩
    have htake : (j.records ++ [j.header.sealRecord k j.head r]).take r.index =
        j.records ++ [j.header.sealRecord k j.head r] := by
      rw [← hfull, List.take_length]
    rw [htake]
    refine scan_append.mpr ⟨j.head, ?_, ?_⟩
    · have hscnd := hs.scanned
      rwa [← hlen, List.take_length] at hscnd
    · have hfol : j.header.follow k j.head (j.header.sealRecord k j.head r) =
          .ok ⟨r.index, r.term, (j.header.sealRecord k j.head r).mac⟩ :=
        follow_eq_ok.mpr ⟨rfl, rfl, valid, order, rfl⟩
      simp only [OrderingHeader.scan, hfol]

/-! ## What an append leaves of the records before it -/

/-- The second journal is the first with more records, in its file and up to its head. -/
structure Extends (j j' : OrderingJournal) : Prop where
  header : j'.header = j.header
  records : ∃ rest, j'.records = j.records ++ rest
  head : j.head.index ≤ j'.head.index

lemma Extends.refl (j : OrderingJournal) : Extends j j :=
  ⟨rfl, ⟨[], (List.append_nil _).symm⟩, le_rfl⟩

variable {j' : OrderingJournal}

variable {w : WriteResult}

lemma append_extends {result : Except OrderingError OrderingRecord}
    (h : j.append k r w = (result, j')) :
    Extends j j' := by
  have hcases := j.append_cases (k := k) r w
  rw [h] at hcases
  cases hcases with
  | refused => exact .refl j
  | failed left _ _ =>
    cases left with
    | nothing | part => exact ⟨rfl, ⟨[], (List.append_nil _).symm⟩, le_rfl⟩
    | whole => exact ⟨rfl, ⟨_, rfl⟩, le_rfl⟩
  | written hjrnl horder hvalid hsynced =>
    refine ⟨rfl, ⟨_, rfl⟩, ?_⟩
    have hindex := (inOrder_eq_ok horder).1
    show j.head.index ≤ r.index
    omega

/-- A failed append leaves the head where it was. -/
lemma append_error_head {err : OrderingError}
    (h : j.append k r w = (.error err, j')) : j'.head = j.head := by
  have hcases := j.append_cases (k := k) r w
  rw [h] at hcases
  cases hcases with
  | refused => rfl
  | failed left _ _ => cases left <;> rfl

/-- What a synced append writes. -/
structure Wrote (k : Crypto) (j : OrderingJournal) (r record : OrderingRecord)
    (j' : OrderingJournal) : Prop where
  working : j.poisoned = false
  order : inOrder j.head r = .ok ()
  sealed : record = j.header.sealRecord k j.head r
  journal : j' = { j with records := j.records ++ [record], head := ⟨r.index, r.term, record.mac⟩ }

lemma append_ok {record : OrderingRecord} (h : j.append k r w = (.ok record, j')) :
    Wrote k j r record j' := by
  have hcases := j.append_cases (k := k) r w
  rw [h] at hcases
  cases hcases with
  | written working order valid synced => exact ⟨working, order, rfl, rfl⟩

lemma record_of_getElem (hr : j.records[i]? = some r) (hindex : r.index = i + 1)
    (hi : i < j.head.index) :
    j.record (i + 1) = .ok r := by
  have hrange : ¬ (i + 1 = 0 ∨ i + 1 > j.head.index) := by omega
  have hsame : ¬ r.index ≠ i + 1 := not_not.mpr hindex
  simp only [record, if_neg hrange, Nat.add_sub_cancel, hr, if_neg hsame]

lemma getElem_of_record (h : j.record i = .ok r) :
    0 < i ∧ i ≤ j.head.index ∧ j.records[i - 1]? = some r ∧ r.index = i := by
  obtain ⟨hrange, h⟩ := guard_eq_ok.mp h
  split at h
  · cases h
  · rename_i hr
    obtain ⟨hindex, h⟩ := guard_eq_ok.mp h
    cases h
    exact ⟨by omega, by omega, hr, not_not.mp hindex⟩

/-- The records of a sound journal are those up to its head. -/
lemma Sound.record_succ (hs : j.Sound k) {n : ℕ} :
    j.record (n + 1) = .ok r ↔ (j.records.take j.head.index)[n]? = some r := by
  constructor
  · intro hr
    obtain ⟨-, hi, hget, -⟩ := getElem_of_record hr
    rw [List.getElem?_take_of_lt hi]
    exact hget
  · intro hr
    have hi := (List.getElem?_eq_some_iff.mp hr).1
    have hlt : n < j.head.index := by
      rw [List.length_take] at hi
      omega
    -- the records of an accepted file stand at their indexes
    have hindex : r.index = n + 1 := by
      have hscan := hs.scanned
      generalize j.records.take j.head.index = rs at hscan hr hi
      have hsplit : rs = rs.take n ++ (r :: rs.drop (n + 1)) := by
        rw [List.getElem?_eq_getElem hi] at hr
        rw [← Option.some.inj hr, List.getElem_cons_drop, List.take_append_drop]
      rw [hsplit] at hscan
      obtain ⟨middle, hbef, hafter⟩ := scan_append.mp hscan
      obtain ⟨_, hfoll, -⟩ := scan_cons.mp hafter
      rw [(inOrder_eq_ok hfoll.order).1, scan_index hbef, List.length_take]
      show 0 + min n rs.length + 1 = n + 1
      omega
    rw [List.getElem?_take_of_lt hlt] at hr
    exact record_of_getElem hr hindex hlt

lemma exists_succ_of_record (hr : j.record i = .ok r) : ∃ n, i = n + 1 :=
  Nat.exists_eq_add_one.mpr (getElem_of_record hr).1

/-- Every index up to the head of a sound journal has its record. -/
lemma Sound.record_ok (hs : j.Sound k) (hpos : 0 < i) (hi : i ≤ j.head.index) :
    ∃ r, j.record i = .ok r := by
  obtain ⟨n, rfl⟩ := Nat.exists_eq_add_one.mpr hpos
  have hwithin := hs.within
  exact ⟨_, hs.record_succ.mpr (List.getElem?_eq_getElem (by rw [List.length_take]; omega))⟩

lemma Extends.record (h : Extends j j') (hr : j.record i = .ok r) : j'.record i = .ok r := by
  obtain ⟨hpos, hi, hget, hindex⟩ := getElem_of_record hr
  obtain ⟨rest, hrest⟩ := h.records
  obtain ⟨n, rfl⟩ := exists_succ_of_record hr
  have hlen : n < j.records.length := (List.getElem?_eq_some_iff.mp hget).1
  refine record_of_getElem ?_ hindex (lt_of_lt_of_le hi h.head)
  rw [hrest, List.getElem?_append_left hlen]
  exact hget

/-- The record a synced append writes is the one at its index. -/
lemma Wrote.record_self {record : OrderingRecord} (h : Wrote k j r record j') (hs : j.Sound k) :
    j'.record r.index = .ok record := by
  obtain ⟨hwork, horder, hrec, rfl⟩ := h
  have hindex := (inOrder_eq_ok horder).1
  have hlen := (hs.exact hwork).1
  rw [hindex]
  refine record_of_getElem ?_ ?_ ?_
  · rw [← hlen, List.getElem?_concat_length]
  · rw [hrec]
    exact hindex
  · exact Nat.lt_succ_self _

lemma Extends.storeCursorsThrough (h : Extends j j') (hs : j.Sound k) {n : ℕ}
    (hn : n ≤ j.head.index) : j'.storeCursorsThrough n = j.storeCursorsThrough n := by
  obtain ⟨rest, hrest⟩ := h.records
  have hn' : ¬ n > j'.head.index := not_lt.mpr (hn.trans h.head)
  simp only [OrderingJournal.storeCursorsThrough, if_neg hn', if_neg (not_lt.mpr hn), h.header, hrest]
  rw [List.take_append_of_le_length (hn.trans hs.within)]

end OrderingJournal

/-! ## The anchor of a term -/

/-- The head a scan ends at is that of its last record, which keeps the order of the head before. -/
lemma scan_concat (hscan : h.scan k last (rs ++ [r]) = .ok next) :
    ∃ middle, h.scan k last rs = .ok middle ∧ Follows k h middle r next := by
  obtain ⟨middle, hrs, hr⟩ := scan_append.mp hscan
  obtain ⟨_, hfoll, hnil⟩ := scan_cons.mp hr
  cases hnil
  exact ⟨middle, hrs, hfoll⟩

lemma getElem_concat_cases {α : Type} {l : List α} {x y : α} (h : (l ++ [x])[i]? = some y) :
    i < l.length ∧ l[i]? = some y ∨ i = l.length ∧ y = x := by
  have hi : i < (l ++ [x]).length := (List.getElem?_eq_some_iff.mp h).1
  rw [List.length_append, List.length_singleton] at hi
  rcases Nat.lt_succ_iff_lt_or_eq.mp hi with hlt | rfl
  · rw [List.getElem?_append_left hlt] at h
    exact .inl ⟨hlt, h⟩
  · rw [List.getElem?_concat_length] at h
    exact .inr ⟨rfl, (Option.some.inj h).symm⟩

/-- The records hold the leadership anchor of a term at or before an index. -/
def AnchoredBy (rs : List OrderingRecord) (i term : ℕ) : Prop :=
  ∃ a ≤ i, ∃ anchor, rs[a]? = some anchor ∧ anchor.kind = .leadershipEstablished ∧
    anchor.term = term

lemma AnchoredBy.append {ss : List OrderingRecord} {j term : ℕ} (h : AnchoredBy rs i term)
    (hij : i ≤ j) : AnchoredBy (rs ++ ss) j term := by
  obtain ⟨a, ha, anchor, hget, hanc⟩ := h
  have hlen : a < rs.length := (List.getElem?_eq_some_iff.mp hget).1
  exact ⟨a, ha.trans hij, anchor, by rwa [List.getElem?_append_left hlen], hanc⟩

/-- **Every record of an accepted file stands after the anchor of its term**, and so does the head. -/
lemma scan_anchored (hscan : h.scan k {} rs = .ok next) :
    (next.term = 0 ∨ AnchoredBy rs rs.length next.term) ∧
      ∀ i r, rs[i]? = some r → AnchoredBy rs i r.term := by
  induction rs using List.reverseRecOn generalizing next with
  | nil =>
    simp only [OrderingHeader.scan, Except.ok.injEq] at hscan
    subst hscan
    refine ⟨.inl rfl, fun i r hr => ?_⟩
    simp at hr
  | append_singleton rs r ih =>
    obtain ⟨middle, hmiddle, hfoll⟩ := scan_concat hscan
    obtain ⟨hhead, hall⟩ := ih hmiddle
    obtain ⟨-, hterm, hkind⟩ := inOrder_eq_ok hfoll.order
    have hpos : r.term ≠ 0 := by
      have hvalid := hfoll.valid
      simp only [OrderingRecord.validate, guard_eq_ok] at hvalid
      exact fun hzero => hvalid.1 (.inr hzero)
    -- The new record begins its term, or continues the term of the head before.
    have hlast : AnchoredBy (rs ++ [r]) rs.length r.term := by
      by_cases hanc : r.kind = .leadershipEstablished
      · exact ⟨rs.length, le_rfl, r, List.getElem?_concat_length, hanc, rfl⟩
      · have hsame : middle.term = r.term :=
          le_antisymm hterm (not_lt.mp fun hlt => hanc (hkind.mpr hlt))
        rcases hhead with hzero | hancd
        · exact absurd (hsame.symm.trans hzero) hpos
        · rw [hsame] at hancd
          exact hancd.append le_rfl
    refine ⟨.inr ?_, fun i found hfound => ?_⟩
    · rw [hfoll.head]
      obtain ⟨a, ha, anchor, hget⟩ := hlast
      exact ⟨a, ha.trans (by simp), anchor, hget⟩
    · rcases getElem_concat_cases hfound with ⟨-, hfound⟩ | ⟨rfl, rfl⟩
      · exact (hall i found hfound).append le_rfl
      · exact hlast

/-- Terms never regress, and an anchor begins a new one. -/
lemma scan_terms (hscan : h.scan k {} rs = .ok next) :
    (∀ (i : ℕ) (r : OrderingRecord), rs[i]? = some r → r.term ≤ next.term) ∧
      ∀ (i j : ℕ) (r later : OrderingRecord), i < j → rs[i]? = some r → rs[j]? = some later →
        later.kind = .leadershipEstablished → r.term < later.term := by
  induction rs using List.reverseRecOn generalizing next with
  | nil =>
    refine ⟨fun i r hr => ?_, fun i j r later _ hr => ?_⟩
    · simp at hr
    · simp at hr
  | append_singleton rs r ih =>
    obtain ⟨middle, hmiddle, hfoll⟩ := scan_concat hscan
    obtain ⟨hbound, hbegins⟩ := ih hmiddle
    obtain ⟨-, hterm, hkind⟩ := inOrder_eq_ok hfoll.order
    refine ⟨?_, ?_⟩
    · intro i found hfound
      rw [hfoll.head]
      rcases getElem_concat_cases hfound with ⟨-, hbef⟩ | ⟨-, rfl⟩
      · exact (hbound i found hbef).trans hterm
      · exact le_rfl
    · intro i j found later hij hfound hlater hanc
      rcases getElem_concat_cases hlater with ⟨hj, hlater⟩ | ⟨rfl, rfl⟩
      · rcases getElem_concat_cases hfound with ⟨-, hfound⟩ | ⟨rfl, -⟩
        · exact hbegins i j found later hij hfound hlater hanc
        · omega
      · rcases getElem_concat_cases hfound with ⟨-, hfound⟩ | ⟨rfl, -⟩
        · exact (hbound i found hfound).trans_lt (hkind.mp hanc)
        · omega

variable {j : OrderingJournal}

/-- A term has one anchor. -/
lemma OrderingJournal.Sound.anchor_unique (hs : j.Sound k) {a b : ℕ}
    {s : OrderingRecord} (ha : j.record a = .ok r) (hb : j.record b = .ok s)
    (hr : r.kind = .leadershipEstablished) (hsk : s.kind = .leadershipEstablished)
    (hterm : r.term = s.term) : a = b := by
  obtain ⟨a, rfl⟩ := exists_succ_of_record ha
  obtain ⟨b, rfl⟩ := exists_succ_of_record hb
  rw [hs.record_succ] at ha hb
  have hbegins := (scan_terms hs.scanned).2
  rcases Nat.lt_trichotomy a b with hlt | rfl | hlt
  · exact absurd hterm (hbegins a b r s hlt ha hb hsk).ne
  · rfl
  · exact absurd hterm.symm (hbegins b a s r hlt hb ha hr).ne

/-- A head in a term has the anchor of that term before it. -/
lemma OrderingJournal.Sound.head_anchored (hs : j.Sound k) (hterm : j.head.term ≠ 0) :
    ∃ a anchor, j.record a = .ok anchor ∧ anchor.kind = .leadershipEstablished ∧
      anchor.term = j.head.term := by
  rcases (scan_anchored hs.scanned).1 with hzero | ⟨a, -, anchor, hanc, hkind, hancT⟩
  · exact absurd hzero hterm
  · exact ⟨a + 1, anchor, hs.record_succ.mpr hanc, hkind, hancT⟩

/-- No record is in a later term than the head. -/
lemma OrderingJournal.Sound.term_le (hs : j.Sound k) (hr : j.record i = .ok r) :
    r.term ≤ j.head.term := by
  obtain ⟨n, rfl⟩ := exists_succ_of_record hr
  exact (scan_terms hs.scanned).1 n r (hs.record_succ.mp hr)

/-- The anchor of the term of a record, as the journal gives it. -/
lemma OrderingJournal.Sound.anchored (hs : j.Sound k) (hr : j.record i = .ok r) :
    ∃ a ≤ i, ∃ anchor, j.record a = .ok anchor ∧ anchor.kind = .leadershipEstablished ∧
      anchor.term = r.term := by
  obtain ⟨n, rfl⟩ := exists_succ_of_record hr
  obtain ⟨a, ha, anchor, hanc, hkind⟩ := (scan_anchored hs.scanned).2 n r (hs.record_succ.mp hr)
  exact ⟨a + 1, Nat.succ_le_succ ha, anchor, hs.record_succ.mpr hanc, hkind⟩

end Soundness

end Replication

end Halro
