import Halro.Replication.Primary

/-!
# Recovery of local commits (`internal/replication/recovery.go`)

A Primary that is started reconciles its four native stores with the authenticated ordering journal
before it sends anything: a suffix of a store that was never ordered is cut off, a Ledger roll whose
global index is missing is given one, and the exact frames above the confirmed index are rebuilt from
the stores.  The stores are read through the interface the source gives them (`DurableSource`), over
any representation of their files and any errors.
-/

namespace Halro

open Framework

namespace Replication

/-- The native stores as recovery uses them. -/
structure DurableSource (S E : Type) where
  /-- The physical tail of a store. -/
  cursor : S → Store → Except E StoreCursor
  /-- The authenticated chain head of a store at a position. -/
  headAt : S → Store → StoreCursor → Except E Digest
  /-- The exact bytes of a range of one generation. -/
  read : S → Store → ℕ → ℕ → ℕ → Except E Bytes
  /-- Removing the suffix after a position. -/
  truncate : S → Store → StoreCursor → Except E Unit × S
  /-- The metadata of a durable roll of the Ledger. -/
  pendingLedgerRoll : S → ℕ → Except E Bytes
  readProviderObjectChunk : S → ProviderObjectMetadata → Except E Bytes

inductive RecoveryError (E : Type)
  | confirmed (confirmed head : ℕ)
  | baseline (store : Store) (error : E)
  | baselineHead (store : Store)
  | ordering (error : OrderingError)
  | cursor (store : Store) (error : E)
  | unconfirmedRoll
  | rollTerm
  | pendingRoll (error : E)
  | rollCursor
  | frame (error : FrameError)
  | rollRecord (error : OrderingError)
  | behind (store : Store) (actual expected : StoreCursor)
  | truncate (store : Store) (error : E)
  | verify (store : Store) (error : E)
  | truncated (store : Store) (verified expected : StoreCursor)
  | identity
  | range (first last head : ℕ)
  | record (error : OrderingError)
  | read (index : ℕ) (error : E)
  | object (index : ℕ) (error : FrameError)
  | objectChunk (index : ℕ) (error : E)
  | reconstruct (index : ℕ) (error : FrameError)
  | digest (index : ℕ)
  deriving DecidableEq

def StoreCursor.toText (c : StoreCursor) : String :=
  toString c.generation ++ "/" ++ toString c.sequence

def RecoveryError.message {E : Type} (source : E → String) : RecoveryError E → String
  | .confirmed index head => "confirmed index " ++ toString index ++
      " exceeds ordering head " ++ toString head
  | .baseline store err => "authenticate source store " ++ toString store.code ++ " baseline: " ++
      source err
  | .baselineHead store => "source store " ++ toString store.code ++
      " does not match its authenticated ordering baseline"
  | .ordering err => err.message
  | .cursor store err => "read source store " ++ toString store.code ++ " cursor: " ++ source err
  | .unconfirmedRoll => "cannot recover Ledger Roll whose final data frame is unconfirmed"
  | .rollTerm => "cannot recover Ledger Roll before a leadership term is established"
  | .pendingRoll err => "authenticate pending Ledger Roll: " ++ source err
  | .rollCursor => "pending Ledger Roll does not match the authenticated ordering cursor"
  | .frame err => err.message
  | .rollRecord err => "complete pending Ledger Roll ordering record: " ++ err.message
  | .behind store actual expected => "source store " ++ toString store.code ++ " cursor " ++
      actual.toText ++ " is behind ordering " ++ expected.toText
  | .truncate store err => "truncate unordered source store " ++ toString store.code ++
      " suffix: " ++ source err
  | .verify store err => "verify source store " ++ toString store.code ++
      " cursor after truncation: " ++ source err
  | .truncated store verified expected => "source store " ++ toString store.code ++
      " truncation ended at " ++ verified.toText ++ ", want " ++ expected.toText
  | .identity => "replication reconstruction identity is invalid"
  | .range first last head => "replication reconstruction range " ++ toString first ++ "-" ++
      toString last ++ " is outside ordering head " ++ toString head
  | .record err => err.message
  | .read index err => "read source bytes for ordering index " ++ toString index ++ ": " ++
      source err
  | .object index err => "decode provider object at ordering index " ++ toString index ++ ": " ++
      err.message
  | .objectChunk index err => "read provider object at ordering index " ++ toString index ++ ": " ++
      source err
  | .reconstruct index err => "reconstruct ordering index " ++ toString index ++ ": " ++ err.message
  | .digest index => "source bytes for ordering index " ++ toString index ++
      " do not match its authenticated digest"

/-- The four native stores, in their order. -/
def nativeStores : List Store := [.ledger, .audit, .governance, .metadata]

def StoreCursor.Behind (actual expected : StoreCursor) : Prop :=
  if actual.generation ≠ expected.generation then actual.generation < expected.generation
  else actual.sequence < expected.sequence

instance (actual expected : StoreCursor) : Decidable (actual.Behind expected) :=
  inferInstanceAs (Decidable (ite _ _ _))

section Recovery

variable {S E : Type} (k : Crypto) (d : DurableSource S E)

/-! ## Rebuilding frames -/

/-- The payload of the frame a record orders. -/
def payloadOf (st : S) (r : OrderingRecord) : Except (RecoveryError E) Bytes :=
  match r.kind with
  | .data =>
    (d.read st r.store r.storeGeneration r.storeSequenceFirst r.storeSequenceLast).mapError
      (.read r.index)
  | .providerObject =>
    match decodeProviderObjectMetadata r.metadata with
    | .error err => .error (.object r.index err)
    | .ok metadata => (d.readProviderObjectChunk st metadata).mapError (.objectChunk r.index)
  | _ => .ok []

/-- The frame of a record with a payload. -/
def frameOf (clusterID incarnation : Bytes) (r : OrderingRecord) (payload : Bytes) : Frame where
  kind := r.kind
  store := r.store
  index := r.index
  term := r.term
  confirmedIndex := r.confirmedIndex
  storeGeneration := r.storeGeneration
  storeSequenceFirst := r.storeSequenceFirst
  storeSequenceLast := r.storeSequenceLast
  clusterID := clusterID
  incarnation := incarnation
  metadata := r.metadata
  payload := payload

/-- The exact frame at an index, rebuilt from the journal and the stores. -/
def reconstruct (clusterID incarnation : Bytes) (j : OrderingJournal) (st : S) (index : ℕ) :
    Except (RecoveryError E) LocalCommit :=
  match j.record index with
  | .error err => .error (.record err)
  | .ok r =>
    match payloadOf d st r with
    | .error err => .error err
    | .ok payload =>
      match (frameOf clusterID incarnation r payload).marshalBinaryAndDigest k.sha256 with
      | .error err => .error (.reconstruct index err)
      | .ok (encoded, digest) =>
        if digest ≠ r.frameDigest then .error (.digest index)
        else .ok ⟨index, encoded, false⟩

/-- The frames at a list of indexes. -/
def reconstructAll (clusterID incarnation : Bytes) (j : OrderingJournal) (st : S) :
    List ℕ → Except (RecoveryError E) (List LocalCommit)
  | [] => .ok []
  | index :: rest =>
    match reconstruct k d clusterID incarnation j st index with
    | .error err => .error err
    | .ok commit => (reconstructAll clusterID incarnation j st rest).map (commit :: ·)

def reconstructRange (clusterID incarnation : Bytes) (first last : ℕ) (j : OrderingJournal) (st : S) :
    Except (RecoveryError E) (List LocalCommit) :=
  if ¬ ValidIdentity clusterID ∨ ¬ ValidIdentity incarnation then .error .identity
  else if first > last then .ok []
  else if first = 0 ∨ last > j.head.index then .error (.range first last j.head.index)
  else reconstructAll k d clusterID incarnation j st (List.range' first (last + 1 - first))

/-! ## Reconciling the stores -/

/-- The stores hold the chain heads the journal names at index zero. -/
def checkBaselines (heads : Store → Digest) (j : OrderingJournal) (st : S) :
    List Store → Except (RecoveryError E) Unit
  | [] => .ok ()
  | store :: rest =>
    let baseline := j.header.storeCursors.get store
    if baseline.sequence > 0 ∨ heads store ≠ .zero then
      match d.headAt st store baseline with
      | .error err => .error (.baseline store err)
      | .ok head =>
        if head ≠ heads store then .error (.baselineHead store)
        else checkBaselines heads j st rest
    else checkBaselines heads j st rest

/-- The index of the last frame of the Ledger in the order, or zero. -/
def ledgerCursorIndex (records : List OrderingRecord) : ℕ :=
  records.foldl (fun last r => if r.kind = .data ∧ r.store = .ledger then r.index else last) 0

/-- Giving a durable roll of the Ledger its missing global index: the journal after it, or none when
there is no such roll. -/
def completeRoll (clusterID incarnation : Bytes) (confirmed : ℕ) (expected : Cursors)
    (j : OrderingJournal) (st : S) (write : WriteResult) :
    Except (RecoveryError E) (Option StoreCursor) × OrderingJournal :=
  match d.cursor st .ledger with
  | .error err => (.error (.cursor .ledger err), j)
  | .ok actual =>
    if expected.ledger.generation > 0 ∧ actual.generation = expected.ledger.generation + 1 ∧
        actual.sequence = expected.ledger.sequence then
      if ledgerCursorIndex (j.records.take j.head.index) > confirmed then (.error .unconfirmedRoll, j)
      else if j.head.term = 0 then (.error .rollTerm, j)
      else
        match d.pendingLedgerRoll st expected.ledger.generation with
        | .error err => (.error (.pendingRoll err), j)
        | .ok metadata =>
          match decodeLedgerRollMetadata metadata with
          | .error _ => (.error .rollCursor, j)
          | .ok roll =>
            if roll.generation ≠ expected.ledger.generation ∨
                roll.lastSequence ≠ expected.ledger.sequence then
              (.error .rollCursor, j)
            else
              let f : Frame :=
                { kind := .ledgerRoll
                  index := j.head.index + 1
                  term := j.head.term
                  confirmedIndex := confirmed
                  clusterID := clusterID
                  incarnation := incarnation
                  metadata := metadata }
              match f.marshalBinaryAndDigest k.sha256 with
              | .error err => (.error (.frame err), j)
              | .ok (_, digest) =>
                match j.append k (.ofFrame f digest) write with
                | (.error err, j) => (.error (.rollRecord err), j)
                | (.ok _, j) => (.ok (some actual), j)
    else (.ok none, j)

/-- The expected positions once a roll of the Ledger is completed. -/
def Cursors.rolled (c : Cursors) : Option StoreCursor → Cursors
  | none => c
  | some actual => c.set .ledger actual

/-- Cutting each store back to its expected position. -/
def reconcile (expected : Cursors) : List Store → S → Except (RecoveryError E) Unit × S
  | [], st => (.ok (), st)
  | store :: rest, st =>
    match d.cursor st store with
    | .error err => (.error (.cursor store err), st)
    | .ok actual =>
      let want := expected.get store
      if want = {} ∧ actual.sequence = 0 then reconcile expected rest st
      else if actual.Behind want then (.error (.behind store actual want), st)
      else if actual ≠ want then
        match d.truncate st store want with
        | (.error err, st) => (.error (.truncate store err), st)
        | (.ok _, st) =>
          match d.cursor st store with
          | .error err => (.error (.verify store err), st)
          | .ok verified =>
            if verified ≠ want then (.error (.truncated store verified want), st)
            else reconcile expected rest st
      else reconcile expected rest st

def recoverLocalCommits (heads : Store → Digest) (clusterID incarnation : Bytes) (confirmed : ℕ)
    (j : OrderingJournal) (st : S) (write : WriteResult) :
    Except (RecoveryError E) (List LocalCommit) × OrderingJournal × S :=
  if confirmed > j.head.index then (.error (.confirmed confirmed j.head.index), j, st)
  else
    match checkBaselines d heads j st nativeStores with
    | .error err => (.error err, j, st)
    | .ok _ =>
      match j.storeCursors with
      | .error err => (.error (.ordering err), j, st)
      | .ok expected =>
        match completeRoll k d clusterID incarnation confirmed expected j st write with
        | (.error err, j) => (.error err, j, st)
        | (.ok rolled, j) =>
          match reconcile d (expected.rolled rolled) nativeStores st with
          | (.error err, st) => (.error err, j, st)
          | (.ok _, st) =>
            (reconstructRange k d clusterID incarnation (confirmed + 1) j.head.index j st, j, st)

/-! ## What recovery does to the journal -/

variable {k d}

/-- The journal after recovery: as it was, or with a roll in the term of its head. -/
def RolledFrom (k : Crypto) (j j' : OrderingJournal) : Prop :=
  j' = j ∨ ∃ r w record, j.append k r w = (.ok record, j') ∧ r.kind = .ledgerRoll ∧
    r.term = j.head.term

variable {clusterID incarnation : Bytes} {confirmed : ℕ} {j j' : OrderingJournal} {st : S}
  {write : WriteResult}

lemma completeRoll_ok {expected : Cursors} {rolled : Option StoreCursor}
    (h : completeRoll k d clusterID incarnation confirmed expected j st write = (.ok rolled, j')) :
    RolledFrom k j j' := by
  simp only [completeRoll] at h
  split at h
  · cases h
  split_ifs at h
  · cases h
  · cases h
  · split at h
    · cases h
    split at h
    · cases h
    obtain ⟨-, h⟩ := guard_pair_eq_ok.mp h
    split at h
    · cases h
    split at h <;> cases h
    rename_i happ
    exact .inr ⟨_, _, _, happ, rfl, rfl⟩
  · cases h
    exact .inl rfl

lemma recoverLocalCommits_ok {heads : Store → Digest} {st' : S} {commits : List LocalCommit}
    (h : recoverLocalCommits k d heads clusterID incarnation confirmed j st write =
      (.ok commits, j', st')) : RolledFrom k j j' := by
  obtain ⟨-, h⟩ := guard_pair_eq_ok.mp h
  split at h
  · cases h
  split at h
  · cases h
  split at h
  · cases h
  rename_i hroll
  split at h
  · cases h
  · obtain ⟨rfl, -⟩ := Prod.mk.inj (Prod.mk.inj h).2
    exact completeRoll_ok hroll

end Recovery

end Replication

end Halro
