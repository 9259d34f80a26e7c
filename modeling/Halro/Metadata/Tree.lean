import Mathlib.Data.List.Infix

/-!
# The metadata database and its recorded operations (`internal/store/bolt/journal_attach.go`)

The database is a tree of buckets: every bucket has a path, and every key of a bucket a value.  A
key and a nested bucket of one bucket share their names.  `Tree` is that tree with the operations
the store uses, each with the errors of the library that keeps it; `applyOp` is what the replay of
a recorded operation does, which is more lenient than the operation it was recorded from.

The values are of any type: what the store puts into them is not read here.
-/

namespace Halro

namespace Metadata

variable {V : Type}

abbrev Path := List String

inductive StoreError
  | bucketMissing (path : Path)
  | bucketNotFound (path : Path)
  | bucketExists (path : Path)
  | bucketNameRequired
  | keyRequired
  | incompatibleValue
  | noPath
  | missingForPut (path : Path)
  | writeWithoutPath
  | metaHoldsKeys (path : Path)
  | unclassifiedKey (key : String)
  | unclassifiedBucket (name : String)
  | journalPosition (key : String)
  | mixedWrite (name : String)
  | mayNotShare (name companion : String)
  | refused (reason : String)
  | begin
  | commit
  | metadataMissing
  | journalUnavailable
  | notOpen
  | alreadyOpen
  | openMetadata
  | alreadyAttached
  | stat
  | noPositionRecorded
  | epochDiffers (stored file : ℕ)
  | projectionAhead (stored file : ℕ)
  | trimmedPast (stored trimmed : ℕ)
  | partialFrame
  | noEpochHeader
  | invalidMAC
  | emptyFrame
  | invalidOp
  | epochSequence
  | opensChain
  | noHeader
  | misplacedFrame
  | frameEpoch (frame file : ℕ)
  | frameSequence (frame last : ℕ)
  | brokenChain
  | epochReason
  | createJournal
  | writeJournal
  | syncJournal
  | closeJournal
  | renameJournal
  | syncDirectory
  | openJournal
  | seekJournal
  | truncateJournal
  | syncRepaired
  | recordsNothing
  | overFrameLimit (bytes : ℕ)
  | requiresRestart
  | append
  | sync
  | durableCallback
  | confirmation
  | trimBeyondApplied (through applied : ℕ)
  | alreadyTrimmed (trimmed through : ℕ)
  | trimBeyondEnd (through last : ℕ)
  | replicationRange
  | outsideJournal
  deriving DecidableEq

/-! ## The tree -/

@[ext] structure Tree (V : Type) where
  bucket : Path → Bool
  value : Path → String → Option V

namespace Tree

/-- A path is walked from the root, one bucket after the other. -/
def Has (t : Tree V) (path : Path) : Prop :=
  path ≠ [] ∧ ∀ p ∈ path.inits, p ≠ [] → t.bucket p

instance (t : Tree V) (path : Path) : Decidable (t.Has path) :=
  inferInstanceAs (Decidable (_ ∧ _))

def setValue (t : Tree V) (path : Path) (key : String) (v : Option V) : Tree V :=
  { t with value := fun p k => if p = path ∧ k = key then v else t.value p k }

def setBucket (t : Tree V) (path : Path) : Tree V :=
  { t with bucket := fun p => p = path || t.bucket p }

/-- A bucket goes with everything below it. -/
def removeBucket (t : Tree V) (path : Path) : Tree V where
  bucket := fun p => !decide (path <+: p) && t.bucket p
  value := fun p k => if path <+: p then none else t.value p k

def put (t : Tree V) (path : Path) (key : String) (v : V) : Except StoreError (Tree V) :=
  if ¬ t.Has path then .error (.bucketMissing path)
  else if key = "" then .error .keyRequired
  else if t.bucket (path ++ [key]) then .error .incompatibleValue
  else .ok (t.setValue path key (some v))

/-- Deleting a key that is not there is no error. -/
def delete (t : Tree V) (path : Path) (key : String) : Except StoreError (Tree V) :=
  if ¬ t.Has path then .error (.bucketMissing path)
  else if t.bucket (path ++ [key]) then .error .incompatibleValue
  else .ok (t.setValue path key none)

/-- Whether a bucket can be opened below: at the root, or in a bucket that is there. -/
def Parent (t : Tree V) (path : Path) : Prop := path.dropLast = [] ∨ t.Has path.dropLast

instance (t : Tree V) (path : Path) : Decidable (t.Parent path) :=
  inferInstanceAs (Decidable (_ ∨ _))

def createBucketIfNotExists (t : Tree V) (path : Path) : Except StoreError (Tree V) :=
  if path.getLastD "" = "" then .error .bucketNameRequired
  else if ¬ t.Parent path then .error (.bucketMissing path.dropLast)
  else if t.bucket path then .ok t
  else if (t.value path.dropLast (path.getLastD "")).isSome then .error .incompatibleValue
  else .ok (t.setBucket path)

def createBucket (t : Tree V) (path : Path) : Except StoreError (Tree V) :=
  if t.bucket path then .error (.bucketExists path) else t.createBucketIfNotExists path

def deleteBucket (t : Tree V) (path : Path) : Except StoreError (Tree V) :=
  if ¬ t.Has path then .error (.bucketNotFound path) else .ok (t.removeBucket path)

end Tree

/-! ## Recorded operations -/

inductive Op (V : Type)
  | put (path : Path) (key : String) (value : V)
  | delete (path : Path) (key : String)
  | createBucket (path : Path)
  | deleteBucket (path : Path)
  deriving DecidableEq

def Op.path : Op V → Path
  | .put path _ _ | .delete path _ | .createBucket path | .deleteBucket path => path

/-- The key of an operation, empty for one on a bucket. -/
def Op.key : Op V → String
  | .put _ key _ | .delete _ key => key
  | .createBucket _ | .deleteBucket _ => ""

/-- What an operation has to satisfy to be written into a frame and read from one. -/
def Op.validate (op : Op V) : Except StoreError Unit :=
  if op.path = [] ∨ "" ∈ op.path then .error .invalidOp
  else
    match op with
    | .put _ key _ | .delete _ key => if key = "" then .error .invalidOp else .ok ()
    | .createBucket _ | .deleteBucket _ => .ok ()

namespace Tree

/-- Every bucket of a path is created that is not there. -/
def createPath (t : Tree V) : Path → Path → Except StoreError (Tree V)
  | _, [] => .ok t
  | done, name :: rest =>
    match t.createBucketIfNotExists (done ++ [name]) with
    | .error err => .error err
    | .ok t => t.createPath (done ++ [name]) rest

/-- One step of `applyOps`. -/
def applyOp (t : Tree V) (op : Op V) : Except StoreError (Tree V) :=
  if op.path = [] then .error .noPath
  else
    match op with
    | .createBucket path => t.createPath [] path
    | .put path key v => if t.Has path then t.put path key v else .error (.missingForPut path)
    | .delete path key => if t.Has path then t.delete path key else .ok t
    | .deleteBucket path => if t.Has path then t.deleteBucket path else .ok t

/-- The replay of one recorded transaction. -/
def applyOps (t : Tree V) (ops : List (Op V)) : Except StoreError (Tree V) :=
  ops.foldlM applyOp t

@[simp] lemma applyOps_nil (t : Tree V) : t.applyOps [] = .ok t := rfl

lemma applyOps_append {t u : Tree V} {ops : List (Op V)} (h : t.applyOps ops = .ok u)
    (rest : List (Op V)) : t.applyOps (ops ++ rest) = u.applyOps rest := by
  rw [applyOps, List.foldlM_append]
  rw [applyOps] at h
  rw [h]
  rfl

/-! ## How the operations act -/

variable {t u : Tree V} {path p : Path} {key : String} {v : V}

lemma Has.bucket (h : t.Has path) : t.bucket path :=
  h.2 path ((List.mem_inits _ _).mpr (List.prefix_refl path)) h.1

lemma has_concat {name : String} : t.Has (path ++ [name]) ↔
    (path = [] ∨ t.Has path) ∧ t.bucket (path ++ [name]) := by
  constructor
  · intro h
    refine ⟨?_, h.bucket⟩
    rcases eq_or_ne path [] with hpath | hpath
    · exact .inl hpath
    · exact .inr ⟨hpath, fun p hp hne => h.2 p
        ((List.mem_inits _ _).mpr (((List.mem_inits _ _).mp hp).trans (List.prefix_append path _))) hne⟩
  · rintro ⟨hpar, hbkt⟩
    refine ⟨by simp, fun p hp hne => ?_⟩
    rw [List.mem_inits, List.prefix_concat_iff] at hp
    rcases hp with rfl | hp
    · exact hbkt
    · rcases hpar with rfl | hpar
      · exact absurd (List.prefix_nil.mp hp) hne
      · exact hpar.2 p ((List.mem_inits _ _).mpr hp) hne

lemma put_ok (h : t.put path key v = .ok u) :
    t.Has path ∧ key ≠ "" ∧ t.bucket (path ++ [key]) = false ∧ u = t.setValue path key (some v) := by
  unfold put at h
  split_ifs at h with hhas hkey hbkt
  exact ⟨hhas, hkey, by simpa using hbkt, (Except.ok.inj h).symm⟩

lemma put_of (hhas : t.Has path) (hkey : key ≠ "") (hbkt : t.bucket (path ++ [key]) = false) :
    t.put path key v = .ok (t.setValue path key (some v)) := by
  simp [put, hhas, hkey, hbkt]

lemma delete_ok (h : t.delete path key = .ok u) :
    t.Has path ∧ t.bucket (path ++ [key]) = false ∧ u = t.setValue path key none := by
  unfold delete at h
  split_ifs at h with hhas hbkt
  exact ⟨hhas, by simpa using hbkt, (Except.ok.inj h).symm⟩

lemma delete_of (hhas : t.Has path) (hbkt : t.bucket (path ++ [key]) = false) :
    t.delete path key = .ok (t.setValue path key none) := by
  simp [delete, hhas, hbkt]

/-- What creating a bucket needs, and that it changes nothing where there is one. -/
lemma createBucketIfNotExists_ok (h : t.createBucketIfNotExists path = .ok u) :
    path.getLastD "" ≠ "" ∧ t.Parent path ∧ (t.bucket path = true ∧ u = t ∨
      t.bucket path = false ∧ t.value path.dropLast (path.getLastD "") = none ∧
        u = t.setBucket path) := by
  unfold createBucketIfNotExists at h
  split_ifs at h with hname hpar hbkt hvalue
  · exact ⟨hname, hpar, .inl ⟨hbkt, (Except.ok.inj h).symm⟩⟩
  · exact ⟨hname, hpar, .inr ⟨by simpa using hbkt, by simpa using hvalue, (Except.ok.inj h).symm⟩⟩

lemma createBucketIfNotExists_there (hname : path.getLastD "" ≠ "") (hpar : t.Parent path)
    (hbkt : t.bucket path) : t.createBucketIfNotExists path = .ok t := by
  rw [createBucketIfNotExists, if_neg hname, if_neg (not_not.mpr hpar), if_pos hbkt]

lemma createBucketIfNotExists_new (hname : path.getLastD "" ≠ "") (hpar : t.Parent path)
    (hbkt : t.bucket path = false) (hvalue : t.value path.dropLast (path.getLastD "") = none) :
    t.createBucketIfNotExists path = .ok (t.setBucket path) := by
  rw [createBucketIfNotExists, if_neg hname, if_neg (not_not.mpr hpar),
    if_neg (Bool.not_eq_true _ ▸ hbkt), if_neg (by rw [hvalue]; exact Bool.false_ne_true)]

lemma createBucket_ok (h : t.createBucket path = .ok u) :
    t.createBucketIfNotExists path = .ok u := by
  unfold createBucket at h
  split_ifs at h
  exact h

lemma deleteBucket_ok (h : t.deleteBucket path = .ok u) : t.Has path ∧ u = t.removeBucket path := by
  unfold deleteBucket at h
  split_ifs at h with hhas
  exact ⟨hhas, (Except.ok.inj h).symm⟩

end Tree

end Metadata

end Halro
