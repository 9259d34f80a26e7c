import Halro.Metadata.Tree

/-!
# What a metadata transaction records (`internal/store/bolt/journal_class.go`, `journal_tx.go`)

Every bucket, and every key of the bucket `meta`, has a class that says whether a write to it goes
into the metadata journal.  A callback of the store writes through a recorder, which classifies each
write after it was made: a replicated one becomes an operation of the transaction's frame, a
node-local one is left out, and anything unclassified fails the callback.

A callback reads the transaction and makes its writes in any order; the error of a write ends it.
Whether an operation has to be confirmed by the other members is read from the stored records and
is a parameter here.
-/

namespace Halro

namespace Metadata

variable {V : Type}

/-! ## Classes -/

inductive JournalClass
  | authoritative
  | session
  | nodeDerived
  | keyEnvelope
  | nodeLocal
  | journalBookkeeping
  deriving DecidableEq

def JournalClass.replicated : JournalClass → Bool
  | .authoritative | .session | .keyEnvelope => true
  | .nodeDerived | .nodeLocal | .journalBookkeeping => false

def bucketMeta : String := "meta"

/-- The class of every bucket but `meta`. -/
def bucketClasses : List (String × JournalClass) :=
  [("credentials", .authoritative),
   ("projects", .authoritative),
   ("gateway_keys", .authoritative),
   ("gateway_key_hash", .authoritative),
   ("providers", .authoritative),
   ("provider_egress_proxies", .authoritative),
   ("deployments", .authoritative),
   ("routes", .authoritative),
   ("redaction_policies", .authoritative),
   ("token_guard_policies", .authoritative),
   ("alert_webhooks", .authoritative),
   ("admin_users", .authoritative),
   ("admin_mfa_authenticators", .authoritative),
   ("admin_mfa_recovery_codes", .authoritative),
   ("admin_mfa_challenges", .authoritative),
   ("provider_resources", .authoritative),
   ("provider_resource_idempotency", .authoritative),
   ("deployment_price_versions", .authoritative),
   ("deployment_price_timeline", .authoritative),
   ("deployment_price_next_version", .authoritative),
   ("deployment_pricing_high_water", .authoritative),
   ("deployment_price_pin_intents", .authoritative),
   ("deployment_price_proposals", .authoritative),
   ("pricing_audit_intents", .authoritative),
   ("pricing_idempotency", .authoritative),
   ("pricing_proposal_idempotency", .authoritative),
   ("pricing_migration_resolutions", .authoritative),
   ("admin_audit_intents", .authoritative),
   ("cost_adjustment_intents", .authoritative),
   ("model_capability_detections", .authoritative),
   ("model_capability_detection_idempotency", .authoritative),
   ("model_capability_detection_fingerprint_index", .authoritative),
   ("outcome_definitions", .authoritative),
   ("run_governance_idempotency", .authoritative),
   ("run_governance_index", .authoritative),
   ("migration_history", .authoritative),
   ("admin_sessions", .session),
   ("governance_checkpoint_segments", .nodeDerived),
   ("audit_anchors", .nodeDerived),
   ("route_suspensions", .nodeDerived)]

/-- The class of every key of `meta`. -/
def metaKeyClasses : List (String × JournalClass) :=
  [("schema_version", .authoritative),
   ("runtime_settings", .authoritative),
   ("instance_ui_settings", .authoritative),
   ("instance_usage_settings", .authoritative),
   ("instance_accounting_settings", .authoritative),
   ("instance_id", .authoritative),
   ("admin_bootstrap_completion", .authoritative),
   ("key_slot_audit_intent", .authoritative),
   ("master_key_rotation_audit_intent", .authoritative),
   ("minimum_ledger_reader_version", .authoritative),
   ("ledger_feature_epoch", .authoritative),
   ("usage_checkpoint", .nodeDerived),
   ("usage_rollup_state", .nodeDerived),
   ("token_guard_checkpoint", .nodeDerived),
   ("audit_checkpoint", .nodeDerived),
   ("ledger_chain_checkpoint", .nodeDerived),
   ("governance_checkpoint", .nodeDerived),
   ("governance_journal_anchor", .nodeDerived),
   ("vault_keyring", .keyEnvelope),
   ("key_slot_descriptor", .keyEnvelope),
   ("audit_hmac_envelope", .keyEnvelope),
   ("ledger_hmac_envelope", .keyEnvelope),
   ("vault_key_check", .keyEnvelope),
   ("metadata_hmac_envelope", .keyEnvelope),
   ("shutdown_truncated_attempts_total", .nodeLocal),
   ("applied_journal_sequence", .journalBookkeeping),
   ("metadata_journal_epoch", .journalBookkeeping)]

/-- What a write to a key of a bucket is; the key is empty for a write to the bucket itself. -/
def classify (path : Path) (key : String) : Except StoreError JournalClass :=
  match path with
  | [] => .error .writeWithoutPath
  | root :: rest =>
    if root = bucketMeta then
      if rest ≠ [] then .error (.metaHoldsKeys path)
      else if key = "" then .ok .authoritative
      else
        match metaKeyClasses.lookup key with
        | none => .error (.unclassifiedKey key)
        | some c => .ok c
    else
      match bucketClasses.lookup root with
      | none => .error (.unclassifiedBucket root)
      | some c => .ok c

/-- The name a write has in the rule on mixed transactions. -/
def writeIdentity (path : Path) (key : String) : String :=
  if path.headD "" = bucketMeta then bucketMeta ++ "/" ++ key else path.headD ""

/-- Each node-local write that may share a transaction with replicated ones, and with which. -/
def crossClassWrites : List (String × List String) :=
  [("route_suspensions", ["admin_audit_intents"]),
   ("meta/audit_checkpoint",
    ["meta/key_slot_descriptor", "meta/vault_keyring", "meta/vault_key_check",
     "meta/audit_hmac_envelope", "meta/ledger_hmac_envelope", "meta/metadata_hmac_envelope",
     "admin_users", "admin_sessions", "admin_mfa_challenges", "admin_mfa_recovery_codes",
     "admin_mfa_authenticators", "credentials", "meta/master_key_rotation_audit_intent",
     "meta/key_slot_audit_intent"])]

/-- Every replicated write has to be one the rule of a node-local write names. -/
def checkCompanions (name : String) (companions : List String) :
    List String → Except StoreError Unit
  | [] => .ok ()
  | c :: rest =>
    if c ∈ companions then checkCompanions name companions rest
    else .error (.mayNotShare name c)

def mixedWriteAllowed (replicated : List String) : List String → Except StoreError Unit
  | [] => .ok ()
  | name :: rest =>
    if replicated = [] then .ok ()
    else
      match crossClassWrites.lookup name with
      | none => .error (.mixedWrite name)
      | some companions =>
        match checkCompanions name companions replicated with
        | .error err => .error err
        | .ok () => mixedWriteAllowed replicated rest

/-! ## The recorder -/

/-- The recorded operations of a transaction, and the names of what it wrote. -/
structure Recorder (V : Type) where
  ops : List (Op V) := []
  requiresConfirmation : Bool := false
  replicated : List String := []
  localWrites : List String := []

/-- Whether the loss of an operation would give access back, from the value before it. -/
abbrev ConfirmationRule (V : Type) := Op V → Option V → Bool

section Record

variable (rule : ConfirmationRule V)

def Recorder.add (r : Recorder V) (op : Op V) (previous : Option V) :
    Except StoreError (Recorder V) :=
  match classify op.path op.key with
  | .error err => .error err
  | .ok c =>
    if c = .journalBookkeeping then .error (.journalPosition op.key)
    else if c.replicated then
      .ok { r with
        replicated := writeIdentity op.path op.key :: r.replicated
        ops := r.ops ++ [op]
        requiresConfirmation := r.requiresConfirmation || rule op previous }
    else .ok { r with localWrites := writeIdentity op.path op.key :: r.localWrites }

def Recorder.finish (r : Recorder V) : Except StoreError Unit :=
  mixedWriteAllowed r.replicated r.localWrites

/-- A write of a callback.  Only the schema path removes the bucket `meta`, and it does not go
through a callback. -/
inductive Write (V : Type)
  | put (path : Path) (key : String) (value : V)
  | delete (path : Path) (key : String)
  | createBucket (path : Path)
  | createBucketIfNotExists (path : Path)
  | deleteBucket (path : Path) (kept : path ≠ [bucketMeta])

/-- The operation a write is recorded as. -/
def Write.op : Write V → Op V
  | .put path key v => .put path key v
  | .delete path key => .delete path key
  | .createBucket path | .createBucketIfNotExists path => .createBucket path
  | .deleteBucket path _ => .deleteBucket path

/-- The value a write replaces; only the writes of keys have one. -/
def Write.previous (t : Tree V) : Write V → Option V
  | .put path key _ | .delete path key => t.value path key
  | _ => none

def Write.apply (t : Tree V) : Write V → Except StoreError (Tree V)
  | .put path key v => t.put path key v
  | .delete path key => t.delete path key
  | .createBucket path => t.createBucket path
  | .createBucketIfNotExists path => t.createBucketIfNotExists path
  | .deleteBucket path _ => t.deleteBucket path

/-- A transaction seen through the recorder. -/
structure Tx (V : Type) where
  tree : Tree V
  recorder : Recorder V := {}

/-- The write is made first and recorded after. -/
def Tx.write (tx : Tx V) (w : Write V) : Except StoreError (Tx V) :=
  match w.apply tx.tree with
  | .error err => .error err
  | .ok tree =>
    match tx.recorder.add rule w.op (w.previous tx.tree) with
    | .error err => .error err
    | .ok recorder => .ok ⟨tree, recorder⟩

/-- A callback of the store. -/
inductive Callback (V : Type)
  | done
  | refuse (reason : String)
  | read (next : Tree V → Callback V)
  | write (w : Write V) (next : Callback V)

def Callback.run : Callback V → Tx V → Except StoreError (Tx V)
  | .done, tx => .ok tx
  | .refuse reason, _ => .error (.refused reason)
  | .read next, tx => (next tx.tree).run tx
  | .write w next, tx =>
    match tx.write rule w with
    | .error err => .error err
    | .ok tx => next.run tx

/-- The callbacks of a transaction, one after the other; an error says which of them failed. -/
def runCallbacks : ℕ → List (Callback V) → Tx V → Except (ℕ × StoreError) (Tx V)
  | _, [], tx => .ok tx
  | index, c :: rest, tx =>
    match c.run rule tx with
    | .error err => .error (index, err)
    | .ok tx => runCallbacks (index + 1) rest tx

end Record

/-! ## The replicated part of the database -/

/-- Whether a key of a bucket is replicated. -/
def replicatedAt (path : Path) (key : String) : Bool :=
  match classify path key with
  | .error _ => false
  | .ok c => c.replicated

def Op.Replicated (op : Op V) : Prop := replicatedAt op.path op.key

/-- The buckets and keys that are replicated. -/
def Tree.replicated (t : Tree V) : Tree V where
  bucket := fun p => replicatedAt p "" && t.bucket p
  value := fun p k => if replicatedAt p k then t.value p k else none

lemma replicatedAt_meta : replicatedAt [bucketMeta] "" = true := rfl

lemma replicatedAt_meta_cons (name : String) (rest : Path) (key : String) :
    replicatedAt (bucketMeta :: name :: rest) key = false := rfl

/-- Outside `meta` the root of a path decides. -/
lemma replicatedAt_root {root : String} (hroot : root ≠ bucketMeta) (rest : Path) (key : String) :
    replicatedAt (root :: rest) key = replicatedAt [root] "" := by
  unfold replicatedAt classify
  simp only [if_neg hroot]

/-- What is below a bucket that is not replicated is not replicated either. -/
lemma replicatedAt_below {path p : Path} (key : String) (h : replicatedAt path "" = false)
    (hp : path <+: p) (hne : path ≠ []) : replicatedAt p key = false := by
  obtain ⟨rest, rfl⟩ := hp
  obtain ⟨root, below, rfl⟩ := List.exists_cons_of_ne_nil hne
  by_cases hroot : root = bucketMeta
  · subst hroot
    cases below with
    | nil => exact absurd h (by rw [replicatedAt_meta]; exact Bool.noConfusion)
    | cons name below => exact replicatedAt_meta_cons name _ key
  · rw [replicatedAt_root hroot] at h
    rw [List.cons_append, replicatedAt_root hroot, h]

/-- The buckets a replicated key is in are replicated. -/
lemma replicatedAt_above {path p : Path} {key : String} (h : replicatedAt path key)
    (hp : p <+: path) (hne : p ≠ []) : replicatedAt p "" := by
  by_contra hnot
  rw [replicatedAt_below key ((Bool.not_eq_true _).mp hnot) hp hne] at h
  cases h

end Metadata

end Halro
