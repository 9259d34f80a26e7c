import Halro.Framework.Outcome
import Halro.Metadata.Recorder

/-!
# Replaying what a transaction recorded

The journal keeps only the replicated writes of a transaction, and the replay of a frame finds the
node-local part of the database at another time than the transaction did.  Two facts make that
sound.  A replay of replicated operations acts on the replicated part alone (`applyOps_replicated`),
and the recorded operations of a callback take the replicated part to the one the callback left
(`runCallbacks_recorded`).  The converse of the first one, that a replay the replicated part allows
does not fail on the whole database (`Plain.applyOps_of_replicated`), needs that the buckets are laid out as the
schema lays them out.
-/

namespace Halro

namespace Metadata

variable {V : Type}

variable {op : Op V}

namespace Tree

variable {t u : Tree V} {path : Path} {key : String}

/-! ## The operations on the replicated part -/

lemma has_replicated (h : replicatedAt path key) : t.replicated.Has path ↔ t.Has path := by
  refine and_congr_right fun _ => forall₂_congr fun p hp => imp_congr_right fun hne => ?_
  have hrep := replicatedAt_above h ((List.mem_inits _ _).mp hp) hne
  simp [replicated, hrep]

lemma parent_replicated (h : replicatedAt path key) : t.replicated.Parent path ↔ t.Parent path := by
  refine or_congr_right ?_
  by_cases hpar : path.dropLast = []
  · simp [hpar, Has]
  · exact has_replicated (replicatedAt_above h (List.dropLast_prefix path) hpar)

lemma replicated_setValue (h : replicatedAt path key) (v : Option V) :
    (t.setValue path key v).replicated = t.replicated.setValue path key v := by
  ext p k
  · rfl
  · by_cases hat : p = path ∧ k = key
    · obtain ⟨rfl, rfl⟩ := hat
      simp [replicated, setValue, h]
    · simp [replicated, setValue, hat]

lemma replicated_setValue_local (h : replicatedAt path key = false) (v : Option V) :
    (t.setValue path key v).replicated = t.replicated := by
  ext p k
  · rfl
  · by_cases hat : p = path ∧ k = key
    · obtain ⟨rfl, rfl⟩ := hat
      simp [replicated, h]
    · simp [replicated, setValue, hat]

lemma replicated_setBucket (h : replicatedAt path "") :
    (t.setBucket path).replicated = t.replicated.setBucket path := by
  ext p k
  · by_cases hat : p = path
    · subst hat
      simp [replicated, setBucket, h]
    · simp [replicated, setBucket, hat]
  · rfl

lemma replicated_setBucket_local (h : replicatedAt path "" = false) :
    (t.setBucket path).replicated = t.replicated := by
  ext p k
  · by_cases hat : p = path
    · subst hat
      simp [replicated, h]
    · simp [replicated, setBucket, hat]
  · rfl

lemma replicated_removeBucket : (t.removeBucket path).replicated = t.replicated.removeBucket path := by
  ext p k
  · simp [replicated, removeBucket, Bool.and_left_comm]
  · by_cases hbelow : path <+: p <;> simp [replicated, removeBucket, hbelow]

lemma replicated_removeBucket_local (h : replicatedAt path "" = false) (hpath : path ≠ []) :
    (t.removeBucket path).replicated = t.replicated := by
  ext p k
  · by_cases hbelow : path <+: p
    · simp [replicated, replicatedAt_below "" h hbelow hpath]
    · simp [replicated, removeBucket, hbelow]
  · by_cases hbelow : path <+: p
    · simp [replicated, replicatedAt_below _ h hbelow hpath]
    · simp [replicated, removeBucket, hbelow]

lemma bucket_replicated (h : t.bucket path = false) : t.replicated.bucket path = false := by
  simp [replicated, h]

/-! ## A replay acts on the replicated part -/

lemma put_replicated {v : V} (h : t.put path key v = .ok u) (hrep : replicatedAt path key) :
    t.replicated.put path key v = .ok u.replicated := by
  obtain ⟨hhas, hkey, hbkt, rfl⟩ := put_ok h
  rw [replicated_setValue hrep]
  exact put_of ((has_replicated hrep).mpr hhas) hkey (bucket_replicated hbkt)

lemma delete_replicated (h : t.delete path key = .ok u) (hrep : replicatedAt path key) :
    t.replicated.delete path key = .ok u.replicated := by
  obtain ⟨hhas, hbkt, rfl⟩ := delete_ok h
  rw [replicated_setValue hrep]
  exact delete_of ((has_replicated hrep).mpr hhas) (bucket_replicated hbkt)

lemma createBucketIfNotExists_replicated (h : t.createBucketIfNotExists path = .ok u)
    (hrep : replicatedAt path "") :
    t.replicated.createBucketIfNotExists path = .ok u.replicated := by
  obtain ⟨hname, hpar, ⟨hbkt, rfl⟩ | ⟨hbkt, hvalue, rfl⟩⟩ := createBucketIfNotExists_ok h
  · exact createBucketIfNotExists_there hname ((parent_replicated hrep).mpr hpar)
      (by simp [replicated, hrep, hbkt])
  · rw [replicated_setBucket hrep]
    refine createBucketIfNotExists_new hname ((parent_replicated hrep).mpr hpar)
      (bucket_replicated hbkt) ?_
    unfold replicated
    simp only [hvalue, ite_self]

variable {done rest : Path}

lemma createPath_replicated (h : t.createPath done rest = .ok u)
    (hrep : replicatedAt (done ++ rest) "") :
    t.replicated.createPath done rest = .ok u.replicated := by
  induction rest generalizing t done with
  | nil => exact congrArg (Except.ok ·.replicated) (Except.ok.inj h)
  | cons name rest ih =>
    rw [createPath] at h ⊢
    have hfirst : replicatedAt (done ++ [name]) "" := replicatedAt_above hrep (by simp) (by simp)
    split at h
    · exact nomatch h
    · rename_i next hnext
      rw [createBucketIfNotExists_replicated hnext hfirst]
      exact ih h (by simpa using hrep)

lemma applyOp_replicated (h : t.applyOp op = .ok u) (hrep : op.Replicated) :
    t.replicated.applyOp op = .ok u.replicated := by
  unfold applyOp at h ⊢
  split_ifs at h ⊢ with hpath
  have hhas := has_replicated (t := t) hrep
  cases op with
  | createBucket path => exact createPath_replicated h hrep
  | put path key v =>
    by_cases hthere : t.Has path
    · exact (if_pos (hhas.mpr hthere)).trans (put_replicated ((if_pos hthere).symm.trans h) hrep)
    · exact nomatch (if_neg hthere).symm.trans h
  | delete path key =>
    by_cases hthere : t.Has path
    · exact (if_pos (hhas.mpr hthere)).trans (delete_replicated ((if_pos hthere).symm.trans h) hrep)
    · obtain rfl := Except.ok.inj ((if_neg hthere).symm.trans h)
      exact if_neg (mt hhas.mp hthere)
  | deleteBucket path =>
    by_cases hthere : t.Has path
    · obtain ⟨-, rfl⟩ := deleteBucket_ok ((if_pos hthere).symm.trans h)
      rw [replicated_removeBucket]
      exact (if_pos (hhas.mpr hthere)).trans (if_neg (not_not.mpr (hhas.mpr hthere)))
    · obtain rfl := Except.ok.inj ((if_neg hthere).symm.trans h)
      exact if_neg (mt hhas.mp hthere)

lemma applyOps_cons {ops : List (Op V)} (h : t.applyOps (op :: ops) = .ok u) :
    ∃ next, t.applyOp op = .ok next ∧ next.applyOps ops = .ok u := by
  exact Framework.bind_eq_ok.mp h

lemma applyOps_of_cons {next : Tree V} (h : t.applyOp op = .ok next)
    (ops : List (Op V)) : t.applyOps (op :: ops) = next.applyOps ops := by
  rw [applyOps, List.foldlM_cons, h]
  rfl

/-! ## The layout of the schema -/

/-- There are no keys beside the root buckets, and the bucket `meta` is there and holds only keys. -/
structure Plain (t : Tree V) : Prop where
  rootKeys : ∀ key, t.value [] key = none
  metaBucket : t.bucket [bucketMeta] = true
  metaKeys : ∀ name rest, t.bucket (bucketMeta :: name :: rest) = false

section

variable (h : t.Plain)

include h

lemma Plain.setValue (hpath : path ≠ []) (v : Option V) : (t.setValue path key v).Plain where
  rootKeys := fun k => (if_neg fun hat => hpath hat.1.symm).trans (h.rootKeys k)
  metaBucket := h.metaBucket
  metaKeys := h.metaKeys

lemma Plain.setBucket (hpath : ∀ name rest, path ≠ bucketMeta :: name :: rest) :
    (t.setBucket path).Plain where
  rootKeys := h.rootKeys
  metaBucket := by simp [Tree.setBucket, h.metaBucket]
  metaKeys := fun name rest => by simp [Tree.setBucket, h.metaKeys name rest, (hpath name rest).symm]

lemma Plain.removeBucket (hpath : path ≠ []) (hmeta : path ≠ [bucketMeta]) :
    (t.removeBucket path).Plain where
  rootKeys := fun k => by simp [Tree.removeBucket, h.rootKeys k]
  metaBucket := by
    have habove : ¬ path <+: [bucketMeta] := by
      rw [List.prefix_cons_iff]
      rintro (hnil | ⟨rest, rfl, hrest⟩)
      · exact hpath hnil
      · exact hmeta (by rw [List.prefix_nil.mp hrest])
    simp [Tree.removeBucket, habove, h.metaBucket]
  metaKeys := fun name rest => by simp [Tree.removeBucket, h.metaKeys name rest]

omit h in
/-- A classified path is not below `meta`. -/
lemma ne_below_meta (h : replicatedAt path key) (name : String) (rest : Path) :
    path ≠ bucketMeta :: name :: rest := by
  rintro rfl
  exact absurd h (by rw [replicatedAt_meta_cons]; exact Bool.false_ne_true)

lemma Plain.createBucketIfNotExists (hcre : t.createBucketIfNotExists path = .ok u)
    (hpath : ∀ name rest, path ≠ bucketMeta :: name :: rest) : u.Plain := by
  obtain ⟨-, -, ⟨-, rfl⟩ | ⟨-, -, rfl⟩⟩ := createBucketIfNotExists_ok hcre
  · exact h
  · exact h.setBucket hpath

lemma Plain.createPath (hcre : t.createPath done rest = .ok u)
    (hrep : replicatedAt (done ++ rest) "") : u.Plain := by
  induction rest generalizing t done with
  | nil =>
    obtain rfl := Except.ok.inj hcre
    exact h
  | cons name rest ih =>
    rw [Tree.createPath] at hcre
    have hfirst : replicatedAt (done ++ [name]) "" := replicatedAt_above hrep (by simp) (by simp)
    split at hcre
    · exact nomatch hcre
    · rename_i next hnext
      exact ih (h.createBucketIfNotExists hnext (ne_below_meta hfirst)) hcre (by simpa using hrep)

/-- A key of a replicated bucket names a nested bucket of the database only where it names one of
the replicated part. -/
lemma Plain.bucket_below {name : String} (hrep : replicatedAt path key)
    (hbkt : t.replicated.bucket (path ++ [name]) = false) : t.bucket (path ++ [name]) = false := by
  obtain ⟨root, below, rfl⟩ : ∃ root below, path = root :: below := by
    refine List.exists_cons_of_ne_nil ?_
    rintro rfl
    exact Bool.false_ne_true hrep
  by_cases hroot : root = bucketMeta
  · subst hroot
    cases below with
    | nil => exact h.metaKeys name []
    | cons next below => exact absurd rfl (ne_below_meta hrep next below)
  · rw [replicatedAt_root hroot] at hrep
    simpa [replicated, replicatedAt_root hroot, hrep] using hbkt

lemma Plain.createBucketIfNotExists_of_replicated (hrep : replicatedAt path "")
    (hcre : t.replicated.createBucketIfNotExists path = .ok u) :
    ∃ u', t.createBucketIfNotExists path = .ok u' := by
  obtain ⟨hname, hpar, hcases⟩ := createBucketIfNotExists_ok hcre
  rw [parent_replicated hrep] at hpar
  by_cases hbkt : t.bucket path = true
  · exact ⟨t, createBucketIfNotExists_there hname hpar hbkt⟩
  refine ⟨_, createBucketIfNotExists_new hname hpar (by simpa using hbkt) ?_⟩
  have hvalue : t.replicated.value path.dropLast (path.getLastD "") = none := by
    rcases hcases with ⟨hthere, -⟩ | ⟨-, hvalue, -⟩
    · exact absurd (by simpa [replicated, hrep] using hthere) hbkt
    · exact hvalue
  by_cases hroot : path.dropLast = []
  · rw [hroot]
    exact h.rootKeys _
  · obtain ⟨root, below, hdrop⟩ := List.exists_cons_of_ne_nil hroot
    have habove := replicatedAt_above hrep (List.dropLast_prefix path) hroot
    have hmeta : root ≠ bucketMeta := by
      rintro rfl
      have hpath : path ≠ [] := by
        rintro rfl
        exact hroot rfl
      have hsplit := List.dropLast_append_getLast hpath
      rw [hdrop] at hsplit
      cases below with
      | nil | cons name below => exact ne_below_meta hrep _ _ hsplit.symm
    rw [hdrop] at habove hvalue ⊢
    rw [replicatedAt_root hmeta] at habove
    simpa only [replicated, replicatedAt_root hmeta, habove, if_true] using hvalue

lemma Plain.createPath_of_replicated
    (hrep : replicatedAt (done ++ rest) "") (hcre : t.replicated.createPath done rest = .ok u) :
    ∃ u', t.createPath done rest = .ok u' := by
  induction rest generalizing t done with
  | nil => exact ⟨t, rfl⟩
  | cons name rest ih =>
    rw [Tree.createPath] at hcre ⊢
    have hfirst : replicatedAt (done ++ [name]) "" := replicatedAt_above hrep (by simp) (by simp)
    split at hcre
    · exact nomatch hcre
    · rename_i next hnext
      obtain ⟨next', hnext'⟩ := h.createBucketIfNotExists_of_replicated hfirst hnext
      rw [createBucketIfNotExists_replicated hnext' hfirst] at hnext
      obtain rfl := Except.ok.inj hnext
      rw [hnext']
      exact ih (h.createBucketIfNotExists hnext' (ne_below_meta hfirst)) (by simpa using hrep) hcre

end

end Tree

/-- An operation that a callback can record. -/
def Op.Recordable (op : Op V) : Prop := op.Replicated ∧ op ≠ .deleteBucket [bucketMeta]

namespace Tree

variable {t u : Tree V} {path : Path} {key : String}

lemma Plain.applyOp (h : t.Plain) (hop : op.Recordable) (happly : t.applyOp op = .ok u) :
    u.Plain := by
  obtain ⟨hrep, hmeta⟩ := hop
  unfold Tree.applyOp at happly
  split_ifs at happly with hpath
  cases op with
  | createBucket path => exact h.createPath happly hrep
  | put path key v =>
    by_cases hthere : t.Has path
    · obtain ⟨-, -, -, rfl⟩ := put_ok ((if_pos hthere).symm.trans happly)
      exact h.setValue hthere.1 _
    · exact nomatch (if_neg hthere).symm.trans happly
  | delete path key =>
    by_cases hthere : t.Has path
    · obtain ⟨-, -, rfl⟩ := delete_ok ((if_pos hthere).symm.trans happly)
      exact h.setValue hthere.1 _
    · obtain rfl := Except.ok.inj ((if_neg hthere).symm.trans happly)
      exact h
  | deleteBucket path =>
    by_cases hthere : t.Has path
    · obtain ⟨-, rfl⟩ := deleteBucket_ok ((if_pos hthere).symm.trans happly)
      exact h.removeBucket hthere.1 fun hat => hmeta (congrArg Op.deleteBucket hat)
    · obtain rfl := Except.ok.inj ((if_neg hthere).symm.trans happly)
      exact h

lemma Plain.applyOp_of_replicated (h : t.Plain) (hrep : op.Replicated)
    (happly : t.replicated.applyOp op = .ok u) : ∃ u', t.applyOp op = .ok u' := by
  unfold Tree.applyOp at happly ⊢
  split_ifs at happly ⊢ with hpath
  have hhas := has_replicated (t := t) hrep
  cases op with
  | createBucket path => exact h.createPath_of_replicated hrep happly
  | put path key v =>
    by_cases hthere : t.Has path
    · obtain ⟨-, hkey, hbkt, -⟩ := put_ok ((if_pos (hhas.mpr hthere)).symm.trans happly)
      exact ⟨_, (if_pos hthere).trans (put_of hthere hkey (h.bucket_below hrep hbkt))⟩
    · exact nomatch (if_neg (mt hhas.mp hthere)).symm.trans happly
  | delete path key =>
    by_cases hthere : t.Has path
    · obtain ⟨-, hbkt, -⟩ := delete_ok ((if_pos (hhas.mpr hthere)).symm.trans happly)
      exact ⟨_, (if_pos hthere).trans (delete_of hthere (h.bucket_below hrep hbkt))⟩
    · exact ⟨t, if_neg hthere⟩
  | deleteBucket path =>
    by_cases hthere : t.Has path
    · exact ⟨_, (if_pos hthere).trans (if_neg (not_not.mpr hthere))⟩
    · exact ⟨t, if_neg hthere⟩

/-- A replay the replicated part allows does not fail on the database, and keeps its layout. -/
lemma Plain.applyOps_of_replicated {ops : List (Op V)} (h : t.Plain)
    (hops : ∀ op ∈ ops, op.Recordable) (happly : t.replicated.applyOps ops = .ok u) :
    ∃ u', t.applyOps ops = .ok u' ∧ u'.Plain ∧ u'.replicated = u := by
  induction ops generalizing t with
  | nil => exact ⟨t, rfl, h, Except.ok.inj happly⟩
  | cons op ops ih =>
    obtain ⟨hop, hrest⟩ := List.forall_mem_cons.mp hops
    obtain ⟨next, hnext, hlater⟩ := applyOps_cons happly
    obtain ⟨next', hnext'⟩ := h.applyOp_of_replicated hop.1 hnext
    rw [applyOp_replicated hnext' hop.1] at hnext
    obtain rfl := Except.ok.inj hnext
    rw [applyOps_of_cons hnext']
    exact ih (h.applyOp hop hnext') hrest hlater

/-! ## A write and its recorded operation -/

/-- The buckets above are there, so only the last one of a path is created. -/
lemma createPath_of_above {done rest : Path} {name : String}
    (hvalid : "" ∉ done ++ rest ++ [name]) (habove : ∀ p, p ≠ [] → p <+: done ++ rest → t.Has p) :
    t.createPath done (rest ++ [name]) = t.createBucketIfNotExists (done ++ rest ++ [name]) := by
  induction rest generalizing done with
  | nil =>
    rw [List.nil_append, List.append_nil, createPath]
    cases t.createBucketIfNotExists (done ++ [name]) <;> rfl
  | cons first rest ih =>
    have hfirst : t.Has (done ++ [first]) := habove _ (by simp) (by simp)
    have hthere : t.createBucketIfNotExists (done ++ [first]) = .ok t := by
      refine createBucketIfNotExists_there ?_ ?_ hfirst.bucket
      · have hne : first ≠ "" := fun h => hvalid (by simp [h])
        simpa using hne
      · rcases (has_concat.mp hfirst).1 with rfl | hdone
        · exact .inl rfl
        · exact .inr (by simpa using hdone)
    rw [List.cons_append, createPath, hthere]
    have hrest : t.createPath (done ++ [first]) (rest ++ [name]) =
        t.createBucketIfNotExists (done ++ [first] ++ rest ++ [name]) :=
      ih (by simpa using hvalid) fun p hne hp => habove p hne (by simpa using hp)
    simpa using hrest

lemma createPath_of_parent (hvalid : "" ∉ path) (hpath : path ≠ []) (hpar : t.Parent path) :
    t.createPath [] path = t.createBucketIfNotExists path := by
  have hsplit := List.dropLast_append_getLast hpath
  rw [← hsplit] at hvalid ⊢
  refine createPath_of_above hvalid fun p hne hp => ?_
  rcases hpar with hroot | hhas
  · rw [hroot] at hp
    exact absurd (List.prefix_nil.mp hp) hne
  · exact ⟨hne, fun q hq hqne => hhas.2 q
      ((List.mem_inits _ _).mpr (((List.mem_inits _ _).mp hq).trans hp)) hqne⟩

end Tree

open Tree

lemma Op.validate_ok (h : op.validate = .ok ()) : op.path ≠ [] ∧ "" ∉ op.path := by
  unfold Op.validate at h
  split_ifs at h with hpath
  exact not_or.mp hpath

variable {w : Write V}

/-- Replaying the operation of a write on the tree it was made on is the write. -/
lemma Write.applyOp_op {t u : Tree V} (h : w.apply t = .ok u)
    (hvalid : w.op.validate = .ok ()) : t.applyOp w.op = .ok u := by
  obtain ⟨hpath, hnames⟩ := Op.validate_ok hvalid
  have hcre : ∀ path, w.op = .createBucket path → t.createBucketIfNotExists path = .ok u →
      t.applyOp w.op = .ok u := by
    intro path hop hput
    rw [hop] at hpath hnames ⊢
    have hpar := (createBucketIfNotExists_ok hput).2.1
    exact (if_neg hpath).trans ((createPath_of_parent hnames hpath hpar).trans hput)
  cases w with
  | createBucket path => exact hcre path rfl (createBucket_ok h)
  | createBucketIfNotExists path => exact hcre path rfl h
  | put path key v => exact (if_neg hpath).trans ((if_pos (put_ok h).1).trans h)
  | delete path key => exact (if_neg hpath).trans ((if_pos (delete_ok h).1).trans h)
  | deleteBucket path kept => exact (if_neg hpath).trans ((if_pos (deleteBucket_ok h).1).trans h)

/-- A write that is not recorded leaves the replicated part as it is. -/
lemma Write.replicated_local {t u : Tree V} (h : w.apply t = .ok u)
    (hlocal : replicatedAt w.op.path w.op.key = false) : u.replicated = t.replicated := by
  have hcre : ∀ path, w.op = .createBucket path → t.createBucketIfNotExists path = .ok u →
      u.replicated = t.replicated := by
    intro path hop hput
    rw [hop] at hlocal
    obtain ⟨-, -, ⟨-, rfl⟩ | ⟨-, -, rfl⟩⟩ := createBucketIfNotExists_ok hput
    · rfl
    · exact replicated_setBucket_local hlocal
  cases w with
  | createBucket path => exact hcre path rfl (createBucket_ok h)
  | createBucketIfNotExists path => exact hcre path rfl h
  | put path key v =>
    obtain ⟨-, -, -, rfl⟩ := put_ok h
    exact replicated_setValue_local hlocal _
  | delete path key =>
    obtain ⟨-, -, rfl⟩ := delete_ok h
    exact replicated_setValue_local hlocal _
  | deleteBucket path kept =>
    obtain ⟨hhas, rfl⟩ := deleteBucket_ok h
    exact replicated_removeBucket_local hlocal hhas.1

/-- What a write has to be for the layout to stay. -/
lemma Write.plain {t u : Tree V} (h : w.apply t = .ok u) (ht : t.Plain)
    (hpath : ∀ name rest, w.op.path ≠ bucketMeta :: name :: rest) : u.Plain := by
  cases w with
  | createBucket path => exact ht.createBucketIfNotExists (createBucket_ok h) hpath
  | createBucketIfNotExists path => exact ht.createBucketIfNotExists h hpath
  | put path key v =>
    obtain ⟨hhas, -, -, rfl⟩ := put_ok h
    exact ht.setValue hhas.1 _
  | delete path key =>
    obtain ⟨hhas, -, rfl⟩ := delete_ok h
    exact ht.setValue hhas.1 _
  | deleteBucket path kept =>
    obtain ⟨hhas, rfl⟩ := deleteBucket_ok h
    exact ht.removeBucket hhas.1 kept

lemma Write.op_ne_deleteMeta (w : Write V) : w.op ≠ .deleteBucket [bucketMeta] := by
  cases w with
  | deleteBucket path kept => exact fun h => kept (Op.deleteBucket.inj h)
  | put path key v => nofun
  | delete path key => nofun
  | createBucket path => nofun
  | createBucketIfNotExists path => nofun

/-! ## A callback and its recorded operations -/

section Recorded

variable {rule : ConfirmationRule V} {tx tx' : Tx V}

/-- The recorder either leaves a write out or adds its operation. -/
lemma Recorder.add_ok {r r' : Recorder V} {previous : Option V}
    (h : r.add rule op previous = .ok r') :
    (∀ name rest, op.path ≠ bucketMeta :: name :: rest) ∧
      (r'.ops = r.ops ∧ replicatedAt op.path op.key = false ∨
        r'.ops = r.ops ++ [op] ∧ op.Replicated) := by
  unfold Recorder.add at h
  cases hclass : classify op.path op.key with
  | error err =>
    rw [hclass] at h
    exact nomatch h
  | ok c =>
    simp only [hclass] at h
    refine ⟨fun name rest hpath => ?_, ?_⟩
    · rw [hpath] at hclass
      exact nomatch hclass
    split_ifs at h with hposn hrep
    · refine .inr ⟨by rw [← Except.ok.inj h], ?_⟩
      simpa [Op.Replicated, replicatedAt, hclass] using hrep
    · refine .inl ⟨by rw [← Except.ok.inj h], ?_⟩
      simpa [replicatedAt, hclass] using hrep

/-- From one transaction to a later one: the layout is kept, and if a frame may hold the operations
added in between they take the replicated part of the first to that of the second. -/
def Recorded (tx tx' : Tx V) : Prop :=
  (tx.tree.Plain → tx'.tree.Plain) ∧
    ∃ ops, tx'.recorder.ops = tx.recorder.ops ++ ops ∧ (∀ op ∈ ops, op.Recordable) ∧
      ((∀ op ∈ ops, op.validate = .ok ()) →
        tx.tree.replicated.applyOps ops = .ok tx'.tree.replicated)

lemma Recorded.refl (tx : Tx V) : Recorded tx tx := ⟨id, [], by simp⟩

lemma Recorded.trans {tx'' : Tx V} (h : Recorded tx tx') (h' : Recorded tx' tx'') :
    Recorded tx tx'' := by
  obtain ⟨hplain, ops, hops, hrep, hrepl⟩ := h
  obtain ⟨hplain', ops', hops', hrep', hrepl'⟩ := h'
  refine ⟨hplain' ∘ hplain, ops ++ ops', by rw [hops', hops, List.append_assoc], ?_, fun hvalid => ?_⟩
  · exact fun op hop => (List.mem_append.mp hop).elim (hrep op) (hrep' op)
  · rw [applyOps_append (hrepl fun op hop => hvalid op (List.mem_append_left _ hop))]
    exact hrepl' fun op hop => hvalid op (List.mem_append_right _ hop)

lemma Tx.write_recorded (h : tx.write rule w = .ok tx') : Recorded tx tx' := by
  unfold Tx.write at h
  split at h
  · exact nomatch h
  · rename_i tree htree
    split at h
    · exact nomatch h
    · rename_i recorder hadd
      obtain rfl := Except.ok.inj h
      obtain ⟨hpath, hadded⟩ := Recorder.add_ok hadd
      refine ⟨fun hplain => Write.plain htree hplain hpath, ?_⟩
      rcases hadded with ⟨hops, hlocal⟩ | ⟨hops, hrep⟩
      · refine ⟨[], by simp [hops], by simp, fun _ => ?_⟩
        exact congrArg Except.ok (Write.replicated_local htree hlocal).symm
      · refine ⟨[w.op], hops, by simpa using ⟨hrep, w.op_ne_deleteMeta⟩, fun hvalid => ?_⟩
        have hop := Write.applyOp_op htree (hvalid w.op (by simp))
        exact (applyOps_of_cons (applyOp_replicated hop hrep) []).trans rfl

lemma Callback.run_recorded {c : Callback V} (h : c.run rule tx = .ok tx') : Recorded tx tx' := by
  induction c generalizing tx with
  | done =>
    obtain rfl := Except.ok.inj h
    exact Recorded.refl tx
  | refuse reason => exact nomatch h
  | read next ih => exact ih tx.tree h
  | write w next ih =>
    rw [Callback.run] at h
    split at h
    · exact nomatch h
    · rename_i middle hwrite
      exact (Tx.write_recorded hwrite).trans (ih h)

lemma runCallbacks_recorded {index : ℕ} {callbacks : List (Callback V)}
    (h : runCallbacks rule index callbacks tx = .ok tx') : Recorded tx tx' := by
  induction callbacks generalizing tx index with
  | nil =>
    obtain rfl := Except.ok.inj h
    exact Recorded.refl tx
  | cons c rest ih =>
    rw [runCallbacks] at h
    split at h
    · exact nomatch h
    · rename_i middle hrun
      exact (Callback.run_recorded hrun).trans (ih h)

end Recorded

end Metadata

end Halro
