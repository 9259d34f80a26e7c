import Halro.Pricing.PinStore

/-!
# Sound price timelines

`Timelines` is what creation and cancellation keep of the price versions of a store: each timeline
files exactly the versions of its deployment, each under the key of its effective time; version
numbers are handed out once and upwards; and among the versions that are not cancelled a later
number means a later effective time.

What an operation may do to the versions is said once, by `VersionChange`: nothing, one version
appended at the end, or one version cancelled before it takes effect.  Every operation is such a
change and every such change keeps `Timelines`.

From `Timelines` alone follows what a reader relies on: the audit accepts the timeline, and the
cursor's selection is the audited one.
-/

namespace Halro

open Framework Framework.FinMap DeploymentPriceVersion

namespace PricingStore

variable {rules : PricingRules} {tx tx' : PricingStore}

/-! ## Reading a sound timeline -/

/-- The version is recorded for the deployment. -/
def Has (tx : PricingStore) (deploymentID : String) (p : DeploymentPriceVersion) : Prop :=
  tx.prices.lookup p.id = some p ∧ p.deploymentID = deploymentID

structure Timelines (rules : PricingRules) (tx : PricingStore) : Prop where
  keyed : ∀ id p, tx.prices.lookup id = some p → p.id = id
  valid : ∀ id p, tx.prices.lookup id = some p → p.valid rules = true
  encodable : ∀ id p, tx.prices.lookup id = some p → p.encodable = true
  filed : ∀ deploymentID key id, (key, id) ∈ (tx.timelineOf deploymentID).entries ↔
    ∃ p, tx.prices.lookup id = some p ∧ p.deploymentID = deploymentID ∧ p.timeKey = key
  known : ∀ id p, tx.prices.lookup id = some p → (tx.deployments.lookup p.deploymentID).isSome
  unnumbered : ∀ deploymentID, tx.deployments.lookup deploymentID = none →
    tx.nextVersion.lookup deploymentID = none
  bounded : ∀ deploymentID, tx.nextVersion.getD deploymentID 0 ≤ maxUint64
  numbered : ∀ id p, tx.prices.lookup id = some p →
    p.version ≤ tx.nextVersion.getD p.deploymentID 0
  distinct : ∀ id p, tx.prices.lookup id = some p → ∀ jd q, tx.prices.lookup jd = some q →
    p.deploymentID = q.deploymentID → p.version = q.version → id = jd
  increasing : ∀ id p, tx.prices.lookup id = some p → ∀ jd q, tx.prices.lookup jd = some q →
    p.deploymentID = q.deploymentID → p.cancelledAt = none → q.cancelledAt = none →
    p.version < q.version → p.effectiveFrom.instant < q.effectiveFrom.instant

variable {l : List (Bytes × String)}

variable {f : String → DeploymentPriceVersion}

/-- Each entry of a list of index entries has its record. -/
lemma records_eq_ok (h : ∀ e ∈ l, tx.prices.lookup e.2 = some (f e.2)) :
    tx.records l = .ok (l.map fun e => f e.2) := by
  induction l with
  | nil => rfl
  | cons e l ih =>
    obtain ⟨he, hl⟩ := List.forall_mem_cons.mp h
    rw [records, he, ih hl]
    rfl

variable {deploymentID : String}

lemma listFrom_eq_ok (h : ∀ e ∈ l, tx.prices.lookup e.2 = some (f e.2))
    (hsame : ∀ e ∈ l, (f e.2).deploymentID = deploymentID)
    (hvalid : ∀ e ∈ l, (f e.2).valid rules = true) :
    listFrom rules tx deploymentID l = .ok (l.map fun e => f e.2) := by
  induction l with
  | nil => rfl
  | cons e l ih =>
    obtain ⟨he, hl⟩ := List.forall_mem_cons.mp h
    obtain ⟨hsame, hsames⟩ := List.forall_mem_cons.mp hsame
    obtain ⟨hvalid, hvalids⟩ := List.forall_mem_cons.mp hvalid
    rw [listFrom, he]
    simp only [hsame, hvalid, ih hl hsames hvalids, ne_eq, not_true_eq_false, if_false,
      Bool.not_true, Bool.false_eq_true]
    rfl

/-- The walk stops at its first version that is in force. -/
lemma selectFrom_eq {selectedAt : ℤ} (h : ∀ e ∈ l, tx.prices.lookup e.2 = some (f e.2))
    (hvalid : ∀ e ∈ l, (f e.2).valid rules = true) :
    selectFrom rules tx selectedAt l =
      match (l.map fun e => f e.2).find? fun p => p.effectiveBy selectedAt with
      | none => .error .priceUnavailable
      | some price => .ok price := by
  induction l with
  | nil => rfl
  | cons e l ih =>
    obtain ⟨he, hl⟩ := List.forall_mem_cons.mp h
    obtain ⟨hvalid, hvalids⟩ := List.forall_mem_cons.mp hvalid
    rw [selectFrom, he, List.map_cons]
    by_cases hby : (f e.2).effectiveBy selectedAt = true
    · simp only [hby, if_true, List.find?_cons_of_pos]
      rw [validate, if_pos hvalid]
      rfl
    · simp only [hby, if_false, Bool.false_eq_true, List.find?_cons_of_neg, not_false_eq_true]
      exact ih hl hvalids

/-- The record an index entry refers to. -/
def recordOf (tx : PricingStore) (id : String) : DeploymentPriceVersion :=
  (tx.prices.lookup id).getD
    { id := "", deploymentID := "", billingMode := .unset, inputMicrosPerMillion := 0
      cachedInputMicrosPerMillion := 0, outputMicrosPerMillion := 0, fixedRequestMicrosUSD := 0
      effectiveFrom := { instant := 0 }
      source := { type := .unset, assurance := .unset, receivedAt := { instant := 0 } }
      createdBy := "", createdAt := { instant := 0 } }

/-- The versions of a deployment in the order of their keys. -/
def versionsOf (tx : PricingStore) (deploymentID : String) : List DeploymentPriceVersion :=
  (tx.timelineOf deploymentID).entries.map fun e => tx.recordOf e.2

namespace Timelines

variable {deploymentID : String}

lemma recordOf_entry (h : Timelines rules tx) {e : Bytes × String}
    (he : e ∈ (tx.timelineOf deploymentID).entries) :
    tx.prices.lookup e.2 = some (tx.recordOf e.2) ∧
      (tx.recordOf e.2).deploymentID = deploymentID ∧ (tx.recordOf e.2).timeKey = e.1 := by
  obtain ⟨p, hp, hdep, hkey⟩ := (h.filed deploymentID e.1 e.2).mp he
  have hrec : tx.recordOf e.2 = p := by rw [recordOf, hp, Option.getD_some]
  rw [hrec]
  exact ⟨hp, hdep, hkey⟩

lemma records_eq (h : Timelines rules tx) (deploymentID : String) :
    tx.records (tx.timelineOf deploymentID).entries = .ok (tx.versionsOf deploymentID) :=
  records_eq_ok fun _ he => (h.recordOf_entry he).1

variable {p : DeploymentPriceVersion}

section

variable (h : Timelines rules tx)

include h

lemma mem_versionsOf : p ∈ tx.versionsOf deploymentID ↔ tx.Has deploymentID p := by
  rw [versionsOf, List.mem_map]
  constructor
  · rintro ⟨e, he, rfl⟩
    obtain ⟨hp, hdep, -⟩ := h.recordOf_entry he
    exact ⟨by rw [h.keyed _ _ hp]; exact hp, hdep⟩
  · rintro ⟨hp, hdep⟩
    refine ⟨(p.timeKey, p.id), (h.filed _ _ _).mpr ⟨p, hp, hdep, rfl⟩, ?_⟩
    rw [recordOf, hp, Option.getD_some]

lemma effectiveFrom_range (hp : tx.Has deploymentID p) :
    -31622400 * nanosPerSecond ≤ p.effectiveFrom.instant ∧
      p.effectiveFrom.instant / nanosPerSecond ≤ maxInt64 := by
  have hrange := h.encodable _ _ hp.1
  simp only [DeploymentPriceVersion.encodable, encodableTime, Bool.and_eq_true, decide_eq_true_eq] at hrange
  unfold nanosPerSecond maxInt64 at *
  omega

/-- The keys of two versions are ordered as their effective times. -/
lemma timeKey_lt_iff {q : DeploymentPriceVersion}
    (hp : tx.Has deploymentID p) (hq : tx.Has deploymentID q) :
    p.timeKey < q.timeKey ↔ p.effectiveFrom.instant < q.effectiveFrom.instant := by
  obtain ⟨hp, hp'⟩ := h.effectiveFrom_range hp
  obtain ⟨hq, hq'⟩ := h.effectiveFrom_range hq
  exact priceTimeKey_lt_iff hp hq hp' hq'

/-- The timeline is in order of effective time. -/
lemma sorted_versionsOf (deploymentID : String) : (tx.versionsOf deploymentID).Pairwise
      fun p q => p.effectiveFrom.instant < q.effectiveFrom.instant := by
  rw [versionsOf, List.pairwise_map]
  refine (tx.timelineOf deploymentID).sorted.imp_of_mem fun {a b} ha hb hlt => ?_
  have hmem : ∀ e ∈ (tx.timelineOf deploymentID).entries, tx.Has deploymentID (tx.recordOf e.2) :=
    fun e he => h.mem_versionsOf.mp (List.mem_map_of_mem he)
  rw [← h.timeKey_lt_iff (hmem a ha) (hmem b hb), (h.recordOf_entry ha).2.2,
    (h.recordOf_entry hb).2.2]
  exact hlt

lemma distinct_versionsOf (deploymentID : String) :
    (tx.versionsOf deploymentID).Pairwise fun p q => p.version ≠ q.version := by
  refine (h.sorted_versionsOf deploymentID).imp_of_mem fun {p q} hp hq hlt heq => ?_
  obtain ⟨hp, hdp⟩ := h.mem_versionsOf.mp hp
  obtain ⟨hq, hdq⟩ := h.mem_versionsOf.mp hq
  have hid := h.distinct _ _ hp _ _ hq (hdp.trans hdq.symm) heq
  have hsame : p = q := Option.some.inj (hp.symm.trans (hid ▸ hq))
  rw [hsame] at hlt
  exact lt_irrefl _ hlt

omit h in
lemma versionsOf_of_none (hnone : tx.timeline.lookup deploymentID = none) :
    tx.versionsOf deploymentID = [] := by
  rw [versionsOf, timelineOf, hnone]
  rfl

omit h in
lemma timelineOf_of_some {timeline : Bucket Bytes String}
    (hsome : tx.timeline.lookup deploymentID = some timeline) :
    tx.timelineOf deploymentID = timeline := by
  rw [timelineOf, hsome, Option.getD_some]

/-- The full timeline is listed. -/
lemma list_eq (hex : (tx.deployments.lookup deploymentID).isSome) :
    tx.listDeploymentPriceVersions rules deploymentID = .ok (tx.versionsOf deploymentID) := by
  unfold listDeploymentPriceVersions
  cases htl : tx.timeline.lookup deploymentID with
  | none =>
    rw [versionsOf_of_none htl]
    rw [if_neg (by rw [Option.isNone_iff_eq_none]; exact Option.isSome_iff_ne_none.mp hex)]
  | some timeline =>
    rw [← timelineOf_of_some htl]
    exact listFrom_eq_ok (fun _ he => (h.recordOf_entry he).1)
      (fun _ he => (h.recordOf_entry he).2.1) fun _ he => h.valid _ _ (h.recordOf_entry he).1

/-- A deployment with a version has a name. -/
lemma named (hp : tx.Has deploymentID p) : blank deploymentID = false := by
  have hvalid := h.valid _ _ hp.1
  rw [← hp.2]
  by_contra hblank
  simp [DeploymentPriceVersion.valid, DeploymentPriceVersion.problems, problemIf, hblank] at hvalid

/-- The audit accepts the timeline. -/
lemma audit_eq_ok (hnamed : blank deploymentID = false) :
    auditPriceTimeline rules (tx.versionsOf deploymentID) deploymentID = .ok () := by
  unfold auditPriceTimeline
  rw [hnamed]
  refine auditFrom_eq_ok (fun p hp => ?_) (fun p hp => (h.mem_versionsOf.mp hp).2) ?_
    (h.distinct_versionsOf deploymentID) (fun _ _ => Finmap.lookup_empty _)
    fun _ _ => Finmap.lookup_empty _
  · exact h.valid _ _ (h.mem_versionsOf.mp hp).1
  · refine (h.sorted_versionsOf deploymentID).imp_of_mem fun {p q} hp hq hlt => ?_
    exact ((h.timeKey_lt_iff (h.mem_versionsOf.mp hp) (h.mem_versionsOf.mp hq)).mpr hlt).ne

end

variable {selectedAt : ZonedTime}

/-- A version effective by an instant is filed no later than under that instant's key. -/
lemma timeKey_le (h : Timelines rules tx) (hp : tx.Has deploymentID p)
    (hrep : selectedAt.representable = true) (hby : p.effectiveBy selectedAt.instant = true) :
    p.timeKey ≤ deploymentPriceTimelineKey selectedAt := by
  obtain ⟨hlow, hhigh⟩ := h.effectiveFrom_range hp
  simp only [ZonedTime.representable, isInt64, effectiveBy, Bool.and_eq_true,
    decide_eq_true_eq] at hrep hby
  have hle := hby.2
  rw [← not_lt]
  intro hlt
  have := (priceTimeKey_lt_iff (hlow.trans hle) hlow hrep.2 hhigh).mp hlt
  omega

/-- The cursor finds the last version of the timeline that is effective by then. -/
lemma select_eq (h : Timelines rules tx) (deploymentID : String)
    (hrep : selectedAt.representable = true) :
    tx.selectDeploymentPriceVersionTx rules deploymentID selectedAt.instant =
      match ((tx.versionsOf deploymentID).filter
        fun p => p.effectiveBy selectedAt.instant).getLast? with
      | none => .error .priceUnavailable
      | some price => .ok price := by
  unfold selectDeploymentPriceVersionTx
  cases htl : tx.timeline.lookup deploymentID with
  | none =>
    rw [versionsOf_of_none htl]
    rfl
  | some timeline =>
    dsimp only
    rw [Bucket.walkBack_eq, ← timelineOf_of_some htl]
    have hmem : ∀ e ∈ ((tx.timelineOf deploymentID).entries.filter fun e =>
        decide (e.1 ≤ deploymentPriceTimelineKey { instant := selectedAt.instant })).reverse,
        e ∈ (tx.timelineOf deploymentID).entries :=
      fun e he => List.mem_of_mem_filter (List.mem_reverse.mp he)
    rw [selectFrom_eq (fun e he => (h.recordOf_entry (hmem e he)).1)
      fun e he => h.valid _ _ (h.recordOf_entry (hmem e he)).1]
    rw [List.map_reverse, ← List.head?_filter, List.filter_reverse, List.head?_reverse,
      List.filter_map, List.filter_filter, versionsOf, List.filter_map]
    -- what the seek skips is not effective by then
    have hskip : (tx.timelineOf deploymentID).entries.filter (fun e =>
        (tx.recordOf e.2).effectiveBy selectedAt.instant &&
          decide (e.1 ≤ deploymentPriceTimelineKey { instant := selectedAt.instant })) =
        (tx.timelineOf deploymentID).entries.filter
          fun e => (tx.recordOf e.2).effectiveBy selectedAt.instant := by
      refine List.filter_congr fun e he => ?_
      cases hby : (tx.recordOf e.2).effectiveBy selectedAt.instant with
      | false => rfl
      | true =>
        have hle := h.timeKey_le (h.mem_versionsOf.mp (List.mem_map_of_mem he)) hrep hby
        rw [(h.recordOf_entry he).2.2] at hle
        exact decide_eq_true hle
    have hcomp : ((fun p : DeploymentPriceVersion => p.effectiveBy selectedAt.instant) ∘
        fun e : Bytes × String => tx.recordOf e.2) =
        fun e => (tx.recordOf e.2).effectiveBy selectedAt.instant := rfl
    rw [hcomp, hskip]

/-- Both selections find the same version, or none. -/
theorem select_eq_audited (h : Timelines rules tx) (deploymentID : String)
    (hrep : selectedAt.representable = true) (hset : selectedAt.isZero = false)
    (hutc : isUTC selectedAt = true) :
    tx.selectDeploymentPriceVersionTx rules deploymentID selectedAt.instant =
      selectAuditedPriceVersion (tx.versionsOf deploymentID) selectedAt := by
  rw [h.select_eq deploymentID hrep, selectAuditedPriceVersion,
    foldl_better (h.sorted_versionsOf deploymentID), hset, hutc]
  rfl

end Timelines

/-! ## What an operation may do to the versions -/

/-- A version that may be written at the end of its timeline. -/
structure Appendable (rules : PricingRules) (tx : PricingStore) (price : DeploymentPriceVersion) :
    Prop where
  valid : price.valid rules = true
  encodable : price.encodable = true
  unused : tx.prices.lookup price.id = none
  free : (tx.timelineOf price.deploymentID).get price.timeKey = none
  number : price.version = tx.nextVersion.getD price.deploymentID 0 + 1
  bounded : price.version ≤ maxUint64
  last : ∀ p, tx.Has price.deploymentID p → p.cancelledAt = none →
    p.effectiveFrom.instant < price.effectiveFrom.instant

/-- One version was written at the end of its timeline. -/
structure Appended (rules : PricingRules) (tx tx' : PricingStore) (price : DeploymentPriceVersion) :
    Prop where
  can : Appendable rules tx price
  prices : tx'.prices = tx.prices.insert price.id price
  timeline : tx'.timeline = tx.timeline.insert price.deploymentID
    ((tx.timelineOf price.deploymentID).put price.timeKey price.id)
  next : tx'.nextVersion = tx.nextVersion.insert price.deploymentID price.version
  known : (tx'.deployments.lookup price.deploymentID).isSome

/-- One version was cancelled; it keeps its id, deployment, number and effective time. -/
structure CancelledOne (rules : PricingRules) (tx tx' : PricingStore)
    (price cancelled : DeploymentPriceVersion) : Prop where
  old : tx.prices.lookup price.id = some price
  valid : cancelled.valid rules = true
  encodable : cancelled.encodable = true
  place : cancelled.id = price.id ∧ cancelled.deploymentID = price.deploymentID ∧
    cancelled.version = price.version ∧ cancelled.effectiveFrom = price.effectiveFrom
  gone : cancelled.cancelledAt.isSome
  prices : tx'.prices = tx.prices.insert price.id cancelled
  timeline : tx'.timeline = tx.timeline
  next : tx'.nextVersion = tx.nextVersion

inductive VersionChange (rules : PricingRules) (tx tx' : PricingStore) : Prop
  | none (hprices : tx'.prices = tx.prices) (htimeline : tx'.timeline = tx.timeline)
    (hnext : tx'.nextVersion = tx.nextVersion)
  | append (price : DeploymentPriceVersion) (h : Appended rules tx tx' price)
  | cancel (price cancelled : DeploymentPriceVersion)
    (h : CancelledOne rules tx tx' price cancelled)

/-- Deployments are created and changed, never removed. -/
def KeepsDeployments (tx tx' : PricingStore) : Prop :=
  ∀ deploymentID, (tx.deployments.lookup deploymentID).isSome →
    (tx'.deployments.lookup deploymentID).isSome

lemma KeepsDeployments.of_eq (h : tx'.deployments = tx.deployments) : KeepsDeployments tx tx' :=
  fun _ hd => h ▸ hd

lemma KeepsDeployments.insert {d : Deployment}
    (h : tx'.deployments = tx.deployments.insert deploymentID d) : KeepsDeployments tx tx' := by
  intro other hd
  rw [h, lookup_insert_ite]
  split_ifs
  · rfl
  · exact hd

lemma KeepsDeployments.of_none (h : KeepsDeployments tx tx')
    (hnone : tx'.deployments.lookup deploymentID = none) :
    tx.deployments.lookup deploymentID = none := by
  by_contra hsome
  have hkept := h _ (Option.isSome_iff_ne_none.mpr hsome)
  rw [hnone] at hkept
  cases hkept

namespace Timelines

section

variable (h : Timelines rules tx)

include h

section

variable (hdeployments : KeepsDeployments tx tx')

include hdeployments

lemma congr (hprices : tx'.prices = tx.prices) (htl : tx'.timeline = tx.timeline)
    (hnext : tx'.nextVersion = tx.nextVersion) : Timelines rules tx' := by
  cases tx'
  cases hprices
  cases htl
  cases hnext
  exact { h with
    known := fun id p hp => hdeployments _ (h.known id p hp)
    unnumbered := fun d hnone => h.unnumbered d (hdeployments.of_none hnone) }

omit hdeployments in
/-- A version of the deployment has a smaller number than the one appended. -/
lemma version_lt {price p : DeploymentPriceVersion} {id : String}
    (hcan : Appendable rules tx price) (hp : tx.prices.lookup id = some p)
    (hsame : p.deploymentID = price.deploymentID) : p.version < price.version := by
  have hle := h.numbered id p hp
  rw [hsame] at hle
  rw [hcan.number]
  omega

lemma append
    {price : DeploymentPriceVersion} (happ : Appended rules tx tx' price) :
    Timelines rules tx' := by
  cases tx'
  obtain ⟨hcan, rfl, rfl, rfl, hknown⟩ := happ
  constructor
  case keyed => exact forall_insert rfl h.keyed
  case valid => exact forall_insert hcan.valid h.valid
  case encodable => exact forall_insert hcan.encodable h.encodable
  case filed =>
    intro deploymentID key id
    have hsplit : (∃ p, (tx.prices.insert price.id price).lookup id = some p ∧
        p.deploymentID = deploymentID ∧ p.timeKey = key) ↔
          (id = price.id ∧ price.deploymentID = deploymentID ∧ price.timeKey = key) ∨
            ∃ p, tx.prices.lookup id = some p ∧ p.deploymentID = deploymentID ∧ p.timeKey = key := by
      constructor
      · rintro ⟨p, hp, hd, hk⟩
        obtain ⟨hid, rfl⟩ | ⟨-, hp⟩ := lookup_insert_cases hp
        · exact Or.inl ⟨hid, hd, hk⟩
        · exact Or.inr ⟨p, hp, hd, hk⟩
      · rintro (⟨rfl, hd, hk⟩ | ⟨p, hp, hd, hk⟩)
        · exact ⟨price, by rw [lookup_insert_ite, if_pos rfl], hd, hk⟩
        · exact ⟨p, lookup_insert_kept hp (by simp [hcan.unused]), hd, hk⟩
    rw [hsplit, ← h.filed deploymentID key id, timelineOf, lookup_insert_ite]
    by_cases hd : deploymentID = price.deploymentID
    · rw [if_pos hd, Option.getD_some, Bucket.mem_put_of_unused hcan.free, hd]
      simp only [Prod.mk.injEq, true_and]
      exact or_congr_left ⟨fun ⟨hk, hid⟩ => ⟨hid, hk.symm⟩, fun ⟨hid, hk⟩ => ⟨hk.symm, hid⟩⟩
    · rw [if_neg hd, ← timelineOf]
      exact (or_iff_right fun hc => hd hc.2.1.symm).symm
  case known =>
    exact forall_insert hknown fun id p hp => hdeployments _ (h.known id p hp)
  case unnumbered =>
    intro deploymentID hnone
    have hne : deploymentID ≠ price.deploymentID := by
      rintro rfl
      rw [hnone] at hknown
      cases hknown
    rw [lookup_insert_ite, if_neg hne]
    exact h.unnumbered deploymentID (hdeployments.of_none hnone)
  case bounded =>
    intro deploymentID
    rw [getD_insert]
    split_ifs
    · exact hcan.bounded
    · exact h.bounded deploymentID
  case numbered =>
    simp only [getD_insert]
    refine forall_insert (by rw [if_pos rfl]) fun id p hp => ?_
    split_ifs with hd
    · exact (h.version_lt hcan hp hd).le
    · exact h.numbered id p hp
  case distinct =>
    intro id p hp jd q hq hsame hver
    obtain ⟨rfl, rfl⟩ | ⟨-, hp⟩ := lookup_insert_cases hp
    · obtain ⟨rfl, -⟩ | ⟨-, hq⟩ := lookup_insert_cases hq
      · rfl
      · exact absurd hver.symm (h.version_lt hcan hq hsame.symm).ne
    · obtain ⟨-, rfl⟩ | ⟨-, hq⟩ := lookup_insert_cases hq
      · exact absurd hver (h.version_lt hcan hp hsame).ne
      · exact h.distinct id p hp jd q hq hsame hver
  case increasing =>
    intro id p hp jd q hq hsame hpc hqc hlt
    obtain ⟨-, rfl⟩ | ⟨-, hp⟩ := lookup_insert_cases hp
    · -- nothing has a larger number than the appended version
      obtain ⟨-, rfl⟩ | ⟨-, hq⟩ := lookup_insert_cases hq
      · exact absurd hlt (lt_irrefl _)
      · exact absurd hlt (h.version_lt hcan hq hsame.symm).not_gt
    · obtain ⟨-, rfl⟩ | ⟨-, hq⟩ := lookup_insert_cases hq
      · exact hcan.last p ⟨by rw [h.keyed id p hp]; exact hp, hsame⟩ hpc
      · exact h.increasing id p hp jd q hq hsame hpc hqc hlt

lemma cancel
    {price cancelled : DeploymentPriceVersion} (hone : CancelledOne rules tx tx' price cancelled) :
    Timelines rules tx' := by
  cases tx'
  obtain ⟨hold, hvalid, henc, ⟨hid, hdep, hver, heffective⟩, hgone, rfl, rfl,
    rfl⟩ := hone
  -- every record keeps its deployment, its number and its effective time
  have hplace : ∀ id p, (tx.prices.insert price.id cancelled).lookup id = some p →
      ∃ q, tx.prices.lookup id = some q ∧ p.deploymentID = q.deploymentID ∧
        p.version = q.version ∧ p.effectiveFrom = q.effectiveFrom ∧
        (p.cancelledAt = none → p = q) := by
    refine forall_insert ⟨price, hold, hdep, hver, heffective, fun hc => ?_⟩
      fun id p hp => ⟨p, hp, rfl, rfl, rfl, fun _ => rfl⟩
    rw [hc] at hgone
    cases hgone
  constructor
  case keyed => exact forall_insert hid h.keyed
  case valid => exact forall_insert hvalid h.valid
  case encodable => exact forall_insert henc h.encodable
  case filed =>
    intro deploymentID key id
    refine (h.filed deploymentID key id).trans ⟨?_, ?_⟩
    · rintro ⟨q, hq, hd, hk⟩
      by_cases heq : id = price.id
      · have hqp : q = price := Option.some.inj (hq.symm.trans (heq ▸ hold))
        refine ⟨cancelled, by rw [lookup_insert_ite, if_pos heq], ?_, ?_⟩
        · rw [hdep, ← hqp, hd]
        · rw [timeKey, heffective, ← hqp]
          exact hk
      · exact ⟨q, by rw [lookup_insert_ite, if_neg heq]; exact hq, hd, hk⟩
    · rintro ⟨p, hp, hd, hk⟩
      obtain ⟨q, hq, hpd, -, hpe, -⟩ := hplace id p hp
      refine ⟨q, hq, hpd ▸ hd, ?_⟩
      rw [timeKey, ← hpe]
      exact hk
  case known =>
    exact forall_insert (hdep ▸ hdeployments _ (h.known _ _ hold))
      fun id p hp => hdeployments _ (h.known id p hp)
  case unnumbered => exact fun d hnone => h.unnumbered d (hdeployments.of_none hnone)
  case bounded => exact h.bounded
  case numbered =>
    exact forall_insert (hdep ▸ hver ▸ h.numbered _ _ hold) h.numbered
  case distinct =>
    intro id p hp jd q hq hsame hnum
    obtain ⟨p', hp', hpd, hpv, -⟩ := hplace id p hp
    obtain ⟨q', hq', hqd, hqv, -⟩ := hplace jd q hq
    exact h.distinct id p' hp' jd q' hq' (by rw [← hpd, hsame, hqd]) (by rw [← hpv, hnum, hqv])
  case increasing =>
    intro id p hp jd q hq hsame hpc hqc hlt
    obtain ⟨p', hp', -, -, -, hpe⟩ := hplace id p hp
    obtain ⟨q', hq', -, -, -, hqe⟩ := hplace jd q hq
    cases hpe hpc
    cases hqe hqc
    exact h.increasing id p hp' jd q hq' hsame hpc hqc hlt

/-- A change of the versions keeps the timelines sound. -/
lemma change (hchg : VersionChange rules tx tx') : Timelines rules tx' := by
  cases hchg with
  | none hprices htl hnext => exact h.congr hdeployments hprices htl hnext
  | append price happ => exact h.append hdeployments happ
  | cancel price cancelled hone => exact h.cancel hdeployments hone

end

end

end Timelines

/-! ## The operations -/

/-- The end of the timeline as the scan finds it. -/
lemma latestNonCancelled_spec {existing : List DeploymentPriceVersion} {p : DeploymentPriceVersion}
    (hp : p ∈ existing) (hlive : p.cancelledAt = none) :
    ∃ l, latestNonCancelled existing = some l ∧
      p.effectiveFrom.instant ≤ l.effectiveFrom.instant := by
  unfold latestNonCancelled
  induction existing using List.reverseRecOn with
  | nil => cases hp
  | append_singleton rest q ih =>
    rw [List.foldl_append, List.foldl_cons, List.foldl_nil]
    generalize hfold : rest.foldl (fun latest price =>
      if price.cancelledAt.isNone && latest.all (fun l : DeploymentPriceVersion =>
        decide (l.effectiveFrom.instant < price.effectiveFrom.instant)) then some price
      else latest) none = latest at ih ⊢
    rcases List.mem_append.mp hp with hp | hp
    · obtain ⟨l, rfl, hle⟩ := ih hp
      split_ifs with hnew
      · simp only [Option.all_some, Bool.and_eq_true, decide_eq_true_eq] at hnew
        exact ⟨q, rfl, hle.trans hnew.2.le⟩
      · exact ⟨l, rfl, hle⟩
    · cases List.mem_singleton.mp hp
      split_ifs with hnew
      · exact ⟨p, rfl, le_refl _⟩
      · cases latest with
        | none => simp [hlive] at hnew
        | some l =>
          simpa [hlive] using hnew

variable {price : DeploymentPriceVersion}

/-- What a written version needs besides its place at the end of the timeline. -/
lemma appendVersion_eq_ok (h : tx.appendVersion rules price = .ok tx') :
    price.valid rules = true ∧ price.encodable = true ∧ tx.prices.lookup price.id = none ∧
      (tx.timelineOf price.deploymentID).get price.timeKey = none ∧
      tx' = { tx with
        prices := tx.prices.insert price.id price
        timeline := tx.timeline.insert price.deploymentID
          ((tx.timelineOf price.deploymentID).put price.timeKey price.id)
        nextVersion := tx.nextVersion.insert price.deploymentID price.version } := by
  obtain ⟨mid, hput, hrest⟩ := bind_eq_ok.mp h
  obtain ⟨_, hvalid, hput⟩ := bind_eq_ok.mp hput
  dsimp only [bind, Except.bind, throw, throwThe, MonadExceptOf.throw] at hput
  split_ifs at hput with hunused hfree henc
  cases hput
  cases hrest
  exact ⟨validate_eq_ok.mp hvalid, by simpa using henc,
    Option.not_isSome_iff_eq_none.mp hunused, Option.not_isSome_iff_eq_none.mp hfree, rfl⟩

/-- The operation only changed the versions as a version may be changed. -/
structure Keeps (rules : PricingRules) (tx tx' : PricingStore) : Prop where
  versions : VersionChange rules tx tx'
  deployments : KeepsDeployments tx tx'

lemma Keeps.of_eq (hdeployments : tx'.deployments = tx.deployments)
    (hprices : tx'.prices = tx.prices) (htl : tx'.timeline = tx.timeline)
    (hnext : tx'.nextVersion = tx.nextVersion) : Keeps rules tx tx' :=
  ⟨.none hprices htl hnext, .of_eq hdeployments⟩

/-- The operation changed the versions and left the marks and the pins alone. -/
structure Edits (rules : PricingRules) (tx tx' : PricingStore) : Prop extends Keeps rules tx tx' where
  highWater : tx'.highWater = tx.highWater
  pins : tx'.pins = tx.pins

lemma Edits.refl : Edits rules tx tx := ⟨.of_eq rfl rfl rfl rfl, rfl, rfl⟩

/-- The idempotency records do not matter. -/
lemma Keeps.idempotency (h : Keeps rules tx tx')
    (idempotency : FinMap String PricingIdempotencyRecord) :
    Keeps rules tx { tx' with idempotency := idempotency } := by
  refine ⟨?_, h.deployments⟩
  cases h.versions with
  | none hp ht hn => exact .none hp ht hn
  | append price happ => exact .append price { happ with }
  | cancel price cancelled hone => exact .cancel price cancelled { hone with }

section

variable (h : Timelines rules tx)

include h

lemma Timelines.keeps (hkeeps : Keeps rules tx tx') : Timelines rules tx' :=
  h.change hkeeps.deployments hkeeps.versions

/-- The version goes to the end of its timeline. -/
lemma Timelines.edits_append (hwrite : tx.appendVersion rules price = .ok tx')
    (hex : (tx.deployments.lookup price.deploymentID).isSome)
    (hnum : price.version = tx.nextVersion.getD price.deploymentID 0 + 1)
    (hbounded : price.version ≤ maxUint64)
    (hlatest : ¬ (latestNonCancelled (tx.versionsOf price.deploymentID)).any
      (fun l => decide (price.effectiveFrom.instant ≤ l.effectiveFrom.instant)) = true) :
    Edits rules tx tx' := by
  obtain ⟨hvalid, henc, hunused, hfree, rfl⟩ := appendVersion_eq_ok hwrite
  refine ⟨⟨.append price ⟨⟨hvalid, henc, hunused, hfree, hnum, hbounded, fun p hp hlive => ?_⟩,
    rfl, rfl, rfl, hex⟩, .of_eq rfl⟩, rfl, rfl⟩
  obtain ⟨l, hl, hle⟩ := latestNonCancelled_spec (h.mem_versionsOf.mpr hp) hlive
  rw [hl] at hlatest
  simp only [Option.any_some, decide_eq_true_eq, not_le] at hlatest
  exact hle.trans_lt hlatest

omit h in
/-- The idempotency record changes nothing a timeline is read from. -/
lemma recordRequest_eq_ok {request : Option IdempotentRequest}
    (h : tx.recordRequest request price = .ok tx') :
    ∃ idempotency, tx' = { tx with idempotency := idempotency } := by
  cases request with
  | none =>
    cases h
    exact ⟨tx.idempotency, rfl⟩
  | some r =>
    obtain ⟨-, h⟩ := guard_eq_ok.mp h
    cases h
    exact ⟨_, rfl⟩

lemma Timelines.edits_create {created : DeploymentPriceVersion}
    {request : Option IdempotentRequest}
    (hcre : tx.createDeploymentPriceVersion rules price request = .ok (created, tx')) :
    Edits rules tx tx' := by
  obtain ⟨-, hcre⟩ := guard_eq_ok.mp hcre
  obtain ⟨-, hcre⟩ := guard_eq_ok.mp hcre
  split at hcre
  · -- the replayed request writes nothing
    obtain ⟨stored, -, hcre⟩ := map_eq_ok.mp hcre
    cases hcre
    exact Edits.refl
  · obtain ⟨hex, hcre⟩ := guard_eq_ok.mp hcre
    obtain ⟨-, hcre⟩ := guard_eq_ok.mp hcre
    obtain ⟨hbelow, hcre⟩ := guard_eq_ok.mp hcre
    obtain ⟨_, -, hcre⟩ := bind_eq_ok.mp hcre
    obtain ⟨-, hcre⟩ := guard_eq_ok.mp hcre
    obtain ⟨_, hfit, hcre⟩ := bind_eq_ok.mp hcre
    obtain ⟨mid, hwrite, hcre⟩ := bind_eq_ok.mp hcre
    obtain ⟨done, hrec, hcre⟩ := bind_eq_ok.mp hcre
    cases hcre
    unfold admitVersion at hfit
    rw [h.records_eq] at hfit
    obtain ⟨hlatest, -⟩ := guard_eq_ok.mp hfit
    have hbound := h.bounded price.deploymentID
    have hroom : tx.nextVersion.getD price.deploymentID 0 + 1 ≤ maxUint64 := by omega
    obtain ⟨idempotency, rfl⟩ := recordRequest_eq_ok hrec
    have hedits := h.edits_append hwrite (Option.isSome_iff_ne_none.mpr (by simpa using hex))
      rfl hroom hlatest
    exact ⟨hedits.toKeeps.idempotency _, hedits.highWater, hedits.pins⟩

lemma Timelines.edits_adopt {adopted : DeploymentPriceVersion}
    (hadopt : tx.adoptDeploymentPriceProposal rules price = .ok (adopted, tx')) :
    Edits rules tx tx' := by
  unfold adoptDeploymentPriceProposal at hadopt
  dsimp only [throw, throwThe, MonadExceptOf.throw] at hadopt
  obtain ⟨hex, hadopt⟩ := guard_eq_ok.mp hadopt
  rw [h.records_eq] at hadopt
  obtain ⟨_, hrecs, hadopt⟩ := bind_eq_ok.mp hadopt
  cases hrecs
  obtain ⟨hlatest, hadopt⟩ := guard_eq_ok.mp hadopt
  obtain ⟨mid, hwrite, hadopt⟩ := bind_eq_ok.mp hadopt
  cases hadopt
  -- a number that wrapped around to zero is not valid
  have hvalid := (appendVersion_eq_ok hwrite).1
  have hbound := h.bounded price.deploymentID
  have hnum : increment (tx.nextVersion.getD price.deploymentID 0) ≠ 0 := by
    intro hzero
    simp [DeploymentPriceVersion.valid, DeploymentPriceVersion.problems, problemIf, hzero] at hvalid
  unfold increment at hnum
  have hbelow : tx.nextVersion.getD price.deploymentID 0 + 1 < 2 ^ 64 := by
    unfold maxUint64 at hbound
    omega
  refine h.edits_append hwrite (Option.isSome_iff_ne_none.mpr (by simpa using hex))
    (Nat.mod_eq_of_lt hbelow) ?_ hlatest
  rw [increment, Nat.mod_eq_of_lt hbelow]
  exact Nat.le_of_lt_succ hbelow

lemma Timelines.edits_bootstrap
    (hboot : tx.bootstrap rules price = .ok tx') : Edits rules tx tx' := by
  obtain ⟨_, -, hboot⟩ := bind_eq_ok.mp hboot
  obtain ⟨hfirst, hboot⟩ := guard_eq_ok.mp hboot
  obtain ⟨hnew, hboot⟩ := guard_eq_ok.mp hboot
  have hnone : tx.deployments.lookup price.deploymentID = none :=
    Option.not_isSome_iff_eq_none.mp hnew
  have hone : price.version = 1 := by
    simp only [ne_eq, Bool.or_eq_true, decide_eq_true_eq, not_or, not_not] at hfirst
    exact hfirst.1
  obtain ⟨hvalid, henc, hunused, hfree, rfl⟩ := appendVersion_eq_ok hboot
  refine ⟨⟨.append price ⟨⟨hvalid, henc, hunused, hfree, ?_, ?_, ?_⟩, rfl, rfl, rfl, ?_⟩,
    .insert rfl⟩, rfl, rfl⟩
  · rw [hone, getD_of_none 0 (h.unnumbered _ hnone)]
  · rw [hone]
    decide
  · -- a deployment without a record has no versions
    intro p hp _
    have hsome := h.known _ _ hp.1
    rw [hp.2, hnone] at hsome
    cases hsome
  · rw [lookup_insert_ite, if_pos rfl]
    rfl

omit h in
lemma edits_putDeployment {expectedRevision : ℕ} {deleted : Bool}
    (hput : tx.putDeployment deploymentID expectedRevision deleted = .ok tx') :
    Edits rules tx tx' := by
  obtain ⟨-, hput⟩ := guard_eq_ok.mp hput
  obtain ⟨revision, -, hput⟩ := bind_eq_ok.mp hput
  cases hput
  exact ⟨⟨.none rfl rfl rfl, .insert rfl⟩, rfl, rfl⟩

lemma Timelines.edits_cancel {deploymentID priceID actor : String}
    {cancelledAt : ZonedTime} {expectedRevision : ℕ}
    (hcan : tx.cancelDeploymentPriceVersion rules deploymentID priceID actor cancelledAt
      expectedRevision = .ok (price, tx')) : Edits rules tx tx' := by
  unfold cancelDeploymentPriceVersion at hcan
  split at hcan
  · cases hcan
  · rename_i p hold
    obtain ⟨-, hcan⟩ := guard_eq_ok.mp hcan
    obtain ⟨-, hcan⟩ := guard_eq_ok.mp hcan
    obtain ⟨-, hcan⟩ := guard_eq_ok.mp hcan
    obtain ⟨-, hcan⟩ := guard_eq_ok.mp hcan
    obtain ⟨_, hvalid, hcan⟩ := bind_eq_ok.mp hcan
    obtain ⟨henc, hcan⟩ := guard_eq_ok.mp hcan
    cases hcan
    refine ⟨⟨.cancel p _ ⟨by rw [h.keyed _ _ hold]; exact hold,
      validate_eq_ok.mp hvalid, by simpa using henc,
      ⟨rfl, rfl, rfl, rfl⟩, rfl, rfl, rfl, rfl⟩, .of_eq rfl⟩, rfl, rfl⟩

end

end PricingStore

end Halro
