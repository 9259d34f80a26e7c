import Halro.Budget.Manager

/-!
# Two ways to price tokens (`EstimateCostMicros` in `internal/budget/manager.go`)

The amount of a settlement is computed with 64-bit products (`estimateCostMicros`) and checked
against the frozen price with unbounded ones (`PriceTier.calculate`).  Both round every component up
on its own, so they agree wherever the 64-bit products fit.  `InRange` is that condition, and
`charge` the amount both come to.
-/

namespace Halro

open Framework

namespace Budget

/-! ## The manager's arithmetic -/

structure TokenCost where
  inputTokens : ℤ
  cachedInputTokens : ℤ
  outputTokens : ℤ
  inputMicrosPerMillion : ℤ
  cachedInputMicrosPerMillion : ℤ
  outputMicrosPerMillion : ℤ

def multiplyDivideCeil (left right divisor : ℤ) : Except BudgetError ℤ :=
  if left = 0 ∨ right = 0 then .ok 0
  else if maxInt64.tdiv right < left then .error .integerRange
  else .ok (if (left * right).tmod divisor ≠ 0 then (left * right).tdiv divisor + 1
    else (left * right).tdiv divisor)

/-- The sum of two costs. -/
def addCosts (left right : ℤ) : Except BudgetError ℤ :=
  match checkedAdd left right with
  | none => .error .integerRange
  | some sum => .ok sum

def estimateCostMicros (cost : TokenCost) : Except BudgetError ℤ :=
  if cost.inputTokens < 0 ∨ cost.cachedInputTokens < 0 ∨ cost.outputTokens < 0 ∨
      cost.inputMicrosPerMillion < 0 ∨ cost.cachedInputMicrosPerMillion < 0 ∨
      cost.outputMicrosPerMillion < 0 ∨ cost.inputTokens < cost.cachedInputTokens then
    .error .invalidAmount
  else do
    let inputCost ← multiplyDivideCeil (cost.inputTokens - cost.cachedInputTokens)
      cost.inputMicrosPerMillion 1000000
    let cachedCost ← multiplyDivideCeil cost.cachedInputTokens cost.cachedInputMicrosPerMillion
      1000000
    let promptCost ← addCosts inputCost cachedCost
    let outputCost ← multiplyDivideCeil cost.outputTokens cost.outputMicrosPerMillion 1000000
    addCosts promptCost outputCost

/-! ## One component -/

/-- A product in millionths, rounded up. -/
def ceilMillion (product : ℤ) : ℤ := (product + 999999) / 1000000

lemma ceilMillion_nonneg {product : ℤ} (h : 0 ≤ product) : 0 ≤ ceilMillion product := by
  unfold ceilMillion
  omega

lemma ceilMillion_le {product : ℤ} (h : 0 ≤ product) : ceilMillion product ≤ product := by
  unfold ceilMillion
  omega

/-- Truncated division with a remainder that rounds up by one is division rounded up. -/
lemma rounded_eq_ceilMillion {product : ℤ} (h : 0 ≤ product) :
    (if product.tmod 1000000 ≠ 0 then product.tdiv 1000000 + 1 else product.tdiv 1000000) =
      ceilMillion product := by
  rw [Int.tmod_eq_emod_of_nonneg h, Int.tdiv_eq_ediv_of_nonneg h]
  unfold ceilMillion
  split_ifs <;> omega

section Component

variable {tokens rate : ℤ}

/-- The manager's component is exact as long as its product fits 64 bits, and refused otherwise. -/
lemma multiplyDivideCeil_ok (ht : 0 ≤ tokens) (hr : 0 ≤ rate) {amount : ℤ} :
    multiplyDivideCeil tokens rate 1000000 = .ok amount ↔
      tokens * rate ≤ maxInt64 ∧ ceilMillion (tokens * rate) = amount := by
  unfold multiplyDivideCeil
  rw [rounded_eq_ceilMillion (Int.mul_nonneg ht hr)]
  split_ifs with hzero hover
  · rw [Int.mul_eq_zero.mpr hzero, Except.ok.injEq]
    exact (and_iff_right (by decide)).symm
  all_goals
    rw [Int.tdiv_eq_ediv_of_nonneg (by decide)] at hover
    have hfits := Int.le_ediv_iff_mul_le (a := tokens) (b := maxInt64) (show 0 < rate by omega)
  · simp only [false_iff]
    omega
  · rw [Except.ok.injEq, and_iff_right (by omega)]

/-- The price's component is exact as long as the rounded amount fits 64 bits, and refused
otherwise. -/
lemma ceilTokenComponent_ok (ht : 0 ≤ tokens) (hr : 0 ≤ rate) {amount : ℤ} :
    ceilTokenComponent tokens rate = .ok amount ↔
      ceilMillion (tokens * rate) ≤ maxInt64 ∧ ceilMillion (tokens * rate) = amount := by
  have hprod := Int.mul_nonneg ht hr
  have hmin : minInt64 ≤ ceilMillion (tokens * rate) :=
    le_trans (by decide) (ceilMillion_nonneg hprod)
  unfold ceilTokenComponent
  split_ifs with hzero
  · rw [Int.mul_eq_zero.mpr (by simpa using hzero), Except.ok.injEq]
    exact (and_iff_right (by decide)).symm
  · simp only
    rw [rounded_eq_ceilMillion hprod]
    split_ifs with hfits <;> simp_all [isInt64]

end Component

/-! ## The whole amount -/

section Amount

variable {t : PriceTier} {input cached output : ℤ}

/-- What the tokens cost, the fixed fee apart. -/
def tokenCharge (t : PriceTier) (input cached output : ℤ) : ℤ :=
  ceilMillion ((input - cached) * t.inputMicrosPerMillion) +
    ceilMillion (cached * t.cachedInputMicrosPerMillion) +
    ceilMillion (output * t.outputMicrosPerMillion)

/-- What an attempt costs at a price. -/
def charge (t : PriceTier) (input cached output : ℤ) : ℤ :=
  tokenCharge t input cached output + t.fixedRequestMicrosUSD

/-- Every product and the sum fit 64 bits. -/
def InRange (t : PriceTier) (input cached output : ℤ) : Prop :=
  (input - cached) * t.inputMicrosPerMillion ≤ maxInt64 ∧
    cached * t.cachedInputMicrosPerMillion ≤ maxInt64 ∧
    output * t.outputMicrosPerMillion ≤ maxInt64 ∧ charge t input cached output ≤ maxInt64

instance (t : PriceTier) (input cached output : ℤ) : Decidable (InRange t input cached output) :=
  inferInstanceAs (Decidable (_ ∧ _ ∧ _ ∧ _))

/-- The rates of a price are not negative. -/
structure RatesSound (t : PriceTier) : Prop where
  input : 0 ≤ t.inputMicrosPerMillion
  cached : 0 ≤ t.cachedInputMicrosPerMillion
  output : 0 ≤ t.outputMicrosPerMillion
  fixed : 0 ≤ t.fixedRequestMicrosUSD

/-- The cached tokens are among the input tokens, and no count is negative. -/
structure Counts (input cached output : ℤ) : Prop where
  fromCache : 0 ≤ cached
  within : cached ≤ input
  generated : 0 ≤ output

/-- The three products of an amount. -/
structure Products (t : PriceTier) (input cached output : ℤ) : Prop where
  uncached : 0 ≤ (input - cached) * t.inputMicrosPerMillion
  fromCache : 0 ≤ cached * t.cachedInputMicrosPerMillion
  generated : 0 ≤ output * t.outputMicrosPerMillion

lemma Counts.products (hc : Counts input cached output) (ht : RatesSound t) :
    Products t input cached output where
  uncached := Int.mul_nonneg (by have := hc.within; omega) ht.input
  fromCache := Int.mul_nonneg hc.fromCache ht.cached
  generated := Int.mul_nonneg hc.generated ht.output

/-- The arguments `setSettlementCost` prices. -/
def tokenCost (t : PriceTier) (input cached output : ℤ) : TokenCost where
  inputTokens := input
  cachedInputTokens := cached
  outputTokens := output
  inputMicrosPerMillion := t.inputMicrosPerMillion
  cachedInputMicrosPerMillion := t.cachedInputMicrosPerMillion
  outputMicrosPerMillion := t.outputMicrosPerMillion

lemma addCosts_ok {left right sum : ℤ} (hr : 0 ≤ right) (hl : left ≤ maxInt64) :
    addCosts left right = .ok sum ↔ left + right ≤ maxInt64 ∧ left + right = sum := by
  unfold addCosts checkedAdd
  split_ifs with hover
  · simp only [false_iff]
    omega
  · rw [Except.ok.injEq, and_iff_right (by omega)]

/-- **The manager's amount without the fixed fee**: there is one exactly when every product and the
sum fit 64 bits. -/
lemma estimateCostMicros_ok {cost : ℤ} (ht : RatesSound t) :
    estimateCostMicros (tokenCost t input cached output) = .ok cost ↔
      Counts input cached output ∧ ((input - cached) * t.inputMicrosPerMillion ≤ maxInt64 ∧
        cached * t.cachedInputMicrosPerMillion ≤ maxInt64 ∧
        output * t.outputMicrosPerMillion ≤ maxInt64 ∧
        tokenCharge t input cached output ≤ maxInt64) ∧ tokenCharge t input cached output = cost := by
  have hinputRate := ht.input
  have hcachedRate := ht.cached
  have houtputRate := ht.output
  unfold tokenCharge
  constructor
  · intro h
    obtain ⟨hsigns, h⟩ := guard_eq_ok.mp h
    simp only [tokenCost, not_or, not_lt] at hsigns
    obtain ⟨-, hcached, hout, -, -, -, hwithin⟩ := hsigns
    have hc : Counts input cached output := ⟨hcached, hwithin, hout⟩
    have hp := hc.products ht
    obtain ⟨inputCost, hinput, h⟩ := bind_eq_ok.mp h
    obtain ⟨cachedCost, hcc, h⟩ := bind_eq_ok.mp h
    obtain ⟨promptCost, hprompt, h⟩ := bind_eq_ok.mp h
    obtain ⟨outputCost, hoc, h⟩ := bind_eq_ok.mp h
    obtain ⟨hi, rfl⟩ := (multiplyDivideCeil_ok (by simp only [tokenCost]; omega) hinputRate).mp hinput
    obtain ⟨hca, rfl⟩ := (multiplyDivideCeil_ok hcached hcachedRate).mp hcc
    obtain ⟨ho, rfl⟩ := (multiplyDivideCeil_ok hout houtputRate).mp hoc
    obtain ⟨hle, rfl⟩ := (addCosts_ok (ceilMillion_nonneg hp.fromCache)
      ((ceilMillion_le hp.uncached).trans hi)).mp hprompt
    obtain ⟨hsum, rfl⟩ := (addCosts_ok (ceilMillion_nonneg hp.generated) hle).mp h
    exact ⟨hc, ⟨hi, hca, ho, hsum⟩, rfl⟩
  · rintro ⟨hc, ⟨hi, hca, ho, hsum⟩, rfl⟩
    have hp := hc.products ht
    have hcc := ceilMillion_nonneg hp.fromCache
    have hoc := ceilMillion_nonneg hp.generated
    have hwithin := hc.within
    have hcached := hc.fromCache
    have hout := hc.generated
    refine guard_eq_ok.mpr ⟨by simp only [tokenCost]; omega, ?_⟩
    refine bind_eq_ok.mpr ⟨_, (multiplyDivideCeil_ok (by simp only [tokenCost]; omega)
      hinputRate).mpr ⟨hi, rfl⟩, ?_⟩
    refine bind_eq_ok.mpr ⟨_, (multiplyDivideCeil_ok hcached hcachedRate).mpr ⟨hca, rfl⟩, ?_⟩
    refine bind_eq_ok.mpr ⟨_, (addCosts_ok hcc
      ((ceilMillion_le hp.uncached).trans hi)).mpr ⟨by omega, rfl⟩, ?_⟩
    refine bind_eq_ok.mpr ⟨_, (multiplyDivideCeil_ok hout houtputRate).mpr ⟨ho, rfl⟩, ?_⟩
    exact (addCosts_ok hoc (by omega)).mpr ⟨hsum, rfl⟩

/-- **The price's amount**: there is one exactly when it fits 64 bits. -/
lemma calculate_iff {total : ℤ} (hc : Counts input cached output) (ht : RatesSound t) :
    (∃ cost, t.calculate input cached output = .ok cost ∧ cost.totalCostMicrosUSD = total) ↔
      charge t input cached output ≤ maxInt64 ∧ charge t input cached output = total := by
  have hp := hc.products ht
  have hinputCost := ceilMillion_nonneg hp.uncached
  have hcc := ceilMillion_nonneg hp.fromCache
  have hoc := ceilMillion_nonneg hp.generated
  have hwithin := hc.within
  have hcached := hc.fromCache
  have hout := hc.generated
  have hfixed := ht.fixed
  have hmin : minInt64 ≤ 0 := by decide
  have huncached := fun amount => (ceilTokenComponent_ok (show 0 ≤ input - cached by omega) ht.input :
    _ ↔ _ ∧ _ = amount)
  unfold charge tokenCharge
  constructor
  · rintro ⟨cost, h, rfl⟩
    obtain ⟨-, h⟩ := guard_eq_ok.mp h
    obtain ⟨-, h⟩ := guard_eq_ok.mp h
    obtain ⟨prompt, hprompt, h⟩ := bind_eq_ok.mp h
    obtain ⟨generated, hgenerated, h⟩ := bind_eq_ok.mp h
    obtain ⟨htotal, h⟩ := guard_eq_ok.mp h
    obtain ⟨uncached, hinput, hprompt⟩ := bind_eq_ok.mp hprompt
    obtain ⟨fromCache, hfromCache, hprompt⟩ := bind_eq_ok.mp hprompt
    split_ifs at hprompt with hsum
    cases hprompt
    cases h
    obtain ⟨-, rfl⟩ := (huncached _).mp hinput
    obtain ⟨-, rfl⟩ := (ceilTokenComponent_ok hcached ht.cached).mp hfromCache
    obtain ⟨-, rfl⟩ := (ceilTokenComponent_ok hout ht.output).mp hgenerated
    simp only [isInt64, Bool.or_eq_true, Bool.not_eq_true', Bool.and_eq_false_iff,
      decide_eq_true_eq, decide_eq_false_iff_not] at htotal
    exact ⟨by omega, rfl⟩
  · rintro ⟨hsum, rfl⟩
    have hprompt : ceilInputComponents input cached t.inputMicrosPerMillion
        t.cachedInputMicrosPerMillion = .ok (_ + _) :=
      bind_eq_ok.mpr ⟨_, (huncached _).mpr ⟨by omega, rfl⟩, bind_eq_ok.mpr
        ⟨_, (ceilTokenComponent_ok hcached ht.cached).mpr ⟨by omega, rfl⟩,
          if_pos (by simp only [isInt64, Bool.and_eq_true, decide_eq_true_eq]; omega)⟩⟩
    refine ⟨_, guard_eq_ok.mpr ⟨?_, guard_eq_ok.mpr ⟨by omega, bind_eq_ok.mpr ⟨_, hprompt,
      bind_eq_ok.mpr ⟨_, (ceilTokenComponent_ok hout ht.output).mpr ⟨by omega, rfl⟩,
        guard_eq_ok.mpr ⟨?_, rfl⟩⟩⟩⟩⟩, rfl⟩
    · simp only [Bool.or_eq_true, decide_eq_true_eq]
      omega
    · simp only [isInt64, Bool.or_eq_true, Bool.not_eq_true', Bool.and_eq_false_iff,
        decide_eq_true_eq, decide_eq_false_iff_not]
      omega

end Amount

/-! ## A pinned price -/

section Pinned

variable {knownZone : String → Bool} {s : PriceSnapshot} {input cached output : ℤ}

/-- What a versioned price has passed about its terms. -/
lemma validateVersioned_ok {effective : ZonedTime} {inputRate cachedRate outputRate fixed : ℤ}
    (h : s.validateVersioned knownZone effective inputRate cachedRate outputRate fixed = .ok ()) :
    (0 ≤ inputRate ∧ 0 ≤ cachedRate ∧ 0 ≤ outputRate ∧ 0 ≤ fixed) ∧ (s.billingMode = .free →
        inputRate = 0 ∧ cachedRate = 0 ∧ outputRate = 0 ∧ fixed = 0) := by
  unfold PriceSnapshot.validateVersioned at h
  dsimp only [bind, Except.bind, throw, throwThe, MonadExceptOf.throw] at h
  obtain ⟨-, h⟩ := guard_eq_ok.mp h
  -- the schedule tier is checked on its own; with or without one the terms are checked alike
  split at h
  case' h_1 =>
    split at h
    · cases h
  all_goals
    obtain ⟨hsigns, h⟩ := guard_eq_ok.mp h
    obtain ⟨-, h⟩ := guard_eq_ok.mp h
    simp only [Bool.or_eq_true, decide_eq_true_eq] at hsigns
    refine ⟨by omega, fun hfree => ?_⟩
    rw [hfree] at h
    obtain ⟨hzero, -⟩ := guard_eq_ok.mp h
    simp only [Bool.or_eq_true, decide_eq_true_eq] at hzero
    omega

/-- The rates of a valid price of known cost, and that a free one asks nothing. -/
lemma tier_of_validate (h : s.validate knownZone = .ok ()) (hknown : s.costValueStatus = .known) :
    RatesSound s.tier ∧ (s.billingMode = .free → ∀ input cached output,
      charge s.tier input cached output = 0) := by
  obtain ⟨-, h⟩ := guard_eq_ok.mp h
  split at h
  · split at h
    · rename_i version effective inputRate cachedRate outputRate fixed _ _ hi hca ho hf
      obtain ⟨-, h⟩ := guard_eq_ok.mp h
      obtain ⟨⟨h₁, h₂, h₃, h₄⟩, hfree⟩ := validateVersioned_ok h
      have htier : s.tier = ⟨inputRate, cachedRate, outputRate, fixed⟩ := by
        simp only [PriceSnapshot.tier, hi, hca, ho, hf, Option.getD_some]
      rw [htier]
      refine ⟨⟨h₁, h₂, h₃, h₄⟩, fun hmode input cached output => ?_⟩
      obtain ⟨rfl, rfl, rfl, rfl⟩ := hfree hmode
      simp [charge, tokenCharge, ceilMillion]
    · cases h
  · obtain ⟨hstat, -⟩ := guard_eq_ok.mp h
    simp [hknown] at hstat
  · cases h

/-- The price's amount, read back. -/
lemma PriceTier.calculate_ok {t : PriceTier} {cost : PriceCostBreakdown}
    (h : t.calculate input cached output = .ok cost) :
    cached ≤ input ∧ 0 ≤ cost.totalCostMicrosUSD := by
  obtain ⟨-, h⟩ := guard_eq_ok.mp h
  obtain ⟨hwithin, h⟩ := guard_eq_ok.mp h
  obtain ⟨prompt, -, h⟩ := bind_eq_ok.mp h
  obtain ⟨generated, -, h⟩ := bind_eq_ok.mp h
  obtain ⟨htotal, h⟩ := guard_eq_ok.mp h
  simp only [Bool.or_eq_true, decide_eq_true_eq, not_or] at htotal
  rw [← Except.ok.inj h]
  exact ⟨by omega, by exact not_lt.mp htotal.2⟩

/-- What a pinned price makes of token counts: nothing asked by a free one, and the amount of its
rates otherwise. -/
lemma calculate_eq (h : s.validate knownZone = .ok ()) (hknown : s.costValueStatus = .known) :
    s.calculate knownZone input cached output =
      if s.billingMode = .free then
        if input < 0 ∨ cached < 0 ∨ output < 0 ∨ input < cached then .error .tokenCountsInvalid
        else .ok {}
      else s.tier.calculate input cached output := by
  unfold PriceSnapshot.calculate
  rw [h]
  dsimp only [bind, Except.bind, throw, throwThe, MonadExceptOf.throw]
  rw [if_neg (by simp [hknown])]
  by_cases hfree : s.billingMode = .free
  · rw [if_pos hfree, if_pos hfree]
    simp only [Bool.or_eq_true, decide_eq_true_eq, or_assoc]
    rfl
  · rw [if_neg hfree, if_neg hfree]

/-- An amount of a pinned price is for counts with the cached tokens among the input, and is not
negative. -/
lemma calculate_ok {cost : PriceCostBreakdown} (hvalid : s.validate knownZone = .ok ())
    (hknown : s.costValueStatus = .known)
    (h : s.calculate knownZone input cached output = .ok cost) :
    cached ≤ input ∧ 0 ≤ cost.totalCostMicrosUSD := by
  rw [calculate_eq hvalid hknown] at h
  split_ifs at h with hfree hcounts
  · rw [← Except.ok.inj h]
    exact ⟨by omega, le_refl 0⟩
  · exact PriceTier.calculate_ok h

/-- **What a pinned price asks**: the amount of its rates, if it fits 64 bits. -/
lemma calculate_total_iff {total : ℤ} (hvalid : s.validate knownZone = .ok ())
    (hknown : s.costValueStatus = .known) (hc : Counts input cached output) :
    (∃ cost, s.calculate knownZone input cached output = .ok cost ∧
      cost.totalCostMicrosUSD = total) ↔
      charge s.tier input cached output ≤ maxInt64 ∧ charge s.tier input cached output = total := by
  obtain ⟨hrates, hnothing⟩ := tier_of_validate hvalid hknown
  rw [calculate_eq hvalid hknown]
  have hcached := hc.fromCache
  have hwithin := hc.within
  have hout := hc.generated
  split_ifs with hfree hcounts
  · omega
  · rw [hnothing hfree, and_iff_right (by decide)]
    simp only [Except.ok.injEq, exists_eq_left']
  · exact calculate_iff hc hrates

end Pinned

end Budget

end Halro
