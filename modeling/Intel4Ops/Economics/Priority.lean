import Intel4Ops.Economics.Engine

/-!
# The priority of a cheaper recovery

With exact arithmetic the priority score falls with the recovery cost between positive costs: net
benefit, return and payback all do. A recovery without cost has no return, which the score counts
as none: it loses the share of the return, against what its net benefit and payback gain.
-/

namespace Intel4Ops.Economics

open Lib Lib.Decimal List

/-! ## Scores by cost -/

/-- What a priority is given beside the economics. -/
structure Judgement where
  (urgencyScore confidenceScore feasibilityScore strategicAlignmentScore riskScore : ℚ)
  (dependencyReady resourceReady : Bool)

def EconomicResult.priorityInput (result : EconomicResult) (judgement : Judgement) :
    PriorityInput where
  probabilityAdjustedValue := result.probabilityAdjustedValue
  expectedNetBenefit := result.expectedNetBenefit
  expectedRoi := result.expectedRoi
  paybackPeriodDays := result.paybackPeriodDays
  urgencyScore := judgement.urgencyScore
  confidenceScore := judgement.confidenceScore
  feasibilityScore := judgement.feasibilityScore
  strategicAlignmentScore := judgement.strategicAlignmentScore
  riskScore := judgement.riskScore
  dependencyReady := judgement.dependencyReady
  resourceReady := judgement.resourceReady

/-- The score of an opportunity at a recovery cost, with exact arithmetic between the
quantizations. -/
def scoreAt (values : EconomicInput) (judgement : Judgement) (weights : Factors) (cost : ℚ) :
    Except EconomicsError ℚ := do
  let economics ← calculateEconomics id { values with recoveryCost := cost }
  let priority ← calculatePriority id (economics.priorityInput judgement) weights
  return priority.score

/-- The probability-adjusted value, which does not depend on the cost. -/
def adjustedValue (values : EconomicInput) : ℚ :=
  let addressable := halfUp.places 12 (values.grossExposure * values.addressabilityRate)
  let recoverable := halfUp.places 12 (addressable * values.recoverabilityRate)
  halfUp.places 12 (recoverable * values.successProbability)

def netFactor (value cost : ℚ) : ℚ := bounded (max 0 (halfUp.places 12 (value - cost)) / 100000)

/-- The factor of the return at a cost, none for no cost. -/
def roiFactor (value cost : ℚ) : ℚ :=
  if cost = 0 then 0
  else bounded (halfUp.places 12 (halfUp.places 12 (value - cost) / cost) / 5)

def paybackPeriod (days : Option ℤ) (value cost : ℚ) : Option ℚ :=
  (days.filter fun days => 0 < days ∧ 0 < value).map fun (days : ℤ) =>
    halfUp.places 12 (cost / (value / days))

def paybackFactor (paybackDays : Option ℚ) : ℚ :=
  paybackDays.elim (5 / 10) fun days => bounded (1 - days / 365)

def factorsAt (values : EconomicInput) (judgement : Judgement) (cost : ℚ) : Factors where
  economicValue := bounded (adjustedValue values / 100000)
  netBenefit := netFactor (adjustedValue values) cost
  roi := roiFactor (adjustedValue values) cost
  payback := paybackFactor (paybackPeriod values.benefitPeriodDays (adjustedValue values) cost)
  urgency := judgement.urgencyScore
  confidence := judgement.confidenceScore
  feasibility := judgement.feasibilityScore
  strategicAlignment := judgement.strategicAlignmentScore
  risk := 1 - judgement.riskScore

def weighted (factors weights : Factors) : ℚ :=
  (factors.mul (weights.map (· / weights.total id))).total id * 100

variable {values : EconomicInput} {judgement : Judgement} {weights : Factors} {c c₁ c₂ s s₁ s₂ : ℚ}

theorem money_eq {x y : ℚ} (h : money x = .ok y) : y = halfUp.places 12 x := by
  rw [money, orFail_eq_ok, quantize_eq_some] at h
  exact h.1

/-- The economics at a cost, as far as the priority reads them. -/
structure EconomicsAt (values : EconomicInput) (cost : ℚ) (result : EconomicResult) : Prop where
  cost_nonneg : 0 ≤ cost
  value_nonneg : 0 ≤ adjustedValue values
  value : result.probabilityAdjustedValue = adjustedValue values
  net : result.expectedNetBenefit = halfUp.places 12 (adjustedValue values - cost)
  roi : result.expectedRoi.getD 0 = if cost = 0 then 0
    else halfUp.places 12 (halfUp.places 12 (adjustedValue values - cost) / cost)
  payback : result.paybackPeriodDays =
    paybackPeriod values.benefitPeriodDays (adjustedValue values) cost

theorem rate_eq {name : String} {x y : ℚ} (h : rate name x = .ok y) : y = x ∧ 0 ≤ x ∧ x ≤ 1 := by
  simp only [rate, bind_eq_ok, ensure_eq_ok, pure_eq_ok] at h
  obtain ⟨_, hx, rfl⟩ := h
  exact ⟨rfl, hx⟩

theorem payback_eq {value : ℚ} {paybackDays : Option ℚ}
    (h : payback id { values with recoveryCost := c } value = .ok paybackDays) :
    paybackDays = paybackPeriod values.benefitPeriodDays value c := by
  rw [payback] at h
  rw [paybackPeriod]
  cases hdays : values.benefitPeriodDays with
  | none =>
    rw [hdays] at h
    exact (Except.ok.inj h).symm
  | some days =>
    rw [hdays] at h
    dsimp only at h
    rw [Option.filter_some]
    by_cases hdefined : 0 < days ∧ 0 < value
    · rw [if_pos hdefined] at h
      obtain ⟨days', hmoney, rfl⟩ := map_eq_ok.1 h
      rw [decide_eq_true hdefined, if_pos rfl, Option.map_some, money_eq hmoney]
      rfl
    · rw [if_neg hdefined] at h
      rw [decide_eq_false hdefined]
      exact (Except.ok.inj h).symm

theorem roi_eq {net : ℚ} {roi : Option ℚ}
    (h : (if c = 0 then pure none else (money (net / c)).map some) = .ok roi) :
    roi.getD 0 = if c = 0 then 0 else halfUp.places 12 (net / c) := by
  by_cases hzero : c = 0
  · rw [if_pos hzero] at h ⊢
    rw [← pure_eq_ok.1 h]
    rfl
  · rw [if_neg hzero] at h ⊢
    obtain ⟨roi', hmoney, rfl⟩ := map_eq_ok.1 h
    exact money_eq hmoney

theorem calculateEconomics_at {result : EconomicResult}
    (h : calculateEconomics id { values with recoveryCost := c } = .ok result) :
    EconomicsAt values c result := by
  simp only [calculateEconomics, bind_eq_ok, ensure_eq_ok, exists_const, id_eq] at h
  obtain ⟨hnonneg, addressability, haddressability, recoverability, hrecoverability, success,
    hsuccess, addressable, haddressable, recoverable, hrecoverable, adjusted, hadjusted, net, hnet,
    h⟩ := h
  obtain ⟨rfl, hrate, -⟩ := rate_eq haddressability
  obtain ⟨rfl, hrate', -⟩ := rate_eq hrecoverability
  obtain ⟨rfl, hrate'', -⟩ := rate_eq hsuccess
  obtain rfl := money_eq haddressable
  obtain rfl := money_eq hrecoverable
  obtain rfl := money_eq hadjusted
  obtain rfl := money_eq hnet
  have hgross : 0 ≤ values.grossExposure := not_lt.1 fun hlt => hnonneg (.inl hlt)
  have hcost : 0 ≤ c := not_lt.1 fun hlt => hnonneg (.inr hlt)
  have hvalue : 0 ≤ adjustedValue values := by
    refine halfUp.places_nonneg (mul_nonneg (halfUp.places_nonneg (mul_nonneg ?_ hrate')) hrate'')
    exact halfUp.places_nonneg (mul_nonneg hgross hrate)
  split at h
  case isTrue hzero =>
    simp only [bind_eq_ok, pure_eq_ok] at h
    obtain ⟨roi, rfl, paybackDays, hpayback, gross, -, cost, -, rfl⟩ := h
    exact ⟨hcost, hvalue, rfl, rfl, roi_eq (by rw [if_pos hzero]; rfl), payback_eq hpayback⟩
  case isFalse hzero =>
    simp only [bind_eq_ok, pure_eq_ok] at h
    obtain ⟨roi, hroi, paybackDays, hpayback, gross, -, cost, -, rfl⟩ := h
    exact ⟨hcost, hvalue, rfl, rfl, roi_eq (by rw [if_neg hzero]; exact hroi), payback_eq hpayback⟩

theorem calculatePriority_score {input : PriorityInput} {result : PriorityResult}
    (h : calculatePriority id input weights = .ok result) :
    (∀ w ∈ weights.toList, 0 ≤ w) ∧ result.score = halfUp.places 2 (weighted {
      economicValue := bounded (input.probabilityAdjustedValue / 100000)
      netBenefit := bounded (max 0 input.expectedNetBenefit / 100000)
      roi := bounded (input.expectedRoi.getD 0 / 5)
      payback := paybackFactor input.paybackPeriodDays
      urgency := input.urgencyScore
      confidence := input.confidenceScore
      feasibility := input.feasibilityScore
      strategicAlignment := input.strategicAlignmentScore
      risk := 1 - input.riskScore } weights) := by
  simp only [calculatePriority, normalizeWeights, bind_eq_ok, ensure_eq_ok, pure_eq_ok,
    exists_const, id_eq] at h
  obtain ⟨_, ⟨hweights, -, rfl⟩, urgency, hurgency, confidence, hconfidence, feasibility,
    hfeasibility, alignment, halignment, risk, hrisk, score, hscore, rfl⟩ := h
  refine ⟨hweights, ?_⟩
  obtain ⟨rfl, -⟩ := rate_eq hurgency
  obtain ⟨rfl, -⟩ := rate_eq hconfidence
  obtain ⟨rfl, -⟩ := rate_eq hfeasibility
  obtain ⟨rfl, -⟩ := rate_eq halignment
  obtain ⟨rfl, -⟩ := rate_eq hrisk
  rw [scoreQuantize, orFail_eq_ok, quantize_eq_some] at hscore
  dsimp only
  rw [hscore.1]
  cases input.paybackPeriodDays with
  | none | some days => rfl

theorem scoreAt_eq (h : scoreAt values judgement weights c = .ok s) :
    0 ≤ c ∧ (∀ w ∈ weights.toList, 0 ≤ w) ∧
      s = halfUp.places 2 (weighted (factorsAt values judgement c) weights) := by
  simp only [scoreAt, bind_eq_ok, pure_eq_ok] at h
  obtain ⟨economics, heconomics, priority, hpriority, rfl⟩ := h
  have hat := calculateEconomics_at heconomics
  obtain ⟨hweights, hscore⟩ := calculatePriority_score hpriority
  refine ⟨hat.cost_nonneg, hweights, ?_⟩
  have hroi : bounded (economics.expectedRoi.getD 0 / 5) = roiFactor (adjustedValue values) c := by
    rw [hat.roi, roiFactor]
    split_ifs
    · rw [zero_div, bounded, max_self, min_eq_right zero_le_one]
    · rfl
  rw [hscore]
  simp only [EconomicResult.priorityInput, hroi, hat.payback, hat.value, hat.net]
  rfl

/-! ## Between positive costs -/

theorem bounded_mono {x y : ℚ} (h : x ≤ y) : bounded x ≤ bounded y :=
  min_le_min le_rfl (max_le_max le_rfl h)

theorem bounded_nonneg (x : ℚ) : 0 ≤ bounded x := le_min zero_le_one (le_max_left 0 x)

theorem bounded_of_nonpos {x : ℚ} (h : x ≤ 0) : bounded x = 0 := by
  rw [bounded, max_eq_left h, min_eq_right zero_le_one]

theorem places_zero (p : ℕ) : halfUp.places p 0 = 0 := by
  apply halfUp.places_of_hasPlaces
  exact ⟨0, by rw [Int.cast_zero, zero_div]⟩

theorem netFactor_anti (value : ℚ) (h : c₁ ≤ c₂) : netFactor value c₂ ≤ netFactor value c₁ := by
  apply bounded_mono
  apply div_le_div_of_nonneg_right _ (by norm_num)
  exact max_le_max le_rfl (halfUp.places_mono (sub_le_sub_left h value))

theorem roiFactor_anti (value : ℚ) (hpositive : 0 < c₁) (h : c₁ ≤ c₂) :
    roiFactor value c₂ ≤ roiFactor value c₁ := by
  have hpositive' := hpositive.trans_le h
  have hnet : halfUp.places 12 (value - c₂) ≤ halfUp.places 12 (value - c₁) :=
    halfUp.places_mono (sub_le_sub_left h value)
  rw [roiFactor, roiFactor, if_neg hpositive.ne', if_neg hpositive'.ne']
  by_cases hsign : 0 ≤ halfUp.places 12 (value - c₂)
  · apply bounded_mono
    apply div_le_div_of_nonneg_right _ (by norm_num)
    exact halfUp.places_mono (div_le_div₀ (hsign.trans hnet) hnet hpositive h)
  · -- a loss counts as no return, and there is no smaller factor
    have hloss : halfUp.places 12 (halfUp.places 12 (value - c₂) / c₂) ≤ 0 := by
      rw [← places_zero 12]
      exact halfUp.places_mono (div_nonpos_of_nonpos_of_nonneg (not_le.1 hsign).le hpositive'.le)
    rw [bounded_of_nonpos (div_nonpos_of_nonpos_of_nonneg hloss (by norm_num))]
    exact bounded_nonneg _

theorem paybackFactor_anti (days : Option ℤ) (value : ℚ) (h : c₁ ≤ c₂) :
    paybackFactor (paybackPeriod days value c₂) ≤ paybackFactor (paybackPeriod days value c₁) := by
  rw [paybackPeriod, paybackPeriod]
  cases hdays : days.filter fun days => 0 < days ∧ 0 < value with
  | none => exact le_rfl
  | some days' =>
    obtain ⟨hpositive, hvalue⟩ := of_decide_eq_true (Option.filter_eq_some_iff.1 hdays).2
    have hrate : (0 : ℚ) ≤ value / days' := div_nonneg hvalue.le (Int.cast_nonneg hpositive.le)
    apply bounded_mono
    apply sub_le_sub_left
    apply div_le_div_of_nonneg_right _ (by norm_num)
    exact halfUp.places_mono (div_le_div_of_nonneg_right h hrate)

def share (weights : Factors) (weight : ℚ) : ℚ := weight / weights.total id

theorem share_nonneg (h : ∀ w ∈ weights.toList, 0 ≤ w) (weight : ℚ)
    (hweight : weight ∈ weights.toList) : 0 ≤ share weights weight := by
  have htotal : weights.total id = weights.toList.sum := by
    simp only [Factors.total, Factors.toList, foldl_cons, foldl_nil, id_eq, sum_cons, sum_nil]
    ring
  apply div_nonneg (h weight hweight)
  rw [htotal]
  exact sum_nonneg h

theorem weighted_eq (f weights : Factors) : weighted f weights =
    100 * (f.netBenefit * share weights weights.netBenefit + f.roi * share weights weights.roi +
      f.payback * share weights weights.payback) +
    100 * (f.economicValue * share weights weights.economicValue +
      f.urgency * share weights weights.urgency + f.confidence * share weights weights.confidence +
      f.feasibility * share weights weights.feasibility +
      f.strategicAlignment * share weights weights.strategicAlignment +
      f.risk * share weights weights.risk) := by
  simp only [weighted, Factors.mul, Factors.map, Factors.total, Factors.toList, share,
    foldl_cons, foldl_nil, id_eq]
  ring

theorem weighted_anti (h : ∀ w ∈ weights.toList, 0 ≤ w) (hpositive : 0 < c₁) (hcost : c₁ ≤ c₂) :
    weighted (factorsAt values judgement c₂) weights ≤
      weighted (factorsAt values judgement c₁) weights := by
  have hnet := mul_le_mul_of_nonneg_right (netFactor_anti (adjustedValue values) hcost)
    (share_nonneg h weights.netBenefit (by simp [Factors.toList]))
  have hroi := mul_le_mul_of_nonneg_right (roiFactor_anti (adjustedValue values) hpositive hcost)
    (share_nonneg h weights.roi (by simp [Factors.toList]))
  have hpayback := mul_le_mul_of_nonneg_right
    (paybackFactor_anti values.benefitPeriodDays (adjustedValue values) hcost)
    (share_nonneg h weights.payback (by simp [Factors.toList]))
  rw [weighted_eq, weighted_eq]
  simp only [factorsAt]
  linarith

/-! ## Without cost -/

/-- What an opportunity gains with a cost: the share of its return, less what its net benefit and
its payback lose. -/
def costGain (values : EconomicInput) (weights : Factors) (cost : ℚ) : ℚ :=
  let value := adjustedValue values
  let days := values.benefitPeriodDays
  100 * (share weights weights.roi * roiFactor value cost -
    share weights weights.netBenefit * (netFactor value 0 - netFactor value cost) -
    share weights weights.payback *
      (paybackFactor (paybackPeriod days value 0) - paybackFactor (paybackPeriod days value cost)))

theorem weighted_costGain (values : EconomicInput) (judgement : Judgement) (weights : Factors)
    (cost : ℚ) : weighted (factorsAt values judgement cost) weights =
      weighted (factorsAt values judgement 0) weights + costGain values weights cost := by
  have hfree : roiFactor (adjustedValue values) 0 = 0 := if_pos rfl
  rw [weighted_eq, weighted_eq]
  simp only [factorsAt, costGain, hfree]
  ring

namespace Free

/-- An exposure of 100 that is recovered for certain. -/
def opportunity : EconomicInput := ⟨100, 1, 1, 1, 0, none⟩

def even : Judgement := ⟨1 / 2, 1 / 2, 1 / 2, 1 / 2, 1 / 2, true, true⟩

end Free

end Intel4Ops.Economics
