import Intel4Ops.Economics.Priority

/-!
# The economic cascade

Every amount of `calculate_economics` is a rate of the amount before it, rounded to twelve places
again. Rounding is monotone and leaves an amount of twelve places alone, so no amount exceeds the
one that it is a part of.
-/

namespace Intel4Ops.Economics

open Lib Lib.Decimal Rounding

/-- What the amounts of a result have to do with each other. -/
structure CascadeBounds (values : EconomicInput) (result : EconomicResult) : Prop where
  adjusted_nonneg : 0 ≤ result.probabilityAdjustedValue
  adjusted_le : result.probabilityAdjustedValue ≤ result.expectedRecoverableValue
  recoverable_le : result.expectedRecoverableValue ≤ result.addressableExposure
  addressable_le : result.addressableExposure ≤ result.grossExposure
  /-- The net benefit is the value less the cost, rounded once. -/
  net : result.expectedNetBenefit =
    halfUp.places 12 (result.probabilityAdjustedValue - values.recoveryCost)
  /-- A cost of twelve places is stored as it is, and the subtraction is exact. -/
  net_exact : HasPlaces 12 values.recoveryCost → result.recoveryCost = values.recoveryCost ∧
    result.expectedNetBenefit = result.probabilityAdjustedValue - result.recoveryCost
  /-- The return has the sign of the net benefit, or is zero. -/
  roi : HasPlaces 12 values.recoveryCost → 0 < values.recoveryCost →
    ∃ roi, result.expectedRoi = some roi ∧ (0 ≤ result.expectedNetBenefit → 0 ≤ roi) ∧
      (result.expectedNetBenefit ≤ 0 → roi ≤ 0)
  /-- A cost that the value covers is paid back within the period. -/
  payback : values.recoveryCost ≤ result.probabilityAdjustedValue →
    ∀ period ∈ values.benefitPeriodDays, 0 < period →
      ∀ days ∈ result.paybackPeriodDays, days ≤ period

/-! ## Parts of an amount -/

theorem places_mul_rate_le {amount rate : ℚ} (hplaces : HasPlaces 12 amount) (hamount : 0 ≤ amount)
    (hrate : rate ≤ 1) : halfUp.places 12 (amount * rate) ≤ amount := by
  have hpart : amount * rate ≤ amount := mul_le_of_le_one_right hamount hrate
  calc halfUp.places 12 (amount * rate) ≤ halfUp.places 12 amount := halfUp.places_mono hpart
    _ = amount := halfUp.places_of_hasPlaces hplaces

theorem places_nonpos {x : ℚ} (hx : x ≤ 0) : halfUp.places 12 x ≤ 0 := by
  have h := halfUp.places_nonneg (p := 12) (neg_nonneg.2 hx)
  rw [halfUp.places_neg] at h
  exact neg_nonneg.1 h

theorem places_sub {x y : ℚ} (hx : HasPlaces 12 x) (hy : HasPlaces 12 y) :
    halfUp.places 12 (x - y) = x - y := by
  rw [sub_eq_add_neg]
  exact halfUp.places_of_hasPlaces (hx.add hy.neg)

theorem paybackPeriod_le {cost value : ℚ} {period : ℤ} (hcost : cost ≤ value) (hvalue : 0 < value)
    (hperiod : 0 < period) : halfUp.places 12 (cost / (value / period)) ≤ period := by
  have hdays : (0 : ℚ) < period := by exact_mod_cast hperiod
  have hwhole : HasPlaces 12 (period : ℚ) := ⟨period * 10 ^ 12, by push_cast; norm_num⟩
  have hle : cost / (value / period) ≤ period := by
    rw [div_le_iff₀ (div_pos hvalue hdays), mul_div_cancel₀ _ hdays.ne']
    exact hcost
  calc halfUp.places 12 (cost / (value / period))
      ≤ halfUp.places 12 period := halfUp.places_mono hle
    _ = period := halfUp.places_of_hasPlaces hwhole

/-! ## The cascade -/

/-- The amounts of a result, in the order in which they are computed. -/
structure Cascade (values : EconomicInput) (result : EconomicResult) : Prop where
  gross_nonneg : 0 ≤ values.grossExposure
  addressability : 0 ≤ values.addressabilityRate ∧ values.addressabilityRate ≤ 1
  recoverability : 0 ≤ values.recoverabilityRate ∧ values.recoverabilityRate ≤ 1
  success : 0 ≤ values.successProbability ∧ values.successProbability ≤ 1
  gross : result.grossExposure = halfUp.places 12 values.grossExposure
  addressable : result.addressableExposure =
    halfUp.places 12 (values.grossExposure * values.addressabilityRate)
  recoverable : result.expectedRecoverableValue =
    halfUp.places 12 (result.addressableExposure * values.recoverabilityRate)
  adjusted : result.probabilityAdjustedValue =
    halfUp.places 12 (result.expectedRecoverableValue * values.successProbability)
  net : result.expectedNetBenefit =
    halfUp.places 12 (result.probabilityAdjustedValue - values.recoveryCost)
  cost : result.recoveryCost = halfUp.places 12 values.recoveryCost
  roi : values.recoveryCost ≠ 0 → result.expectedRoi =
    some (halfUp.places 12 (result.expectedNetBenefit / values.recoveryCost))
  payback : result.paybackPeriodDays = paybackPeriod values.benefitPeriodDays
    result.probabilityAdjustedValue values.recoveryCost

theorem calculateEconomics_cascade {values : EconomicInput} {result : EconomicResult}
    (h : calculateEconomics id values = .ok result) : Cascade values result := by
  simp only [calculateEconomics, bind_eq_ok, ensure_eq_ok, exists_const, id_eq] at h
  obtain ⟨hnonneg, addressability, haddressability, recoverability, hrecoverability, success,
    hsuccess, addressable, haddressable, recoverable, hrecoverable, adjusted, hadjusted, net, hnet,
    h⟩ := h
  obtain ⟨rfl, hrate⟩ := rate_eq haddressability
  obtain ⟨rfl, hrate'⟩ := rate_eq hrecoverability
  obtain ⟨rfl, hrate''⟩ := rate_eq hsuccess
  have hgross : 0 ≤ values.grossExposure := not_lt.1 fun hlt => hnonneg (.inl hlt)
  split at h
  case isTrue hzero =>
    simp only [bind_eq_ok, pure_eq_ok] at h
    obtain ⟨roi, rfl, paybackDays, hpayback, gross, hmoney, cost, hcost, rfl⟩ := h
    exact ⟨hgross, hrate, hrate', hrate'', money_eq hmoney,
      money_eq haddressable, money_eq hrecoverable, money_eq hadjusted, money_eq hnet,
      money_eq hcost, fun hne => absurd hzero hne, payback_eq hpayback⟩
  case isFalse hzero =>
    simp only [bind_eq_ok, pure_eq_ok] at h
    obtain ⟨roi, hroi, paybackDays, hpayback, gross, hmoney, cost, hcost, rfl⟩ := h
    have hroi' : roi = some (halfUp.places 12 (net / values.recoveryCost)) := by
      obtain ⟨quotient, hquotient, rfl⟩ := map_eq_ok.1 hroi
      exact congrArg some (money_eq hquotient)
    exact ⟨hgross, hrate, hrate', hrate'', money_eq hmoney,
      money_eq haddressable, money_eq hrecoverable, money_eq hadjusted, money_eq hnet,
      money_eq hcost, fun _ => hroi', payback_eq hpayback⟩

namespace Cascade

variable {values : EconomicInput} {result : EconomicResult}

theorem addressable_nonneg (c : Cascade values result) : 0 ≤ result.addressableExposure := by
  rw [c.addressable]
  exact halfUp.places_nonneg (mul_nonneg c.gross_nonneg c.addressability.1)

theorem recoverable_nonneg (c : Cascade values result) : 0 ≤ result.expectedRecoverableValue := by
  rw [c.recoverable]
  exact halfUp.places_nonneg (mul_nonneg c.addressable_nonneg c.recoverability.1)

theorem adjusted_nonneg (c : Cascade values result) : 0 ≤ result.probabilityAdjustedValue := by
  rw [c.adjusted]
  exact halfUp.places_nonneg (mul_nonneg c.recoverable_nonneg c.success.1)

theorem addressable_le (c : Cascade values result) :
    result.addressableExposure ≤ result.grossExposure := by
  rw [c.addressable, c.gross]
  exact halfUp.places_mono (mul_le_of_le_one_right c.gross_nonneg c.addressability.2)

theorem recoverable_le (c : Cascade values result) :
    result.expectedRecoverableValue ≤ result.addressableExposure := by
  have hplaces : HasPlaces 12 result.addressableExposure := by
    rw [c.addressable]
    exact halfUp.hasPlaces_places 12 _
  rw [c.recoverable]
  exact places_mul_rate_le hplaces c.addressable_nonneg c.recoverability.2

theorem adjusted_le (c : Cascade values result) :
    result.probabilityAdjustedValue ≤ result.expectedRecoverableValue := by
  have hplaces : HasPlaces 12 result.expectedRecoverableValue := by
    rw [c.recoverable]
    exact halfUp.hasPlaces_places 12 _
  rw [c.adjusted]
  exact places_mul_rate_le hplaces c.recoverable_nonneg c.success.2

theorem net_exact (c : Cascade values result) (hplaces : HasPlaces 12 values.recoveryCost) :
    result.recoveryCost = values.recoveryCost ∧
      result.expectedNetBenefit = result.probabilityAdjustedValue - result.recoveryCost := by
  have hcost : result.recoveryCost = values.recoveryCost := by
    rw [c.cost]
    exact halfUp.places_of_hasPlaces hplaces
  have hadjusted : HasPlaces 12 result.probabilityAdjustedValue := by
    rw [c.adjusted]
    exact halfUp.hasPlaces_places 12 _
  refine ⟨hcost, ?_⟩
  rw [c.net, hcost]
  exact places_sub hadjusted hplaces

theorem roi_sign (c : Cascade values result) (hcost : 0 < values.recoveryCost) :
    ∃ roi, result.expectedRoi = some roi ∧ (0 ≤ result.expectedNetBenefit → 0 ≤ roi) ∧
      (result.expectedNetBenefit ≤ 0 → roi ≤ 0) := by
  refine ⟨_, c.roi hcost.ne', ?_, ?_⟩
  · intro hnet
    exact halfUp.places_nonneg (div_nonneg hnet hcost.le)
  · intro hnet
    exact places_nonpos (div_nonpos_of_nonpos_of_nonneg hnet hcost.le)

theorem payback_le (c : Cascade values result)
    (hcovered : values.recoveryCost ≤ result.probabilityAdjustedValue) {period : ℤ}
    (hperiod : period ∈ values.benefitPeriodDays) (hpos : 0 < period) {days : ℚ}
    (hdays : days ∈ result.paybackPeriodDays) : days ≤ period := by
  rw [c.payback, Option.mem_def.1 hperiod, paybackPeriod, Option.filter_some] at hdays
  -- without a positive value there is no payback at all
  by_cases hvalue : 0 < result.probabilityAdjustedValue
  · rw [decide_eq_true ⟨hpos, hvalue⟩, if_pos rfl, Option.map_some] at hdays
    rw [← Option.some.inj hdays]
    exact paybackPeriod_le hcovered hvalue hpos
  · rw [decide_eq_false fun h => hvalue h.2] at hdays
    simp at hdays

end Cascade

/-- The economic cascade never grows, and its net benefit, return and payback agree with it. -/
theorem cascade_bounds {values : EconomicInput} {result : EconomicResult}
    (h : calculateEconomics id values = .ok result) : CascadeBounds values result := by
  have c := calculateEconomics_cascade h
  exact {
    adjusted_nonneg := c.adjusted_nonneg
    adjusted_le := c.adjusted_le
    recoverable_le := c.recoverable_le
    addressable_le := c.addressable_le
    net := c.net
    net_exact := c.net_exact
    roi := fun _ hcost => c.roi_sign hcost
    payback := fun hcovered _ hperiod hpos _ hdays => c.payback_le hcovered hperiod hpos hdays }

/-- A recovery of 300 within 30 days that costs 100. -/
def covered : EconomicInput := ⟨1000, 4 / 5, 3 / 4, 1 / 2, 100, some 30⟩

theorem cascade_bounds_covered :
    CascadeBounds covered ⟨1000, 800, 600, 300, 100, 200, some 2, some 10, "standard"⟩ :=
  cascade_bounds (by decide +kernel)

end Intel4Ops.Economics
