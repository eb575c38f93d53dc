import Intel4Ops.Forecasting.Results
import Mathlib.Data.Int.ModEq

/-!
# Seasons of any length

The only check of the season is that the history covers it twice, and that says nothing about a
season of zero or less. There the seasonal methods fail with an error of Python's own, and
everywhere else they repeat the last values of each position of the season.
-/

namespace Intel4Ops.Forecasting

open Lib Except

/-! ## What is promised -/

/-- The last index of a history whose position in the season is that of another index. -/
structure LastOfPosition (season : ℤ) (count position index : ℕ) : Prop where
  index_lt : index < count
  same : index ≡ position [ZMOD season]
  last : ∀ later : ℕ, later < count → later ≡ position [ZMOD season] → later ≤ index

/-- The forecasts repeat the last value of their position, and the fitted values an earlier one. -/
structure RepeatsSeason (season : ℤ) (values : List ℚ) (horizon : ℕ) (result : ForecastResult) :
    Prop where
  forecasts : ∀ step < horizon, ∃ index,
    LastOfPosition season values.length (values.length + step) index ∧
      result.values[step]? = values[index]?
  fitted : ∀ index < values.length, ∃ earlier ≤ index, earlier ≡ index [ZMOD season] ∧
    result.fittedValues[index]? = values[earlier]?

/-- The deviation of a position from a line, as the values of that position show it. -/
def seasonalDeviation (season : ℤ) (values : List ℚ) (position : ℕ) : ℚ :=
  mean (((List.range values.length).filter fun (index : ℕ) => index ≡ position [ZMOD season]).map
    fun index => valueAt values index - ((linear values).1 + (linear values).2 * index))

/-- The forecasts lie on the trend line, moved by the deviation of their position. -/
def FollowsSeason (season : ℤ) (values : List ℚ) (horizon : ℕ) (result : ForecastResult) : Prop :=
  ∀ step < horizon, result.values[step]? =
    some ((linear values).1 + (linear values).2 * (values.length + step : ℕ) +
      seasonalDeviation season values (values.length + step))

/-- A method is safe: it returns a forecast for each period, at the position of the period in the
season, or fails with an error of the methods. -/
structure SeasonSafe (code : MethodCode) (season : ℤ) (values : List ℚ) (horizon : ℕ)
    (parameters : Parameters) : Prop where
  length : ∀ result, code.forecast values horizon parameters = .ok result →
    result.values.length = horizon
  naive : code = .seasonalNaive → ∀ result, code.forecast values horizon parameters = .ok result →
    RepeatsSeason season values horizon result
  trend : code = .holtWintersAdditive ∨ code = .seasonalDummyRegression → ∀ result,
    code.forecast values horizon parameters = .ok result →
      FollowsSeason season values horizon result
  error : ∀ e, code.forecast values horizon parameters = .error e → ∃ message, e = .method message

/-- The numbers that a method reads besides the season. -/
def MethodCode.numbers : MethodCode → List String
  | simpleMovingAverage | weightedMovingAverage => ["window"]
  | simpleExponentialSmoothing => ["alpha"]
  | holtLinearTrend | holtDampedTrend => ["alpha", "beta", "damping"]
  | _ => []

/-- The other parameters that the method reads can be read: each text among them stands for a
number, and there are no components of an ensemble. -/
structure OthersParse (code : MethodCode) (parameters : Parameters) : Prop where
  numbers : ∀ name ∈ code.numbers, ∀ value ∈ Json.field parameters name,
    value.isNumeral = true → value.float?.isSome = true
  components : code = .weightedForecastEnsemble → ∀ items,
    Json.field parameters "component_forecasts" ≠ some (.arr items)

/-! ## Positions -/

variable {values : List ℚ} {horizon : ℕ} {e : Failure} {season : ℤ}

theorem getElem?_eq_valueAt {index : ℕ} (h : index < values.length) :
    values[index]? = some (valueAt values index) := by
  rw [valueAt, List.getD_eq_getElem?_getD, List.getElem?_eq_getElem h, Option.getD_some]

theorem lastOfPosition {season count : ℕ} (hpos : 0 < season) (hle : season ≤ count) (step : ℕ) :
    LastOfPosition season count (count + step) (count - season + step % season) := by
  have hmod : step % season < season := Nat.mod_lt step hpos
  have hdiv : season * (step / season) + step % season = step := Nat.div_add_mod step season
  have hsame : count - season + step % season ≡ count + step [MOD season] := by
    rw [Nat.modEq_iff_dvd' (by omega)]
    refine ⟨1 + step / season, ?_⟩
    rw [Nat.mul_add, Nat.mul_one]
    omega
  refine ⟨by omega, Int.natCast_modEq_iff.2 hsame, fun later hlater hlaterSame => ?_⟩
  by_contra hlt
  -- an index of the same position behind this one lies a season further, beyond the history
  have hdvd : season ∣ later - (count - season + step % season) :=
    (Nat.modEq_iff_dvd' (by omega)).1 (hsame.trans (Int.natCast_modEq_iff.1 hlaterSame).symm)
  have hseason := Nat.le_of_dvd (by omega) hdvd
  omega

theorem repeatsSeason {season : ℕ} {result : ForecastResult} (hpos : 0 < season)
    (hle : season ≤ values.length)
    (hvalues : result.values = (seasonalNaiveFit season values horizon).forecasts)
    (hfitted : result.fittedValues = (seasonalNaiveFit season values horizon).fitted) :
    RepeatsSeason season values horizon result := by
  constructor
  · intro step hstep
    have hlast := lastOfPosition hpos hle step
    refine ⟨_, hlast, ?_⟩
    rw [hvalues, seasonalNaiveFit, getElem?_eq_valueAt hlast.index_lt, List.getElem?_map,
      List.getElem?_range hstep]
    rfl
  · intro index hindex
    rw [hfitted, seasonalNaiveFit]
    simp only [List.getElem?_map, List.getElem?_range hindex, Option.map_some]
    by_cases hle' : season ≤ index
    · refine ⟨index - season, by omega, ?_, ?_⟩
      · rw [Int.natCast_modEq_iff, Nat.modEq_iff_dvd' (by omega)]
        exact ⟨1, by omega⟩
      · rw [if_pos hle', getElem?_eq_valueAt (by omega)]
    · refine ⟨index, le_refl _, Int.ModEq.refl _, ?_⟩
      rw [if_neg hle', getElem?_eq_valueAt hindex]

theorem followsSeason {season : ℕ} {result : ForecastResult}
    (hvalues : result.values = (seasonalTrendFit season values horizon).forecasts) :
    FollowsSeason season values horizon result := by
  intro step hstep
  have hposition : ∀ index position : ℕ,
      (index % season = position % season) ↔ (index : ℤ) ≡ position [ZMOD season] :=
    fun index position => Int.natCast_modEq_iff.symm
  rw [hvalues, seasonalTrendFit]
  simp only [List.getElem?_map, List.getElem?_range hstep, Option.map_some, seasonalDeviation,
    hposition]

/-! ## Failures -/

/-- An error of the methods themselves. -/
def Failure.IsMethod (e : Failure) : Prop := ∃ message, e = .method message

theorem number_error {parameters : Parameters} {name : String} {default : ℚ}
    (hparse : ∀ value ∈ Json.field parameters name, value.isNumeral = true →
      value.float?.isSome = true) (h : number parameters name default = .error e) : e.IsMethod := by
  unfold number at h
  split at h
  case h_1 => cases h
  case h_2 value hvalue =>
    split at h
    case isTrue hnumeral =>
      obtain ⟨x, hx⟩ := Option.isSome_iff_exists.1 (hparse value hvalue hnumeral)
      rw [hx] at h
      cases h
    case isFalse => exact ⟨_, (error.inj h).symm⟩

theorem holtForecast_error {defaultDamping : ℚ} {parameters : Parameters}
    (hparse : ∀ name ∈ ["alpha", "beta", "damping"],
      ∀ value ∈ Json.field parameters name, value.isNumeral = true → value.float?.isSome = true)
    (h : holtForecast defaultDamping parameters values horizon = .error e) : e.IsMethod := by
  simp only [holtForecast, holtParameters, bind_eq_error, bind_eq_ok, ensure_eq_error,
    ensure_eq_ok, pure_ne_error, pure_eq_ok, and_false, exists_false, or_false] at h
  rcases h with h | ⟨-, -, h | ⟨-, -, h | ⟨-, -, -, rfl⟩⟩⟩
  · exact number_error (hparse "alpha" (by simp)) h
  · exact number_error (hparse "beta" (by simp)) h
  · exact number_error (hparse "damping" (by simp)) h
  · exact ⟨_, rfl⟩

theorem quadraticFit_error (h : quadraticFit values horizon = .error e) : e.IsMethod := by
  simp only [quadraticFit, quadratic, bind_eq_error, pure_ne_error, and_false, exists_false,
    or_false, foldlM_eq_error] at h
  obtain ⟨-, column, -, matrix, -, -, h⟩ := h
  simp only [eliminate, bind_eq_error, ensure_eq_error, pure_ne_error, and_false, exists_false,
    or_false] at h
  exact ⟨_, h.2.symm⟩

theorem movingAverageForecast_error {average : List ℚ → ℚ} {parameters : Parameters}
    (hparse : ∀ name ∈ ["window"],
      ∀ value ∈ Json.field parameters name, value.isNumeral = true → value.float?.isSome = true)
    (h : movingAverageForecast average parameters values horizon = .error e) : e.IsMethod := by
  simp only [movingAverageForecast, bind_eq_error, pure_ne_error, and_false, exists_false,
    or_false] at h
  exact number_error (hparse "window" List.mem_cons_self) h

theorem ensembleFit_error {parameters : Parameters}
    (hcomponents : ∀ items, Json.field parameters "component_forecasts" ≠ some (.arr items))
    (h : ensembleFit parameters values horizon = .error e) : e.IsMethod := by
  have hlist : listParameter parameters "component_forecasts" =
      .error (.method "INVALID_ENSEMBLE") := by
    unfold listParameter
    split
    case h_1 items hitems => exact absurd hitems (hcomponents items)
    case h_2 => rfl
  rw [ensembleFit, hlist, error_bind] at h
  exact ⟨_, (error.inj h).symm⟩

theorem seasonalForecast_error {seasonalFit : ℕ → List ℚ → ℕ → Fit} (h : season ≤ 0) :
    ∃ e, seasonalForecast seasonalFit season values horizon = .error e ∧ ¬ e.IsMethod := by
  by_cases hzero : season = 0
  · refine ⟨.zeroDivisionError, ?_, by rintro ⟨message, h⟩; cases h⟩
    rw [seasonalForecast, ensure_of_not (not_not_intro hzero)]
    rfl
  · refine ⟨.indexError, ?_, by rintro ⟨message, h⟩; cases h⟩
    rw [seasonalForecast, ensure_of hzero, ensure_of_not (by omega)]
    rfl

theorem season_le_of_error {seasonalFit : ℕ → List ℚ → ℕ → Fit}
    (h : seasonalForecast seasonalFit season values horizon = .error e) : season ≤ 0 := by
  by_contra hpos
  rw [seasonalForecast_eq_ok.2 ⟨by omega, rfl⟩] at h
  cases h

theorem MethodCode.fit_error {code : MethodCode} {parameters : Parameters}
    (hothers : OthersParse code parameters)
    (h : code.fit season parameters values horizon = .error e) :
    e.IsMethod ∨ code.metadata.supportsSeasonality = true ∧ season ≤ 0 := by
  cases code with
  | naive | drift | historicalMean | historicalMedian | expandingMean | linearTimeTrend
  | croston | sbaCroston => cases h
  | seasonalNaive | holtWintersAdditive | seasonalDummyRegression =>
    exact .inr ⟨rfl, season_le_of_error h⟩
  | simpleMovingAverage | weightedMovingAverage =>
    exact .inl (movingAverageForecast_error hothers.numbers h)
  | simpleExponentialSmoothing =>
    simp only [MethodCode.fit, exponentialSmoothingForecast, bind_eq_error, ensure_eq_error,
      pure_ne_error, and_false, exists_false, or_false] at h
    rcases h with h | ⟨-, -, -, rfl⟩
    · exact .inl (number_error (hothers.numbers "alpha" List.mem_cons_self) h)
    · exact .inl ⟨_, rfl⟩
  | holtLinearTrend | holtDampedTrend => exact .inl (holtForecast_error hothers.numbers h)
  | polynomialTimeTrendDegree2 => exact .inl (quadraticFit_error h)
  | boundedMultivariateLinearRegression => exact .inl ⟨_, (error.inj h).symm⟩
  | weightedForecastEnsemble => exact .inl (ensembleFit_error (hothers.components rfl) h)

theorem MethodCode.fit_of_season_le {code : MethodCode} {parameters : Parameters}
    (hcode : code.metadata.supportsSeasonality = true) (h : season ≤ 0) :
    ∃ e, code.fit season parameters values horizon = .error e ∧ ¬ e.IsMethod := by
  cases code with
  | seasonalNaive | holtWintersAdditive | seasonalDummyRegression => exact seasonalForecast_error h
  | _ => cases hcode

/-! ## Seasons that are safe -/

section

variable {code : MethodCode} {season : ℤ} {values : List ℚ} {horizon : ℕ} {parameters : Parameters}

theorem MethodCode.forecast_error (hseason : methodSeason parameters = .ok season)
    (hothers : OthersParse code parameters)
    {e : Failure} (h : code.forecast values horizon parameters = .error e) :
    e.IsMethod ∨ code.metadata.supportsSeasonality = true ∧
      code.metadata.minimumHistory ≤ values.length ∧ season ≤ 0 := by
  simp only [MethodCode.forecast, hseason, ok_bind, bind_eq_error, ensure_eq_error, ensure_eq_ok,
    pure_ne_error, and_false, exists_false, or_false, exists_const] at h
  rcases h with ⟨-, rfl⟩ | ⟨-, ⟨-, rfl⟩ | ⟨hhistory, ⟨-, rfl⟩ | ⟨-, ⟨-, rfl⟩ | ⟨-, h⟩⟩⟩⟩
  · exact .inl ⟨_, rfl⟩
  · exact .inl ⟨_, rfl⟩
  · exact .inl ⟨_, rfl⟩
  · exact .inl ⟨_, rfl⟩
  · rcases MethodCode.fit_error hothers h with hmethod | ⟨hcode, hle⟩
    · exact .inl hmethod
    · exact .inr ⟨hcode, hhistory, hle⟩

end

/-! ## A season of zero -/

namespace ZeroSeason

def parameters (season : ℚ) : Parameters := [("seasonal_period", .num season)]

theorem othersParse (season : ℚ) : OthersParse .seasonalNaive (parameters season) where
  numbers := by
    intro name hname
    cases hname
  components := by
    intro h
    cases h

end ZeroSeason

end Intel4Ops.Forecasting
