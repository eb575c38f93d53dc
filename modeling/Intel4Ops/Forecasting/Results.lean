import Intel4Ops.Forecasting.Methods

/-!
# Results of the forecasting methods

A method that returns a result returns one forecast for each period of the horizon and one fitted
value for each period of the history.
-/

namespace Intel4Ops.Forecasting

open Lib List Except

theorem MethodCode.two_le_minimumHistory (code : MethodCode) :
    2 ≤ code.metadata.minimumHistory := by
  cases code <;> decide

/-- A fit with a value for each period. -/
structure Fit.Sized (fit : Fit) (count horizon : ℕ) : Prop where
  forecasts : fit.forecasts.length = horizon
  fitted : fit.fitted.length = count

section

variable {values : List ℚ} {horizon : ℕ} {parameters : Parameters} {fit : Fit}

theorem naiveFit_sized (hne : values ≠ []) :
    (naiveFit values horizon).Sized values.length horizon := by
  have hlength : 0 < values.length := length_pos_of_ne_nil hne
  refine ⟨length_replicate, ?_⟩
  show (valueAt values 0 :: values.dropLast).length = values.length
  rw [length_cons, length_dropLast]
  omega

theorem seasonalNaiveFit_sized (season : ℕ) :
    (seasonalNaiveFit season values horizon).Sized values.length horizon := by
  constructor <;> simp [seasonalNaiveFit]

theorem meanFit_sized : (meanFit values horizon).Sized values.length horizon := by
  constructor <;> simp [meanFit]

theorem medianFit_sized : (medianFit values horizon).Sized values.length horizon := by
  constructor <;> simp [medianFit]

theorem movingAverageFit_sized (average : List ℚ → ℚ) (window : ℤ) :
    (movingAverageFit average window values horizon).Sized values.length horizon := by
  constructor <;> simp [movingAverageFit]

theorem exponentialSmoothingFit_sized (hne : values ≠ []) (alpha : ℚ) :
    (exponentialSmoothingFit alpha values horizon).Sized values.length horizon := by
  have hlength : 0 < values.length := length_pos_of_ne_nil hne
  refine ⟨length_replicate, ?_⟩
  simp only [exponentialSmoothingFit, length_scanl, length_tail]
  omega

theorem holtFit_sized (hne : values ≠ []) (alpha beta damping : ℚ) :
    (holtFit alpha beta damping values horizon).Sized values.length horizon := by
  have hlength : 0 < values.length := length_pos_of_ne_nil hne
  refine ⟨by simp [holtFit], ?_⟩
  simp only [holtFit, length_cons, length_map, length_tail, length_scanl]
  omega

theorem driftFit_sized : (driftFit values horizon).Sized values.length horizon := by
  constructor <;> simp [driftFit]

theorem linearFit_sized : (linearFit values horizon).Sized values.length horizon := by
  constructor <;> simp [linearFit]

theorem quadraticFit_sized (h : quadraticFit values horizon = .ok fit) :
    fit.Sized values.length horizon := by
  obtain ⟨coefficients, -, h⟩ := bind_eq_ok.1 h
  obtain rfl := pure_eq_ok.1 h
  constructor <;> simp

theorem seasonalTrendFit_sized (season : ℕ) :
    (seasonalTrendFit season values horizon).Sized values.length horizon := by
  constructor <;> simp [seasonalTrendFit]

theorem crostonFit_sized (factor : ℚ) :
    (crostonFit factor values horizon).Sized values.length horizon := by
  constructor <;> simp [crostonFit]

theorem ensembleFit_sized (h : ensembleFit parameters values horizon = .ok fit) :
    fit.Sized values.length horizon := by
  simp only [ensembleFit, bind_eq_ok, pure_eq_ok] at h
  obtain ⟨-, -, -, -, -, -, -, -, -, -, -, -, rfl⟩ := h
  constructor <;> simp

theorem seasonalForecast_eq_ok {seasonalFit : ℕ → List ℚ → ℕ → Fit} {season : ℤ} :
    seasonalForecast seasonalFit season values horizon = .ok fit ↔
      1 ≤ season ∧ fit = seasonalFit season.toNat values horizon := by
  simp only [seasonalForecast, bind_eq_ok, ensure_eq_ok, pure_eq_ok, exists_const]
  constructor
  · rintro ⟨hne, hnonneg, rfl⟩
    exact ⟨by omega, rfl⟩
  · rintro ⟨hpos, rfl⟩
    exact ⟨by omega, by omega, rfl⟩

theorem MethodCode.fit_sized {code : MethodCode} {season : ℤ} (hne : values ≠ [])
    (h : code.fit season parameters values horizon = .ok fit) :
    fit.Sized values.length horizon := by
  cases code with
  | naive => exact ok.inj h ▸ naiveFit_sized hne
  | seasonalNaive =>
    obtain ⟨-, rfl⟩ := seasonalForecast_eq_ok.1 h
    exact seasonalNaiveFit_sized _
  | drift => exact ok.inj h ▸ driftFit_sized
  | historicalMean | expandingMean => exact ok.inj h ▸ meanFit_sized
  | historicalMedian => exact ok.inj h ▸ medianFit_sized
  | simpleMovingAverage | weightedMovingAverage =>
    obtain ⟨window, -, h⟩ := bind_eq_ok.1 h
    exact pure_eq_ok.1 h ▸ movingAverageFit_sized _ _
  | simpleExponentialSmoothing =>
    obtain ⟨alpha, -, h⟩ := bind_eq_ok.1 h
    obtain ⟨-, -, h⟩ := bind_eq_ok.1 h
    exact pure_eq_ok.1 h ▸ exponentialSmoothingFit_sized hne _
  | holtLinearTrend | holtDampedTrend =>
    obtain ⟨smoothing, -, h⟩ := bind_eq_ok.1 h
    exact pure_eq_ok.1 h ▸ holtFit_sized hne _ _ _
  | holtWintersAdditive | seasonalDummyRegression =>
    obtain ⟨-, rfl⟩ := seasonalForecast_eq_ok.1 h
    exact seasonalTrendFit_sized _
  | linearTimeTrend => exact ok.inj h ▸ linearFit_sized
  | polynomialTimeTrendDegree2 => exact quadraticFit_sized h
  | boundedMultivariateLinearRegression => cases h
  | croston | sbaCroston => exact ok.inj h ▸ crostonFit_sized _
  | weightedForecastEnsemble => exact ensembleFit_sized h

theorem MethodCode.forecast_eq_ok {code : MethodCode} {result : ForecastResult} :
    code.forecast values horizon parameters = .ok result ↔
      values ≠ [] ∧ code.metadata.minimumHistory ≤ values.length ∧ (1 ≤ horizon ∧ horizon ≤ 120) ∧
        ∃ season, methodSeason parameters = .ok season ∧
          (code.metadata.supportsSeasonality = true → season * 2 ≤ values.length) ∧
            ∃ fit, code.fit season parameters values horizon = .ok fit ∧
              ⟨fit.forecasts, fit.fitted, List.zipWith (· - ·) values fit.fitted⟩ = result := by
  simp only [MethodCode.forecast, bind_eq_ok, ensure_eq_ok, pure_eq_ok, exists_const]

/-- A result has a forecast for each period of the horizon and a fitted value for each period of
the history. -/
theorem MethodCode.forecast_sized {code : MethodCode} {result : ForecastResult}
    (h : code.forecast values horizon parameters = .ok result) :
    result.values.length = horizon ∧ result.fittedValues.length = values.length := by
  obtain ⟨hne, -, -, season, -, -, fit, hfit, rfl⟩ := MethodCode.forecast_eq_ok.1 h
  have hsized := MethodCode.fit_sized hne hfit
  exact ⟨hsized.forecasts, hsized.fitted⟩

end

end Intel4Ops.Forecasting
