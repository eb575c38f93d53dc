import Intel4Ops.Forecasting.Model
import Intel4Ops.Lib.Statistics
import Mathlib.Algebra.Order.Floor.Div
import Mathlib.Data.Fin.VecNotation

/-!
# The forecasting methods

The methods of the default registry with their metadata, each as the function of the history, the
horizon and the parameters that it computes.
-/

namespace Intel4Ops.Forecasting

open Lib

/-! ## The registry -/

/-- The methods that the default registry registers, all at version 1.0. -/
inductive MethodCode
  | naive
  | seasonalNaive
  | drift
  | historicalMean
  | historicalMedian
  | simpleMovingAverage
  | weightedMovingAverage
  | expandingMean
  | simpleExponentialSmoothing
  | holtLinearTrend
  | holtDampedTrend
  | holtWintersAdditive
  | linearTimeTrend
  | polynomialTimeTrendDegree2
  | seasonalDummyRegression
  | boundedMultivariateLinearRegression
  | croston
  | sbaCroston
  | weightedForecastEnsemble

/-- `ForecastingMethodMetadata`, as far as the services read it. -/
structure Metadata where
  (methodCode methodVersion : String)
  minimumHistory : ℕ
  supportsSeasonality : Bool
  complexityRank : ℕ
  supported : Bool

def entry (methodCode : String) (minimumHistory complexityRank : ℕ)
    (supportsSeasonality : Bool) : Metadata where
  methodCode := methodCode
  methodVersion := "1.0"
  minimumHistory := minimumHistory
  supportsSeasonality := supportsSeasonality
  complexityRank := complexityRank
  supported := methodCode ≠ "BOUNDED_MULTIVARIATE_LINEAR_REGRESSION"

namespace MethodCode

/-- The definitions of `default_forecasting_method_registry`. -/
def metadata : MethodCode → Metadata
  | naive => entry "NAIVE" 2 1 false
  | seasonalNaive => entry "SEASONAL_NAIVE" 4 1 true
  | drift => entry "DRIFT" 2 2 false
  | historicalMean => entry "HISTORICAL_MEAN" 2 1 false
  | historicalMedian => entry "HISTORICAL_MEDIAN" 2 1 false
  | simpleMovingAverage => entry "SIMPLE_MOVING_AVERAGE" 3 2 false
  | weightedMovingAverage => entry "WEIGHTED_MOVING_AVERAGE" 3 2 false
  | expandingMean => entry "EXPANDING_MEAN" 2 1 false
  | simpleExponentialSmoothing => entry "SIMPLE_EXPONENTIAL_SMOOTHING" 3 2 false
  | holtLinearTrend => entry "HOLT_LINEAR_TREND" 4 3 false
  | holtDampedTrend => entry "HOLT_DAMPED_TREND" 4 4 false
  | holtWintersAdditive => entry "HOLT_WINTERS_ADDITIVE" 8 5 true
  | linearTimeTrend => entry "LINEAR_TIME_TREND" 3 3 false
  | polynomialTimeTrendDegree2 => entry "POLYNOMIAL_TIME_TREND_DEGREE_2" 5 5 false
  | seasonalDummyRegression => entry "SEASONAL_DUMMY_REGRESSION" 8 5 true
  | boundedMultivariateLinearRegression =>
    entry "BOUNDED_MULTIVARIATE_LINEAR_REGRESSION" 8 6 false
  | croston => entry "CROSTON" 5 3 false
  | sbaCroston => entry "SBA_CROSTON" 5 3 false
  | weightedForecastEnsemble => entry "WEIGHTED_FORECAST_ENSEMBLE" 3 7 false

end MethodCode

/-! ## Results -/

/-- What a method computes: the fitted history and the forecasts. -/
structure Fit where
  (fitted forecasts : List ℚ)

/-- `ForecastResult` -/
structure ForecastResult where
  (values fittedValues residuals : List ℚ)
  deriving DecidableEq

/-- The value at an index that lies within the history. -/
def valueAt (values : List ℚ) (index : ℕ) : ℚ := values.getD index 0

def lastValue (values : List ℚ) : ℚ := values.getLastD 0

/-! ## Averages -/

def naiveFit (values : List ℚ) (horizon : ℕ) : Fit where
  fitted := valueAt values 0 :: values.dropLast
  forecasts := List.replicate horizon (lastValue values)

def seasonalNaiveFit (season : ℕ) (values : List ℚ) (horizon : ℕ) : Fit where
  fitted := (List.range values.length).map fun index =>
    if season ≤ index then valueAt values (index - season) else valueAt values index
  forecasts := (List.range horizon).map fun step =>
    valueAt values (values.length - season + step % season)

def meanFit (values : List ℚ) (horizon : ℕ) : Fit where
  fitted := (List.range values.length).map fun index => mean (values.take (index + 1))
  forecasts := List.replicate horizon (mean values)

def medianFit (values : List ℚ) (horizon : ℕ) : Fit where
  fitted := (List.range values.length).map fun index => median (values.take (index + 1))
  forecasts := List.replicate horizon (median values)

/-- The mean of a window in which the weights grow from the oldest value on. -/
def weightedMean (sample : List ℚ) : ℚ :=
  let weights := (List.range sample.length).map fun i => ((i + 1 : ℕ) : ℚ)
  (List.zipWith (· * ·) sample weights).sum / weights.sum

/-- A moving average, `average` being the mean of one window. -/
def movingAverageFit (average : List ℚ → ℚ) (window : ℤ) (values : List ℚ) (horizon : ℕ) : Fit :=
  let width := (max 2 (min window values.length)).toNat
  let fitted := (List.range values.length).map fun index =>
    average ((values.take (index + 1)).drop (index + 1 - width))
  { fitted := fitted, forecasts := List.replicate horizon (lastValue fitted) }

/-! ## Smoothing -/

def exponentialSmoothingFit (alpha : ℚ) (values : List ℚ) (horizon : ℕ) : Fit :=
  let levels := values.tail.scanl (fun level value => alpha * value + (1 - alpha) * level)
    (valueAt values 0)
  { fitted := levels, forecasts := List.replicate horizon (lastValue levels) }

/-- One step of Holt's smoothing of the level and the trend. -/
def holtStep (alpha beta damping : ℚ) (state : ℚ × ℚ) (value : ℚ) : ℚ × ℚ :=
  let level := alpha * value + (1 - alpha) * (state.1 + damping * state.2)
  (level, beta * (level - state.1) + (1 - beta) * damping * state.2)

def holtFit (alpha beta damping : ℚ) (values : List ℚ) (horizon : ℕ) : Fit :=
  let start := (valueAt values 0, valueAt values 1 - valueAt values 0)
  let states := values.tail.scanl (holtStep alpha beta damping) start
  let last := states.getLastD start
  { fitted := valueAt values 0 :: states.tail.map fun state => state.1 + damping * state.2
    forecasts := (List.range horizon).map fun step =>
      last.1 + ((List.range (step + 1)).map fun power => damping ^ (power + 1)).sum * last.2 }

/-! ## Trends -/

def driftFit (values : List ℚ) (horizon : ℕ) : Fit :=
  let slope := (lastValue values - valueAt values 0) / (values.length - 1)
  { fitted := (List.range values.length).map fun (index : ℕ) => valueAt values 0 + slope * index
    forecasts := (List.range horizon).map fun (step : ℕ) => lastValue values + slope * (step + 1) }

/-- `_linear`: the intercept and the slope of the least-squares line. -/
def linear (values : List ℚ) : ℚ × ℚ :=
  let indices := (List.range values.length).map fun (index : ℕ) => (index : ℚ)
  let xMean := ((values.length : ℚ) - 1) / 2
  let yMean := mean values
  let denominator := (indices.map fun index => (index - xMean) ^ 2).sum
  let slope := if denominator = 0 then 0
    else (List.zipWith (fun index value => (index - xMean) * (value - yMean)) indices values).sum
      / denominator
  (yMean - slope * xMean, slope)

def linearFit (values : List ℚ) (horizon : ℕ) : Fit :=
  let (intercept, slope) := linear values
  { fitted := (List.range values.length).map fun (index : ℕ) => intercept + slope * index
    forecasts := (List.range horizon).map fun step =>
      intercept + slope * (values.length + step : ℕ) }

/-- The sum of the powers of the indices below `count`. -/
def powerSum (count power : ℕ) : ℚ := ((List.range count).map fun (x : ℕ) => (x : ℚ) ^ power).sum

/-- The sum of the values, each times a power of its index. -/
def momentSum (values : List ℚ) (power : ℕ) : ℚ :=
  (List.zipWith (fun (x : ℕ) y => (x : ℚ) ^ power * y) (List.range values.length) values).sum

/-- Three linear equations with their right-hand sides. -/
abbrev Equations := Fin 3 → Fin 4 → ℚ

/-- The normal equations of a quadratic fit. -/
def normalEquations (values : List ℚ) : Equations :=
  let s := powerSum values.length
  ![![values.length, s 1, s 2, values.sum],
    ![s 1, s 2, s 3, momentSum values 1],
    ![s 2, s 3, s 4, momentSum values 2]]

/-- The first row from `column` on with the largest entry in that column. -/
def pivotRow (matrix : Equations) (column : Fin 3) : Fin 3 :=
  ((List.finRange 3).filter (column ≤ ·)).foldl
    (fun best row =>
      if |matrix best column.castSucc| < |matrix row column.castSucc| then row else best) column

/-- One column of the elimination, with the pivot moved to the diagonal. -/
def eliminate (matrix : Equations) (column : Fin 3) : Except Failure Equations := do
  let pivot := pivotRow matrix column
  ensure (¬ |matrix pivot column.castSucc| < 1 / 10 ^ 12) (.method "SINGULAR_QUADRATIC_FIT")
  let swapped : Equations := fun row => matrix (Equiv.swap column pivot row)
  let unit : Fin 4 → ℚ := fun j => swapped column j / swapped column column.castSucc
  return fun row j =>
    if row = column then unit j else swapped row j - swapped row column.castSucc * unit j

/-- `_quadratic`: the coefficients of the least-squares parabola. -/
def quadratic (values : List ℚ) : Except Failure (ℚ × ℚ × ℚ) := do
  let solved ← (List.finRange 3).foldlM eliminate (normalEquations values)
  return (solved 0 3, solved 1 3, solved 2 3)

def quadraticFit (values : List ℚ) (horizon : ℕ) : Except Failure Fit := do
  let (intercept, linearCoefficient, quadraticCoefficient) ← quadratic values
  let estimate : ℕ → ℚ := fun index =>
    intercept + linearCoefficient * index + quadraticCoefficient * (index : ℚ) ^ 2
  return { fitted := (List.range values.length).map estimate
           forecasts := (List.range horizon).map fun step => estimate (values.length + step) }

/-- The trend line with the mean deviation of each position of the season. -/
def seasonalTrendFit (season : ℕ) (values : List ℚ) (horizon : ℕ) : Fit :=
  let (intercept, slope) := linear values
  let line : ℕ → ℚ := fun index => intercept + slope * index
  let seasonal : ℕ → ℚ := fun position =>
    mean (((List.range values.length).filter (· % season = position)).map fun index =>
      valueAt values index - line index)
  let estimate : ℕ → ℚ := fun index => line index + seasonal (index % season)
  { fitted := (List.range values.length).map estimate
    forecasts := (List.range horizon).map fun step => estimate (values.length + step) }

/-! ## Intermittent demand and ensembles -/

/-- The mean demand of a period, from the mean demand and the mean interval between demands. -/
def crostonEstimate (values : List ℚ) : ℚ :=
  let nonzero := (List.range values.length).filter fun index => valueAt values index ≠ 0
  let demand := mean (nonzero.map (valueAt values))
  let intervals := List.zipWith (fun left right : ℕ => (right : ℚ) - left) nonzero nonzero.tail
  let interval := if intervals = [] then (values.length : ℚ) / nonzero.length else mean intervals
  if nonzero = [] then 0 else demand / max interval 1

def crostonFit (factor : ℚ) (values : List ℚ) (horizon : ℕ) : Fit :=
  let estimate := crostonEstimate values * factor
  { fitted := List.replicate values.length estimate
    forecasts := List.replicate horizon estimate }

/-- `float(value)` of any value. -/
def floatOf (value : Json) : Except Failure ℚ :=
  if value.isNumeral then orFail value.float? .valueError else .error .typeError

def listParameter (parameters : Parameters) (name : String) : Except Failure (List Json) :=
  match Json.field parameters name with
  | some (.arr items) => .ok items
  | _ => .error (.method "INVALID_ENSEMBLE")

/-- `math.isclose(total, 1.0, abs_tol=1e-9)` -/
def closeToOne (total : ℚ) : Prop := |total - 1| ≤ max (max |total| 1 / 10 ^ 9) (1 / 10 ^ 9)

instance (total : ℚ) : Decidable (closeToOne total) :=
  inferInstanceAs (Decidable (|total - 1| ≤ max (max |total| 1 / 10 ^ 9) (1 / 10 ^ 9)))

/-- The forecasts of the components of an ensemble. -/
def componentValues (components : List Json) : Except Failure (List (List ℚ)) :=
  components.mapM fun item => do
    let values ← orFail item.iterate? .typeError
    values.mapM floatOf

def ensembleFit (parameters : Parameters) (values : List ℚ) (horizon : ℕ) : Except Failure Fit := do
  let components ← listParameter parameters "component_forecasts"
  let weights ← listParameter parameters "weights"
  let numericWeights ← weights.mapM floatOf
  ensure (components.length = numericWeights.length ∧ closeToOne numericWeights.sum)
    (.method "INVALID_ENSEMBLE_WEIGHTS")
  let forecasts ← componentValues components
  ensure (∀ item ∈ forecasts, item.length = horizon) (.method "INVALID_ENSEMBLE_HORIZON")
  return { fitted := List.replicate values.length (mean values)
           forecasts := (List.range horizon).map fun step =>
             (List.zipWith (fun item weight => valueAt item step * weight) forecasts
               numericWeights).sum }

/-! ## Forecasts -/

/-- The smoothing parameters of Holt's methods. -/
def holtParameters (parameters : Parameters) (defaultDamping : ℚ) : Except Failure (ℚ × ℚ × ℚ) := do
  let alpha ← number parameters "alpha" (4 / 10)
  let beta ← number parameters "beta" (2 / 10)
  let damping ← number parameters "damping" defaultDamping
  ensure (∀ item ∈ [alpha, beta, damping], 0 < item ∧ item ≤ 1)
    (.method "INVALID_SMOOTHING_PARAMETER")
  return (alpha, beta, damping)

def holtForecast (defaultDamping : ℚ) (parameters : Parameters) (values : List ℚ)
    (horizon : ℕ) : Except Failure Fit := do
  let (alpha, beta, damping) ← holtParameters parameters defaultDamping
  return holtFit alpha beta damping values horizon

def movingAverageForecast (average : List ℚ → ℚ) (parameters : Parameters) (values : List ℚ)
    (horizon : ℕ) : Except Failure Fit := do
  let window ← number parameters "window" 3
  return movingAverageFit average (truncate window) values horizon

def exponentialSmoothingForecast (parameters : Parameters) (values : List ℚ) (horizon : ℕ) :
    Except Failure Fit := do
  let alpha ← number parameters "alpha" (3 / 10)
  ensure (0 < alpha ∧ alpha ≤ 1) (.method "INVALID_ALPHA")
  return exponentialSmoothingFit alpha values horizon

/-- A seasonal fit: the remainder by a season of zero fails, and no index fits a negative one. -/
def seasonalForecast (fit : ℕ → List ℚ → ℕ → Fit) (season : ℤ) (values : List ℚ)
    (horizon : ℕ) : Except Failure Fit := do
  ensure (season ≠ 0) .zeroDivisionError
  ensure (0 ≤ season) .indexError
  return fit season.toNat values horizon

/-- The branches of `BoundedForecastingMethod.forecast`. -/
def MethodCode.fit (code : MethodCode) (season : ℤ) (parameters : Parameters) (values : List ℚ)
    (horizon : ℕ) : Except Failure Fit :=
  match code with
  | naive => .ok (naiveFit values horizon)
  | seasonalNaive => seasonalForecast seasonalNaiveFit season values horizon
  | drift => .ok (driftFit values horizon)
  | historicalMean => .ok (meanFit values horizon)
  | historicalMedian => .ok (medianFit values horizon)
  | simpleMovingAverage => movingAverageForecast mean parameters values horizon
  | weightedMovingAverage => movingAverageForecast weightedMean parameters values horizon
  | expandingMean => .ok (meanFit values horizon)
  | simpleExponentialSmoothing => exponentialSmoothingForecast parameters values horizon
  | holtLinearTrend => holtForecast 1 parameters values horizon
  | holtDampedTrend => holtForecast (9 / 10) parameters values horizon
  | holtWintersAdditive => seasonalForecast seasonalTrendFit season values horizon
  | linearTimeTrend => .ok (linearFit values horizon)
  | polynomialTimeTrendDegree2 => quadraticFit values horizon
  | seasonalDummyRegression => seasonalForecast seasonalTrendFit season values horizon
  | boundedMultivariateLinearRegression =>
    .error (.method "UNSUPPORTED_EXOGENOUS_CONFIGURATION")
  | croston => .ok (crostonFit 1 values horizon)
  | sbaCroston => .ok (crostonFit (95 / 100) values horizon)
  | weightedForecastEnsemble => ensembleFit parameters values horizon

/-- `BoundedForecastingMethod.forecast` -/
def MethodCode.forecast (code : MethodCode) (values : List ℚ) (horizon : ℕ)
    (parameters : Parameters) : Except Failure ForecastResult := do
  ensure (values ≠ []) (.method "Series must contain finite numeric observations")
  ensure (code.metadata.minimumHistory ≤ values.length) (.method "INSUFFICIENT_HISTORY")
  ensure (1 ≤ horizon ∧ horizon ≤ 120) (.method "INVALID_HORIZON")
  let season ← methodSeason parameters
  ensure (code.metadata.supportsSeasonality → season * 2 ≤ values.length)
    (.method "INSUFFICIENT_SEASONAL_CYCLES")
  let fit ← code.fit season parameters values horizon
  return { values := fit.forecasts, fittedValues := fit.fitted,
           residuals := List.zipWith (· - ·) values fit.fitted }

end Intel4Ops.Forecasting
