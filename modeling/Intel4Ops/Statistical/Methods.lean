import Intel4Ops.Lib.Except
import Intel4Ops.Lib.Spread

/-!
# Bounded statistical methods

The outlier, deviation and baseline methods of the statistical engine, which end in one comparison
of a score with a threshold. Numbers are exact; what cannot be read as a finite number is refused.
The square root is a parameter.
-/

namespace Intel4Ops.Statistical

open Lib

/-! ## Observations and parameters -/

/-- A value as it is given, by what `float(str(value))` makes of it. -/
inductive Value (K : Type)
  | number (x : K)
  | boolean (b : Bool)
  | notFinite
  | unreadable

/-- `StatisticalMethodError` and `InsufficientStatisticalDataError` -/
inductive Error
  | statisticalMethod (message : String)
  | insufficientData (message : String)
  deriving DecidableEq

variable {K : Type} [Field K] [LinearOrder K]

/-- The parameters of a call. -/
abbrev Parameters (K : Type) := String → Option (Value K)

/-- `_finite` -/
def finite : Value K → Except Error K
  | .number x => .ok x
  | .boolean _ => .error (.statisticalMethod "Boolean values are not numeric observations")
  | .notFinite => .error (.statisticalMethod "NaN and infinity are not supported")
  | .unreadable =>
    .error (.statisticalMethod "All observations must be finite numeric values")

/-- `finite_values` -/
def finiteValues (values : List (Option (Value K))) : Except Error (List K) :=
  (values.filterMap id).mapM finite

/-- `numeric_parameter` -/
def numericParameter (parameters : Parameters K) (key : String) (default : K) : Except Error K :=
  finite ((parameters key).getD (.number default))

variable [FloorRing K]

/-- `integer_parameter` -/
def integerParameter (parameters : Parameters K) (key : String) (default : K) : Except Error ℤ := do
  let value ← numericParameter parameters key default
  ensure ((⌊value⌋ : K) = value) (.statisticalMethod (key ++ " must be an integer"))
  return ⌊value⌋

/-- `percentile` -/
def percentile [FloorSemiring K] (values : List K) (quantile : K) : Except Error K := do
  ensure (values ≠ []) (.insufficientData "At least one observation is required")
  ensure (0 ≤ quantile ∧ quantile ≤ 1) (.statisticalMethod "Percentile must be between 0 and 1")
  return Lib.percentile values quantile

/-! ## Baselines -/

/-- `values[:-1] or values` -/
def history (values : List K) : List K := if values.dropLast = [] then values else values.dropLast

/-- `values[-count:]` -/
def lastOnes (values : List K) (count : ℕ) : List K := values.drop (values.length - count)

/-- `_window` -/
def window (values : List K) (parameters : Parameters K) : Except Error (List K) := do
  let size ← integerParameter parameters "window_size" ((min 12 (values.length - 1) : ℕ) : K)
  ensure (2 ≤ size ∧ size ≤ 365) (.statisticalMethod "window_size must be between 2 and 365")
  let baseline := lastOnes values.dropLast size.toNat
  ensure (2 ≤ baseline.length) (.insufficientData "Rolling methods require historical observations")
  return baseline

/-! ## Scores -/

/-- The local variables that a branch of `execute` leaves. -/
structure Scored (K : Type) where
  (expected score threshold : K)
  dispersion : Option K

/-- `math.copysign` -/
def copysign (x y : K) : K := if y < 0 then -|x| else |x|

/-- The score of a method that flags every deviation from a baseline without dispersion. -/
def scoreOrJump (threshold observed expected dispersion score : K) : K :=
  if dispersion = 0 ∧ observed = expected then 0
  else if dispersion = 0 then copysign (threshold + 1) (observed - expected)
  else score

/-- `0.0 if expected == 0 else (observed - expected) / abs(expected)` -/
def relativeScore (observed expected : K) : K :=
  if expected = 0 then 0 else (observed - expected) / |expected|

/-- `statistics.stdev(baseline) if len(baseline) > 1 else 0.0` -/
def stdev (sqrt : K → K) (baseline : List K) : K :=
  if 1 < baseline.length then sqrt (variance baseline) else 0

/-- Z_SCORE and its variants -/
def standardScore (sqrt : K → K) (values : List K) (observed threshold : K) : Scored K :=
  let baseline := history values
  let expected := mean baseline
  let dispersion := stdev sqrt baseline
  { expected := expected
    score := scoreOrJump threshold observed expected dispersion ((observed - expected) / dispersion)
    threshold := threshold
    dispersion := some dispersion }

/-- MODIFIED_Z_SCORE and its variants -/
def robustScore (values : List K) (observed threshold : K) (parameters : Parameters K) :
    Except Error (Scored K) := do
  let baseline ← window values parameters
  let expected := median baseline
  let dispersion := medianAbsoluteDeviation baseline
  return {
    expected := expected
    score := scoreOrJump threshold observed expected dispersion
      (((6745 / 10000 : ℚ) : K) * (observed - expected) / dispersion)
    threshold := threshold
    dispersion := some dispersion }

/-- IQR_RULE and ROLLING_IQR -/
def iqrScore [FloorSemiring K] (values : List K) (observed threshold : K)
    (parameters : Parameters K) : Except Error (Scored K) := do
  let baseline ← window values parameters
  let q1 ← percentile baseline ((1 / 4 : ℚ) : K)
  let q3 ← percentile baseline ((3 / 4 : ℚ) : K)
  let expected := median baseline
  let dispersion := q3 - q1
  let multiplier ← numericParameter parameters "iqr_multiplier" ((3 / 2 : ℚ) : K)
  return {
    expected := expected
    score := scoreOrJump threshold observed expected dispersion ((observed - expected) / dispersion)
    threshold := multiplier
    dispersion := some dispersion }

/-- PERCENTILE_THRESHOLD and PEER_PERCENTILE -/
def percentileScore [FloorSemiring K] (values : List K) (observed : K)
    (parameters : Parameters K) : Except Error (Scored K) := do
  let baseline := history values
  let quantile ← numericParameter parameters "percentile" ((95 / 100 : ℚ) : K)
  let expected ← percentile baseline quantile
  let threshold ← numericParameter parameters "relative_threshold" 0
  return ⟨expected, relativeScore observed expected, threshold, none⟩

def peerRatioScore (values : List K) (observed : K) (parameters : Parameters K) :
    Except Error (Scored K) := do
  let expected := median values.dropLast
  let threshold ← numericParameter parameters "relative_threshold" ((2 / 10 : ℚ) : K)
  return ⟨expected, relativeScore observed expected, threshold, none⟩

/-- The average that EWMA_DEVIATION expects. -/
def ewma (alpha : K) : List K → K
  | [] => 0
  | first :: rest => rest.foldl (fun expected value => alpha * value + (1 - alpha) * expected) first

/-- What ROLLING_Z_SCORE and EWMA_DEVIATION make of an expected value. -/
def rollingScore (sqrt : K → K) (baseline : List K) (observed threshold expected : K) : Scored K :=
  let dispersion := stdev sqrt baseline
  { expected := expected
    score := if dispersion = 0 then 0 else (observed - expected) / dispersion
    threshold := threshold
    dispersion := some dispersion }

def rollingZScore (sqrt : K → K) (values : List K) (observed threshold : K)
    (parameters : Parameters K) : Except Error (Scored K) := do
  let baseline ← window values parameters
  return rollingScore sqrt baseline observed threshold (mean baseline)

/-- EWMA_DEVIATION -/
def ewmaScore (sqrt : K → K) (values : List K) (observed threshold : K)
    (parameters : Parameters K) : Except Error (Scored K) := do
  let baseline ← window values parameters
  let alpha ← numericParameter parameters "alpha" ((3 / 10 : ℚ) : K)
  ensure (0 < alpha ∧ alpha ≤ 1) (.statisticalMethod "alpha must be greater than 0 and at most 1")
  return rollingScore sqrt baseline observed threshold (ewma alpha baseline)

/-- MEDIAN_BASELINE and ROLLING_MEDIAN -/
def medianScore (values : List K) (observed : K) (parameters : Parameters K) :
    Except Error (Scored K) := do
  let baseline ← window values parameters
  let expected := median baseline
  let threshold ← numericParameter parameters "relative_threshold" ((2 / 10 : ℚ) : K)
  return ⟨expected, relativeScore observed expected, threshold, none⟩

/-- `baseline[count:-count]` of a sorted baseline, all of it for zero -/
def trimmed (count : ℕ) (baseline : List K) : List K :=
  (baseline.take (baseline.length - count)).drop count

/-- `[baseline[count]] * count + baseline[count:-count] + [baseline[-count - 1]] * count` -/
def winsorized (count : ℕ) (baseline : List K) : List K :=
  List.replicate count (baseline.getD count 0) ++ trimmed count baseline ++
    List.replicate count (baseline.getD (baseline.length - count - 1) 0)

/-- TRIMMED_MEAN_BASELINE and WINSORIZED_MEAN_BASELINE, by what is adjusted. -/
def adjustedMeanScore [FloorSemiring K] (adjust : ℕ → List K → List K) (values : List K)
    (observed : K) (parameters : Parameters K) : Except Error (Scored K) := do
  let baseline := (history values).insertionSort (· ≤ ·)
  let proportion ← numericParameter parameters "trim_proportion" ((1 / 10 : ℚ) : K)
  ensure (0 ≤ proportion ∧ proportion < ((1 / 2 : ℚ) : K))
    (.statisticalMethod "trim_proportion must be between 0 and 0.5")
  let count := ⌊(baseline.length : K) * proportion⌋₊
  let expected := mean (adjust count baseline)
  let threshold ← numericParameter parameters "relative_threshold" ((2 / 10 : ℚ) : K)
  return ⟨expected, relativeScore observed expected, threshold, none⟩

def rollingMadScore (values : List K) (observed threshold : K) (parameters : Parameters K) :
    Except Error (Scored K) := do
  let baseline ← window values parameters
  let expected := median baseline
  let dispersion := medianAbsoluteDeviation baseline
  return {
    expected := expected
    score := if dispersion = 0 then 0 else |observed - expected| / dispersion
    threshold := threshold
    dispersion := some dispersion }

/-! ## Execution -/

/-- The methods that end in the comparison of a score with a threshold. -/
inductive Method
  | zScore | standardDeviationBand | peerZScore
  | modifiedZScore | peerModifiedZScore | rollingModifiedZScore | robustNormalizedScore
  | iqrRule | rollingIqr
  | percentileThreshold | peerPercentile
  | peerRatioDeviation
  | rollingZScore | ewmaDeviation
  | medianBaseline | rollingMedian
  | trimmedMeanBaseline | winsorizedMeanBaseline
  | rollingMad
  deriving DecidableEq

/-- `method_code` -/
def Method.code : Method → String
  | zScore => "Z_SCORE"
  | standardDeviationBand => "STANDARD_DEVIATION_BAND"
  | peerZScore => "PEER_Z_SCORE"
  | modifiedZScore => "MODIFIED_Z_SCORE"
  | peerModifiedZScore => "PEER_MODIFIED_Z_SCORE"
  | rollingModifiedZScore => "ROLLING_MODIFIED_Z_SCORE"
  | robustNormalizedScore => "ROBUST_NORMALIZED_SCORE"
  | iqrRule => "IQR_RULE"
  | rollingIqr => "ROLLING_IQR"
  | percentileThreshold => "PERCENTILE_THRESHOLD"
  | peerPercentile => "PEER_PERCENTILE"
  | peerRatioDeviation => "PEER_RATIO_DEVIATION"
  | rollingZScore => "ROLLING_Z_SCORE"
  | ewmaDeviation => "EWMA_DEVIATION"
  | medianBaseline => "MEDIAN_BASELINE"
  | rollingMedian => "ROLLING_MEDIAN"
  | trimmedMeanBaseline => "TRIMMED_MEAN_BASELINE"
  | winsorizedMeanBaseline => "WINSORIZED_MEAN_BASELINE"
  | rollingMad => "ROLLING_MAD"

/-- `minimum_sample_size` in `METHOD_SPECS` -/
def Method.minimumSampleSize : Method → ℕ
  | zScore | modifiedZScore | standardDeviationBand | medianBaseline | robustNormalizedScore => 3
  | rollingMedian | rollingMad | peerZScore | peerModifiedZScore | peerRatioDeviation
  | rollingZScore | rollingModifiedZScore | ewmaDeviation => 4
  | iqrRule | percentileThreshold | trimmedMeanBaseline | winsorizedMeanBaseline
  | peerPercentile => 5
  | rollingIqr => 6

/-- `StatisticalMethodResult`, with the entries of its summary. -/
structure StatisticalMethodResult (K : Type) where
  (observedValue expectedValue normalizedDeviation : K)
  isAnomaly : Bool
  threshold : K
  dispersion : Option K
  sampleSize : ℕ

variable [FloorSemiring K]

/-- The branches of `execute`. -/
def Method.score (sqrt : K → K) (method : Method) (values : List K) (observed threshold : K)
    (parameters : Parameters K) : Except Error (Scored K) :=
  match method with
  | zScore | standardDeviationBand | peerZScore =>
    .ok (standardScore sqrt values observed threshold)
  | modifiedZScore | peerModifiedZScore | rollingModifiedZScore | robustNormalizedScore =>
    robustScore values observed threshold parameters
  | iqrRule | rollingIqr => iqrScore values observed threshold parameters
  | percentileThreshold | peerPercentile => percentileScore values observed parameters
  | peerRatioDeviation => peerRatioScore values observed parameters
  | rollingZScore => Statistical.rollingZScore sqrt values observed threshold parameters
  | ewmaDeviation => ewmaScore sqrt values observed threshold parameters
  | medianBaseline | rollingMedian => medianScore values observed parameters
  | trimmedMeanBaseline => adjustedMeanScore trimmed values observed parameters
  | winsorizedMeanBaseline => adjustedMeanScore winsorized values observed parameters
  | rollingMad => rollingMadScore values observed threshold parameters

/-- `execute` -/
def Method.execute (sqrt : K → K) (method : Method) (values : List (Option (Value K)))
    (parameters : Parameters K) : Except Error (StatisticalMethodResult K) := do
  let values ← finiteValues values
  ensure (method.minimumSampleSize ≤ values.length) (.insufficientData (method.code ++
    " requires at least " ++ toString method.minimumSampleSize ++ " observations"))
  let observed := values.getLastD 0
  let threshold ← numericParameter parameters "deviation_threshold" ((3 : ℚ) : K)
  ensure (0 < threshold ∧ threshold ≤ ((20 : ℚ) : K))
    (.statisticalMethod "deviation_threshold must be greater than 0 and at most 20")
  let scored ← method.score sqrt values observed threshold parameters
  return {
    observedValue := observed
    expectedValue := scored.expected
    normalizedDeviation := scored.score
    isAnomaly := decide (scored.threshold ≤ |scored.score|)
    threshold := scored.threshold
    dispersion := scored.dispersion
    sampleSize := values.length }

end Intel4Ops.Statistical
