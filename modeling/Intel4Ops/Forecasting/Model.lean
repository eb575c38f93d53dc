import Intel4Ops.Lib.Except
import Intel4Ops.Lib.Ident
import Intel4Ops.Lib.Json

/-!
# Forecast requests

The data that a forecast request carries, as its schema admits it, and the readings that the
methods make of its parameters. Numbers are exact: the rounding of floating-point arithmetic, its
range and its non-finite values are left out, and so is what a request only passes on to the
stored execution.
-/

namespace Intel4Ops.Forecasting

open Lib

/-- How a request fails: by an error of the service or of a method, by one of Python's own, or by
a constraint of a table. -/
inductive Failure
  | service (code message : String) (httpStatus : ℕ)
  | method (message : String)
  | valueError
  | typeError
  | indexError
  | zeroDivisionError
  | integrityError
  deriving DecidableEq

/-- `ForecastingServiceError` with its default status. -/
def serviceError (code message : String) : Failure := .service code message 422

/-! ## Observations -/

/-- `ForecastPeriodStatus` -/
inductive PeriodStatus
  | complete
  | partialPeriod
  | late
  | missing
  | duplicate
  | irregular
  deriving DecidableEq

/-- `ForecastObservationInput` -/
structure Observation where
  timestamp : Instant
  value : Option ℚ
  status : PeriodStatus
  confirmedDataError : Bool
  deriving DecidableEq

/-- The observation with another value at the period `k`. -/
def Observation.withValue (k : Instant) (v : Option ℚ) (o : Observation) : Observation :=
  if o.timestamp = k then { o with value := v } else o

section
variable (k : Instant) (v : Option ℚ) (o : Observation)

@[simp] theorem Observation.withValue_timestamp : (o.withValue k v).timestamp = o.timestamp := by
  unfold Observation.withValue
  split <;> rfl

@[simp] theorem Observation.withValue_status : (o.withValue k v).status = o.status := by
  unfold Observation.withValue
  split <;> rfl

@[simp] theorem Observation.withValue_confirmedDataError :
    (o.withValue k v).confirmedDataError = o.confirmedDataError := by
  unfold Observation.withValue
  split <;> rfl

end

theorem Observation.withValue_of_ne {k : Instant} {o : Observation} (h : o.timestamp ≠ k)
    (v : Option ℚ) : o.withValue k v = o := if_neg h

theorem Observation.withValue_value {k : Instant} {o : Observation} (h : o.timestamp = k)
    (v : Option ℚ) : (o.withValue k v).value = v := by
  rw [Observation.withValue, if_pos h]

/-! ## Requests -/

/-- The backtest types that the schema's pattern admits. -/
inductive BacktestType
  | holdout
  | rollingOrigin
  deriving DecidableEq

/-- Named parameters of the methods, any JSON values. -/
abbrev Parameters := List (String × Json)

/-- `ForecastExecutionCreate`, with the bounds of its fields. -/
structure ExecutionCreate where
  forecastHorizon : ℕ
  candidateMethods : List String
  primaryMetric : String
  backtestType : BacktestType
  backtestFolds : ℕ
  (missingPeriodPolicy partialPeriodPolicy outlierPolicy : String)
  maximumImputedPercentage : ℚ
  parameters : Parameters
  observations : List Observation
  horizon_range : 1 ≤ forecastHorizon ∧ forecastHorizon ≤ 120
  candidates_length : 1 ≤ candidateMethods.length ∧ candidateMethods.length ≤ 12
  folds_range : 1 ≤ backtestFolds ∧ backtestFolds ≤ 20
  percentage_range : 0 ≤ maximumImputedPercentage ∧ maximumImputedPercentage ≤ 100
  parameters_length : parameters.length ≤ 40
  observations_length : 2 ≤ observations.length ∧ observations.length ≤ 10000

/-- The request with another value at the period `k`. -/
def ExecutionCreate.withValue (payload : ExecutionCreate) (k : Instant) (v : Option ℚ) :
    ExecutionCreate where
  forecastHorizon := payload.forecastHorizon
  candidateMethods := payload.candidateMethods
  primaryMetric := payload.primaryMetric
  backtestType := payload.backtestType
  backtestFolds := payload.backtestFolds
  missingPeriodPolicy := payload.missingPeriodPolicy
  partialPeriodPolicy := payload.partialPeriodPolicy
  outlierPolicy := payload.outlierPolicy
  maximumImputedPercentage := payload.maximumImputedPercentage
  parameters := payload.parameters
  observations := payload.observations.map (Observation.withValue k v)
  horizon_range := payload.horizon_range
  candidates_length := payload.candidates_length
  folds_range := payload.folds_range
  percentage_range := payload.percentage_range
  parameters_length := payload.parameters_length
  observations_length := by
    rw [List.length_map]
    exact payload.observations_length

/-! ## Parameters -/

/-- `_number`: a parameter as a number. -/
def number (parameters : Parameters) (name : String) (default : ℚ) : Except Failure ℚ :=
  match Json.field parameters name with
  | none => .ok default
  | some value =>
    if value.isNumeral then orFail value.float? .valueError
    else .error (.method ("INVALID_" ++ name.toUpper))

/-- `int(_number(parameters, "seasonal_period", 12))`, as the methods read the season. -/
def methodSeason (parameters : Parameters) : Except Failure ℤ :=
  (number parameters "seasonal_period" 12).map truncate

/-- The seasonal period as the services read it. -/
def seasonalPeriod (parameters : Parameters) : Except Failure ℤ :=
  match Json.field parameters "seasonal_period" with
  | none => .ok 12
  | some value =>
    if value.isNumeral then orFail value.int? .valueError
    else .error (serviceError "INVALID_SEASONAL_PERIOD" "Seasonal period is invalid")

theorem methodSeason_of_seasonalPeriod {parameters : Parameters} {season : ℤ}
    (h : seasonalPeriod parameters = .ok season) : methodSeason parameters = .ok season := by
  unfold seasonalPeriod at h
  unfold methodSeason number
  cases hfield : Json.field parameters "seasonal_period" with
  | none =>
    rw [hfield] at h
    obtain rfl : (12 : ℤ) = season := Except.ok.inj h
    exact congrArg Except.ok (truncate_intCast 12)
  | some value =>
    rw [hfield] at h
    dsimp only at h ⊢
    by_cases hnumeral : value.isNumeral = true
    · rw [if_pos hnumeral, orFail_eq_ok] at h
      obtain ⟨x, hx, htruncate⟩ := Json.truncate_float? h
      rw [if_pos hnumeral, hx]
      exact congrArg Except.ok htruncate
    · rw [if_neg hnumeral] at h
      cases h

end Intel4Ops.Forecasting
