import Intel4Ops.Forecasting.Methods
import Intel4Ops.Forecasting.Preparation
import Intel4Ops.Forecasting.Results
import Mathlib.Data.List.DropRight
import Mathlib.Tactic.LinearCombination

/-!
# Backtests and the future

The imputation runs over the whole series before the folds are cut, so an imputed value may depend
on values behind a forecast origin. A backtest never does exactly when no backtested period was
imputed, the first origin was not interpolated, and no missing value takes a median that a later
value moves.
-/

namespace Intel4Ops.Forecasting

open Lib List

/-! ## Eligible methods -/

/-- Why a method is not eligible for a series of `count` values. -/
def MethodCode.rejection (code : MethodCode) (season : ℤ) (count : ℕ) : Option String :=
  if ¬ code.metadata.supported then some "UNSUPPORTED"
  else if count < code.metadata.minimumHistory then some "INSUFFICIENT_HISTORY"
  else if code.metadata.supportsSeasonality ∧ (count : ℤ) < season * 2 then
    some "INSUFFICIENT_SEASONAL_CYCLES"
  else none

/-! ## Folds -/

/-- `_effective_minimum_history` -/
def effectiveMinimumHistory (code : MethodCode) (parameters : Parameters) : Except Failure ℕ :=
  let minimum := code.metadata.minimumHistory
  if code.metadata.supportsSeasonality then do
    let season ← seasonalPeriod parameters
    ensure (1 ≤ season) (serviceError "INVALID_SEASONAL_PERIOD" "Seasonal period must be positive")
    return max minimum (season * 2).toNat
  else .ok minimum

/-- `ForecastBacktest` -/
structure BacktestRow where
  backtestType : BacktestType
  foldNumber : ℕ
  (trainStart trainEnd forecastOrigin forecastPeriod : Instant)
  horizonStep : ℕ
  (actualValue forecastValue errorValue absoluteError : ℚ)
  percentageError : Option ℚ
  deriving DecidableEq

/-- The row of a fold: the forecast of the value at `split` from the values before it. -/
def backtestRow (backtestType : BacktestType) (series : PreparedSeries) (fold split : ℕ)
    (forecast : ℚ) : BacktestRow :=
  let actual := valueAt series.values split
  { backtestType
    foldNumber := fold + 1
    trainStart := series.timestamps.getD 0 0
    trainEnd := series.timestamps.getD (split - 1) 0
    forecastOrigin := series.timestamps.getD (split - 1) 0
    forecastPeriod := series.timestamps.getD split 0
    horizonStep := 1
    actualValue := actual
    forecastValue := forecast
    errorValue := forecast - actual
    absoluteError := |forecast - actual|
    percentageError :=
      if 1 / 10 ^ 12 < |actual| then some ((forecast - actual) / actual * 100) else none }

/-- The forecast of the next value from a history. -/
def nextForecast (code : MethodCode) (parameters : Parameters) (training : List ℚ) :
    Except Failure ℚ := do
  let result ← code.forecast training 1 parameters
  orFail result.values.head? .indexError

/-- One fold of a backtest with `folds` folds. -/
def backtestFold (payload : ExecutionCreate) (series : PreparedSeries) (code : MethodCode)
    (folds fold : ℕ) : Except Failure BacktestRow := do
  let split := series.values.length - folds + fold
  let forecast ← nextForecast code payload.parameters (series.values.take split)
  return backtestRow payload.backtestType series fold split forecast

/-- `_backtest`: the rows of all folds. -/
def backtest (payload : ExecutionCreate) (series : PreparedSeries) (code : MethodCode) :
    Except Failure (List BacktestRow) := do
  let minimum ← effectiveMinimumHistory code payload.parameters
  let folds := min payload.backtestFolds (series.values.length - minimum)
  ensure (1 ≤ folds) (serviceError "BACKTEST_FAILED" "Insufficient backtest folds")
  (List.range folds).mapM (backtestFold payload series code folds)

/-! ## Produced rows -/

def producedRows (payload : ExecutionCreate) (code : MethodCode) :
    Except Failure (List BacktestRow) := do
  let series ← prepare payload
  let season ← seasonalPeriod payload.parameters
  ensure (code.rejection season series.values.length = none)
    (serviceError "NOT_READY" "No eligible forecast method")
  backtest payload series code

/-- Another value of a period changes no forecast of a fold with an earlier origin. -/
def FutureBlind (payload : ExecutionCreate) (code : MethodCode) : Prop :=
  ∀ k v rows rows', producedRows payload code = .ok rows →
    producedRows (payload.withValue k v) code = .ok rows' →
    ∀ row ∈ rows, row.forecastOrigin < k →
      ∀ row' ∈ rows', row'.foldNumber = row.foldNumber → row'.forecastValue = row.forecastValue

/-- No imputed period contributes an error. -/
def ImputedExcluded (payload : ExecutionCreate) (code : MethodCode) : Prop :=
  ∀ rows, producedRows payload code = .ok rows →
    ∀ row ∈ rows, ∀ o ∈ payload.observations, o.timestamp = row.forecastPeriod → o.value ≠ none

/-- The prepared series is long enough for some backtest. -/
structure Evaluates (payload : ExecutionCreate) : Prop where
  prepared : ∃ series, prepare payload = .ok series
  season : ∃ season, seasonalPeriod payload.parameters = .ok season
  length : 3 ≤ (retained payload).length

/-- The position of the first period that any backtest evaluates. -/
def firstEvaluated (payload : ExecutionCreate) : ℕ :=
  (retained payload).length - min payload.backtestFolds ((retained payload).length - 2)

/-- No backtest reads a value that came from behind its origin. -/
structure LeakFree (payload : ExecutionCreate) : Prop where
  /-- No backtested period was imputed. -/
  evaluated : ∀ o ∈ (retained payload).drop (firstEvaluated payload), o.value ≠ none
  /-- The first forecast origin was not interpolated. -/
  origin : payload.missingPeriodPolicy = "LINEAR_INTERPOLATION" →
    ∀ o ∈ (retained payload)[firstEvaluated payload - 1]?, o.value ≠ none
  /-- No missing value takes a median that a later period can move. -/
  median : payload.missingPeriodPolicy = "HISTORICAL_MEDIAN_FILL" →
    (∀ o ∈ retained payload, o.value ≠ none) ∨
      ∀ o ∈ (retained payload)[firstEvaluated payload - 1]?, ∀ p ∈ periods payload,
        o.timestamp < p.timestamp →
          Pinned (available ((periods payload).filter (·.timestamp ≠ p.timestamp)))

/-! ## The rows of a backtest -/

theorem minimumHistory_le_effective {code : MethodCode} {parameters : Parameters} {minimum : ℕ}
    (h : effectiveMinimumHistory code parameters = .ok minimum) :
    code.metadata.minimumHistory ≤ minimum := by
  unfold effectiveMinimumHistory at h
  by_cases hseasonal : code.metadata.supportsSeasonality = true
  · simp only [hseasonal, if_true, bind_eq_ok, ensure_eq_ok, pure_eq_ok] at h
    obtain ⟨season, -, -, -, rfl⟩ := h
    exact le_max_left _ _
  · simp only [hseasonal, if_neg, Bool.false_eq_true, not_false_eq_true, Except.ok.injEq] at h
    exact h.le

/-- What an execution produces: a prepared series, and one row for each of its last folds. -/
structure Produced (payload : ExecutionCreate) (code : MethodCode) (rows : List BacktestRow)
    (values : List ℚ) (folds : ℕ) : Prop where
  prepared : Prepared payload values
  folds_pos : 1 ≤ folds
  folds_le : folds ≤ min payload.backtestFolds ((retained payload).length - 2)
  folds_eq : ∃ minimum, effectiveMinimumHistory code payload.parameters = .ok minimum ∧
    folds = min payload.backtestFolds ((retained payload).length - minimum)
  mem_rows : ∀ row, row ∈ rows ↔ ∃ fold < folds, ∃ forecast,
    nextForecast code payload.parameters
      ((seriesOf payload values).values.take ((retained payload).length - folds + fold)) =
        .ok forecast ∧
    row = backtestRow payload.backtestType (seriesOf payload values) fold
      ((retained payload).length - folds + fold) forecast

theorem producedRows_eq_ok {payload : ExecutionCreate} {code : MethodCode}
    {rows : List BacktestRow} (h : producedRows payload code = .ok rows) :
    ∃ values folds, Produced payload code rows values folds := by
  simp only [producedRows, bind_eq_ok, ensure_eq_ok, exists_const] at h
  obtain ⟨series, hseries, season, -, -, h⟩ := h
  obtain ⟨values, hprepared, rfl⟩ := prepare_eq_ok.1 hseries
  simp only [backtest, bind_eq_ok, ensure_eq_ok, exists_const,
    seriesOf_values_length hprepared] at h
  obtain ⟨minimum, hminimum, hfolds, hrows⟩ := h
  have htwo := code.two_le_minimumHistory.trans (minimumHistory_le_effective hminimum)
  refine ⟨values, _, hprepared, hfolds, by omega, ⟨minimum, hminimum, rfl⟩, ?_⟩
  intro row
  simp only [mem_of_mapM_eq_ok hrows, mem_range, backtestFold, bind_eq_ok, pure_eq_ok,
    seriesOf_values_length hprepared, eq_comm (a := row)]

variable {o : Observation} {values : List ℚ} {season : ℤ}

theorem seriesOf_timestamp {payload : ExecutionCreate} (h : Prepared payload values) {index : ℕ}
    (ho : (retained payload)[index]? = some o) :
    (seriesOf payload values).timestamps.getD index 0 = o.timestamp := by
  rw [seriesOf_timestamps h, getD_eq_getElem?_getD, List.getElem?_map, ho]
  rfl

/-! ## Blindness -/

/-- The available values are those of one period together with those of the others. -/
theorem available_perm {items : List Observation} {p : Observation}
    (h : items.Pairwise (·.timestamp < ·.timestamp)) (hp : p ∈ items) :
    (available items).Perm
      (p.value.toList ++ available (items.filter (·.timestamp ≠ p.timestamp))) := by
  obtain ⟨before, after, rfl⟩ := append_of_mem hp
  have hne := h.imp (fun {a b} hab => ne_of_lt hab)
  rw [pairwise_append, pairwise_cons] at hne
  obtain ⟨-, ⟨hafter, -⟩, hbefore⟩ := hne
  have hothers : (before ++ p :: after).filter (·.timestamp ≠ p.timestamp) = before ++ after := by
    rw [filter_append, filter_cons_of_neg (by simp), filter_eq_self.2, filter_eq_self.2]
    · intro o ho
      simpa using (hafter o ho).symm
    · intro o ho
      simpa using hbefore o ho p (mem_cons_self ..)
  rw [hothers, available, available, filterMap_append, filterMap_append]
  cases hvalue : p.value with
  | none => rw [filterMap_cons_none hvalue, Option.toList_none, nil_append]
  | some x =>
    rw [filterMap_cons_some hvalue, Option.toList_some]
    exact perm_middle

theorem filter_ne_withValue {items : List Observation} (k : Instant) (v : Option ℚ) :
    (items.map (Observation.withValue k v)).filter (·.timestamp ≠ k) =
      items.filter (·.timestamp ≠ k) := by
  induction items with
  | nil => rfl
  | cons item items ih =>
    rw [map_cons]
    by_cases hk : item.timestamp = k
    · rw [filter_cons_of_neg (by simpa using hk), filter_cons_of_neg (by simpa using hk), ih]
    · rw [filter_cons_of_pos (by simpa using hk), filter_cons_of_pos (by simpa using hk),
        ih, Observation.withValue_of_ne hk]

theorem sorted_withValue {items : List Observation}
    (h : items.Pairwise (·.timestamp < ·.timestamp)) (k : Instant) (v : Option ℚ) :
    (items.map (Observation.withValue k v)).Pairwise (·.timestamp < ·.timestamp) := by
  rw [pairwise_map]
  simpa only [Observation.withValue_timestamp] using h

variable {k : Instant} {f : List ℚ → ℚ} {values' : List ℚ} {rest : List Observation}

theorem median_withValue {items : List Observation}
    (h : items.Pairwise (·.timestamp < ·.timestamp)) (v : Option ℚ)
    (hpinned : ∀ p ∈ items, p.timestamp = k → Pinned (available (items.filter (·.timestamp ≠ k)))) :
    median (available (items.map (Observation.withValue k v))) = median (available items) := by
  by_cases hk : ∃ p ∈ items, p.timestamp = k
  · obtain ⟨p, hp, rfl⟩ := hk
    have hpinned := hpinned p hp rfl
    have hvalue : ∀ x : Option ℚ,
        median (x.toList ++ available (items.filter (·.timestamp ≠ p.timestamp))) =
          median (available (items.filter (·.timestamp ≠ p.timestamp))) := by
      intro x
      cases x with
      | none => rfl
      | some x => exact hpinned.median_eq x
    have hp' := available_perm (sorted_withValue h p.timestamp v) (mem_map_of_mem hp)
    rw [Observation.withValue_timestamp, filter_ne_withValue] at hp'
    rw [median_perm hp', median_perm (available_perm h hp), hvalue, hvalue]
  · -- no period is changed
    have hsame : items.map (Observation.withValue k v) = items := by
      conv_rhs => rw [← map_id items]
      refine map_congr_left ?_
      intro p hp
      exact Observation.withValue_of_ne (fun hpk => hk ⟨p, hp, hpk⟩) v
    rw [hsame]

theorem Produced.firstEvaluated_le {payload : ExecutionCreate} {code : MethodCode}
    {rows : List BacktestRow} {folds : ℕ} (h : Produced payload code rows values folds) :
    firstEvaluated payload ≤ (retained payload).length - folds := by
  have hle := h.folds_le
  unfold firstEvaluated
  omega

theorem Produced.evaluates {payload : ExecutionCreate} {code : MethodCode}
    {rows : List BacktestRow} (h : producedRows payload code = .ok rows) : Evaluates payload := by
  obtain ⟨values, folds, hproduced⟩ := producedRows_eq_ok h
  have hpos := hproduced.folds_pos
  have hle := hproduced.folds_le
  simp only [producedRows, bind_eq_ok] at h
  obtain ⟨series, hseries, season, hseason, -⟩ := h
  exact ⟨⟨series, hseries⟩, ⟨season, hseason⟩, by omega⟩

theorem LeakFree.futureBlind {payload : ExecutionCreate} (hfree : LeakFree payload)
    (code : MethodCode) : FutureBlind payload code := by
  intro k v rows rows' hrows hrows' row hrow hk row' hrow' hfold
  obtain ⟨values, folds, h⟩ := producedRows_eq_ok hrows
  obtain ⟨values', folds', h'⟩ := producedRows_eq_ok hrows'
  have hlen : (retained (payload.withValue k v)).length = (retained payload).length := by
    rw [retained_withValue, length_map]
  obtain rfl : folds' = folds := by
    obtain ⟨minimum, hminimum, rfl⟩ := h.folds_eq
    obtain ⟨minimum', hminimum', rfl⟩ := h'.folds_eq
    rw [hlen, Except.ok.inj (hminimum'.symm.trans hminimum)]
    rfl
  obtain ⟨fold, hlt, forecast, hforecast, rfl⟩ := (h.mem_rows row).1 hrow
  obtain ⟨fold', hlt', forecast', hforecast', rfl⟩ := (h'.mem_rows row').1 hrow'
  obtain rfl : fold' = fold := Nat.succ.inj hfold
  rw [hlen] at hforecast'
  have hfolds := h.folds_le
  have hfirst := h.firstEvaluated_le
  -- the origin of the fold is the retained period before its split
  obtain ⟨index, hindex⟩ : ∃ index, (retained payload).length - folds' + fold' = index + 1 :=
    Nat.exists_eq_succ_of_ne_zero (by omega)
  have hbound : index < (retained payload).length := by omega
  have ho := List.getElem?_eq_getElem hbound
  rw [hindex] at hforecast hforecast' hk
  have horigin : (retained payload)[index].timestamp < k := by
    rw [← seriesOf_timestamp h.prepared ho]
    exact hk
  have hvalued : firstEvaluated payload ≤ index → (retained payload)[index].value ≠ none := by
    intro hle
    refine hfree.evaluated _ ?_
    rw [mem_drop_iff_getElem]
    exact ⟨index - firstEvaluated payload, by omega, by congr 1; omega⟩
  have htraining := history_blind h.prepared h'.prepared ho horigin ?_ ?_
  · rw [htraining] at hforecast'
    exact Except.ok.inj (hforecast'.symm.trans hforecast)
  · intro hpolicy
    by_cases hle : firstEvaluated payload ≤ index
    · exact hvalued hle
    · have hfirst : firstEvaluated payload - 1 = index := by omega
      refine hfree.origin hpolicy _ ?_
      rw [hfirst]
      exact ho
  · intro hpolicy
    rcases hfree.median hpolicy with hall | hpinned
    · exact .inl fun p hp => hall p (mem_of_mem_take hp)
    · right
      rw [periods_withValue]
      refine (median_withValue (periods_sorted h.prepared.distinct) v ?_).symm
      intro p hp hpk
      have hearlier : firstEvaluated payload - 1 < (retained payload).length := by omega
      refine hpk ▸ hpinned _ (List.getElem?_eq_getElem hearlier) p hp ?_
      -- the first origin is not behind the origin of this fold
      have hsorted := pairwise_iff_getElem.1 (retained_sorted h.prepared.distinct)
      rcases (show firstEvaluated payload - 1 ≤ index by omega).eq_or_lt with heq | hlt
      · simpa only [heq, hpk] using horigin
      · exact (hsorted _ _ hearlier hbound hlt).trans (hpk ▸ horigin)

theorem LeakFree.imputedExcluded {payload : ExecutionCreate} (hfree : LeakFree payload)
    (code : MethodCode) : ImputedExcluded payload code := by
  intro rows hrows row hrow o ho hperiod
  obtain ⟨values, folds, h⟩ := producedRows_eq_ok hrows
  obtain ⟨fold, hlt, forecast, -, rfl⟩ := (h.mem_rows row).1 hrow
  have hfirst := h.firstEvaluated_le
  have hfolds := h.folds_le
  obtain ⟨target, htarget⟩ : ∃ target, target = (retained payload).length - folds + fold := ⟨_, rfl⟩
  rw [← htarget] at hperiod
  have hbound : target < (retained payload).length := by omega
  have htimestamp : o.timestamp = (retained payload)[target].timestamp :=
    hperiod.trans (seriesOf_timestamp h.prepared (List.getElem?_eq_getElem hbound))
  -- a timestamp names one observation
  obtain rfl : o = (retained payload)[target] :=
    inj_on_of_nodup_map h.prepared.distinct.1 ho
      (mem_observations_of_mem_retained (getElem_mem hbound)) htimestamp
  refine hfree.evaluated _ (mem_drop_iff_getElem.2 ?_)
  exact ⟨target - firstEvaluated payload, by omega, by congr 1; omega⟩

/-! ## What leaks

The naive method shows an interpolated origin and an imputed target, the historical mean shows a
median that moves.
-/

/-- A method that forecasts a function of any history of two values. -/
structure Forecasts (code : MethodCode) (parameters : Parameters) (f : List ℚ → ℚ) : Prop where
  minimum : effectiveMinimumHistory code parameters = .ok 2
  rejection : ∀ season count, 2 ≤ count → code.rejection season count = none
  next : ∀ training, 2 ≤ training.length → nextForecast code parameters training = .ok (f training)

theorem ne_nil_of_two_le (h : 2 ≤ values.length) : values ≠ [] := by
  rintro rfl
  simp at h

theorem naive_forecasts {parameters : Parameters} (h : seasonalPeriod parameters = .ok season) :
    Forecasts .naive parameters lastValue where
  minimum := rfl
  rejection season' count hcount := by
    simp [MethodCode.rejection, MethodCode.metadata, entry, Nat.not_lt.2 hcount]
  next training htraining := by
    simp [nextForecast, MethodCode.forecast, MethodCode.fit, MethodCode.metadata, entry, naiveFit,
      methodSeason_of_seasonalPeriod h, ensure, ne_nil_of_two_le htraining, htraining]

theorem historicalMean_forecasts {parameters : Parameters}
    (h : seasonalPeriod parameters = .ok season) : Forecasts .historicalMean parameters mean where
  minimum := rfl
  rejection season' count hcount := by
    simp [MethodCode.rejection, MethodCode.metadata, entry, Nat.not_lt.2 hcount]
  next training htraining := by
    simp [nextForecast, MethodCode.forecast, MethodCode.fit, MethodCode.metadata, entry, meanFit,
      methodSeason_of_seasonalPeriod h, ensure, ne_nil_of_two_le htraining, htraining]

/-- A method that forecasts from two values on produces a row for each period that backtests
evaluate. -/
theorem Forecasts.row {payload : ExecutionCreate} {code : MethodCode}
    (hcode : Forecasts code payload.parameters f) (hprepared : Prepared payload values)
    (hseason : seasonalPeriod payload.parameters = .ok season)
    (hlen : 3 ≤ (retained payload).length) :
    ∃ rows, producedRows payload code = .ok rows ∧
      ∀ index, firstEvaluated payload ≤ index → index < (retained payload).length →
        backtestRow payload.backtestType (seriesOf payload values)
          (index - firstEvaluated payload) index
            (f ((seriesOf payload values).values.take index)) ∈ rows := by
  have hfolds := payload.folds_range.1
  obtain ⟨folds, hfolds_eq⟩ : ∃ folds, folds =
      min payload.backtestFolds ((retained payload).length - 2) := ⟨_, rfl⟩
  have hfirst : firstEvaluated payload = (retained payload).length - folds := by
    rw [firstEvaluated, hfolds_eq]
  have hfold : ∀ fold ∈ List.range folds, ∃ row, backtestFold payload (seriesOf payload values)
      code folds fold = .ok row := by
    intro fold hmem
    have hlt := mem_range.1 hmem
    refine ⟨_, bind_eq_ok.2 ⟨_, hcode.next _ ?_, rfl⟩⟩
    rw [length_take, seriesOf_values_length hprepared]
    omega
  obtain ⟨rows, hrows⟩ := exists_mapM_eq_ok hfold
  refine ⟨rows, ?_, ?_⟩
  · simp only [producedRows, bind_eq_ok, ensure_eq_ok, exists_const]
    refine ⟨_, prepare_eq_ok.2 ⟨values, hprepared, rfl⟩, season, hseason, ?_, ?_⟩
    · refine hcode.rejection _ _ ?_
      rw [seriesOf_values_length hprepared]
      omega
    · simp only [backtest, bind_eq_ok, ensure_eq_ok, exists_const, seriesOf_values_length hprepared]
      exact ⟨2, hcode.minimum, by omega, hfolds_eq ▸ hrows⟩
  · intro index hle hlt
    rw [mem_of_mapM_eq_ok hrows]
    refine ⟨index - firstEvaluated payload, mem_range.2 (by omega), ?_⟩
    have hsplit : (retained payload).length - folds + (index - firstEvaluated payload) = index := by
      omega
    rw [backtestFold, seriesOf_values_length hprepared, hsplit, hcode.next]
    · rfl
    · rw [length_take, seriesOf_values_length hprepared]
      omega

theorem Evaluates.obtain {payload : ExecutionCreate} (h : Evaluates payload) :
    ∃ values season, Prepared payload values ∧
      seasonalPeriod payload.parameters = .ok season := by
  obtain ⟨series, hseries⟩ := h.prepared
  obtain ⟨season, hseason⟩ := h.season
  obtain ⟨values, hprepared, -⟩ := prepare_eq_ok.1 hseries
  exact ⟨values, season, hprepared, hseason⟩

theorem evaluated_of_imputedExcluded {payload : ExecutionCreate} (h : Evaluates payload)
    (hexcluded : ImputedExcluded payload .naive) :
    ∀ o ∈ (retained payload).drop (firstEvaluated payload), o.value ≠ none := by
  intro o ho
  obtain ⟨values, season, hprepared, hseason⟩ := h.obtain
  obtain ⟨rows, hrows, hrow⟩ := (naive_forecasts hseason).row hprepared hseason h.length
  obtain ⟨i, hi, rfl⟩ := mem_drop_iff_getElem.1 ho
  have hbound : firstEvaluated payload + i < (retained payload).length := by omega
  refine hexcluded rows hrows _ (hrow _ (Nat.le_add_right _ _) hbound) _
    (mem_observations_of_mem_retained (getElem_mem _)) ?_
  exact (seriesOf_timestamp hprepared (List.getElem?_eq_getElem hbound)).symm

/-- Another value keeps a request admissible as long as its gaps can be imputed. -/
theorem Prepared.withValue {payload : ExecutionCreate} (h : Prepared payload values) (k : Instant)
    (y : ℚ) (himputed : impute payload.missingPeriodPolicy
      (available ((periods payload).map (Observation.withValue k (some y)))) none
      ((periods payload).map (Observation.withValue k (some y))) = .ok values') :
    Prepared (payload.withValue k (some y)) values' where
  distinct := by
    refine ⟨?_, ?_⟩
    · have htimestamps : (payload.withValue k (some y)).observations.map (·.timestamp) =
          payload.observations.map (·.timestamp) := by
        simp [ExecutionCreate.withValue]
      rw [htimestamps]
      exact h.distinct.1
    · intro item hitem
      obtain ⟨o, ho, rfl⟩ := mem_map.1 hitem
      rw [Observation.withValue_status]
      exact h.distinct.2 o ho
  approved := by
    rintro ⟨hpolicy, item, hitem, hstatus⟩
    obtain ⟨o, ho, rfl⟩ := mem_map.1 hitem
    rw [Observation.withValue_status] at hstatus
    exact h.approved ⟨hpolicy, o, ho, hstatus⟩
  complete := by
    rintro ⟨hpolicy, item, hitem, hmissing⟩
    rw [periods_withValue] at hitem
    obtain ⟨o, ho, rfl⟩ := mem_map.1 hitem
    refine h.complete ⟨hpolicy, o, ho, ?_⟩
    rw [Observation.withValue_status] at hmissing
    refine hmissing.imp_left fun hvalue => ?_
    by_cases hk : o.timestamp = k
    · rw [Observation.withValue_value hk] at hvalue
      cases hvalue
    · rwa [Observation.withValue_of_ne hk] at hvalue
  imputed := by
    rw [periods_withValue]
    exact himputed
  percentage := by
    refine le_trans ?_ h.percentage
    rw [periods_withValue, imputedPercentage, imputedPercentage, length_map]
    have hcount : imputedCount ((periods payload).map (Observation.withValue k (some y))) ≤
        imputedCount (periods payload) := by
      rw [imputedCount, countP_map]
      refine countP_mono_left ?_
      intro o _ ho
      by_cases hk : o.timestamp = k
      · simp [Observation.withValue_value hk] at ho
      · simpa [Observation.withValue_of_ne hk] using ho
    gcongr

theorem lastValue_history {payload : ExecutionCreate} (h : Prepared payload values) {index : ℕ}
    (ho : (retained payload)[index]? = some o) {position : ℕ} {value : ℚ}
    (hvalue : values[position]? = some value)
    (hposition : position + 1 = ((periods payload).filter (·.timestamp ≤ o.timestamp)).length) :
    lastValue ((seriesOf payload values).values.take (index + 1)) = value := by
  obtain ⟨past, following, hvalues, hpast⟩ : ∃ past following,
      values = past ++ value :: following ∧
        past.length + 1 = ((periods payload).filter (·.timestamp ≤ o.timestamp)).length := by
    obtain ⟨hbound, rfl⟩ := List.getElem?_eq_some_iff.1 hvalue
    refine ⟨values.take position, values.drop (position + 1), ?_, ?_⟩
    · rw [getElem_cons_drop, take_append_drop]
    · rw [length_take]
      omega
  have hsorted := periods_sorted h.distinct
  have hmem : o ∈ periods payload := mem_of_mem_filter (mem_of_getElem? ho)
  have hretains : retains payload o = true := (mem_filter.1 (mem_of_getElem? ho)).2
  obtain ⟨before, hbefore⟩ := List.getLast?_eq_some_iff.1 (getLast?_filter_le hsorted hmem)
  have hlen : past.length = before.length := by
    rw [hbefore, length_append, length_singleton] at hpast
    omega
  have hcount : (keptValues payload
      ((periods payload).filter (·.timestamp ≤ o.timestamp)) (past ++ [value])).length =
        index + 1 := by
    rw [keptValues_length (by simpa using hpast), filter_comm,
      show (periods payload).filter (retains payload ·) = retained payload from rfl,
      filter_le_getElem (retained_sorted h.distinct) ho, length_take]
    have := (List.getElem?_eq_some_iff.1 ho).1
    omega
  have hsplit := split_at hsorted o.timestamp
  have hvalues' : values = (past ++ [value]) ++ following := by
    rw [hvalues, append_assoc]
    rfl
  rw [seriesOf_values]
  conv_lhs => rw [hsplit, hvalues']
  rw [keptValues_append payload (by simpa using hpast), take_left' hcount, hbefore,
    keptValues_append payload hlen]
  simp [lastValue, keptValues, hretains]

/-- What a gap of `n` periods behind the value `last` ends in, each halfway to the next value. -/
def interpolated (last : ℚ) (n : ℕ) (rest : List Observation) : ℚ :=
  match rest.findSome? (·.value) with
  | some next => next + (last - next) / 2 ^ n
  | none => last

theorem interpolated_step (last : ℚ) (n : ℕ) (rest : List Observation) :
    interpolated ((last + (rest.findSome? (·.value)).getD last) / 2) n rest =
      interpolated last (n + 1) rest := by
  unfold interpolated
  cases rest.findSome? (·.value) with
  | none =>
    simp only [Option.getD_none]
    ring
  | some next =>
    simp only [Option.getD_some]
    field_simp
    ring

theorem impute_gap {given : List ℚ} {last : ℚ} {gap : List Observation}
    (hgap : ∀ o ∈ gap, o.value = none) (hne : gap ≠ [])
    (h : impute "LINEAR_INTERPOLATION" given (some last) (gap ++ rest) = .ok values) :
    values[gap.length - 1]? = some (interpolated last gap.length rest) := by
  induction gap generalizing last values with
  | nil => exact absurd rfl hne
  | cons o gap ih =>
    obtain ⟨ho, hgap⟩ := forall_mem_cons.1 hgap
    obtain ⟨value, hvalue, h⟩ := bind_eq_ok.1 h
    obtain ⟨following, hrest, h⟩ := bind_eq_ok.1 h
    obtain rfl := pure_eq_ok.1 h
    have hnext : (gap ++ rest).findSome? (·.value) = rest.findSome? (·.value) := by
      rw [List.findSome?_append, List.findSome?_eq_none_iff.2 hgap, Option.none_or]
    have hhalf : value = (last + (rest.findSome? (·.value)).getD last) / 2 := by
      simpa [ho, fill, hnext, Except.map, eq_comm] using hvalue
    by_cases hempty : gap = []
    · subst hempty
      rw [hhalf, length_singleton, ← interpolated_step, interpolated]
      cases rest.findSome? (·.value) with
      | none | some next => simp
    · have hlen : gap.length - 1 + 1 = gap.length :=
        Nat.succ_pred_eq_of_pos (length_pos_iff.2 hempty)
      have hlast := ih hgap hempty hrest
      rw [hhalf, interpolated_step] at hlast
      rw [length_cons, Nat.add_sub_cancel, ← hlen, List.getElem?_cons_succ, hlast, hlen]

theorem impute_linear_ok (given : List ℚ) (last : ℚ) (items : List Observation) :
    ∃ values, impute "LINEAR_INTERPOLATION" given (some last) items = .ok values := by
  induction items generalizing last with
  | nil => exact ⟨[], rfl⟩
  | cons item items ih =>
    obtain ⟨value, hvalue⟩ : ∃ value, item.value.elim
        (fill "LINEAR_INTERPOLATION" given (some last) items)
          (.ok : ℚ → Except Failure ℚ) = .ok value := by
      cases item.value with
      | some x => exact ⟨x, rfl⟩
      | none => exact ⟨_, rfl⟩
    obtain ⟨following, hrest⟩ := ih value
    exact ⟨_, bind_eq_ok.2 ⟨value, hvalue, bind_eq_ok.2 ⟨following, hrest, rfl⟩⟩⟩

theorem impute_interpolated {given : List ℚ} {items : List Observation}
    (ho : items.getLast? = some o) (hnone : o.value = none)
    (h : impute "LINEAR_INTERPOLATION" given none (items ++ rest) = .ok values) :
    ∃ last n, 1 ≤ n ∧ values[items.length - 1]? = some (interpolated last n rest) ∧
      ∀ given' rest', ∃ values', impute "LINEAR_INTERPOLATION" given' none (items ++ rest') =
        .ok values' ∧ values'[items.length - 1]? = some (interpolated last n rest') := by
  -- the gap is the longest end of the periods without a value
  obtain ⟨before, gap, rfl, hgap, hbefore⟩ : ∃ before gap, items = before ++ gap ∧
      (∀ p ∈ gap, p.value = none) ∧ ∀ p ∈ before.getLast?, p.value ≠ none := by
    refine ⟨items.rdropWhile (·.value = none), items.rtakeWhile (·.value = none),
      rdropWhile_append_rtakeWhile.symm, ?_, ?_⟩
    · intro p hp
      simpa using mem_rtakeWhile_imp hp
    · intro p hp
      obtain ⟨hne, rfl⟩ := mem_getLast?_eq_getLast hp
      simpa using rdropWhile_last_not _ _ hne
  have hne : gap ≠ [] := by
    rintro rfl
    rw [append_nil] at ho
    exact hbefore o ho hnone
  rw [append_assoc, impute_append (fun _ => hbefore)] at h
  obtain ⟨past, hpast, h⟩ := bind_eq_ok.1 h
  obtain ⟨following, hfollowing, h⟩ := bind_eq_ok.1 h
  obtain rfl := pure_eq_ok.1 h
  have hlen := impute_length hpast
  have hpos : 1 ≤ gap.length := length_pos_iff.2 hne
  have hindex : (before ++ gap).length - 1 = past.length + (gap.length - 1) := by
    rw [length_append]
    omega
  cases hlast : lastAfter none past with
  | none =>
    -- a gap at the very start is not resolved
    rw [hlast] at hfollowing
    obtain ⟨p, gap, rfl⟩ := exists_cons_of_ne_nil hne
    obtain ⟨value, hvalue, -⟩ := bind_eq_ok.1 hfollowing
    rw [hgap p (mem_cons_self ..)] at hvalue
    simp [fill, Except.map] at hvalue
  | some last =>
    rw [hlast] at hfollowing
    refine ⟨last, gap.length, hpos, ?_, ?_⟩
    · rw [hindex, List.getElem?_append_right (Nat.le_add_right _ _), Nat.add_sub_cancel_left]
      exact impute_gap hgap hne hfollowing
    · intro given' rest'
      obtain ⟨following', hfollowing'⟩ := impute_linear_ok given' last (gap ++ rest')
      refine ⟨past ++ following', ?_, ?_⟩
      · rw [append_assoc, impute_append (fun _ => hbefore),
          impute_available (by decide) given' given, hpast]
        simp only [ok_bind, hlast, hfollowing']
        rfl
      · rw [hindex, List.getElem?_append_right (Nat.le_add_right _ _), Nat.add_sub_cancel_left]
        exact impute_gap hgap hne hfollowing'

theorem firstEvaluated_withValue (payload : ExecutionCreate) (k : Instant) (v : Option ℚ) :
    firstEvaluated (payload.withValue k v) = firstEvaluated payload := by
  rw [firstEvaluated, retained_withValue, length_map]
  rfl

/-- A method that is blind to the future forecasts the first evaluated period from the same values
after a change behind the first origin. -/
theorem forecast_of_futureBlind {payload : ExecutionCreate} (h : Evaluates payload)
    {code : MethodCode} (hblind : FutureBlind payload code)
    (hcode : Forecasts code payload.parameters f) {v : Option ℚ}
    (hprepared : Prepared payload values) (hprepared' : Prepared (payload.withValue k v) values')
    (ho : (retained payload)[firstEvaluated payload - 1]? = some o) (hk : o.timestamp < k) :
    f ((seriesOf (payload.withValue k v) values').values.take (firstEvaluated payload)) =
      f ((seriesOf payload values).values.take (firstEvaluated payload)) := by
  obtain ⟨season, hseason⟩ := h.season
  have hlen := h.length
  have hfolds := payload.folds_range.1
  have hfirst : firstEvaluated payload < (retained payload).length := by
    unfold firstEvaluated
    omega
  have hlen' : (retained (payload.withValue k v)).length = (retained payload).length := by
    rw [retained_withValue, length_map]
  obtain ⟨rows, hrows, hrow⟩ := hcode.row hprepared hseason hlen
  have hcode' : Forecasts code (payload.withValue k v).parameters f := hcode
  obtain ⟨rows', hrows', hrow'⟩ := hcode'.row hprepared' hseason (hlen'.symm ▸ hlen)
  refine hblind k v rows rows' hrows hrows' _ (hrow _ le_rfl hfirst) ?_ _
    (hrow' (firstEvaluated payload) ?_ ?_) ?_
  · rw [← seriesOf_timestamp hprepared ho] at hk
    exact hk
  · rw [firstEvaluated_withValue]
  · rw [hlen']
    exact hfirst
  · rw [firstEvaluated_withValue]
    rfl

theorem origin_of_futureBlind {payload : ExecutionCreate} (h : Evaluates payload)
    (hblind : FutureBlind payload .naive)
    (hpolicy : payload.missingPeriodPolicy = "LINEAR_INTERPOLATION") :
    ∀ o ∈ (retained payload)[firstEvaluated payload - 1]?, o.value ≠ none := by
  intro o ho hnone
  rw [Option.mem_def] at ho
  obtain ⟨values, season, hprepared, hseason⟩ := h.obtain
  have hlen := h.length
  have hfolds := payload.folds_range.1
  have hfirst : 2 ≤ firstEvaluated payload ∧
      firstEvaluated payload < (retained payload).length := by
    unfold firstEvaluated
    omega
  have hsorted := periods_sorted hprepared.distinct
  have hmem : o ∈ periods payload := mem_of_mem_filter (mem_of_getElem? ho)
  -- the first evaluated period lies behind its origin
  obtain ⟨p, later, hlater⟩ : ∃ p later,
      (periods payload).filter (o.timestamp < ·.timestamp) = p :: later := by
    obtain ⟨hfirst_pos, hfirst⟩ := hfirst
    obtain ⟨hbound, rfl⟩ := List.getElem?_eq_some_iff.1 ho
    have hlater := pairwise_iff_getElem.1 (retained_sorted hprepared.distinct) _ _ hbound
      hfirst (by omega)
    refine exists_cons_of_ne_nil (ne_nil_of_mem (mem_filter.2
      ⟨mem_of_mem_filter (getElem_mem hfirst), ?_⟩))
    simpa using hlater
  have hp : o.timestamp < p.timestamp := by
    have := hlater ▸ mem_cons_self (a := p) (l := later)
    simpa using (mem_filter.1 this).2
  have hsplit := split_at hsorted o.timestamp
  have hlast := getLast?_filter_le hsorted hmem
  have himputed := hprepared.imputed
  conv at himputed => lhs; arg 4; rw [hsplit]
  rw [hpolicy] at himputed
  obtain ⟨last, n, hn, hvalue, hother⟩ := impute_interpolated hlast hnone himputed
  -- the next value can be chosen so that the interpolated value is another one
  obtain ⟨y, hy⟩ : ∃ y : ℚ, y + (last - y) / 2 ^ n ≠
      interpolated last n ((periods payload).filter (o.timestamp < ·.timestamp)) := by
    by_contra hall
    push Not at hall
    have hpow : (2 : ℚ) ^ n ≠ 1 := (one_lt_pow₀ one_lt_two (by omega)).ne'
    have hpos : (2 : ℚ) ^ n ≠ 0 := by positivity
    have hequal := (hall 0).trans (hall 1).symm
    field_simp at hequal
    apply hpow
    linear_combination -hequal
  have hchanged : (periods payload).map (Observation.withValue p.timestamp (some y)) =
      (periods payload).filter (·.timestamp ≤ o.timestamp) ++
        p.withValue p.timestamp (some y) ::
          later.map (Observation.withValue p.timestamp (some y)) := by
    conv_lhs => rw [split_at (sorted_withValue hsorted p.timestamp (some y)) o.timestamp]
    rw [filter_le_withValue hp, filter_map]
    congr 1
    rw [← map_cons, ← hlater]
    congr 2
    funext q
    simp
  obtain ⟨values', hvalues', hvalue'⟩ := hother
    (available ((periods payload).map (Observation.withValue p.timestamp (some y))))
    (p.withValue p.timestamp (some y) :: later.map (Observation.withValue p.timestamp (some y)))
  rw [← hchanged, ← hpolicy] at hvalues'
  have hprepared' := hprepared.withValue p.timestamp y hvalues'
  have hforecast := forecast_of_futureBlind h hblind (naive_forecasts hseason) hprepared
    hprepared' ho hp
  have hposition : ((periods payload).filter (·.timestamp ≤ o.timestamp)).length - 1 + 1 =
      ((periods payload).filter (·.timestamp ≤ o.timestamp)).length := by
    have hne := ne_nil_of_mem (mem_of_getLast? hlast)
    exact Nat.succ_pred_eq_of_pos (length_pos_iff.2 hne)
  have hindex : firstEvaluated payload - 1 + 1 = firstEvaluated payload := by omega
  have ho' : (retained (payload.withValue p.timestamp (some y)))[firstEvaluated payload - 1]? =
      some o := by
    rw [retained_withValue, List.getElem?_map, ho, Option.map_some,
      Observation.withValue_of_ne (ne_of_lt hp)]
  have hnaive := lastValue_history hprepared ho hvalue hposition
  have hnaive' := lastValue_history hprepared' ho' hvalue'
    (by rw [periods_withValue, filter_le_withValue hp]; exact hposition)
  rw [hindex] at hnaive hnaive'
  rw [hnaive, hnaive'] at hforecast
  apply hy
  rw [← hforecast, interpolated, List.findSome?_cons, Observation.withValue_value rfl]

theorem sum_getD_value (m : ℚ) (items : List Observation) :
    (items.map (·.value.getD m)).sum = (available items).sum + imputedCount items * m := by
  induction items with
  | nil => simp [available, imputedCount]
  | cons item items ih =>
    rw [map_cons, sum_cons, ih]
    cases hitem : item.value with
    | none =>
      have hcount : imputedCount (item :: items) = imputedCount items + 1 :=
        countP_cons_of_pos (by simpa using hitem)
      have havailable : available (item :: items) = available items := filterMap_cons_none hitem
      rw [hcount, havailable, Option.getD_none, Nat.cast_add, Nat.cast_one]
      ring
    | some x =>
      have hcount : imputedCount (item :: items) = imputedCount items :=
        countP_cons_of_neg (by simp [hitem])
      have havailable : available (item :: items) = x :: available items :=
        filterMap_cons_some hitem
      rw [hcount, havailable, Option.getD_some, sum_cons]
      ring

theorem impute_median_ok {given : List ℚ} (h : given ≠ []) (last : Option ℚ)
    (items : List Observation) :
    ∃ values, impute "HISTORICAL_MEDIAN_FILL" given last items = .ok values := by
  induction items generalizing last with
  | nil => exact ⟨[], rfl⟩
  | cons item items ih =>
    obtain ⟨value, hvalue⟩ : ∃ value, item.value.elim
        (fill "HISTORICAL_MEDIAN_FILL" given last items)
          (.ok : ℚ → Except Failure ℚ) = .ok value := by
      cases item.value with
      | some x => exact ⟨x, rfl⟩
      | none => exact ⟨median given, by simp [fill, h]⟩
    obtain ⟨following, hrest⟩ := ih (some value)
    exact ⟨_, bind_eq_ok.2 ⟨value, hvalue, bind_eq_ok.2 ⟨following, hrest, rfl⟩⟩⟩

theorem median_of_futureBlind {payload : ExecutionCreate} (h : Evaluates payload)
    (hevaluated : ∀ o ∈ (retained payload).drop (firstEvaluated payload), o.value ≠ none)
    (hblind : FutureBlind payload .historicalMean)
    (hpolicy : payload.missingPeriodPolicy = "HISTORICAL_MEDIAN_FILL") :
    (∀ o ∈ retained payload, o.value ≠ none) ∨
      ∀ o ∈ (retained payload)[firstEvaluated payload - 1]?, ∀ p ∈ periods payload,
        o.timestamp < p.timestamp →
          Pinned (available ((periods payload).filter (·.timestamp ≠ p.timestamp))) := by
  by_cases hall : ∀ o ∈ retained payload, o.value ≠ none
  · exact .inl hall
  right
  push Not at hall
  obtain ⟨q, hq, hqnone⟩ := hall
  intro o ho p hp hlt
  rw [Option.mem_def] at ho
  by_contra hpinned
  obtain ⟨values, season, hprepared, hseason⟩ := h.obtain
  have hsorted := periods_sorted hprepared.distinct
  have hfirst : 2 ≤ firstEvaluated payload := by
    have hlen := h.length
    unfold firstEvaluated
    omega
  -- the imputed period lies before the evaluated ones
  have hqbefore : q ∈ (retained payload).take (firstEvaluated payload) := by
    rw [← take_append_drop (firstEvaluated payload) (retained payload)] at hq
    rcases mem_append.1 hq with hq | hq
    · exact hq
    · exact absurd hqnone (hevaluated q hq)
  obtain ⟨others, hothers⟩ : ∃ others,
      others = available ((periods payload).filter (·.timestamp ≠ p.timestamp)) := ⟨_, rfl⟩
  rw [← hothers] at hpinned
  -- some value of the later period moves the median
  obtain ⟨y, hy⟩ : ∃ y, median (y :: others) ≠ median (available (periods payload)) := by
    by_contra hnone
    push Not at hnone
    exact hpinned fun x y => (hnone x).trans (hnone y).symm
  have hperm := available_perm (sorted_withValue hsorted p.timestamp (some y)) (mem_map_of_mem hp)
  rw [Observation.withValue_timestamp, filter_ne_withValue, Observation.withValue_value rfl,
    ← hothers, Option.toList_some, singleton_append] at hperm
  have hgiven : available ((periods payload).map (Observation.withValue p.timestamp (some y))) ≠
      [] := by
    intro hnil
    rw [hnil] at hperm
    exact cons_ne_nil _ _ (nil_perm.1 hperm)
  obtain ⟨values', hvalues'⟩ := impute_median_ok hgiven none
    ((periods payload).map (Observation.withValue p.timestamp (some y)))
  rw [← hpolicy] at hvalues'
  have hprepared' := hprepared.withValue p.timestamp y hvalues'
  have hforecast := forecast_of_futureBlind h hblind (historicalMean_forecasts hseason) hprepared
    hprepared' ho hlt
  have hearlier : ∀ r ∈ (retained payload).take (firstEvaluated payload),
      r.withValue p.timestamp (some y) = r := by
    intro r hr
    rw [show firstEvaluated payload = firstEvaluated payload - 1 + 1 by omega,
      ← filter_le_getElem (retained_sorted hprepared.distinct) ho] at hr
    have hle : r.timestamp ≤ o.timestamp := by simpa using (mem_filter.1 hr).2
    exact Observation.withValue_of_ne (ne_of_lt (lt_of_le_of_lt hle hlt)) _
  rw [seriesOf_median hprepared hpolicy, seriesOf_median hprepared' hpolicy, retained_withValue,
    ← map_take, ← map_take, ← map_take, map_congr_left hearlier, map_id',
    periods_withValue, median_perm hperm, mean, mean, length_map, length_map,
    sum_getD_value, sum_getD_value] at hforecast
  have hcount : 0 < imputedCount ((retained payload).take (firstEvaluated payload)) :=
    countP_pos_iff.2 ⟨q, hqbefore, by simpa using hqnone⟩
  have hlength : (((retained payload).take (firstEvaluated payload)).length : ℚ) ≠ 0 := by
    have := length_pos_of_mem hqbefore
    positivity
  apply hy
  have hcount' : (imputedCount ((retained payload).take (firstEvaluated payload)) : ℚ) ≠ 0 := by
    positivity
  field_simp at hforecast
  exact mul_left_cancel₀ hcount' (by linear_combination hforecast)

/-- The backtests of every method see no value behind their origins and evaluate no imputed period
exactly when nothing leaks, or nothing is evaluated. -/
theorem backtestsBlind_iff (payload : ExecutionCreate) :
    (∀ code, FutureBlind payload code ∧ ImputedExcluded payload code) ↔
      (Evaluates payload → LeakFree payload) := by
  constructor
  · intro hblind hevaluates
    have hevaluated := evaluated_of_imputedExcluded hevaluates (hblind .naive).2
    exact ⟨hevaluated, origin_of_futureBlind hevaluates (hblind .naive).1,
      median_of_futureBlind hevaluates hevaluated (hblind .historicalMean).1⟩
  · intro hfree code
    constructor
    · intro k v rows rows' hrows
      exact (hfree (Produced.evaluates hrows)).futureBlind code k v rows rows' hrows
    · intro rows hrows
      exact (hfree (Produced.evaluates hrows)).imputedExcluded code rows hrows

namespace InterpolatedOrigin

/-- A complete observation. -/
def observation (timestamp : Instant) (value : Option ℚ) : Observation where
  timestamp := timestamp
  value := value
  status := .complete
  confirmedDataError := false

/-- Three periods of which the second is interpolated between the others. -/
def observations : List Observation :=
  [observation 1 (some 10), observation 2 none, observation 3 (some 20)]

theorem one_horizon : 1 ≤ 1 ∧ 1 ≤ 120 := by decide

theorem one_candidate : 1 ≤ ["NAIVE"].length ∧ ["NAIVE"].length ≤ 12 := by decide

theorem one_fold : 1 ≤ 1 ∧ 1 ≤ 20 := by decide

theorem half : (0 : ℚ) ≤ 50 ∧ (50 : ℚ) ≤ 100 := by decide

theorem no_parameters : ([] : Parameters).length ≤ 40 := by decide

theorem three_observations : 2 ≤ observations.length ∧ observations.length ≤ 10000 := by decide

def payload : ExecutionCreate where
  forecastHorizon := 1
  candidateMethods := ["NAIVE"]
  primaryMetric := "WAPE"
  backtestType := .rollingOrigin
  backtestFolds := 1
  missingPeriodPolicy := "LINEAR_INTERPOLATION"
  partialPeriodPolicy := "EXCLUDE"
  outlierPolicy := "KEEP"
  maximumImputedPercentage := 50
  parameters := []
  observations := observations
  horizon_range := one_horizon
  candidates_length := one_candidate
  folds_range := one_fold
  percentage_range := half
  parameters_length := no_parameters
  observations_length := three_observations

/-- The row of the only fold, when the last period has the value `last`. -/
def row (last forecast : ℚ) : BacktestRow where
  backtestType := .rollingOrigin
  foldNumber := 1
  trainStart := 1
  trainEnd := 2
  forecastOrigin := 2
  forecastPeriod := 3
  horizonStep := 1
  actualValue := last
  forecastValue := forecast
  errorValue := forecast - last
  absoluteError := |forecast - last|
  percentageError := some ((forecast - last) / last * 100)

/-- The forecast of the last period follows the value of the last period. -/
theorem not_backtestsBlind :
    ¬ ∀ payload code, FutureBlind payload code ∧ ImputedExcluded payload code := by
  intro h
  have hrows : producedRows payload .naive = .ok [row 20 15] := by decide +kernel
  have hrows' : producedRows (payload.withValue 3 (some 40)) .naive = .ok [row 40 25] := by
    decide +kernel
  have hsame := (h payload .naive).1 3 (some 40) _ _ hrows hrows' (row 20 15)
    (mem_singleton_self _) (by decide) (row 40 25) (mem_singleton_self _) rfl
  exact absurd hsame (by decide +kernel)

end InterpolatedOrigin

end Intel4Ops.Forecasting
