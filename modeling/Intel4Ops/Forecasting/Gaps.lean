import Intel4Ops.Forecasting.Preparation

/-!
# Gaps in a time series

How a run of missing periods between two known values is filled. The interpolation takes the mean of
the value before and the next known value, and the value before may be one it has filled itself: the
fills of a longer gap approach the next value by halves instead of in equal steps.
-/

namespace Intel4Ops.Forecasting

open Lib List Except

/-- A run of periods without a value, between two periods with the values `a` and `b`. -/
structure IsGap (items before gap after : List Observation) (x y : Observation) (a b : ℚ) :
    Prop where
  split : items = (before ++ [x]) ++ (gap ++ y :: after)
  left : x.value = some a
  right : y.value = some b
  missing : ∀ o ∈ gap, o.value = none

/-- The value that the policy promises for the `j`-th of `m` missing periods; no other policy fills
any. -/
def promisedFill (policy : String) (middle a b : ℚ) (m j : ℕ) : ℚ :=
  if policy = "ZERO_FILL" then 0
  else if policy = "FORWARD_FILL" then a
  else if policy = "HISTORICAL_MEDIAN_FILL" then middle
  else if policy = "LINEAR_INTERPOLATION" then a + (b - a) * j / (m + 1)
  else 0

/-- What preparation owes to a series: `values` are those of all its periods, each gap is filled by
the policy, and the series has the values of the periods that are retained. -/
structure Fills (payload : ExecutionCreate) (series : PreparedSeries) (values : List ℚ) : Prop where
  known : ∀ (i : ℕ) (o : Observation) (v : ℚ), (periods payload)[i]? = some o →
    o.value = some v → values[i]? = some v
  gaps : ∀ before gap after x y a b, IsGap (periods payload) before gap after x y a b →
    (values.drop (before.length + 1)).take gap.length = (List.range gap.length).map fun j =>
      promisedFill payload.missingPeriodPolicy (median (available (periods payload))) a b
        gap.length (j + 1)
  kept : series.values = keptValues payload (periods payload) values
  timestamps : series.timestamps = (retained payload).map (·.timestamp)
  length : series.values.length = (retained payload).length
  count : series.imputedCount = ((periods payload).filter (·.value = none)).length

/-- The series fills its gaps with the values that the loop builds. -/
def FillsGaps (payload : ExecutionCreate) (series : PreparedSeries) : Prop :=
  ∃ values, impute payload.missingPeriodPolicy (available (periods payload)) none
    (periods payload) = .ok values ∧ Fills payload series values

/-! ## The fills of a gap -/

/-- The value that the loop fills in for the `j`-th missing period. -/
def loopFill (policy : String) (middle a b : ℚ) (j : ℕ) : ℚ :=
  if policy = "ZERO_FILL" then 0
  else if policy = "FORWARD_FILL" then a
  else if policy = "HISTORICAL_MEDIAN_FILL" then middle
  else if policy = "LINEAR_INTERPOLATION" then b - (b - a) / 2 ^ j
  else 0

theorem loopFill_succ (policy : String) (middle a b : ℚ) (j : ℕ) :
    loopFill policy middle (loopFill policy middle a b 1) b j =
      loopFill policy middle a b (j + 1) := by
  unfold loopFill
  split
  · rfl
  · split
    · rfl
    · split
      · rfl
      · split
        · rw [pow_succ]
          field_simp
          ring
        · rfl

variable {a b : ℚ} {gap : List Observation} {policy : String} {y : Observation} {values : List ℚ}

theorem fill_eq {given : List ℚ} {value : ℚ} {after : List Observation}
    (hgap : ∀ o ∈ gap, o.value = none) (hy : y.value = some b)
    (h : fill policy given (some a) (gap ++ y :: after) = .ok value) :
    value = loopFill policy (median given) a b 1 := by
  have hnext : (gap ++ y :: after).findSome? (·.value) = some b := by
    rw [List.findSome?_append, List.findSome?_eq_none_iff.2 hgap, List.findSome?_cons, hy]
    rfl
  unfold fill at h
  unfold loopFill
  dsimp only at h
  split at h
  case isTrue hzero => exact (ok.inj h).symm.trans (if_pos hzero).symm
  case isFalse hzero =>
    rw [if_neg hzero]
    split at h
    case isTrue hforward =>
      rw [if_pos hforward]
      exact (ok.inj h).symm
    case isFalse hforward =>
      rw [if_neg hforward]
      split at h
      case isTrue hmedian =>
        rw [if_pos hmedian]
        split at h
        · cases h
        · exact (ok.inj h).symm
      case isFalse hmedian =>
        rw [if_neg hmedian]
        split at h
        case isTrue hlinear =>
          rw [if_pos hlinear]
          rw [hnext] at h
          obtain rfl : (a + b) / 2 = value := ok.inj h
          ring
        case isFalse => cases h

theorem take_impute {given : List ℚ} {after : List Observation} (hgap : ∀ o ∈ gap, o.value = none)
    (hy : y.value = some b) (h : impute policy given (some a) (gap ++ y :: after) = .ok values) :
    values.take gap.length =
      (List.range gap.length).map fun j => loopFill policy (median given) a b (j + 1) := by
  induction gap generalizing a values with
  | nil => rfl
  | cons o gap ih =>
    rw [cons_append, impute] at h
    obtain ⟨value, hvalue, h⟩ := bind_eq_ok.1 h
    obtain ⟨following, hrest, h⟩ := bind_eq_ok.1 h
    obtain rfl := pure_eq_ok.1 h
    have hgap' : ∀ o ∈ gap, o.value = none := fun o ho => hgap o (mem_cons_of_mem _ ho)
    rw [hgap o mem_cons_self, Option.elim_none] at hvalue
    have hvalue : value = loopFill policy (median given) a b 1 := fill_eq hgap' hy hvalue
    have ih := ih hgap' hrest
    rw [length_cons, take_succ_cons, ih, range_succ_eq_map, map_cons, map_map, hvalue]
    congr 1
    refine map_congr_left fun j _ => ?_
    exact loopFill_succ policy (median given) a b (j + 1)

/-- The halves are the promised steps where there is one period to fill, or nothing to interpolate;
otherwise the first one is not. -/
theorem loopFill_eq_iff {middle : ℚ} {m : ℕ} :
    ((List.range m).map fun j => loopFill policy middle a b (j + 1)) =
        ((List.range m).map fun j => promisedFill policy middle a b m (j + 1)) ↔
      (policy = "LINEAR_INTERPOLATION" → 2 ≤ m → a = b) := by
  rw [map_inj_left]
  constructor
  · rintro h rfl hm
    have hfirst := h 0 (mem_range.2 (by omega))
    simp only [loopFill, promisedFill, String.reduceEq, if_false, if_true, zero_add, pow_one,
      Nat.cast_one, mul_one] at hfirst
    have hm' : (2 : ℚ) ≤ m := by exact_mod_cast hm
    -- half of the way is the share of one step in `m + 1`
    have hprod : (b - a) * (m - 1) = 0 := by
      field_simp at hfirst
      linarith
    rcases mul_eq_zero.1 hprod with hzero | hzero
    · linarith
    · linarith
  · intro h j hj
    have hj : j < m := mem_range.1 hj
    unfold loopFill promisedFill
    split
    · rfl
    · split
      · rfl
      · split
        · rfl
        · split
          case isTrue hpolicy =>
            by_cases hm : 2 ≤ m
            · rw [h hpolicy hm, sub_self, zero_div, zero_mul, zero_div, sub_zero, add_zero]
            · obtain rfl : m = 1 := by omega
              obtain rfl : j = 0 := by omega
              norm_num
              ring
          case isFalse => rfl

/-! ## The series -/

theorem impute_known {given : List ℚ} {last : Option ℚ} {items : List Observation}
    (h : impute policy given last items = .ok values) {i : ℕ} {o : Observation} {v : ℚ}
    (ho : items[i]? = some o) (hv : o.value = some v) : values[i]? = some v := by
  induction items generalizing last values i with
  | nil => cases ho
  | cons item items ih =>
    rw [impute] at h
    obtain ⟨value, hvalue, h⟩ := bind_eq_ok.1 h
    obtain ⟨following, hrest, h⟩ := bind_eq_ok.1 h
    obtain rfl := pure_eq_ok.1 h
    cases i with
    | zero =>
      obtain rfl : item = o := Option.some.inj ho
      rw [hv, Option.elim_some] at hvalue
      rw [List.getElem?_cons_zero, ok.inj hvalue]
    | succ i => exact ih hrest ho

theorem gap_values {payload : ExecutionCreate}
    (h : impute payload.missingPeriodPolicy (available (periods payload)) none
      (periods payload) = .ok values) {before after : List Observation} {x : Observation}
    (hgap : IsGap (periods payload) before gap after x y a b) :
    (values.drop (before.length + 1)).take gap.length = (List.range gap.length).map fun j =>
      loopFill payload.missingPeriodPolicy (median (available (periods payload))) a b (j + 1) := by
  have hlast : (before ++ [x]).getLast? = some x := List.getLast?_concat
  rw [hgap.split, impute_append] at h
  · obtain ⟨past, hpast, h⟩ := bind_eq_ok.1 h
    obtain ⟨following, hrest, h⟩ := bind_eq_ok.1 h
    obtain rfl := pure_eq_ok.1 h
    have hlength : past.length = before.length + 1 := by
      rw [impute_length hpast, length_append, length_singleton]
    have hleft : past[before.length]? = some a :=
      impute_known hpast (o := x) List.getElem?_concat_length hgap.left
    have hlastAfter : lastAfter none past = some a := by
      have hne : past ≠ [] := ne_nil_of_length_pos (by omega)
      rw [← dropLast_concat_getLast hne, lastAfter, foldl_append]
      rw [foldl_cons, foldl_nil, ← List.getLast?_eq_some_getLast hne,
        List.getLast?_eq_getElem?, hlength, Nat.add_sub_cancel, hleft]
    rw [hlastAfter, ← hgap.split] at hrest
    rw [drop_left' hlength]
    exact take_impute hgap.missing hgap.right hrest
  · intro _ o ho
    obtain rfl : x = o := Option.some.inj (hlast.symm.trans ho)
    rw [hgap.left]
    exact Option.some_ne_none a

/-- A gap is filled as the policy promises exactly if it is interpolated over one period only, or
between equal values. -/
theorem fillsGaps_iff {payload : ExecutionCreate} {series : PreparedSeries}
    (h : prepare payload = .ok series) :
    FillsGaps payload series ↔
      (payload.missingPeriodPolicy = "LINEAR_INTERPOLATION" →
        ∀ before gap after x y a b, IsGap (periods payload) before gap after x y a b →
          2 ≤ gap.length → a = b) := by
  obtain ⟨values, hprepared, rfl⟩ := prepare_eq_ok.1 h
  constructor
  · rintro ⟨values', himputed, hfills⟩ hpolicy before gap after x y a b hgap hlength
    have hpromised := hfills.gaps before gap after x y a b hgap
    rw [gap_values himputed hgap] at hpromised
    exact loopFill_eq_iff.1 hpromised hpolicy hlength
  · intro hequal
    refine ⟨values, hprepared.imputed, ?_⟩
    refine {
      known := fun i o v ho hv => impute_known hprepared.imputed ho hv
      gaps := fun before gap after x y a b hgap => ?_
      kept := rfl
      timestamps := seriesOf_timestamps hprepared
      length := seriesOf_values_length hprepared
      count := countP_eq_length_filter }
    rw [gap_values hprepared.imputed hgap]
    exact loopFill_eq_iff.2 fun hpolicy hlength => hequal hpolicy _ _ _ _ _ _ _ hgap hlength

/-! ## A gap of two periods -/

namespace TwoMissing

def observation (timestamp : Instant) (value : Option ℚ) : Observation :=
  ⟨timestamp, value, .complete, false⟩

/-- A series from `0` to `9`, where the periods between are missing. -/
def payload (policy : String) : ExecutionCreate where
  forecastHorizon := 1
  candidateMethods := ["NAIVE"]
  primaryMetric := "WAPE"
  backtestType := .rollingOrigin
  backtestFolds := 1
  missingPeriodPolicy := policy
  partialPeriodPolicy := "EXCLUDE"
  outlierPolicy := "KEEP"
  maximumImputedPercentage := 50
  parameters := []
  observations := [observation 1 (some 0), observation 2 none, observation 3 none,
    observation 4 (some 9)]
  horizon_range := by decide
  candidates_length := by decide
  folds_range := by decide
  percentage_range := by decide
  parameters_length := by decide
  observations_length := by decide

def series (second third : ℚ) : PreparedSeries where
  timestamps := [1, 2, 3, 4]
  values := [0, second, third, 9]
  imputedCount := 2
  partialCount := 0
  lateCount := 0
  warnings := ["Imputed periods are excluded from accuracy evaluation"]

/-- The interpolation fills `9 / 2` and `27 / 4` instead of `3` and `6`. -/
theorem interpolation_not_even :
    prepare (payload "LINEAR_INTERPOLATION") = .ok (series (9 / 2) (27 / 4)) ∧
      ¬ FillsGaps (payload "LINEAR_INTERPOLATION") (series (9 / 2) (27 / 4)) := by
  refine ⟨by decide +kernel, ?_⟩
  rintro ⟨values, himputed, hfills⟩
  have hvalues : impute "LINEAR_INTERPOLATION"
      (available (periods (payload "LINEAR_INTERPOLATION"))) none
      (periods (payload "LINEAR_INTERPOLATION")) = .ok [0, 9 / 2, 27 / 4, 9] := by
    decide +kernel
  obtain rfl := ok.inj (himputed.symm.trans hvalues)
  have hgap : IsGap (periods (payload "LINEAR_INTERPOLATION")) []
      [observation 2 none, observation 3 none] [] (observation 1 (some 0)) (observation 4 (some 9))
      0 9 := ⟨by decide +kernel, rfl, rfl, by decide⟩
  have hpromised := hfills.gaps _ _ _ _ _ _ _ hgap
  revert hpromised
  decide +kernel

/-- The last known value goes into both. -/
theorem forward_fill_even : FillsGaps (payload "FORWARD_FILL") (series 0 0) :=
  (fillsGaps_iff (by decide +kernel)).2 fun hpolicy => absurd hpolicy (by decide)

end TwoMissing

end Intel4Ops.Forecasting
