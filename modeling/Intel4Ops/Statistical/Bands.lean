import Intel4Ops.Lib.Band
import Intel4Ops.Statistical.Methods
import Mathlib.Analysis.Real.Sqrt

/-!
# The bands of the methods

Whatever the method, the last observation is flagged where its distance from an expected value, in a
unit that the baseline gives, reaches a threshold. The methods differ in what they flag beside a
baseline without spread: everything, or nothing.
-/

namespace Intel4Ops.Statistical

open Lib List

/-! ## The last observation -/

/-- The values of a baseline with the last observation. -/
def given (hist : List ℝ) (x : ℝ) : List (Option (Value ℝ)) :=
  (hist ++ [x]).map fun v => some (.number v)

/-- What a method says of the last observation. -/
noncomputable def Method.result (method : Method) (hist : List ℝ) (parameters : Parameters ℝ)
    (x : ℝ) : Except Error (StatisticalMethodResult ℝ) :=
  method.execute Real.sqrt (given hist x) parameters

/-- The last observation is flagged. -/
def Method.Flags (method : Method) (hist : List ℝ) (parameters : Parameters ℝ) (x : ℝ) : Prop :=
  ∃ r, method.result hist parameters x = .ok r ∧ r.isAnomaly = true

def Method.Accepts (method : Method) (hist : List ℝ) (parameters : Parameters ℝ) : Prop :=
  ∃ x r, method.result hist parameters x = .ok r

/-- The window in front of the last observation, which does not depend on it. -/
noncomputable def windowOf (hist : List ℝ) (parameters : Parameters ℝ) : Except Error (List ℝ) :=
  window (hist ++ [0]) parameters

/-- The values that the last observation is compared with. -/
noncomputable def Method.baseline (method : Method) (hist : List ℝ) (parameters : Parameters ℝ) :
    Except Error (List ℝ) :=
  match method with
  | zScore | standardDeviationBand | peerZScore | percentileThreshold | peerPercentile
  | peerRatioDeviation | trimmedMeanBaseline | winsorizedMeanBaseline => .ok hist
  | modifiedZScore | peerModifiedZScore | rollingModifiedZScore | robustNormalizedScore | iqrRule
  | rollingIqr | rollingZScore | ewmaDeviation | medianBaseline | rollingMedian | rollingMad =>
    windowOf hist parameters

/-- The methods that measure a deviation relative to the expected value. -/
def Method.Relative (method : Method) : Prop :=
  method ∈ [percentileThreshold, peerPercentile, peerRatioDeviation, medianBaseline, rollingMedian,
    trimmedMeanBaseline, winsorizedMeanBaseline]

/-- The methods that multiply the distance between the quartiles. -/
def Method.Quartiles (method : Method) : Prop := method ∈ [iqrRule, rollingIqr]

/-- The methods that flag no deviation from a baseline without spread. -/
def Method.Silent (method : Method) : Prop := method ∈ [rollingZScore, ewmaDeviation, rollingMad]

instance (method : Method) : Decidable method.Relative := inferInstanceAs (Decidable (_ ∈ _))
instance (method : Method) : Decidable method.Quartiles := inferInstanceAs (Decidable (_ ∈ _))
instance (method : Method) : Decidable method.Silent := inferInstanceAs (Decidable (_ ∈ _))

/-- The parameter that the score is compared with. -/
def Method.thresholdKey (method : Method) : String :=
  if method.Relative then "relative_threshold"
  else if method.Quartiles then "iqr_multiplier"
  else "deviation_threshold"

/-- What it is when it is not given. -/
noncomputable def Method.defaultThreshold (method : Method) : ℝ :=
  if method ∈ [percentileThreshold, peerPercentile] then 0
  else if method.Relative then ((2 / 10 : ℚ) : ℝ)
  else if method.Quartiles then ((3 / 2 : ℚ) : ℝ)
  else ((3 : ℚ) : ℝ)

noncomputable def Method.threshold (method : Method) (parameters : Parameters ℝ) : Except Error ℝ :=
  numericParameter parameters method.thresholdKey method.defaultThreshold

/-- `deviation_threshold` -/
noncomputable def deviationThreshold (parameters : Parameters ℝ) : Except Error ℝ :=
  numericParameter parameters "deviation_threshold" ((3 : ℚ) : ℝ)

/-! ## The band of a method -/

/-- The expected value and the unit of a method. -/
noncomputable def Method.core (method : Method) (hist : List ℝ) (parameters : Parameters ℝ) :
    Except Error (ℝ × ℝ) :=
  match method with
  | zScore | standardDeviationBand | peerZScore => .ok (mean hist, stdev Real.sqrt hist)
  | modifiedZScore | peerModifiedZScore | rollingModifiedZScore | robustNormalizedScore => do
    let baseline ← windowOf hist parameters
    return (median baseline, medianAbsoluteDeviation baseline / ((6745 / 10000 : ℚ) : ℝ))
  | iqrRule | rollingIqr => do
    let baseline ← windowOf hist parameters
    let q1 ← percentile baseline ((1 / 4 : ℚ) : ℝ)
    let q3 ← percentile baseline ((3 / 4 : ℚ) : ℝ)
    return (median baseline, q3 - q1)
  | percentileThreshold | peerPercentile => do
    let quantile ← numericParameter parameters "percentile" ((95 / 100 : ℚ) : ℝ)
    let expected ← percentile hist quantile
    return (expected, expected)
  | peerRatioDeviation => .ok (median hist, median hist)
  | rollingZScore => do
    let baseline ← windowOf hist parameters
    return (mean baseline, stdev Real.sqrt baseline)
  | ewmaDeviation => do
    let baseline ← windowOf hist parameters
    let alpha ← numericParameter parameters "alpha" ((3 / 10 : ℚ) : ℝ)
    ensure (0 < alpha ∧ alpha ≤ 1) (.statisticalMethod "alpha must be greater than 0 and at most 1")
    return (ewma alpha baseline, stdev Real.sqrt baseline)
  | medianBaseline | rollingMedian => do
    let baseline ← windowOf hist parameters
    return (median baseline, median baseline)
  | trimmedMeanBaseline => adjusted trimmed
  | winsorizedMeanBaseline => adjusted winsorized
  | rollingMad => do
    let baseline ← windowOf hist parameters
    return (median baseline, medianAbsoluteDeviation baseline)
where
  /-- The mean of the sorted values, some of them cut off or replaced. -/
  adjusted (adjust : ℕ → List ℝ → List ℝ) : Except Error (ℝ × ℝ) := do
    let sorted := hist.insertionSort (· ≤ ·)
    let proportion ← numericParameter parameters "trim_proportion" ((1 / 10 : ℚ) : ℝ)
    ensure (0 ≤ proportion ∧ proportion < ((1 / 2 : ℚ) : ℝ))
      (.statisticalMethod "trim_proportion must be between 0 and 0.5")
    let expected := mean (adjust ⌊(sorted.length : ℝ) * proportion⌋₊ sorted)
    return (expected, expected)

/-- The threshold, which is the deviation threshold that was read before or a further parameter. -/
noncomputable def Method.lastThreshold (method : Method) (deviation : ℝ)
    (parameters : Parameters ℝ) : Except Error ℝ :=
  if method.Relative ∨ method.Quartiles then method.threshold parameters else .ok deviation

/-- The distance of what is beside a baseline without spread. -/
noncomputable def Method.jump (method : Method) (deviation : ℝ) : Option ℝ :=
  if method.Relative ∨ method.Silent then none else some (deviation + 1)

/-- The band behind the checks that all methods make. -/
noncomputable def Method.bandOf (method : Method) (hist : List ℝ) (deviation : ℝ)
    (parameters : Parameters ℝ) : Except Error (Band ℝ) := do
  let core ← method.core hist parameters
  let threshold ← method.lastThreshold deviation parameters
  return ⟨core.1, core.2, method.jump deviation, threshold⟩

noncomputable def Method.band (method : Method) (hist : List ℝ) (parameters : Parameters ℝ) :
    Except Error (Band ℝ) := do
  ensure (method.minimumSampleSize ≤ (hist ++ [0]).length) (.insufficientData (method.code ++
    " requires at least " ++ toString method.minimumSampleSize ++ " observations"))
  let deviation ← deviationThreshold parameters
  ensure (0 < deviation ∧ deviation ≤ ((20 : ℚ) : ℝ))
    (.statisticalMethod "deviation_threshold must be greater than 0 and at most 20")
  method.bandOf hist deviation parameters

/-! ## The methods judge by their bands -/

variable {method : Method} {hist : List ℝ} {parameters : Parameters ℝ} {x : ℝ}

/-- The score of an observation is its distance in a band. -/
structure Scored.Within (s : Scored ℝ) (b : Band ℝ) (x : ℝ) : Prop where
  expected : s.expected = b.center
  score : |s.score| = b.distance x
  threshold : s.threshold = b.threshold

/-- Both fail, or the score is the distance in the band. -/
def Agree (x : ℝ) : Except Error (Scored ℝ) → Except Error (Band ℝ) → Prop
  | .ok s, .ok b => s.Within b x
  | .error _, .error _ => True
  | _, _ => False

theorem Agree.bind {α : Type} {c : Except Error α} {f : α → Except Error (Scored ℝ)}
    {g : α → Except Error (Band ℝ)} (h : ∀ a, Agree x (f a) (g a)) :
    Agree x (c >>= f) (c >>= g) := by
  cases c with
  | error e => exact trivial
  | ok a => exact h a

theorem distance_eq (center unit : ℝ) (jump : Option ℝ) (threshold : ℝ) :
    (Band.mk center unit jump threshold).distance x =
      if unit ≠ 0 then |x - center| / |unit| else if x = center then 0 else jump.elim 0 abs := rfl

theorem abs_copysign (y z : ℝ) : |copysign y z| = |y| := by
  rw [copysign]
  split_ifs
  · rw [abs_neg, abs_abs]
  · rw [abs_abs]

/-- Beside a baseline without spread the score is one more than the deviation threshold. -/
theorem abs_scoreOrJump (deviation expected dispersion score threshold unit : ℝ)
    (hunit : unit = 0 ↔ dispersion = 0)
    (hscore : dispersion ≠ 0 → |score| = |x - expected| / |unit|) :
    |scoreOrJump deviation x expected dispersion score| =
      (Band.mk expected unit (some (deviation + 1)) threshold).distance x := by
  rw [scoreOrJump, distance_eq]
  by_cases hdispersion : dispersion = 0
  · simp only [hdispersion, true_and, hunit.2 hdispersion, ne_eq, not_true_eq_false, if_false,
      if_true, Option.elim_some]
    split_ifs
    · exact abs_zero
    · exact abs_copysign _ _
  · rw [if_neg (fun h => hdispersion h.1), if_neg hdispersion,
      if_pos (fun h => hdispersion (hunit.1 h))]
    exact hscore hdispersion

theorem abs_relativeScore (expected threshold : ℝ) :
    |relativeScore x expected| = (Band.mk expected expected none threshold).distance x := by
  rw [relativeScore, distance_eq]
  by_cases hexpected : expected = 0
  · rw [if_pos hexpected, if_neg (not_not.2 hexpected), abs_zero, Option.elim_none, ite_self]
  · rw [if_neg hexpected, if_pos hexpected, abs_div, abs_abs]

theorem abs_silentScore {dispersion score : ℝ} (expected threshold : ℝ)
    (hscore : |score| = |x - expected| / |dispersion|) :
    |if dispersion = 0 then 0 else score| =
      (Band.mk expected dispersion none threshold).distance x := by
  rw [distance_eq]
  by_cases hdispersion : dispersion = 0
  · rw [if_pos hdispersion, if_neg (not_not.2 hdispersion), abs_zero, Option.elim_none, ite_self]
  · rw [if_neg hdispersion, if_pos hdispersion]
    exact hscore

theorem history_append (hne : hist ≠ []) : history (hist ++ [x]) = hist := by
  rw [history, dropLast_concat, if_neg hne]

theorem window_append : window (hist ++ [x]) parameters = windowOf hist parameters := by
  rw [windowOf, window, window]
  simp only [dropLast_concat, length_append, length_singleton]

section Branches

variable {deviation : ℝ}

theorem standardScore_within (hne : hist ≠ []) :
    (standardScore Real.sqrt (hist ++ [x]) x deviation).Within
      ⟨mean hist, stdev Real.sqrt hist, some (deviation + 1), deviation⟩ x := by
  rw [standardScore, history_append hne]
  refine ⟨rfl, ?_, rfl⟩
  exact abs_scoreOrJump _ _ _ _ _ _ Iff.rfl fun _ => abs_div _ _

theorem robustScore_agree : Agree x (robustScore (hist ++ [x]) x deviation parameters)
    (windowOf hist parameters >>= fun baseline => .ok ⟨median baseline,
      medianAbsoluteDeviation baseline / ((6745 / 10000 : ℚ) : ℝ), some (deviation + 1), deviation⟩) := by
  rw [robustScore, window_append]
  refine .bind fun baseline => ⟨rfl, ?_, rfl⟩
  apply abs_scoreOrJump
  · rw [div_eq_zero_iff, or_iff_left (by norm_num)]
  · intro hdispersion
    rw [← abs_div]
    congr 1
    field_simp

theorem iqrScore_agree : Agree x (iqrScore (hist ++ [x]) x deviation parameters)
    (windowOf hist parameters >>= fun baseline => percentile baseline ((1 / 4 : ℚ) : ℝ) >>= fun q1 =>
      percentile baseline ((3 / 4 : ℚ) : ℝ) >>= fun q3 =>
        numericParameter parameters "iqr_multiplier" ((3 / 2 : ℚ) : ℝ) >>= fun multiplier =>
          .ok ⟨median baseline, q3 - q1, some (deviation + 1), multiplier⟩) := by
  rw [iqrScore, window_append]
  refine .bind fun baseline => .bind fun q1 => .bind fun q3 => .bind fun multiplier => ?_
  exact ⟨rfl, abs_scoreOrJump _ _ _ _ _ _ Iff.rfl fun _ => abs_div _ _, rfl⟩

theorem percentileScore_agree (hne : hist ≠ []) :
    Agree x (percentileScore (hist ++ [x]) x parameters)
      (numericParameter parameters "percentile" ((95 / 100 : ℚ) : ℝ) >>= fun quantile =>
        percentile hist quantile >>= fun expected =>
          numericParameter parameters "relative_threshold" 0 >>= fun threshold =>
            .ok ⟨expected, expected, none, threshold⟩) := by
  rw [percentileScore, history_append hne]
  refine .bind fun quantile => .bind fun expected => .bind fun threshold => ?_
  exact ⟨rfl, abs_relativeScore _ _, rfl⟩

theorem peerRatioScore_agree : Agree x (peerRatioScore (hist ++ [x]) x parameters)
    (numericParameter parameters "relative_threshold" ((2 / 10 : ℚ) : ℝ) >>= fun threshold =>
      .ok ⟨median hist, median hist, none, threshold⟩) := by
  rw [peerRatioScore, dropLast_concat]
  exact .bind fun threshold => ⟨rfl, abs_relativeScore _ _, rfl⟩

theorem rollingScore_within (baseline : List ℝ) (expected : ℝ) :
    (rollingScore Real.sqrt baseline x deviation expected).Within
      ⟨expected, stdev Real.sqrt baseline, none, deviation⟩ x :=
  ⟨rfl, abs_silentScore _ _ (abs_div _ _), rfl⟩

theorem ewmaScore_agree : Agree x (ewmaScore Real.sqrt (hist ++ [x]) x deviation parameters)
    (windowOf hist parameters >>= fun baseline =>
      numericParameter parameters "alpha" ((3 / 10 : ℚ) : ℝ) >>= fun alpha =>
        ensure (0 < alpha ∧ alpha ≤ 1)
          (.statisticalMethod "alpha must be greater than 0 and at most 1") >>= fun _ =>
            .ok ⟨ewma alpha baseline, stdev Real.sqrt baseline, none, deviation⟩) := by
  rw [ewmaScore, window_append]
  exact .bind fun baseline => .bind fun alpha => .bind fun _ => rollingScore_within _ _

theorem medianScore_agree : Agree x (medianScore (hist ++ [x]) x parameters)
    (windowOf hist parameters >>= fun baseline =>
      numericParameter parameters "relative_threshold" ((2 / 10 : ℚ) : ℝ) >>= fun threshold =>
        .ok ⟨median baseline, median baseline, none, threshold⟩) := by
  rw [medianScore, window_append]
  exact .bind fun baseline => .bind fun threshold => ⟨rfl, abs_relativeScore _ _, rfl⟩

theorem adjustedMeanScore_agree (hne : hist ≠ []) (adjust : ℕ → List ℝ → List ℝ) :
    Agree x (adjustedMeanScore adjust (hist ++ [x]) x parameters)
      (Method.core.adjusted hist parameters adjust >>= fun core =>
        numericParameter parameters "relative_threshold" ((2 / 10 : ℚ) : ℝ) >>= fun threshold =>
          .ok ⟨core.1, core.2, none, threshold⟩) := by
  rw [adjustedMeanScore, history_append hne, Method.core.adjusted]
  simp only [bind_assoc, pure_bind]
  exact .bind fun proportion => .bind fun _ => .bind fun threshold =>
    ⟨rfl, abs_relativeScore _ _, rfl⟩

theorem rollingMadScore_agree : Agree x (rollingMadScore (hist ++ [x]) x deviation parameters)
    (windowOf hist parameters >>= fun baseline =>
      .ok ⟨median baseline, medianAbsoluteDeviation baseline, none, deviation⟩) := by
  rw [rollingMadScore, window_append]
  refine .bind fun baseline => ⟨rfl, abs_silentScore _ _ ?_, rfl⟩
  rw [abs_div, abs_abs]

theorem score_agree (method : Method) (parameters : Parameters ℝ) (x deviation : ℝ)
    (hne : hist ≠ []) :
    Agree x (method.score Real.sqrt (hist ++ [x]) x deviation parameters)
      (method.bandOf hist deviation parameters) := by
  cases method <;>
    simp only [Method.bandOf, Method.core, bind_assoc, pure_bind, ok_bind,
      Method.lastThreshold, Method.jump]
  case zScore | standardDeviationBand | peerZScore => exact standardScore_within hne
  case modifiedZScore | peerModifiedZScore | rollingModifiedZScore | robustNormalizedScore =>
    exact robustScore_agree
  case iqrRule | rollingIqr => exact iqrScore_agree
  case percentileThreshold | peerPercentile => exact percentileScore_agree hne
  case peerRatioDeviation => exact peerRatioScore_agree
  case rollingZScore =>
    rw [Method.score, rollingZScore, window_append]
    exact .bind fun baseline => rollingScore_within _ _
  case ewmaDeviation => exact ewmaScore_agree
  case medianBaseline | rollingMedian => exact medianScore_agree
  case trimmedMeanBaseline => exact adjustedMeanScore_agree hne trimmed
  case winsorizedMeanBaseline => exact adjustedMeanScore_agree hne winsorized
  case rollingMad => exact rollingMadScore_agree

end Branches

theorem finiteValues_given (hist : List ℝ) (x : ℝ) :
    finiteValues (given hist x) = .ok (hist ++ [x]) := by
  rw [finiteValues, given]
  generalize hist ++ [x] = values
  induction values with
  | nil => rfl
  | cons v values ih =>
    show (Value.number v :: (values.map fun v => some (Value.number v)).filterMap id).mapM finite =
      .ok (v :: values)
    rw [mapM_cons, ih]
    rfl

theorem three_le_minimumSampleSize (method : Method) : 3 ≤ method.minimumSampleSize := by
  cases method <;> decide

theorem ne_nil_of_sample (h : method.minimumSampleSize ≤ (hist ++ [x]).length) : hist ≠ [] := by
  have hsample := (three_le_minimumSampleSize method).trans h
  rintro rfl
  rw [nil_append, length_singleton] at hsample
  omega

theorem band_of_result {r : StatisticalMethodResult ℝ}
    (h : method.result hist parameters x = .ok r) :
    ∃ b, method.band hist parameters = .ok b ∧ r.expectedValue = b.center ∧
      (r.isAnomaly = true ↔ b.Flags x) := by
  simp only [Method.result, Method.execute, finiteValues_given, ok_bind, bind_eq_ok, ensure_eq_ok,
    pure_eq_ok, exists_const] at h
  obtain ⟨hsample, deviation, hdeviation, hbounds, scored, hscored, rfl⟩ := h
  have hagree := score_agree method parameters x deviation (ne_nil_of_sample hsample)
  rw [getLastD_concat] at hscored
  rw [hscored] at hagree
  cases hband : method.bandOf hist deviation parameters with
  | error e =>
    rw [hband] at hagree
    exact hagree.elim
  | ok b =>
    rw [hband] at hagree
    refine ⟨b, ?_, hagree.expected, ?_⟩
    · simp only [Method.band, deviationThreshold, bind_eq_ok, ensure_eq_ok, exists_const]
      exact ⟨by simpa using hsample, deviation, hdeviation, hbounds, hband⟩
    · rw [decide_eq_true_iff, Band.Flags, hagree.score, hagree.threshold]

theorem result_of_band {b : Band ℝ} (h : method.band hist parameters = .ok b) (x : ℝ) :
    ∃ r, method.result hist parameters x = .ok r := by
  simp only [Method.band, deviationThreshold, bind_eq_ok, ensure_eq_ok, exists_const] at h
  obtain ⟨hsample, deviation, hdeviation, hbounds, hband⟩ := h
  have hagree := score_agree method parameters x deviation (ne_nil_of_sample hsample)
  rw [hband] at hagree
  cases hscored : method.score Real.sqrt (hist ++ [x]) x deviation parameters with
  | error e =>
    rw [hscored] at hagree
    exact hagree.elim
  | ok scored =>
    simp only [Method.result, Method.execute, finiteValues_given, ok_bind, bind_eq_ok,
      ensure_eq_ok, pure_eq_ok, exists_const, getLastD_concat]
    exact ⟨_, by simpa using hsample, deviation, hdeviation, hbounds, scored, hscored, rfl⟩

/-- The last observation is flagged exactly when the band flags it. -/
theorem flags_iff : method.Flags hist parameters x ↔
    ∃ b, method.band hist parameters = .ok b ∧ b.Flags x := by
  constructor
  · rintro ⟨r, hr, hanomaly⟩
    obtain ⟨b, hb, -, hflags⟩ := band_of_result hr
    exact ⟨b, hb, hflags.1 hanomaly⟩
  · rintro ⟨b, hb, hflags⟩
    obtain ⟨r, hr⟩ := result_of_band hb x
    obtain ⟨b', hb', -, hiff⟩ := band_of_result hr
    obtain rfl := Except.ok.inj (hb.symm.trans hb')
    exact ⟨r, hr, hiff.2 hflags⟩

theorem accepts_iff : method.Accepts hist parameters ↔
    ∃ b, method.band hist parameters = .ok b := by
  constructor
  · rintro ⟨x, r, hr⟩
    obtain ⟨b, hb, -⟩ := band_of_result hr
    exact ⟨b, hb⟩
  · rintro ⟨b, hb⟩
    exact ⟨0, result_of_band hb 0⟩

end Intel4Ops.Statistical
