import Intel4Ops.Statistical.Bands

/-!
# Flags as bands

For accepted parameters the observations that are not flagged form an interval. When it contains the
expected value, whether what is far from a constant baseline is flagged, and which observations the
rule of the quartiles flags, depends on the thresholds that are let through and on what a method
makes of a baseline without spread.
-/

namespace Intel4Ops.Statistical

open Lib List Except

variable {method : Method} {hist baseline : List ℝ} {parameters : Parameters ℝ} {a c d : ℝ}

/-! ## Constant baselines -/

theorem stdev_constant (hne : baseline ≠ []) (hconstant : ∀ v ∈ baseline, v = c) :
    stdev Real.sqrt baseline = 0 := by
  rw [stdev, variance_constant hne hconstant, Real.sqrt_zero, ite_self]

theorem ewma_constant (alpha : ℝ) (hne : baseline ≠ []) (hconstant : ∀ v ∈ baseline, v = c) :
    ewma alpha baseline = c := by
  cases baseline with
  | nil => exact absurd rfl hne
  | cons first rest =>
    obtain ⟨rfl, hrest⟩ := forall_mem_cons.1 hconstant
    rw [ewma]
    clear hne hconstant
    induction rest with
    | nil => rfl
    | cons v rest ih =>
      obtain ⟨rfl, hrest⟩ := forall_mem_cons.1 hrest
      rw [foldl_cons, show alpha * v + (1 - alpha) * v = v by ring]
      exact ih hrest

theorem two_mul_count_lt {n : ℕ} {proportion : ℝ} (hn : 0 < n) (hnonneg : 0 ≤ proportion)
    (hhalf : proportion < ((1 / 2 : ℚ) : ℝ)) : 2 * ⌊(n : ℝ) * proportion⌋₊ < n := by
  push_cast at hhalf
  have hpositive : (0 : ℝ) < n := Nat.cast_pos.2 hn
  have hfloor : (⌊(n : ℝ) * proportion⌋₊ : ℝ) ≤ n * proportion :=
    Nat.floor_le (mul_nonneg hpositive.le hnonneg)
  have hlt : (n : ℝ) * proportion < n * (1 / 2) := mul_lt_mul_of_pos_left hhalf hpositive
  have hcast : ((2 * ⌊(n : ℝ) * proportion⌋₊ : ℕ) : ℝ) < n := by
    push_cast
    linarith
  exact_mod_cast hcast

/-- An adjustment of sorted values that keeps some of them and scales and shifts with them. -/
structure Adjusts (adjust : ℕ → List ℝ → List ℝ) : Prop where
  ne_nil : ∀ count values, 2 * count < values.length → adjust count values ≠ []
  subset : ∀ count values, 2 * count < values.length → adjust count values ⊆ values
  map : ∀ count values (f : ℝ → ℝ), 2 * count < values.length →
    adjust count (values.map f) = (adjust count values).map f

theorem trimmed_adjusts : Adjusts trimmed where
  ne_nil count values hcount := by
    intro h
    have hlength := congrArg List.length h
    rw [trimmed, length_drop, length_take, length_nil] at hlength
    omega
  subset count values _ := fun v hv => mem_of_mem_take (mem_of_mem_drop hv)
  map count values f _ := by
    rw [trimmed, trimmed, length_map, ← map_take, ← map_drop]

theorem winsorized_adjusts : Adjusts winsorized where
  ne_nil count values hcount := by
    intro h
    rw [winsorized, append_eq_nil_iff, append_eq_nil_iff] at h
    exact trimmed_adjusts.ne_nil count values hcount h.1.2
  subset count values hcount := by
    have hentry : ∀ i < values.length, values.getD i 0 ∈ values := by
      intro i hi
      rw [getD_eq_getElem _ _ hi]
      exact getElem_mem hi
    intro v hv
    rw [winsorized, mem_append, mem_append] at hv
    rcases hv with (hv | hv) | hv
    · rw [eq_of_mem_replicate hv]
      exact hentry _ (by omega)
    · exact trimmed_adjusts.subset count values hcount hv
    · rw [eq_of_mem_replicate hv]
      exact hentry _ (by omega)
  map count values f hcount := by
    rw [winsorized, winsorized, trimmed_adjusts.map count values f hcount, length_map,
      getD_map_of_lt f (by omega), getD_map_of_lt f (by omega), map_append, map_append,
      map_replicate, map_replicate]

theorem windowOf_ne_nil (h : windowOf hist parameters = .ok baseline) : baseline ≠ [] := by
  simp only [windowOf, window, bind_eq_ok, ensure_eq_ok, pure_eq_ok, exists_const] at h
  obtain ⟨size, -, -, hlength, rfl⟩ := h
  intro hnil
  rw [hnil, length_nil] at hlength
  omega

/-- What the expected value and the unit of a method are for its baseline. -/
structure Method.Fits (method : Method) (baseline : List ℝ) (core : ℝ × ℝ) : Prop where
  ne_nil : baseline ≠ []
  constant : ∀ c, (∀ v ∈ baseline, v = c) → core.1 = c ∧ core.2 = if method.Relative then c else 0
  quartiles : method.Quartiles → core.1 = median baseline ∧
    core.2 = Lib.percentile baseline (3 / 4) - Lib.percentile baseline (1 / 4)

variable {adjust : ℕ → List ℝ → List ℝ} {deviation : ℝ} {b : Band ℝ}

theorem adjusted_constant (hadjust : Adjusts adjust) {core : ℝ × ℝ}
    (h : Method.core.adjusted hist parameters adjust = .ok core) (hne : hist ≠ [])
    (hconstant : ∀ v ∈ hist, v = c) : core.1 = c ∧ core.2 = c := by
  simp only [Method.core.adjusted, bind_eq_ok, ensure_eq_ok, pure_eq_ok, exists_const] at h
  obtain ⟨proportion, -, hproportion, rfl⟩ := h
  have hcount := two_mul_count_lt (length_pos_iff.2 (insertionSort_ne_nil hne))
    hproportion.1 hproportion.2
  have hmean := mean_constant (hadjust.ne_nil _ _ hcount) fun v hv =>
    sorted_constant hconstant v (hadjust.subset _ _ hcount hv)
  exact ⟨hmean, hmean⟩

/-- A method that compares with one location in that unit, as a relative method does. -/
theorem fits_relative {expected : ℝ} (hrelative : method.Relative) (hquartiles : ¬ method.Quartiles)
    (hne : baseline ≠ []) (hconstant : ∀ c, (∀ v ∈ baseline, v = c) → expected = c) :
    method.Fits baseline (expected, expected) where
  ne_nil := hne
  constant c hc := by
    rw [if_pos hrelative]
    exact ⟨hconstant c hc, hconstant c hc⟩
  quartiles h := absurd h hquartiles

theorem fits_spread {expected unit : ℝ} (hrelative : ¬ method.Relative)
    (hquartiles : ¬ method.Quartiles) (hne : baseline ≠ [])
    (hconstant : ∀ c, (∀ v ∈ baseline, v = c) → expected = c ∧ unit = 0) :
    method.Fits baseline (expected, unit) where
  ne_nil := hne
  constant c hc := by
    rw [if_neg hrelative]
    exact hconstant c hc
  quartiles h := absurd h hquartiles

theorem core_fits {core : ℝ × ℝ} (hne : hist ≠ [])
    (h : method.core hist parameters = .ok core) :
    ∃ baseline, method.baseline hist parameters = .ok baseline ∧ method.Fits baseline core := by
  cases method
  case zScore | standardDeviationBand | peerZScore =>
    obtain rfl := ok.inj h
    exact ⟨hist, rfl, fits_spread (by decide) (by decide) hne fun c hc =>
      ⟨mean_constant hne hc, stdev_constant hne hc⟩⟩
  case modifiedZScore | peerModifiedZScore | rollingModifiedZScore | robustNormalizedScore =>
    obtain ⟨baseline, hwindow, h⟩ := bind_eq_ok.1 h
    obtain rfl := pure_eq_ok.1 h
    have hwindowNe := windowOf_ne_nil hwindow
    exact ⟨baseline, hwindow, fits_spread (by decide) (by decide) hwindowNe fun c hc =>
      ⟨median_constant hwindowNe hc, by
        rw [medianAbsoluteDeviation_constant hwindowNe hc, zero_div]⟩⟩
  case iqrRule | rollingIqr =>
    simp only [Method.core, percentile, bind_eq_ok, ensure_eq_ok, pure_eq_ok, exists_const] at h
    rw [show ((1 / 4 : ℚ) : ℝ) = 1 / 4 by norm_num, show ((3 / 4 : ℚ) : ℝ) = 3 / 4 by norm_num] at h
    obtain ⟨baseline, hwindow, q1, ⟨-, -, rfl⟩, q3, ⟨-, -, rfl⟩, rfl⟩ := h
    have hwindowNe := windowOf_ne_nil hwindow
    refine ⟨baseline, hwindow, hwindowNe, fun c hc => ?_, fun _ => ⟨rfl, rfl⟩⟩
    rw [if_neg (by decide)]
    refine ⟨median_constant hwindowNe hc, ?_⟩
    rw [percentile_constant hwindowNe (by norm_num) hc, percentile_constant hwindowNe (by norm_num) hc,
      sub_self]
  case percentileThreshold | peerPercentile =>
    simp only [Method.core, percentile, bind_eq_ok, ensure_eq_ok, pure_eq_ok, exists_const] at h
    obtain ⟨quantile, -, expected, ⟨-, hquantile, rfl⟩, rfl⟩ := h
    exact ⟨hist, rfl, fits_relative (by decide) (by decide) hne fun c hc =>
      percentile_constant hne hquantile.2 hc⟩
  case peerRatioDeviation =>
    obtain rfl := ok.inj h
    exact ⟨hist, rfl, fits_relative (by decide) (by decide) hne fun c hc => median_constant hne hc⟩
  case rollingZScore =>
    obtain ⟨baseline, hwindow, h⟩ := bind_eq_ok.1 h
    obtain rfl := pure_eq_ok.1 h
    have hwindowNe := windowOf_ne_nil hwindow
    exact ⟨baseline, hwindow, fits_spread (by decide) (by decide) hwindowNe fun c hc =>
      ⟨mean_constant hwindowNe hc, stdev_constant hwindowNe hc⟩⟩
  case ewmaDeviation =>
    simp only [Method.core, bind_eq_ok, ensure_eq_ok, pure_eq_ok, exists_const] at h
    obtain ⟨baseline, hwindow, alpha, -, -, rfl⟩ := h
    have hwindowNe := windowOf_ne_nil hwindow
    exact ⟨baseline, hwindow, fits_spread (by decide) (by decide) hwindowNe fun c hc =>
      ⟨ewma_constant alpha hwindowNe hc, stdev_constant hwindowNe hc⟩⟩
  case medianBaseline | rollingMedian =>
    obtain ⟨baseline, hwindow, h⟩ := bind_eq_ok.1 h
    obtain rfl := pure_eq_ok.1 h
    have hwindowNe := windowOf_ne_nil hwindow
    exact ⟨baseline, hwindow, fits_relative (by decide) (by decide) hwindowNe fun c hc =>
      median_constant hwindowNe hc⟩
  case trimmedMeanBaseline | winsorizedMeanBaseline =>
    have hconstant := fun c => adjusted_constant (c := c)
      (by first | exact trimmed_adjusts | exact winsorized_adjusts) h hne
    refine ⟨hist, rfl, hne, fun c hc => ?_, fun hquartiles => absurd hquartiles (by decide)⟩
    rw [if_pos (by decide)]
    exact hconstant c hc
  case rollingMad =>
    obtain ⟨baseline, hwindow, h⟩ := bind_eq_ok.1 h
    obtain rfl := pure_eq_ok.1 h
    have hwindowNe := windowOf_ne_nil hwindow
    exact ⟨baseline, hwindow, fits_spread (by decide) (by decide) hwindowNe fun c hc =>
      ⟨median_constant hwindowNe hc, medianAbsoluteDeviation_constant hwindowNe hc⟩⟩

/-! ## Scaling and shifting -/

theorem stdev_affine (ha : 0 < a) (hne : baseline ≠ []) :
    stdev Real.sqrt (baseline.map (affine a d)) = a * stdev Real.sqrt baseline := by
  rw [stdev, stdev, length_map, variance_affine hne, Real.sqrt_mul (sq_nonneg a),
    Real.sqrt_sq ha.le, mul_ite, mul_zero]

theorem ewma_affine (alpha : ℝ) (hne : baseline ≠ []) :
    ewma alpha (baseline.map (affine a d)) = affine a d (ewma alpha baseline) := by
  cases baseline with
  | nil => exact absurd rfl hne
  | cons first rest =>
    rw [map_cons, ewma, ewma]
    clear hne
    induction rest generalizing first with
    | nil => rfl
    | cons v rest ih =>
      rw [map_cons, foldl_cons, foldl_cons, ← ih]
      congr 1
      simp only [affine]
      ring

theorem windowOf_map (f : ℝ → ℝ) :
    windowOf (hist.map f) parameters = (windowOf hist parameters).map (List.map f) := by
  simp only [windowOf, window, length_append, length_map, length_singleton,
    dropLast_concat, map_of_bind, lastOnes, length_drop, ← map_drop]
  rfl

theorem percentile_map (ha : 0 < a) (hne : baseline ≠ []) (quantile : ℝ) :
    percentile (baseline.map (affine a d)) quantile =
      (percentile baseline quantile).map (affine a d) := by
  have hmapNe : baseline.map (affine a d) ≠ [] := by simpa using hne
  rw [percentile, percentile, ensure_of hmapNe, ensure_of hne, ok_bind, ok_bind, map_of_bind]
  refine bind_congr_ok fun _ hquantile => ?_
  rw [percentile_affine ha hne (ensure_eq_ok.1 hquantile).2]
  rfl

theorem adjusted_affine (hadjust : Adjusts adjust) (ha : 0 < a) (hne : hist ≠ []) :
    Method.core.adjusted (hist.map (affine a d)) parameters adjust =
      (Method.core.adjusted hist parameters adjust).map fun core =>
        (affine a d core.1, affine a d core.2) := by
  rw [Method.core.adjusted, Method.core.adjusted]
  simp only [map_of_bind]
  refine bind_congr_ok fun proportion _ => bind_congr_ok fun _ hproportion => ?_
  have hproportion := ensure_eq_ok.1 hproportion
  have hcount := two_mul_count_lt (length_pos_iff.2 (insertionSort_ne_nil hne))
    hproportion.1 hproportion.2
  rw [insertionSort_affine ha, length_map, hadjust.map _ _ _ hcount,
    mean_affine (hadjust.ne_nil _ _ hcount)]
  rfl

theorem core_affine (ha : 0 < a) (hd : method.Relative → d = 0) (hne : hist ≠ []) :
    method.core (hist.map (affine a d)) parameters =
      (method.core hist parameters).map fun core => (affine a d core.1, a * core.2) := by
  have hunit : method.Relative → ∀ expected, affine a d expected = a * expected := by
    intro hrelative expected
    rw [hd hrelative, affine, add_zero]
  cases method <;> simp only [Method.core, windowOf_map, bind_of_map, map_of_bind]
  case zScore | standardDeviationBand | peerZScore =>
    rw [mean_affine hne, stdev_affine ha hne]
    rfl
  case modifiedZScore | peerModifiedZScore | rollingModifiedZScore | robustNormalizedScore =>
    refine bind_congr_ok fun baseline hwindow => ?_
    have hwindowNe := windowOf_ne_nil hwindow
    rw [median_affine ha hwindowNe, medianAbsoluteDeviation_affine ha hwindowNe, mul_div_assoc]
    rfl
  case iqrRule | rollingIqr =>
    refine bind_congr_ok fun baseline hwindow => ?_
    have hwindowNe := windowOf_ne_nil hwindow
    rw [percentile_map ha hwindowNe, percentile_map ha hwindowNe, bind_of_map]
    refine bind_congr_ok fun q1 _ => ?_
    rw [bind_of_map]
    refine bind_congr_ok fun q3 _ => ?_
    have hunit : affine a d q3 - affine a d q1 = a * (q3 - q1) := by
      rw [affine, affine]
      ring
    rw [median_affine ha hwindowNe, hunit]
    rfl
  case percentileThreshold | peerPercentile =>
    refine bind_congr_ok fun quantile _ => ?_
    rw [percentile_map ha hne, bind_of_map]
    refine bind_congr_ok fun expected _ => ?_
    show ok (_, affine a d expected) = ok (_, a * expected)
    rw [hunit (by decide)]
  case peerRatioDeviation =>
    show ok (_, median (hist.map (affine a d))) = ok (_, a * median hist)
    rw [median_affine ha hne, hunit (by decide)]
  case rollingZScore =>
    refine bind_congr_ok fun baseline hwindow => ?_
    have hwindowNe := windowOf_ne_nil hwindow
    rw [mean_affine hwindowNe, stdev_affine ha hwindowNe]
    rfl
  case ewmaDeviation =>
    refine bind_congr_ok fun baseline hwindow => bind_congr_ok fun alpha _ =>
      bind_congr_ok fun _ _ => ?_
    have hwindowNe := windowOf_ne_nil hwindow
    rw [ewma_affine alpha hwindowNe, stdev_affine ha hwindowNe]
    rfl
  case medianBaseline | rollingMedian =>
    refine bind_congr_ok fun baseline hwindow => ?_
    rw [median_affine ha (windowOf_ne_nil hwindow)]
    show ok (_, affine a d (median baseline)) = ok (_, a * median baseline)
    rw [hunit (by decide)]
  case trimmedMeanBaseline =>
    rw [adjusted_affine trimmed_adjusts ha hne]
    simp only [hunit (show Method.trimmedMeanBaseline.Relative by decide)]
  case winsorizedMeanBaseline =>
    rw [adjusted_affine winsorized_adjusts ha hne]
    simp only [hunit (show Method.winsorizedMeanBaseline.Relative by decide)]
  case rollingMad =>
    refine bind_congr_ok fun baseline hwindow => ?_
    have hwindowNe := windowOf_ne_nil hwindow
    rw [median_affine ha hwindowNe, medianAbsoluteDeviation_affine ha hwindowNe]
    rfl

theorem band_affine (ha : 0 < a) (hd : method.Relative → d = 0) :
    method.band (hist.map (affine a d)) parameters =
      (method.band hist parameters).map (Band.affine a d) := by
  simp only [Method.band, Method.bandOf, map_of_bind, length_append, length_map]
  refine bind_congr_ok fun _ hsample => bind_congr_ok fun deviation _ => bind_congr_ok fun _ _ => ?_
  have hne : hist ≠ [] := by
    refine @ne_nil_of_sample method hist 0 ?_
    rw [length_append]
    exact ensure_eq_ok.1 hsample
  rw [core_affine ha hd hne, bind_of_map]
  rfl

theorem flags_affine (ha : 0 < a) (hd : method.Relative → d = 0) (x : ℝ) :
    method.Flags (hist.map (affine a d)) parameters (affine a d x) ↔
      method.Flags hist parameters x := by
  rw [flags_iff, flags_iff, band_affine ha hd]
  constructor
  · rintro ⟨b', hb', hflags⟩
    obtain ⟨b, hb, rfl⟩ := map_eq_ok.1 hb'
    exact ⟨b, hb, (b.flags_affine ha d x).1 hflags⟩
  · rintro ⟨b, hb, hflags⟩
    refine ⟨b.affine a d, ?_, (b.flags_affine ha d x).2 hflags⟩
    rw [hb]
    rfl

/-! ## The parts of a band -/

/-- The band is the one that the method makes of its baseline and its thresholds. -/
structure Method.Makes (method : Method) (hist : List ℝ) (parameters : Parameters ℝ)
    (baseline : List ℝ) (deviation : ℝ) (b : Band ℝ) : Prop where
  baseline_eq : method.baseline hist parameters = .ok baseline
  deviation_eq : deviationThreshold parameters = .ok deviation
  deviation_pos : 0 < deviation
  threshold_eq : method.threshold parameters = .ok b.threshold
  core_eq : method.core hist parameters = .ok (b.center, b.unit)
  jump_eq : b.jump = method.jump deviation
  fits : method.Fits baseline (b.center, b.unit)

theorem threshold_eq_deviation (h : ¬ (method.Relative ∨ method.Quartiles)) :
    method.threshold parameters = deviationThreshold parameters := by
  revert h
  cases method <;> intro h
  all_goals first
    | rfl
    | exact absurd (by decide) h

theorem lastThreshold_eq (h : deviationThreshold parameters = .ok deviation) :
    method.lastThreshold deviation parameters = method.threshold parameters := by
  rw [Method.lastThreshold]
  split_ifs with hkey
  · rfl
  · rw [threshold_eq_deviation hkey, h]

theorem makes_of_band (h : method.band hist parameters = .ok b) :
    ∃ baseline deviation, method.Makes hist parameters baseline deviation b := by
  simp only [Method.band, Method.bandOf, bind_eq_ok, ensure_eq_ok, pure_eq_ok, exists_const] at h
  obtain ⟨hsample, deviation, hdeviation, hbounds, core, hcore, threshold, hthreshold, rfl⟩ := h
  obtain ⟨baseline, hbaseline, hfits⟩ := core_fits (ne_nil_of_sample hsample) hcore
  rw [lastThreshold_eq hdeviation] at hthreshold
  exact ⟨baseline, deviation, hbaseline, hdeviation, hbounds.1, hthreshold, hcore, rfl, hfits⟩

theorem Method.Makes.beside (h : method.Makes hist parameters baseline deviation b) :
    b.beside = if method.Relative ∨ method.Silent then 0 else deviation + 1 := by
  rw [Band.beside, h.jump_eq, Method.jump]
  split_ifs
  · rfl
  · exact abs_of_pos (add_pos h.deviation_pos one_pos)

/-! ## A larger threshold -/

def Method.raised (method : Method) (parameters : Parameters ℝ) (threshold : ℝ) : Parameters ℝ :=
  Function.update parameters method.thresholdKey (some (.number threshold))

theorem numericParameter_raised (threshold default : ℝ) :
    numericParameter (method.raised parameters threshold) method.thresholdKey default =
      .ok threshold := by
  rw [numericParameter, Method.raised, Function.update_self]
  rfl

theorem numericParameter_raised_of_ne {key : String} (hkey : key ≠ method.thresholdKey)
    (threshold default : ℝ) :
    numericParameter (method.raised parameters threshold) key default =
      numericParameter parameters key default := by
  rw [numericParameter, Method.raised, Function.update_of_ne hkey, numericParameter]

theorem thresholdKey_mem (method : Method) :
    method.thresholdKey ∈ ["relative_threshold", "iqr_multiplier", "deviation_threshold"] := by
  cases method <;> decide

theorem core_raised (threshold : ℝ) :
    method.core hist (method.raised parameters threshold) = method.core hist parameters := by
  have hother : ∀ key ∉ ["relative_threshold", "iqr_multiplier", "deviation_threshold"],
      ∀ default, numericParameter (method.raised parameters threshold) key default =
        numericParameter parameters key default := by
    intro key hkey default
    refine numericParameter_raised_of_ne ?_ threshold default
    rintro rfl
    exact hkey (thresholdKey_mem method)
  have hwindow : windowOf hist (method.raised parameters threshold) = windowOf hist parameters := by
    simp only [windowOf, window, integerParameter, hother "window_size" (by decide)]
  generalize method.raised parameters threshold = raised at *
  cases method <;> simp only [Method.core, Method.core.adjusted, hwindow,
    hother "percentile" (by decide), hother "alpha" (by decide),
    hother "trim_proportion" (by decide)]

theorem flags_of_raised {threshold larger x : ℝ} (hband : method.band hist parameters = .ok b)
    (hthreshold : method.threshold parameters = .ok threshold) (hle : threshold ≤ larger)
    (hflags : method.Flags hist (method.raised parameters larger) x) :
    method.Flags hist parameters x := by
  obtain ⟨b', hband', hflags'⟩ := flags_iff.1 hflags
  obtain ⟨baseline, deviation, hmakes⟩ := makes_of_band hband
  obtain ⟨baseline', deviation', hmakes'⟩ := makes_of_band hband'
  refine flags_iff.2 ⟨b, hband, ?_⟩
  obtain rfl := ok.inj (hthreshold.symm.trans hmakes.threshold_eq)
  have hlarger : larger = b'.threshold :=
    ok.inj ((numericParameter_raised _ _).symm.trans hmakes'.threshold_eq)
  have hcore := hmakes'.core_eq
  rw [core_raised, hmakes.core_eq] at hcore
  obtain ⟨hcenter, hunit⟩ := Prod.mk.inj (ok.inj hcore)
  rw [Band.Flags, Band.distance, ← hcenter, ← hunit, ← hlarger] at hflags'
  rw [Band.Flags, Band.distance]
  by_cases hzero : b.unit ≠ 0
  · rw [if_pos hzero] at hflags' ⊢
    exact hle.trans hflags'
  rw [if_neg hzero] at hflags' ⊢
  by_cases hx : x = b.center
  · rw [if_pos hx] at hflags' ⊢
    exact hle.trans hflags'
  rw [if_neg hx, hmakes'.beside] at hflags'
  rw [if_neg hx, hmakes.beside]
  split_ifs at hflags' ⊢ with hsilent
  · exact hle.trans hflags'
  · by_cases hkey : method.Relative ∨ method.Quartiles
    · -- the deviation threshold is another parameter, which is not changed
      have hsame : deviationThreshold (method.raised parameters larger) =
          deviationThreshold parameters := by
        refine numericParameter_raised_of_ne ?_ _ _
        revert hkey
        cases method <;> decide
      have hdeviation := hmakes'.deviation_eq
      rw [hsame, hmakes.deviation_eq] at hdeviation
      rw [ok.inj hdeviation]
      exact hle.trans hflags'
    · rw [threshold_eq_deviation hkey, hmakes.deviation_eq] at hthreshold
      rw [← ok.inj hthreshold]
      exact (lt_add_one deviation).le

/-! ## Proper bands -/

/-- What is claimed of a method for a baseline and parameters. -/
structure Method.Banded (method : Method) (hist : List ℝ) (parameters : Parameters ℝ) : Prop where
  interval : ∀ x y z, x ≤ y → y ≤ z → ¬ method.Flags hist parameters x →
    ¬ method.Flags hist parameters z → ¬ method.Flags hist parameters y
  expected : ∀ x r, method.result hist parameters x = .ok r →
    ¬ method.Flags hist parameters r.expectedValue
  far : ∀ baseline c, method.baseline hist parameters = .ok baseline → (∀ v ∈ baseline, v = c) →
    ∃ d, ∀ x, d < |x - c| → method.Flags hist parameters x
  larger : ∀ threshold larger x, method.threshold parameters = .ok threshold →
    threshold ≤ larger → method.Flags hist (method.raised parameters larger) x →
      method.Flags hist parameters x
  scaled : ∀ a x, 0 < a →
    (method.Flags (hist.map (a * ·)) parameters (a * x) ↔ method.Flags hist parameters x)
  shifted : ¬ method.Relative → ∀ d x,
    method.Flags (hist.map (· + d)) parameters (x + d) ↔ method.Flags hist parameters x
  quartiles : method = .iqrRule → ∀ baseline k, windowOf hist parameters = .ok baseline →
    method.threshold parameters = .ok k → ∀ x, method.Flags hist parameters x ↔
      let q1 := Lib.percentile baseline (1 / 4)
      let q3 := Lib.percentile baseline (3 / 4)
      x < q1 - k * (q3 - q1) ∨ q3 + k * (q3 - q1) < x

/-- When the claim holds. -/
structure Method.Careful (method : Method) (baseline : List ℝ) (deviation threshold : ℝ) :
    Prop where
  relative : method.Relative → 0 < threshold ∧ ¬ ∀ v ∈ baseline, v = 0
  silent : method.Silent → ¬ ∃ c, ∀ v ∈ baseline, v = c
  quartiles : method.Quartiles →
    0 < threshold ∧ ((∃ c, ∀ v ∈ baseline, v = c) → threshold ≤ deviation + 1)
  rule : method = .iqrRule → threshold ≤ deviation + 1 ∧
    Lib.percentile baseline (1 / 4) = Lib.percentile baseline (3 / 4)

section Parts

variable {deviation : ℝ} {b : Band ℝ}

theorem flags_of_band (hband : method.band hist parameters = .ok b) (x : ℝ) :
    method.Flags hist parameters x ↔ b.Flags x := by
  rw [flags_iff]
  constructor
  · rintro ⟨b', hb', hflags⟩
    obtain rfl := ok.inj (hband.symm.trans hb')
    exact hflags
  · intro hflags
    exact ⟨b, hband, hflags⟩

theorem Method.Makes.unit_constant (h : method.Makes hist parameters baseline deviation b)
    (hc : ∀ v ∈ baseline, v = c) : b.center = c ∧ b.unit = if method.Relative then c else 0 :=
  h.fits.constant c hc

/-- The expected value is not flagged exactly when the threshold is positive. -/
theorem expected_iff (hband : method.band hist parameters = .ok b) :
    (∀ x r, method.result hist parameters x = .ok r →
      ¬ method.Flags hist parameters r.expectedValue) ↔ 0 < b.threshold := by
  constructor
  · intro h
    obtain ⟨r, hr⟩ := result_of_band hband 0
    obtain ⟨b', hb', hexpected, -⟩ := band_of_result hr
    obtain rfl := ok.inj (hband.symm.trans hb')
    have hcenter := h 0 r hr
    rw [hexpected, flags_of_band hband, b.not_flags_center] at hcenter
    exact hcenter
  · intro h x r hr
    obtain ⟨b', hb', hexpected, -⟩ := band_of_result hr
    obtain rfl := ok.inj (hband.symm.trans hb')
    rw [hexpected, flags_of_band hband, b.not_flags_center]
    exact h

theorem far_iff (hband : method.band hist parameters = .ok b)
    (h : method.Makes hist parameters baseline deviation b) (hc : ∀ v ∈ baseline, v = c) :
    (∃ d, ∀ x, d < |x - c| → method.Flags hist parameters x) ↔
      b.unit ≠ 0 ∨ b.threshold ≤ b.beside := by
  rw [← b.flags_far, (h.unit_constant hc).1]
  simp only [flags_of_band hband]

theorem median_bounds (hne : baseline ≠ []) : Lib.percentile baseline (1 / 4) ≤ median baseline ∧
      median baseline ≤ Lib.percentile baseline (3 / 4) := by
  rw [median_eq_percentile hne]
  exact ⟨percentile_mono hne (by norm_num) (by norm_num) (by norm_num),
    percentile_mono hne (by norm_num) (by norm_num) (by norm_num)⟩

theorem quartiles_not_relative (h : method.Quartiles) :
    ¬ method.Relative ∧ ¬ (method.Relative ∨ method.Silent) := by
  revert h
  cases method <;> decide

theorem silent_not_relative (h : method.Silent) :
    ¬ method.Relative ∧ ¬ (method.Relative ∨ method.Quartiles) := by
  revert h
  cases method <;> decide

theorem Method.Makes.threshold_pos (h : method.Makes hist parameters baseline deviation b)
    (hkey : ¬ (method.Relative ∨ method.Quartiles)) :
    0 < b.threshold ∧ b.threshold = deviation := by
  have hthreshold := h.threshold_eq
  rw [threshold_eq_deviation hkey, h.deviation_eq] at hthreshold
  rw [← ok.inj hthreshold]
  exact ⟨h.deviation_pos, rfl⟩

theorem rule_of_quartiles (hband : method.band hist parameters = .ok b)
    (h : method.Makes hist parameters baseline deviation b) (hmethod : method = .iqrRule)
    (hpositive : 0 < b.threshold)
    (hrule : ∀ x, method.Flags hist parameters x ↔
      x < Lib.percentile baseline (1 / 4) - b.threshold *
        (Lib.percentile baseline (3 / 4) - Lib.percentile baseline (1 / 4)) ∨
      Lib.percentile baseline (3 / 4) + b.threshold *
        (Lib.percentile baseline (3 / 4) - Lib.percentile baseline (1 / 4)) < x) :
    b.threshold ≤ deviation + 1 ∧
      Lib.percentile baseline (1 / 4) = Lib.percentile baseline (3 / 4) := by
  have hquartiles : method.Quartiles := hmethod ▸ (by decide)
  obtain ⟨hcenter, hunit⟩ := h.fits.quartiles hquartiles
  obtain ⟨hlow, hhigh⟩ := median_bounds h.fits.ne_nil
  generalize Lib.percentile baseline (1 / 4) = q1 at *
  generalize Lib.percentile baseline (3 / 4) = q3 at *
  dsimp only at hcenter hunit
  by_cases hsame : q1 = q3
  · refine ⟨?_, hsame⟩
    subst hsame
    rw [sub_self] at hunit
    have hflags := (hrule (b.center + 1)).2 (.inr (by rw [sub_self, mul_zero, hcenter]; linarith))
    rw [flags_of_band hband, Band.Flags, Band.distance, if_neg (not_not.2 hunit),
      if_neg (by linarith), h.beside, if_neg (quartiles_not_relative hquartiles).2] at hflags
    exact hflags
  · -- the observation at the threshold from the median is flagged, but within the quartiles' rule
    have hwidth : 0 < q3 - q1 := sub_pos.2 (lt_of_le_of_ne (hlow.trans hhigh) hsame)
    have hunitNe : b.unit ≠ 0 := by
      rw [hunit]
      exact hwidth.ne'
    have hflags : method.Flags hist parameters (b.center + b.threshold * (q3 - q1)) := by
      rw [flags_of_band hband, Band.Flags, Band.distance, if_pos hunitNe, add_sub_cancel_left, hunit,
        abs_mul, mul_div_cancel_right₀ _ (abs_pos.2 hwidth.ne').ne']
      exact le_abs_self _
    have hproduct := mul_pos hpositive hwidth
    rcases (hrule _).1 hflags with hbelow | habove
    · linarith
    · linarith

theorem quartiles_of_rule (hband : method.band hist parameters = .ok b)
    (h : method.Makes hist parameters baseline deviation b) (hmethod : method = .iqrRule)
    (hpositive : 0 < b.threshold) (hthreshold : b.threshold ≤ deviation + 1)
    (hsame : Lib.percentile baseline (1 / 4) = Lib.percentile baseline (3 / 4)) (x : ℝ) :
    method.Flags hist parameters x ↔ x < Lib.percentile baseline (1 / 4) - b.threshold *
        (Lib.percentile baseline (3 / 4) - Lib.percentile baseline (1 / 4)) ∨
      Lib.percentile baseline (3 / 4) + b.threshold *
        (Lib.percentile baseline (3 / 4) - Lib.percentile baseline (1 / 4)) < x := by
  have hquartiles : method.Quartiles := hmethod ▸ (by decide)
  obtain ⟨hcenter, hunit⟩ := h.fits.quartiles hquartiles
  obtain ⟨hlow, hhigh⟩ := median_bounds h.fits.ne_nil
  dsimp only at hcenter hunit
  have hmiddle : b.center = Lib.percentile baseline (3 / 4) := by
    rw [hcenter]
    exact hhigh.antisymm (hsame.symm.le.trans hlow)
  rw [hsame, sub_self] at hunit
  rw [flags_of_band hband, Band.Flags, Band.distance, if_neg (not_not.2 hunit), hsame, sub_self,
    mul_zero, sub_zero, add_zero, ← hmiddle, h.beside,
    if_neg (quartiles_not_relative hquartiles).2]
  split_ifs with hx
  · rw [hx]
    exact iff_of_false (not_le.2 hpositive) (by simp)
  · exact iff_of_true hthreshold (lt_or_gt_of_ne hx)

end Parts

/-- For accepted parameters the flags of a method form a proper band exactly when its threshold is
positive, a constant baseline has a unit or is given one, and the quartiles of the rule coincide. -/
theorem banded_iff (method : Method) (hist : List ℝ) (parameters : Parameters ℝ)
    (haccepts : method.Accepts hist parameters) :
    method.Banded hist parameters ↔ ∀ baseline deviation threshold,
      method.baseline hist parameters = .ok baseline →
        deviationThreshold parameters = .ok deviation →
          method.threshold parameters = .ok threshold →
            method.Careful baseline deviation threshold := by
  obtain ⟨b, hband⟩ := accepts_iff.1 haccepts
  obtain ⟨baseline, deviation, h⟩ := makes_of_band hband
  constructor
  · intro hbanded baseline' deviation' threshold hbaseline hdeviation hthreshold
    obtain rfl := ok.inj (h.baseline_eq.symm.trans hbaseline)
    obtain rfl := ok.inj (h.deviation_eq.symm.trans hdeviation)
    obtain rfl := ok.inj (h.threshold_eq.symm.trans hthreshold)
    have hpositive := (expected_iff hband).1 hbanded.expected
    have hfar : ∀ c, (∀ v ∈ baseline, v = c) → b.unit ≠ 0 ∨ b.threshold ≤ b.beside :=
      fun c hc => (far_iff hband h hc).1 (hbanded.far baseline c hbaseline hc)
    refine ⟨fun hrelative => ⟨hpositive, fun hzero => ?_⟩, ?_, ?_, ?_⟩
    · have hunit := (h.unit_constant hzero).2
      rw [ite_self] at hunit
      have hbeside := (hfar 0 hzero).resolve_left (not_not.2 hunit)
      rw [h.beside, if_pos (.inl hrelative)] at hbeside
      exact hbeside.not_gt hpositive
    · rintro hsilent ⟨c, hc⟩
      have hunit := (h.unit_constant hc).2
      rw [if_neg (silent_not_relative hsilent).1] at hunit
      have hbeside := (hfar c hc).resolve_left (not_not.2 hunit)
      rw [h.beside, if_pos (.inr hsilent)] at hbeside
      exact hbeside.not_gt hpositive
    · rintro hquartiles
      refine ⟨hpositive, ?_⟩
      rintro ⟨c, hc⟩
      have hunit := (h.unit_constant hc).2
      rw [if_neg (quartiles_not_relative hquartiles).1] at hunit
      have hbeside := (hfar c hc).resolve_left (not_not.2 hunit)
      rw [h.beside, if_neg (quartiles_not_relative hquartiles).2] at hbeside
      exact hbeside
    · intro hmethod
      have hwindow : windowOf hist parameters = .ok baseline := by
        rw [← hbaseline, hmethod]
        rfl
      exact rule_of_quartiles hband h hmethod hpositive
        (hbanded.quartiles hmethod baseline b.threshold hwindow hthreshold)
  · intro hcareful
    have hcareful :=
      hcareful baseline deviation b.threshold h.baseline_eq h.deviation_eq h.threshold_eq
    have hpositive : 0 < b.threshold := by
      by_cases hkey : method.Relative ∨ method.Quartiles
      · rcases hkey with hrelative | hquartiles
        · exact (hcareful.relative hrelative).1
        · exact (hcareful.quartiles hquartiles).1
      · exact (h.threshold_pos hkey).1
    refine ⟨?_, (expected_iff hband).2 hpositive, ?_, ?_, ?_, ?_, ?_⟩
    · intro x y z hxy hyz hx hz
      rw [flags_of_band hband] at hx hz ⊢
      exact b.not_flags_between hxy hyz hx hz
    · intro baseline' c hbaseline hc
      obtain rfl := ok.inj (h.baseline_eq.symm.trans hbaseline)
      refine (far_iff hband h hc).2 ?_
      have hunit := (h.unit_constant hc).2
      by_cases hrelative : method.Relative
      · left
        rw [hunit, if_pos hrelative]
        rintro rfl
        exact (hcareful.relative hrelative).2 hc
      · right
        have hsilent : ¬ method.Silent := fun hsilent => hcareful.silent hsilent ⟨c, hc⟩
        rw [h.beside, if_neg (not_or.2 ⟨hrelative, hsilent⟩)]
        by_cases hquartiles : method.Quartiles
        · exact (hcareful.quartiles hquartiles).2 ⟨c, hc⟩
        · rw [(h.threshold_pos (not_or.2 ⟨hrelative, hquartiles⟩)).2]
          exact (lt_add_one deviation).le
    · intro threshold larger x hthreshold hle hflags
      exact flags_of_raised hband hthreshold hle hflags
    · intro a x ha
      have hmap : (a * ·) = affine a 0 := funext fun v => (add_zero (a * v)).symm
      have hx : a * x = affine a 0 x := (add_zero (a * x)).symm
      rw [hmap, hx]
      exact flags_affine ha (fun _ => rfl) x
    · intro hrelative d x
      have hmap : (· + d) = affine 1 d := by
        funext v
        rw [affine, one_mul]
      have hx : x + d = affine 1 d x := by rw [affine, one_mul]
      rw [hmap, hx]
      exact flags_affine one_pos (fun h => absurd h hrelative) x
    · intro hmethod baseline' k hwindow hk x
      have hbaseline : method.baseline hist parameters = .ok baseline' := by
        rw [hmethod]
        exact hwindow
      obtain rfl := ok.inj (h.baseline_eq.symm.trans hbaseline)
      obtain rfl := ok.inj (h.threshold_eq.symm.trans hk)
      obtain ⟨hthreshold, hsame⟩ := hcareful.rule hmethod
      exact quartiles_of_rule hband h hmethod hpositive hthreshold hsame x

/-! ## Without parameters -/

namespace Defaults

/-- No parameter is given. -/
def absent : Parameters ℝ := fun _ => none

theorem band_absent {core : ℝ × ℝ} {threshold : ℝ}
    (hsample : method.minimumSampleSize ≤ (hist ++ [0]).length)
    (hcore : method.core hist absent = .ok core)
    (hthreshold : method.threshold absent = .ok threshold) :
    method.band hist absent = .ok ⟨core.1, core.2, method.jump ((3 : ℚ) : ℝ), threshold⟩ := by
  have hdeviation : deviationThreshold absent = .ok ((3 : ℚ) : ℝ) := rfl
  have hbounds : (0 : ℝ) < ((3 : ℚ) : ℝ) ∧ ((3 : ℚ) : ℝ) ≤ ((20 : ℚ) : ℝ) := by norm_num
  rw [Method.band, ensure_of hsample, ok_bind, hdeviation, ok_bind, ensure_of hbounds, ok_bind,
    Method.bandOf, hcore, ok_bind, lastThreshold_eq hdeviation, hthreshold]
  rfl

theorem percentile_core : Method.percentileThreshold.core [5, 5, 5, 5] absent =
    .ok (Lib.percentile [5, 5, 5, 5] ((95 / 100 : ℚ) : ℝ),
      Lib.percentile [5, 5, 5, 5] ((95 / 100 : ℚ) : ℝ)) := by
  have hquantile : numericParameter absent "percentile" ((95 / 100 : ℚ) : ℝ) =
    .ok ((95 / 100 : ℚ) : ℝ) := rfl
  have hbounds : (0 : ℝ) ≤ ((95 / 100 : ℚ) : ℝ) ∧ ((95 / 100 : ℚ) : ℝ) ≤ 1 := by norm_num
  rw [Method.core, hquantile, ok_bind, percentile, ensure_of (cons_ne_nil _ _), ok_bind,
    ensure_of hbounds]
  rfl

theorem percentile_threshold : Method.percentileThreshold.threshold absent = .ok 0 := by
  rw [Method.threshold, Method.defaultThreshold, if_pos (by decide)]
  rfl

/-- An observation at the expected percentile is flagged. -/
theorem not_banded : Method.percentileThreshold.Accepts [5, 5, 5, 5] absent ∧
    ¬ Method.percentileThreshold.Banded [5, 5, 5, 5] absent := by
  have hband := band_absent (by decide) percentile_core percentile_threshold
  refine ⟨accepts_iff.2 ⟨_, hband⟩, fun h => ?_⟩
  exact lt_irrefl _ ((expected_iff hband).1 h.expected)

theorem accepts_zScore : Method.zScore.Accepts [1, 2, 3] absent :=
  accepts_iff.2 ⟨_, band_absent (by decide) rfl (threshold_eq_deviation (by decide))⟩

/-- The flags of the standard score are a proper band. -/
theorem banded_zScore : Method.zScore.Banded [1, 2, 3] absent :=
  (banded_iff Method.zScore [1, 2, 3] absent accepts_zScore).2 fun _ _ _ _ _ _ =>
    ⟨fun h => absurd h (by decide), fun h => absurd h (by decide), fun h => absurd h (by decide),
      fun h => absurd h (by decide)⟩

end Defaults

end Intel4Ops.Statistical
