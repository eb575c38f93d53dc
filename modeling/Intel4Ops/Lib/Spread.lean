import Intel4Ops.Lib.Statistics
import Mathlib.Algebra.Order.Floor.Ring
import Mathlib.Tactic.Ring

/-!
# Percentiles and spread

Percentiles that interpolate between neighbours, the sample variance, and the median distance from
the median. Scaling and shifting every value scales and shifts a location of the values, and scales
a spread.
-/

namespace Lib

open List

variable {K : Type*} [Field K]

/-- Scale by a factor and shift. -/
def affine (a b x : K) : K := a * x + b

variable [LinearOrder K]

/-! ## Percentiles -/

section Percentiles

variable [FloorSemiring K]

/-- The value at a position of a list, on the line between the two entries next to it. -/
def interpolate (values : List K) (position : K) : K :=
  let lower := ⌊position⌋₊
  let upper := ⌈position⌉₊
  if lower = upper then values.getD lower 0
  else values.getD lower 0 + (values.getD upper 0 - values.getD lower 0) * (position - lower)

def quantilePosition (values : List K) (quantile : K) : K :=
  ((values.length - 1 : ℕ) : K) * quantile

def percentile (values : List K) (quantile : K) : K :=
  interpolate (values.insertionSort (· ≤ ·)) (quantilePosition values quantile)

end Percentiles

/-! ## Spread -/

/-- The sample variance. -/
def variance (values : List K) : K :=
  (values.map fun v => (v - mean values) ^ 2).sum / (values.length - 1 : ℕ)

def medianAbsoluteDeviation (values : List K) : K :=
  median (values.map fun v => |v - median values|)

/-! ## Entries and sums -/

section Entries

variable {K : Type*} [Zero K] {values : List K} {c : K}

theorem getD_map_of_lt (f : K → K) {i : ℕ} (hi : i < values.length) :
    (values.map f).getD i 0 = f (values.getD i 0) := by
  rw [getD_eq_getElem _ _ hi, getD_eq_getElem _ _ (by rwa [length_map]), getElem_map]

theorem getD_of_constant (hconstant : ∀ v ∈ values, v = c) {i : ℕ} (hi : i < values.length) :
    values.getD i 0 = c := by
  rw [getD_eq_getElem _ _ hi]
  exact hconstant _ (getElem_mem hi)

variable [LinearOrder K]

theorem getD_le_getD (hsorted : values.Pairwise (· ≤ ·)) {i j : ℕ} (hij : i ≤ j)
    (hj : j < values.length) : values.getD i 0 ≤ values.getD j 0 := by
  rw [getD_eq_getElem _ _ hj, getD_eq_getElem _ _ (hij.trans_lt hj)]
  rcases hij.eq_or_lt with rfl | hij
  · exact le_rfl
  · exact pairwise_iff_getElem.1 hsorted i j (hij.trans hj) hj hij

end Entries

section Sorted

variable {K : Type*} [LinearOrder K] {values : List K} {c : K}

theorem insertionSort_ne_nil (hne : values ≠ []) : values.insertionSort (· ≤ ·) ≠ [] := by
  intro h
  have hlength := values.length_insertionSort (· ≤ ·)
  rw [h] at hlength
  exact hne (length_eq_zero_iff.1 hlength.symm)

theorem sorted_constant (hconstant : ∀ v ∈ values, v = c) :
    ∀ v ∈ values.insertionSort (· ≤ ·), v = c := fun v hv =>
  hconstant v ((perm_insertionSort _ _).mem_iff.1 hv)

end Sorted

section Sums

variable {K : Type*} [Field K] {values : List K} {a b c : K}

theorem sum_map_affine (values : List K) :
    (values.map (affine a b)).sum = a * values.sum + values.length * b := by
  induction values with
  | nil => simp
  | cons v values ih =>
    rw [map_cons, sum_cons, sum_cons, length_cons, ih, affine]
    push_cast
    ring

theorem sum_squares_affine (values : List K) (center : K) :
    ((values.map (affine a b)).map fun v => (v - affine a b center) ^ 2).sum =
      a ^ 2 * (values.map fun v => (v - center) ^ 2).sum := by
  induction values with
  | nil => simp
  | cons v values ih =>
    simp only [map_cons, sum_cons]
    rw [ih, affine, affine]
    ring

theorem sum_constant (hconstant : ∀ v ∈ values, v = c) : values.sum = values.length * c := by
  induction values with
  | nil => simp
  | cons v values ih =>
    obtain ⟨rfl, hrest⟩ := forall_mem_cons.1 hconstant
    rw [sum_cons, length_cons, ih hrest]
    push_cast
    ring

end Sums

variable {values : List K} {a b c : K}

section Ordered

variable [IsStrictOrderedRing K]

theorem affine_le_affine (ha : 0 < a) {x y : K} : affine a b x ≤ affine a b y ↔ x ≤ y := by
  rw [affine, affine, add_le_add_iff_right]
  exact mul_le_mul_iff_of_pos_left ha

theorem insertionSort_affine (ha : 0 < a) (values : List K) :
    (values.map (affine a b)).insertionSort (· ≤ ·) =
      (values.insertionSort (· ≤ ·)).map (affine a b) := by
  symm
  apply map_insertionSort
  intro x _ y _
  exact (affine_le_affine ha).symm

/-! ## Locations -/

theorem mean_affine (hne : values ≠ []) :
    mean (values.map (affine a b)) = affine a b (mean values) := by
  have hlength : (values.length : K) ≠ 0 := Nat.cast_ne_zero.2 fun h => hne (length_eq_zero_iff.1 h)
  rw [mean, mean, sum_map_affine, length_map, affine]
  field_simp

theorem middle_affine (hne : values ≠ []) :
    middle (values.map (affine a b)) = affine a b (middle values) := by
  have hlength : 0 < values.length := length_pos_iff.2 hne
  have hhalf : values.length / 2 < values.length := by omega
  have hbefore : values.length / 2 - 1 < values.length := by omega
  rw [middle, middle, length_map, getD_map_of_lt _ hhalf, getD_map_of_lt _ hbefore]
  by_cases hodd : values.length % 2 = 1
  · rw [if_pos hodd, if_pos hodd]
  · rw [if_neg hodd, if_neg hodd]
    simp only [affine]
    ring

theorem median_affine (ha : 0 < a) (hne : values ≠ []) :
    median (values.map (affine a b)) = affine a b (median values) := by
  rw [median, median, insertionSort_affine ha, middle_affine (insertionSort_ne_nil hne)]

theorem mean_constant (hne : values ≠ []) (hconstant : ∀ v ∈ values, v = c) : mean values = c := by
  have hlength : (values.length : K) ≠ 0 := Nat.cast_ne_zero.2 fun h => hne (length_eq_zero_iff.1 h)
  rw [mean, sum_constant hconstant, mul_div_cancel_left₀ _ hlength]

theorem median_constant (hne : values ≠ []) (hconstant : ∀ v ∈ values, v = c) :
    median values = c := by
  have hsorted := sorted_constant hconstant
  have hlength : 0 < (values.insertionSort (· ≤ ·)).length :=
    length_pos_iff.2 (insertionSort_ne_nil hne)
  rw [median, middle]
  rw [getD_of_constant hsorted (by omega), getD_of_constant hsorted (by omega)]
  split_ifs
  · rfl
  · ring

/-! ## Spreads -/

theorem variance_affine (hne : values ≠ []) :
    variance (values.map (affine a b)) = a ^ 2 * variance values := by
  rw [variance, variance, mean_affine hne, sum_squares_affine, length_map, mul_div_assoc]

theorem variance_constant (hne : values ≠ []) (hconstant : ∀ v ∈ values, v = c) :
    variance values = 0 := by
  have hzero : ∀ square ∈ values.map fun v => (v - mean values) ^ 2, square = 0 := by
    intro square hsquare
    obtain ⟨v, hv, rfl⟩ := mem_map.1 hsquare
    rw [mean_constant hne hconstant, hconstant v hv, sub_self, zero_pow two_ne_zero]
  rw [variance, sum_eq_zero hzero, zero_div]

theorem medianAbsoluteDeviation_affine (ha : 0 < a) (hne : values ≠ []) :
    medianAbsoluteDeviation (values.map (affine a b)) = a * medianAbsoluteDeviation values := by
  have hdistances : (values.map (affine a b)).map (fun v =>
      |v - median (values.map (affine a b))|) =
        (values.map fun v => |v - median values|).map (affine a 0) := by
    rw [median_affine ha hne, map_map, map_map]
    congr 1
    funext v
    simp only [Function.comp_apply, affine]
    rw [add_sub_add_right_eq_sub, ← mul_sub, abs_mul, abs_of_pos ha, add_zero]
  rw [medianAbsoluteDeviation, hdistances, median_affine ha (by simpa using hne), affine, add_zero,
    medianAbsoluteDeviation]

theorem medianAbsoluteDeviation_constant (hne : values ≠ []) (hconstant : ∀ v ∈ values, v = c) :
    medianAbsoluteDeviation values = 0 := by
  refine median_constant (by simpa using hne) ?_
  intro distance hdistance
  obtain ⟨v, hv, rfl⟩ := mem_map.1 hdistance
  rw [median_constant hne hconstant, hconstant v hv, sub_self, abs_zero]

/-! ## Between the entries -/

variable [FloorSemiring K]

theorem interpolate_affine {position : K} (hposition : ⌈position⌉₊ < values.length) :
    interpolate (values.map (affine a b)) position = affine a b (interpolate values position) := by
  have hlower : ⌊position⌋₊ < values.length := (Nat.floor_le_ceil position).trans_lt hposition
  rw [interpolate, interpolate]
  rw [getD_map_of_lt _ hlower, getD_map_of_lt _ hposition]
  split_ifs
  · rfl
  · simp only [affine]
    ring

theorem interpolate_bounds (hsorted : values.Pairwise (· ≤ ·)) {position : K}
    (hnonneg : 0 ≤ position) (hposition : ⌈position⌉₊ < values.length) :
    values.getD ⌊position⌋₊ 0 ≤ interpolate values position ∧
      interpolate values position ≤ values.getD ⌈position⌉₊ 0 := by
  have hentries := getD_le_getD hsorted (Nat.floor_le_ceil position) hposition
  have hbelow : 0 ≤ position - ⌊position⌋₊ := sub_nonneg.2 (Nat.floor_le hnonneg)
  have habove : position - ⌊position⌋₊ ≤ 1 := by
    have := (Nat.lt_floor_add_one position).le
    linarith
  rw [interpolate]
  split_ifs with hsame
  · rw [hsame]
    exact ⟨le_rfl, le_rfl⟩
  · have hstep := sub_nonneg.2 hentries
    constructor
    · have := mul_nonneg hstep hbelow
      linarith
    · have := mul_le_mul_of_nonneg_left habove hstep
      linarith

theorem interpolate_mono (hsorted : values.Pairwise (· ≤ ·)) {p q : K} (hp : 0 ≤ p) (hpq : p ≤ q)
    (hq : ⌈q⌉₊ < values.length) : interpolate values p ≤ interpolate values q := by
  have hq0 : 0 ≤ q := hp.trans hpq
  have hpupper : ⌈p⌉₊ < values.length := (Nat.ceil_mono hpq).trans_lt hq
  rcases (Nat.floor_mono hpq).eq_or_lt with hfloor | hfloor
  · by_cases hsame : ⌊p⌋₊ = ⌈p⌉₊
    · have hvalue : interpolate values p = values.getD ⌊p⌋₊ 0 := by
        rw [interpolate]
        rw [if_pos hsame]
      rw [hvalue, hfloor]
      exact (interpolate_bounds hsorted hq0 hq).1
    · -- both positions are between the same entries
      have hbetween : (⌊p⌋₊ : K) < p := by
        refine lt_of_le_of_ne (Nat.floor_le hp) fun heq => hsame ?_
        rw [← heq, Nat.ceil_natCast, Nat.floor_natCast]
      have hpceil : ⌈p⌉₊ = ⌊p⌋₊ + 1 := by
        have := Nat.ceil_le_floor_add_one p
        have := Nat.floor_le_ceil p
        omega
      have hqceil : ⌈q⌉₊ = ⌊q⌋₊ + 1 := by
        have hupper := Nat.ceil_le_floor_add_one q
        have hlower := Nat.ceil_mono hpq
        omega
      rw [interpolate, interpolate]
      rw [if_neg (by omega), if_neg (by omega), hpceil, hqceil, hfloor]
      have hstep := sub_nonneg.2 (getD_le_getD hsorted (Nat.le_succ ⌊q⌋₊) (by omega))
      have := mul_le_mul_of_nonneg_left (sub_le_sub_right hpq (⌊q⌋₊ : K)) hstep
      linarith
  · have hupper : ⌈p⌉₊ ≤ ⌊q⌋₊ := by
      have := Nat.ceil_le_floor_add_one p
      omega
    calc interpolate values p ≤ values.getD ⌈p⌉₊ 0 := (interpolate_bounds hsorted hp hpupper).2
      _ ≤ values.getD ⌊q⌋₊ 0 := getD_le_getD hsorted hupper ((Nat.floor_le_ceil q).trans_lt hq)
      _ ≤ interpolate values q := (interpolate_bounds hsorted hq0 hq).1

theorem interpolate_constant (hconstant : ∀ v ∈ values, v = c) {position : K}
    (hposition : ⌈position⌉₊ < values.length) : interpolate values position = c := by
  have hlower : ⌊position⌋₊ < values.length := (Nat.floor_le_ceil position).trans_lt hposition
  rw [interpolate]
  rw [getD_of_constant hconstant hlower, getD_of_constant hconstant hposition, sub_self, zero_mul,
    add_zero, ite_self]

/-! ## Percentiles of a list -/

variable {quantile : K}

theorem quantilePosition_lt (hne : values ≠ []) (hquantile : quantile ≤ 1) :
    ⌈quantilePosition values quantile⌉₊ < (values.insertionSort (· ≤ ·)).length := by
  have hlength : 0 < values.length := length_pos_iff.2 hne
  have hposition : quantilePosition values quantile ≤ ((values.length - 1 : ℕ) : K) :=
    mul_le_of_le_one_right (Nat.cast_nonneg _) hquantile
  have hceil := Nat.ceil_le.2 hposition
  rw [length_insertionSort]
  omega

theorem percentile_affine (ha : 0 < a) (hne : values ≠ []) (hquantile : quantile ≤ 1) :
    percentile (values.map (affine a b)) quantile = affine a b (percentile values quantile) := by
  rw [percentile, percentile, insertionSort_affine ha, quantilePosition, length_map]
  exact interpolate_affine (quantilePosition_lt hne hquantile)

theorem percentile_constant (hne : values ≠ []) (hquantile : quantile ≤ 1)
    (hconstant : ∀ v ∈ values, v = c) : percentile values quantile = c :=
  interpolate_constant (sorted_constant hconstant) (quantilePosition_lt hne hquantile)

theorem percentile_mono (hne : values ≠ []) {p q : K} (hp : 0 ≤ p) (hpq : p ≤ q) (hq : q ≤ 1) :
    percentile values p ≤ percentile values q := by
  refine interpolate_mono (pairwise_insertionSort _ _) ?_ ?_ (quantilePosition_lt hne hq)
  · exact mul_nonneg (Nat.cast_nonneg _) hp
  · exact mul_le_mul_of_nonneg_left hpq (Nat.cast_nonneg _)

theorem median_eq_percentile (hne : values ≠ []) : median values = percentile values (1 / 2) := by
  have hlength : 0 < values.length := length_pos_iff.2 hne
  rw [median, middle, percentile, interpolate, quantilePosition]
  rw [length_insertionSort]
  by_cases hodd : values.length % 2 = 1
  · obtain ⟨m, hm⟩ : ∃ m, values.length = 2 * m + 1 := ⟨values.length / 2, by omega⟩
    have hposition : ((values.length - 1 : ℕ) : K) * (1 / 2) = (m : K) := by
      rw [hm, Nat.add_sub_cancel]
      push_cast
      ring
    rw [if_pos hodd, hposition, Nat.floor_natCast, Nat.ceil_natCast, if_pos rfl]
    congr 1
    omega
  · obtain ⟨m, hm⟩ : ∃ m, values.length = 2 * m + 2 := ⟨values.length / 2 - 1, by omega⟩
    have hposition : ((values.length - 1 : ℕ) : K) * (1 / 2) = (m : K) + 1 / 2 := by
      rw [hm, show 2 * m + 2 - 1 = 2 * m + 1 by omega]
      push_cast
      ring
    have hfloor : ⌊(m : K) + 1 / 2⌋₊ = m := by
      rw [Nat.floor_eq_iff (by positivity)]
      constructor <;> linarith
    have hceil : ⌈(m : K) + 1 / 2⌉₊ = m + 1 := by
      rw [Nat.ceil_eq_iff (by omega)]
      push_cast
      constructor <;> linarith
    rw [if_neg hodd, hposition, hfloor, hceil, if_neg (by omega),
      show values.length / 2 - 1 = m by omega, show values.length / 2 = m + 1 by omega]
    ring

end Ordered

end Lib
