import Intel4Ops.Forecasting.Trends
import Mathlib.Tactic.FinCases

/-!
# Parabolas that continue

The elimination on the normal equations keeps their solutions and leaves unit columns behind, and
from five points on no pivot is small. So the least-squares parabola through a parabola is the
parabola itself.
-/

namespace Intel4Ops.Forecasting

open Lib List

/-! ## Elimination -/

/-- The unknowns satisfy each of the equations. -/
def Solves (matrix : Equations) (x : Fin 3 → ℚ) : Prop :=
  ∀ row, ((List.finRange 3).map fun j => matrix row j.castSucc * x j).sum = matrix row (Fin.last 3)

/-- The column has a one in its own row and zeros elsewhere. -/
def UnitColumn (matrix : Equations) (column : Fin 3) : Prop :=
  ∀ row, matrix row column.castSucc = if row = column then 1 else 0

/-- The equations after the elimination of a column with the given pivot. -/
def reduced (matrix : Equations) (column pivot : Fin 3) : Equations := fun row j =>
  if row = column then matrix pivot j / matrix pivot column.castSucc
  else matrix (Equiv.swap column pivot row) j -
    matrix (Equiv.swap column pivot row) column.castSucc *
      (matrix pivot j / matrix pivot column.castSucc)

section

variable {matrix : Equations} {column pivot row : Fin 3} {x : Fin 3 → ℚ}

theorem reduced_self (j : Fin 4) :
    reduced matrix column pivot column j = matrix pivot j / matrix pivot column.castSucc :=
  if_pos rfl

theorem reduced_of_ne (h : row ≠ column) (j : Fin 4) :
    reduced matrix column pivot row j = matrix (Equiv.swap column pivot row) j -
      matrix (Equiv.swap column pivot row) column.castSucc *
        (matrix pivot j / matrix pivot column.castSucc) :=
  if_neg h

theorem eliminate_eq_ok
    (h : 1 / 10 ^ 12 ≤ |matrix (pivotRow matrix column) column.castSucc|) :
    eliminate matrix column = .ok (reduced matrix column (pivotRow matrix column)) := by
  rw [eliminate, ensure_of (not_lt.2 h)]
  refine congrArg Except.ok ?_
  funext row j
  dsimp only
  rw [Equiv.swap_apply_left]
  rfl

theorem solves_iff : Solves matrix x ↔
    ∀ row, matrix row 0 * x 0 + matrix row 1 * x 1 + matrix row 2 * x 2 = matrix row 3 := by
  have hrange : List.finRange 3 = [0, 1, 2] := rfl
  simp only [Solves, hrange, map_cons, map_nil, sum_cons, sum_nil, add_zero, add_assoc]
  rfl

theorem reduced_solves (hpivot : matrix pivot column.castSucc ≠ 0) (h : Solves matrix x) :
    Solves (reduced matrix column pivot) x := by
  rw [solves_iff] at h ⊢
  have hunit : matrix pivot 0 / matrix pivot column.castSucc * x 0 +
      matrix pivot 1 / matrix pivot column.castSucc * x 1 +
        matrix pivot 2 / matrix pivot column.castSucc * x 2 =
          matrix pivot 3 / matrix pivot column.castSucc := by
    rw [← h pivot]
    ring
  intro row
  by_cases hrow : row = column
  · subst hrow
    simp only [reduced_self]
    exact hunit
  · simp only [reduced_of_ne hrow]
    -- a multiple of the pivot's equation is taken off the row's own
    linear_combination h (Equiv.swap column pivot row) -
      matrix (Equiv.swap column pivot row) column.castSucc * hunit

theorem reduced_unitColumn (hpivot : matrix pivot column.castSucc ≠ 0) :
    UnitColumn (reduced matrix column pivot) column := by
  intro row
  by_cases hrow : row = column
  · subst hrow
    rw [reduced_self, if_pos rfl, div_self hpivot]
  · rw [reduced_of_ne hrow, if_neg hrow, div_self hpivot, mul_one, sub_self]

/-- A pivot at or below the diagonal leaves the earlier columns as they are. -/
theorem UnitColumn.reduced {earlier : Fin 3} (h : UnitColumn matrix earlier)
    (hearlier : earlier < column) (hpivot : column ≤ pivot) :
    UnitColumn (reduced matrix column pivot) earlier := by
  have hzero : matrix pivot earlier.castSucc = 0 := by
    rw [h pivot, if_neg (ne_of_gt (lt_of_lt_of_le hearlier hpivot))]
  intro row
  by_cases hrow : row = column
  · subst hrow
    rw [reduced_self, hzero, zero_div, if_neg (ne_of_gt hearlier)]
  · rw [reduced_of_ne hrow, hzero, zero_div, mul_zero, sub_zero, h]
    by_cases hself : row = earlier
    · subst hself
      rw [Equiv.swap_apply_of_ne_of_ne hrow (ne_of_lt (lt_of_lt_of_le hearlier hpivot))]
    · rw [if_neg hself, if_neg]
      intro hswap
      apply hself
      rw [← Equiv.swap_apply_self column pivot row, hswap, Equiv.swap_apply_of_ne_of_ne
        (ne_of_lt hearlier) (ne_of_lt (lt_of_lt_of_le hearlier hpivot))]

theorem Solves.eq_of_unitColumns (h : Solves matrix x) (hunit : ∀ column, UnitColumn matrix column)
    (row : Fin 3) : matrix row 3 = x row := by
  rw [← solves_iff.1 h row]
  have hzero := hunit 0 row
  have hone := hunit 1 row
  have htwo := hunit 2 row
  simp only [Fin.castSucc_zero, Fin.castSucc_one] at hzero hone
  have hcast : (2 : Fin 3).castSucc = 2 := rfl
  rw [hcast] at htwo
  rw [hzero, hone, htwo]
  fin_cases row <;> simp

end

/-! ## Pivots -/

theorem foldl_largest (size : Fin 3 → ℚ) (rows : List (Fin 3)) (start : Fin 3) :
    rows.foldl (fun best row => if size best < size row then row else best) start ∈ start :: rows ∧
      ∀ row ∈ start :: rows, size row ≤ size
        (rows.foldl (fun best row => if size best < size row then row else best) start) := by
  induction rows generalizing start with
  | nil =>
    refine ⟨mem_cons_self, fun row hrow => ?_⟩
    rw [mem_singleton.1 hrow]
    rfl
  | cons next rows ih =>
    rw [foldl_cons]
    obtain ⟨hmem, hlargest⟩ := ih (if size start < size next then next else start)
    have hhead := hlargest _ mem_cons_self
    have hbetter : size start ≤ size (if size start < size next then next else start) ∧
        size next ≤ size (if size start < size next then next else start) := by
      split
      case isTrue hlt => exact ⟨hlt.le, le_rfl⟩
      case isFalse hlt => exact ⟨le_rfl, not_lt.1 hlt⟩
    constructor
    · rcases mem_cons.1 hmem with hbest | hbest
      · rw [hbest]
        split
        · exact mem_cons_of_mem _ mem_cons_self
        · exact mem_cons_self
      · exact mem_cons_of_mem _ (mem_cons_of_mem _ hbest)
    · intro row hrow
      rcases mem_cons.1 hrow with rfl | hrow
      · exact hbetter.1.trans hhead
      rcases mem_cons.1 hrow with rfl | hrow
      · exact hbetter.2.trans hhead
      · exact hlargest row (mem_cons_of_mem _ hrow)

section

variable (matrix : Equations) (column : Fin 3)

theorem le_pivotRow : column ≤ pivotRow matrix column := by
  have hmem := (foldl_largest (fun row => |matrix row column.castSucc|)
    ((List.finRange 3).filter (column ≤ ·)) column).1
  rcases mem_cons.1 hmem with hpivot | hpivot
  · exact hpivot.ge
  · exact of_decide_eq_true (mem_filter.1 hpivot).2

variable {column}

theorem le_abs_pivotRow {row : Fin 3} (hrow : column ≤ row) :
    |matrix row column.castSucc| ≤ |matrix (pivotRow matrix column) column.castSucc| :=
  (foldl_largest (fun row => |matrix row column.castSucc|)
    ((List.finRange 3).filter (column ≤ ·)) column).2 row
      (mem_cons_of_mem _ (mem_filter.2 ⟨mem_finRange row, decide_eq_true hrow⟩))

end

/-! ## The normal equations -/

/-- A polynomial of degree at most two, by its coefficients. -/
def parabola (a b c : ℚ) (index : ℕ) : ℚ := a + b * index + c * (index : ℚ) ^ 2

section

variable (a b c : ℚ)

theorem sum_moments (count power : ℕ) :
    ((List.range count).map fun (x : ℕ) => (x : ℚ) ^ power * parabola a b c x).sum =
      powerSum count power * a + powerSum count (power + 1) * b +
        powerSum count (power + 2) * c := by
  induction count with
  | zero => simp [powerSum]
  | succ count ih =>
    rw [range_succ, map_append, sum_append, ih, map_singleton,
      sum_singleton, powerSum_succ, powerSum_succ, powerSum_succ, parabola]
    ring

theorem momentSum_parabola (count power : ℕ) : momentSum (history (parabola a b c) count) power =
      powerSum count power * a + powerSum count (power + 1) * b +
        powerSum count (power + 2) * c := by
  rw [← sum_moments, momentSum, history_length, history, zipWith_map_right, zipWith_self]

theorem powerSum_zero (count : ℕ) : powerSum count 0 = count := by
  simp [powerSum]

theorem history_sum_parabola (count : ℕ) : (history (parabola a b c) count).sum =
      count * a + powerSum count 1 * b + powerSum count 2 * c := by
  have hmoments := sum_moments a b c count 0
  simp only [pow_zero, one_mul, powerSum_zero] at hmoments
  exact hmoments

theorem normalEquations_solves (count : ℕ) :
    Solves (normalEquations (history (parabola a b c) count)) ![a, b, c] := by
  refine solves_iff.2 fun row => ?_
  rw [normalEquations, history_length, history_sum_parabola, momentSum_parabola, momentSum_parabola]
  fin_cases row
  · rfl
  · rfl
  · rfl

end

theorem powerSum_three (count : ℕ) : powerSum count 3 = ((count : ℚ) * (count - 1) / 2) ^ 2 := by
  induction count with
  | zero => simp [powerSum]
  | succ count ih =>
    rw [powerSum_succ, ih]
    push_cast
    ring

theorem powerSum_four (count : ℕ) : powerSum count 4 =
      count * (count - 1) * (2 * count - 1) * (3 * (count : ℚ) ^ 2 - 3 * count - 1) / 30 := by
  induction count with
  | zero => simp [powerSum]
  | succ count ih =>
    rw [powerSum_succ, ih]
    push_cast
    ring

/-! ## No pivot is small -/

section

variable {values : List ℚ}

theorem normalEquations_zero_zero : normalEquations values 0 0 = values.length := rfl

theorem normalEquations_one_zero : normalEquations values 1 0 = powerSum values.length 1 := rfl

theorem normalEquations_two_zero : normalEquations values 2 0 = powerSum values.length 2 := rfl

theorem pivotRow_normalEquations (hcount : 5 ≤ values.length) :
    pivotRow (normalEquations values) 0 = 2 := by
  have hn : (5 : ℚ) ≤ values.length := by exact_mod_cast hcount
  have hone : (4 : ℚ) ≤ values.length - 1 := by linarith
  have htwo : (9 : ℚ) ≤ 2 * values.length - 1 := by linarith
  have hproduct : (20 : ℚ) ≤ values.length * (values.length - 1) := by nlinarith
  have hlargest := le_abs_pivotRow (normalEquations values) (Fin.zero_le 2)
  rw [Fin.castSucc_zero, normalEquations_two_zero, powerSum_two] at hlargest
  have hsquares := (le_abs_self _).trans hlargest
  -- neither the number of values nor the sum of the indices is as large
  match hrow : pivotRow (normalEquations values) 0 with
  | 0 =>
    rw [hrow, normalEquations_zero_zero, abs_of_nonneg (by linarith)] at hsquares
    nlinarith
  | 1 =>
    rw [hrow, normalEquations_one_zero, powerSum_one, abs_of_nonneg (by linarith)] at hsquares
    nlinarith
  | 2 => rfl

/-- The entries that the first column leaves in the other rows and columns. -/
structure FirstReduced (n : ℚ) (matrix : Equations) : Prop where
  one_one : matrix 1 1 = -(n * (n - 1) * (n - 2) * (n + 1) / (12 * (2 * n - 1)))
  one_two : matrix 1 2 = -(n * (n - 1) * (n - 2) * (n + 1) / 20)
  two_one : matrix 2 1 = -(n * (n - 1) * (n + 1) / (2 * (2 * n - 1)))
  two_two : matrix 2 2 = -(n * (n + 1) * (8 * n - 11) / 30)

theorem firstReduced (hcount : 5 ≤ values.length) :
    FirstReduced values.length (reduced (normalEquations values) 0 2) := by
  have hn : (5 : ℚ) ≤ values.length := by exact_mod_cast hcount
  have hzero : (values.length : ℚ) ≠ 0 := by linarith
  have hone : (values.length : ℚ) - 1 ≠ 0 := by linarith
  have htwo : (values.length : ℚ) * 2 - 1 ≠ 0 := by linarith
  have hcubes : powerSum values.length 3 / powerSum values.length 2 =
      3 * values.length * (values.length - 1) / (2 * (2 * values.length - 1)) := by
    rw [powerSum_two, powerSum_three]
    field_simp
    ring
  have hfourths : powerSum values.length 4 / powerSum values.length 2 =
      (3 * (values.length : ℚ) ^ 2 - 3 * values.length - 1) / 5 := by
    rw [powerSum_two, powerSum_four]
    field_simp
    ring
  constructor
  · have hentry : reduced (normalEquations values) 0 2 1 1 = powerSum values.length 2 -
        powerSum values.length 1 * (powerSum values.length 3 / powerSum values.length 2) := rfl
    rw [hentry, hcubes, powerSum_one, powerSum_two]
    field_simp
    ring
  · have hentry : reduced (normalEquations values) 0 2 1 2 = powerSum values.length 3 -
        powerSum values.length 1 * (powerSum values.length 4 / powerSum values.length 2) := rfl
    rw [hentry, hfourths, powerSum_one, powerSum_three]
    ring
  · have hentry : reduced (normalEquations values) 0 2 2 1 = powerSum values.length 1 -
        values.length * (powerSum values.length 3 / powerSum values.length 2) := rfl
    rw [hentry, hcubes, powerSum_one]
    field_simp
    ring
  · have hentry : reduced (normalEquations values) 0 2 2 2 = powerSum values.length 2 -
        values.length * (powerSum values.length 4 / powerSum values.length 2) := rfl
    rw [hentry, hfourths, powerSum_two]
    ring

end

section

variable {n : ℚ} {matrix : Equations}

theorem FirstReduced.second_pivot (h : FirstReduced n matrix) (hn : 5 ≤ n) :
    1 ≤ |matrix (pivotRow matrix 1) (Fin.castSucc 1)| := by
  refine le_trans ?_ (le_abs_pivotRow matrix le_rfl)
  show 1 ≤ |matrix 1 1|
  have hone : 0 ≤ n - 1 := by linarith
  have htwo : 0 ≤ n - 2 := by linarith
  have hdivisor : 0 < 12 * (2 * n - 1) := by linarith
  rw [h.one_one, abs_neg, abs_of_nonneg (by positivity), le_div_iff₀ hdivisor]
  nlinarith [mul_nonneg hone htwo, mul_nonneg (mul_nonneg hone htwo) hone]

theorem FirstReduced.third_pivot (h : FirstReduced n matrix) (hn : 5 ≤ n) :
    1 ≤ |reduced matrix 1 (pivotRow matrix 1)
      (pivotRow (reduced matrix 1 (pivotRow matrix 1)) 2) (Fin.castSucc 2)| := by
  refine le_trans ?_ (le_abs_pivotRow _ le_rfl)
  show 1 ≤ |reduced matrix 1 (pivotRow matrix 1) 2 2|
  have hzero : n ≠ 0 := by linarith
  have hone : n - 1 ≠ 0 := by linarith
  have htwo : n - 2 ≠ 0 := by linarith
  have hnext : n + 1 ≠ 0 := by linarith
  have hdivisor : n * 2 - 1 ≠ 0 := by linarith
  have hproduct : 30 ≤ n * (n + 1) := by nlinarith
  have hle := le_pivotRow matrix 1
  match hrow : pivotRow matrix 1 with
  | 0 =>
    rw [hrow] at hle
    exact absurd hle (by decide)
  | 1 =>
    have hentry : reduced matrix 1 1 2 2 = matrix 2 2 - matrix 2 1 * (matrix 1 2 / matrix 1 1) :=
      rfl
    have hvalue : reduced matrix 1 1 2 2 = n * (n + 1) * (n + 2) / 30 := by
      rw [hentry, h.one_one, h.one_two, h.two_one, h.two_two]
      field_simp
      ring
    rw [hvalue, abs_of_nonneg (by positivity)]
    nlinarith only [hproduct, hn]
  | 2 =>
    have hentry : reduced matrix 1 2 2 2 = matrix 1 2 - matrix 1 1 * (matrix 2 2 / matrix 2 1) :=
      rfl
    have hvalue : reduced matrix 1 2 2 2 = -(n * (n + 1) * ((n - 2) * (n + 2)) / 180) := by
      rw [hentry, h.one_one, h.one_two, h.two_one, h.two_two]
      field_simp
      ring
    have hfactor : 6 ≤ (n - 2) * (n + 2) := by nlinarith
    rw [hvalue, abs_neg, abs_of_nonneg (by positivity)]
    nlinarith only [hproduct, hfactor]

end

/-! ## The fit -/

theorem foldlM_eliminate {matrix once twice : Equations} {x : Fin 3 → ℚ}
    (hsolves : Solves matrix x)
    (honce : once = reduced matrix 0 (pivotRow matrix 0))
    (htwice : twice = reduced once 1 (pivotRow once 1))
    (hzero : 1 ≤ |matrix (pivotRow matrix 0) (Fin.castSucc 0)|)
    (hone : 1 ≤ |once (pivotRow once 1) (Fin.castSucc 1)|)
    (htwo : 1 ≤ |twice (pivotRow twice 2) (Fin.castSucc 2)|) :
    ∃ solved, (List.finRange 3).foldlM eliminate matrix = .ok solved ∧
      ∀ row, solved row 3 = x row := by
  have hsmall : (1 : ℚ) / 10 ^ 12 ≤ 1 := by norm_num
  have hne : ∀ {entry : ℚ}, 1 ≤ |entry| → entry ≠ 0 := fun h =>
    abs_pos.1 (lt_of_lt_of_le one_pos h)
  refine ⟨reduced twice 2 (pivotRow twice 2), ?_, Solves.eq_of_unitColumns ?_ ?_⟩
  · have hrange : List.finRange 3 = [0, 1, 2] := rfl
    have hstart : eliminate matrix 0 = .ok once := by
      rw [honce]
      exact eliminate_eq_ok (hsmall.trans hzero)
    have hnext : eliminate once 1 = .ok twice := by
      rw [htwice]
      exact eliminate_eq_ok (hsmall.trans hone)
    rw [hrange, foldlM_cons, hstart, ok_bind, foldlM_cons, hnext, ok_bind,
      foldlM_cons, eliminate_eq_ok (hsmall.trans htwo), ok_bind]
    rfl
  · apply reduced_solves (hne htwo)
    rw [htwice]
    apply reduced_solves (hne hone)
    rw [honce]
    exact reduced_solves (hne hzero) hsolves
  · have hfirst : UnitColumn once 0 := by
      rw [honce]
      exact reduced_unitColumn (hne hzero)
    have hsecond : UnitColumn twice 1 := by
      rw [htwice]
      exact reduced_unitColumn (hne hone)
    have hfirst' : UnitColumn twice 0 := by
      rw [htwice]
      exact hfirst.reduced (by decide) (le_pivotRow once 1)
    intro column
    match column with
    | 0 => exact hfirst'.reduced (by decide) (le_pivotRow twice 2)
    | 1 => exact hsecond.reduced (by decide) (le_pivotRow twice 2)
    | 2 => exact reduced_unitColumn (hne htwo)

section

variable {a b c : ℚ} {count horizon : ℕ}

theorem quadratic_parabola (hcount : 5 ≤ count) :
    quadratic (history (parabola a b c) count) = .ok (a, b, c) := by
  have hlength : 5 ≤ (history (parabola a b c) count).length := by rwa [history_length]
  have hn : (5 : ℚ) ≤ (history (parabola a b c) count).length := by exact_mod_cast hlength
  have hrow := pivotRow_normalEquations hlength
  have hfirst := firstReduced hlength
  rw [← hrow] at hfirst
  have hzero : 1 ≤ |normalEquations (history (parabola a b c) count)
      (pivotRow (normalEquations (history (parabola a b c) count)) 0) (Fin.castSucc 0)| := by
    have hproduct : (20 : ℚ) ≤ (history (parabola a b c) count).length *
        ((history (parabola a b c) count).length - 1) := by nlinarith
    rw [hrow, Fin.castSucc_zero, normalEquations_two_zero, powerSum_two]
    refine le_trans ?_ (le_abs_self _)
    nlinarith
  obtain ⟨solved, hsolved, hsolution⟩ := foldlM_eliminate (normalEquations_solves a b c count)
    rfl rfl hzero (hfirst.second_pivot hn) (hfirst.third_pivot hn)
  rw [quadratic, hsolved, ok_bind, hsolution, hsolution, hsolution]
  rfl

theorem quadraticFit_parabola (hcount : 5 ≤ count) :
    ∃ fit, quadraticFit (history (parabola a b c) count) horizon = .ok fit ∧
      fit.forecasts = continuation (parabola a b c) count horizon := by
  rw [quadraticFit, quadratic_parabola hcount, ok_bind]
  refine ⟨_, rfl, map_congr_left fun index _ => ?_⟩
  rw [history_length, parabola]

end

/-! ## The trend methods -/

/-- Holt's smoothing runs with these admissible parameters and without damping. -/
structure Undamped (parameters : Parameters) (alpha beta : ℚ) : Prop where
  alpha_eq : number parameters "alpha" (4 / 10) = .ok alpha
  beta_eq : number parameters "beta" (2 / 10) = .ok beta
  damping_eq : number parameters "damping" 1 = .ok 1
  alpha_range : 0 < alpha ∧ alpha ≤ 1
  beta_range : 0 < beta ∧ beta ≤ 1

theorem Undamped.holtParameters {parameters : Parameters} {alpha beta : ℚ}
    (h : Undamped parameters alpha beta) : holtParameters parameters 1 = .ok (alpha, beta, 1) := by
  have hrange : ∀ item ∈ [alpha, beta, 1], 0 < item ∧ item ≤ 1 := by
    intro item hitem
    rcases mem_cons.1 hitem with rfl | hitem
    · exact h.alpha_range
    rcases mem_cons.1 hitem with rfl | hitem
    · exact h.beta_range
    · rw [mem_singleton.1 hitem]
      exact ⟨one_pos, le_rfl⟩
  rw [Forecasting.holtParameters, h.alpha_eq, ok_bind, h.beta_eq, ok_bind, h.damping_eq, ok_bind,
    ensure_of hrange]
  rfl

/-- On a progression the drift, the line and the undamped smoothing return its continuation, on a
parabola the quadratic trend does, and the results of every method have one value for each
period. -/
theorem trends_continue :
    (∀ (first step : ℚ) (count horizon : ℕ) (parameters : Parameters) (season : ℤ),
      methodSeason parameters = .ok season → 1 ≤ horizon ∧ horizon ≤ 120 →
        (2 ≤ count → Continues .drift (progression first step) count horizon parameters) ∧
        (3 ≤ count → Continues .linearTimeTrend (progression first step) count horizon parameters) ∧
        (4 ≤ count → ∀ alpha beta, Undamped parameters alpha beta →
          Continues .holtLinearTrend (progression first step) count horizon parameters)) ∧
    (∀ (a b c : ℚ) (count horizon : ℕ) (parameters : Parameters) (season : ℤ),
      methodSeason parameters = .ok season → 1 ≤ horizon ∧ horizon ≤ 120 → 5 ≤ count →
        Continues .polynomialTimeTrendDegree2 (parabola a b c) count horizon parameters) ∧
    ∀ (code : MethodCode) (values : List ℚ) (horizon : ℕ) (parameters : Parameters)
      (result : ForecastResult), code.forecast values horizon parameters = .ok result →
        result.values.length = horizon ∧ result.fittedValues.length = values.length := by
  refine ⟨fun first step count horizon parameters season hseason hhorizon => ⟨?_, ?_, ?_⟩,
    fun a b c count horizon parameters season hseason hhorizon hcount => ?_,
    fun code values horizon parameters result => MethodCode.forecast_sized⟩
  · intro hcount
    exact continues_of_fit hseason rfl hcount hhorizon rfl
      (driftFit_continues first step hcount horizon)
  · intro hcount
    exact continues_of_fit hseason rfl hcount hhorizon rfl
      (linearFit_continues first step (by omega) horizon)
  · intro hcount alpha beta hsmoothing
    have hfit : holtForecast 1 parameters (history (progression first step) count) horizon =
        .ok (holtFit alpha beta 1 (history (progression first step) count) horizon) := by
      rw [holtForecast, hsmoothing.holtParameters]
      rfl
    exact continues_of_fit hseason rfl hcount hhorizon hfit
      (holtFit_continues first step (by omega) alpha beta horizon)
  · obtain ⟨fit, hfit, hforecasts⟩ := quadraticFit_parabola hcount
    exact continues_of_fit hseason rfl hcount hhorizon hfit hforecasts

/-- Five squares are continued by the sixth and the seventh. -/
theorem squares_continue : Continues .polynomialTimeTrendDegree2 (parabola 0 0 1) 5 2 [] ∧
      Continues .holtLinearTrend (progression 3 2) 4 1 [] ∧
      Continues .drift (progression 3 2) 2 1 [] := by
  have hseason : methodSeason [] = .ok 12 := congrArg Except.ok (truncate_intCast 12)
  have hundamped : Undamped [] (4 / 10) (2 / 10) := ⟨rfl, rfl, rfl, by norm_num, by norm_num⟩
  have htrends := trends_continue.1 3 2
  refine ⟨trends_continue.2.1 0 0 1 5 2 [] 12 hseason (by decide) le_rfl,
    (htrends 4 1 [] 12 hseason (by decide)).2.2 le_rfl _ _ hundamped,
    (htrends 2 1 [] 12 hseason (by decide)).1 le_rfl⟩

end Intel4Ops.Forecasting
