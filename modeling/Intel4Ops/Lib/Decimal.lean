import Mathlib.Data.Int.Log
import Mathlib.Data.Rat.Floor
import Mathlib.Tactic.Positivity

/-!
# Decimal rounding

Decimal numbers are rationals, and a decimal operation is the exact operation followed by a
rounding. A rounding mode rounds magnitudes and is extended to signed numbers by the sign, so
every rounding is odd; it is monotone, fixes the integers and moves a number by at most a half.

Two roundings occur. `Rounding.places` keeps a number of digits behind the point (`quantize`, and
a numeric column of fixed scale). `context` keeps 28 significant digits, half to even, which is
what the default decimal context does to the result of every arithmetic operation.
-/

namespace Lib.Decimal

/-- A rounding mode for magnitudes. -/
structure Rounding where
  /-- The integer that a non-negative number is rounded to. -/
  mag : ℚ → ℤ
  mono : ∀ {x y}, 0 ≤ x → x ≤ y → mag x ≤ mag y
  natCast : ∀ n : ℕ, mag n = n
  near : ∀ {x}, 0 ≤ x → |(mag x : ℚ) - x| ≤ 1 / 2

/-! ## Rounding to an integer -/

/-- Half away from zero. -/
def halfUp : Rounding where
  mag x := ⌊x + 1 / 2⌋
  mono _ hxy := Int.floor_le_floor (by linarith)
  natCast n := by
    rw [Int.floor_eq_iff]
    constructor
    · push_cast; linarith
    · push_cast; linarith
  near {x} _ := by
    have hle := Int.floor_le (x + 1 / 2)
    have hlt := Int.lt_floor_add_one (x + 1 / 2)
    rw [abs_le]
    constructor
    · linarith
    · linarith

/-- Half to even, on magnitudes. -/
def evenMag (x : ℚ) : ℤ :=
  if x - ⌊x⌋ < 1 / 2 ∨ x - ⌊x⌋ = 1 / 2 ∧ ⌊x⌋ % 2 = 0 then ⌊x⌋ else ⌊x⌋ + 1

theorem evenMag_eq (x : ℚ) :
    evenMag x = ⌊x⌋ ∧ x - ⌊x⌋ ≤ 1 / 2 ∨ evenMag x = ⌊x⌋ + 1 ∧ 1 / 2 ≤ x - ⌊x⌋ := by
  unfold evenMag
  split
  case isTrue h =>
    refine .inl ⟨rfl, ?_⟩
    rcases h with h | h
    · exact h.le
    · exact h.1.le
  case isFalse h =>
    exact .inr ⟨rfl, not_lt.1 fun hlt => h (.inl hlt)⟩

theorem floor_le_evenMag (x : ℚ) : ⌊x⌋ ≤ evenMag x := by
  rcases evenMag_eq x with ⟨h, -⟩ | ⟨h, -⟩
  · omega
  · omega

theorem evenMag_le_floor_add_one (x : ℚ) : evenMag x ≤ ⌊x⌋ + 1 := by
  rcases evenMag_eq x with ⟨h, -⟩ | ⟨h, -⟩
  · omega
  · omega

variable {x y : ℚ}

theorem evenMag_mono (hxy : x ≤ y) : evenMag x ≤ evenMag y := by
  rcases (Int.floor_le_floor hxy).eq_or_lt with hfloor | hfloor
  · -- On one unit interval only the position within it decides.
    unfold evenMag
    rw [← hfloor]
    split
    case isTrue => split <;> omega
    case isFalse hx =>
      rw [if_neg]
      intro hy
      refine hx ?_
      have hle : x - ⌊x⌋ ≤ y - ⌊x⌋ := by linarith
      rcases hy with hy | ⟨hy, heven⟩
      · exact .inl (by linarith)
      · rcases (hle.trans hy.le).lt_or_eq with hlt | heq
        · exact .inl hlt
        · exact .inr ⟨heq, heven⟩
  · have hx := evenMag_le_floor_add_one x
    have hy := floor_le_evenMag y
    omega

def halfEven : Rounding where
  mag := evenMag
  mono _ hxy := evenMag_mono hxy
  natCast n := by
    have hfloor : ⌊(n : ℚ)⌋ = n := Int.floor_natCast n
    unfold evenMag
    rw [hfloor]
    simp
  near {x} _ := by
    have hle := Int.floor_le x
    have hlt := Int.lt_floor_add_one x
    rw [abs_le]
    rcases evenMag_eq x with ⟨h, hx⟩ | ⟨h, hx⟩
    · rw [h]
      constructor
      · linarith
      · linarith
    · rw [h]
      push_cast
      constructor
      · linarith
      · linarith

namespace Rounding

variable (R : Rounding) {x y : ℚ}

/-- Round a signed number: its magnitude is rounded and the sign kept. -/
def round (x : ℚ) : ℤ := if 0 ≤ x then R.mag x else -R.mag (-x)

theorem mag_zero : R.mag 0 = 0 := by simpa using R.natCast 0

theorem mag_nonneg (hx : 0 ≤ x) : 0 ≤ R.mag x := by
  have h := R.mono le_rfl hx
  rwa [R.mag_zero] at h

theorem round_of_nonneg (hx : 0 ≤ x) : R.round x = R.mag x := if_pos hx

theorem round_neg (x : ℚ) : R.round (-x) = -R.round x := by
  rcases lt_trichotomy x 0 with hx | rfl | hx
  · rw [round, round, if_pos (by linarith), if_neg (by linarith), neg_neg]
  · simp [round, mag_zero]
  · rw [round, round, if_neg (by linarith), if_pos hx.le, neg_neg]

theorem round_mono (hxy : x ≤ y) : R.round x ≤ R.round y := by
  unfold round
  split
  case isTrue hx => rw [if_pos (hx.trans hxy)]; exact R.mono hx hxy
  case isFalse hx =>
    have hx' : 0 ≤ -x := by linarith [not_le.1 hx]
    split
    case isTrue hy =>
      have h1 := R.mag_nonneg hx'
      have h2 := R.mag_nonneg hy
      omega
    case isFalse hy =>
      have h := R.mono (x := -y) (y := -x) (by linarith [not_le.1 hy]) (by linarith)
      omega

theorem round_intCast (n : ℤ) : R.round n = n := by
  obtain ⟨k, rfl | rfl⟩ := n.eq_nat_or_neg
  · rw [round_of_nonneg _ (by positivity)]
    exact_mod_cast R.natCast k
  · push_cast
    rw [round_neg, round_of_nonneg _ (by positivity), R.natCast]

theorem round_near (x : ℚ) : |(R.round x : ℚ) - x| ≤ 1 / 2 := by
  unfold round
  split
  case isTrue hx => exact R.near hx
  case isFalse hx =>
    have h := R.near (x := -x) (by linarith [not_le.1 hx])
    push_cast
    rwa [show -(R.mag (-x) : ℚ) - x = -((R.mag (-x) : ℚ) - -x) by ring, abs_neg]

/-! ## Rounding to a number of places -/

/-- Keep `p` digits behind the point. -/
def places (p : ℕ) (x : ℚ) : ℚ := R.round (x * 10 ^ p) / 10 ^ p

/-- A number with at most `p` digits behind the point. -/
def HasPlaces (p : ℕ) (x : ℚ) : Prop := ∃ n : ℤ, x = n / 10 ^ p

theorem hasPlaces_places (p : ℕ) (x : ℚ) : HasPlaces p (R.places p x) := ⟨_, rfl⟩

theorem places_neg (p : ℕ) (x : ℚ) : R.places p (-x) = -R.places p x := by
  rw [places, places, neg_mul, round_neg]
  push_cast
  ring

variable {p : ℕ}

theorem places_mono (hxy : x ≤ y) : R.places p x ≤ R.places p y := by
  have h : (R.round (x * 10 ^ p) : ℚ) ≤ R.round (y * 10 ^ p) := by
    exact_mod_cast R.round_mono (by gcongr)
  unfold places
  gcongr

theorem places_of_hasPlaces (hx : HasPlaces p x) : R.places p x = x := by
  obtain ⟨n, rfl⟩ := hx
  rw [places, div_mul_cancel₀ _ (by positivity), round_intCast]

theorem places_nonneg (hx : 0 ≤ x) : 0 ≤ R.places p x := by
  have h := R.places_mono (p := p) hx
  rwa [R.places_of_hasPlaces ⟨0, by simp⟩] at h

theorem places_near (p : ℕ) (x : ℚ) : |R.places p x - x| ≤ 1 / 2 / 10 ^ p := by
  have h := R.round_near (x * 10 ^ p)
  have hpos : (0 : ℚ) < 10 ^ p := by positivity
  rw [places, le_div_iff₀ hpos, ← abs_of_pos hpos, ← abs_mul, abs_of_pos hpos, sub_mul,
    div_mul_cancel₀ _ hpos.ne']
  exact h

end Rounding

namespace Rounding

variable {p : ℕ}

theorem HasPlaces.neg {x : ℚ} (h : HasPlaces p x) : HasPlaces p (-x) := by
  obtain ⟨n, rfl⟩ := h
  exact ⟨-n, by push_cast; ring⟩

theorem HasPlaces.add {x y : ℚ} (hx : HasPlaces p x) (hy : HasPlaces p y) :
    HasPlaces p (x + y) := by
  obtain ⟨m, rfl⟩ := hx
  obtain ⟨n, rfl⟩ := hy
  exact ⟨m + n, by push_cast; ring⟩

theorem HasPlaces.sum {xs : List ℚ} (h : ∀ x ∈ xs, HasPlaces p x) : HasPlaces p xs.sum := by
  induction xs with
  | nil => exact ⟨0, by simp⟩
  | cons x xs ih =>
    rw [List.sum_cons]
    exact (h x List.mem_cons_self).add (ih fun y hy => h y (List.mem_cons_of_mem _ hy))

end Rounding

/-! ## Columns and quantization -/

/-- What a numeric column with `digits` digits, `scale` of them behind the point, stores; a number
with more digits before the point does not fit. -/
def numeric (digits scale : ℕ) (x : ℚ) : Option ℚ :=
  let q := halfUp.places scale x
  if |q| < 10 ^ (digits - scale) then some q else none

theorem numeric_eq_some {digits scale : ℕ} {q : ℚ} : numeric digits scale x = some q ↔
      q = halfUp.places scale x ∧ |halfUp.places scale x| < 10 ^ (digits - scale) := by
  unfold numeric
  by_cases h : |halfUp.places scale x| < 10 ^ (digits - scale)
  · simp [h, eq_comm]
  · simp [h]

/-- Quantize to a number of places. A result with more than 28 digits does not fit the context and
is an invalid operation. -/
def quantize (R : Rounding) (scale : ℕ) (x : ℚ) : Option ℚ :=
  let q := R.places scale x
  if |q| < 10 ^ (28 - scale) then some q else none

theorem quantize_eq_some {R : Rounding} {scale : ℕ} {q : ℚ} : quantize R scale x = some q ↔
      q = R.places scale x ∧ |R.places scale x| < 10 ^ (28 - scale) := by
  unfold quantize
  by_cases h : |R.places scale x| < 10 ^ (28 - scale)
  · simp [h, eq_comm]
  · simp [h]

/-! ## The context of 28 significant digits -/

/-- The unit of the last of 28 significant digits. -/
def ulp (x : ℚ) : ℚ := 10 ^ (Int.log 10 |x| - 27)

/-- Round to 28 significant digits, half to even. -/
def context (x : ℚ) : ℚ := if x = 0 then 0 else halfEven.round (x / ulp x) * ulp x

/-- A number that the context leaves as it is. -/
def Exact (x : ℚ) : Prop := context x = x

instance (x : ℚ) : Decidable (Exact x) := inferInstanceAs (Decidable (_ = _))

theorem ulp_pos (x : ℚ) : 0 < ulp x := zpow_pos (by norm_num) _

@[simp] theorem context_zero : context 0 = 0 := if_pos rfl

theorem context_neg (x : ℚ) : context (-x) = -context x := by
  unfold context
  by_cases hx : x = 0
  · simp [hx]
  · rw [if_neg hx, if_neg (neg_ne_zero.2 hx), ulp, abs_neg, ← ulp, neg_div, Rounding.round_neg]
    push_cast
    ring

theorem ulp_of_pos (hx : 0 < x) : ulp x = 10 ^ Int.log 10 x / 10 ^ 27 := by
  rw [ulp, abs_of_pos hx, zpow_sub₀ (by norm_num)]
  norm_num

theorem round_ulp_bounds (hx : 0 < x) :
    (10 ^ 27 : ℤ) ≤ halfEven.round (x / ulp x) ∧ halfEven.round (x / ulp x) ≤ 10 ^ 28 := by
  have hupos := ulp_pos x
  have hu := ulp_of_pos hx
  have hlog := Int.zpow_log_le_self (b := 10) (by norm_num) hx
  have hlog' := (Int.lt_zpow_succ_log_self (b := 10) (by norm_num) x).le
  rw [zpow_add_one₀ (by norm_num)] at hlog'
  push_cast at hlog hlog'
  constructor
  · rw [← halfEven.round_intCast (10 ^ 27)]
    refine halfEven.round_mono ?_
    rw [le_div_iff₀ hupos, hu]
    push_cast
    linarith
  · rw [← halfEven.round_intCast (10 ^ 28)]
    refine halfEven.round_mono ?_
    rw [div_le_iff₀ hupos, hu]
    push_cast
    linarith

/-- The leading power of ten of a positive number and the next one enclose its rounding. -/
theorem context_bounds (hx : 0 < x) :
    (10 : ℚ) ^ Int.log 10 x ≤ context x ∧ context x ≤ 10 ^ (Int.log 10 x + 1) := by
  have hupos := ulp_pos x
  have hu := ulp_of_pos hx
  obtain ⟨hlow, hhigh⟩ := round_ulp_bounds hx
  rw [context, if_neg hx.ne', zpow_add_one₀ (by norm_num)]
  constructor
  · have h : (10 ^ 27 : ℚ) ≤ halfEven.round (x / ulp x) := by exact_mod_cast hlow
    calc (10 : ℚ) ^ Int.log 10 x = 10 ^ 27 * ulp x := by rw [hu]; ring
      _ ≤ halfEven.round (x / ulp x) * ulp x := by gcongr
  · have h : (halfEven.round (x / ulp x) : ℚ) ≤ 10 ^ 28 := by exact_mod_cast hhigh
    calc (halfEven.round (x / ulp x) : ℚ) * ulp x ≤ 10 ^ 28 * ulp x := by gcongr
      _ = 10 ^ Int.log 10 x * 10 := by rw [hu]; ring

theorem exact_scaled {n k : ℤ} (hlow : (10 : ℤ) ^ 27 ≤ n) (hhigh : n < 10 ^ 28) :
    Exact (n * ((10 : ℚ) ^ k / 10 ^ 27)) := by
  have hpow : (0 : ℚ) < 10 ^ k := zpow_pos (by norm_num) _
  have hlow' : (10 : ℚ) ^ 27 ≤ n := by exact_mod_cast hlow
  have hhigh' : (n : ℚ) < 10 ^ 28 := by exact_mod_cast hhigh
  have hn : (0 : ℚ) < n := lt_of_lt_of_le (by norm_num) hlow'
  have hx : (0 : ℚ) < n * (10 ^ k / 10 ^ 27) := by positivity
  have hlog : Int.log 10 ((n : ℚ) * (10 ^ k / 10 ^ 27)) = k := by
    refine le_antisymm ?_ ?_
    · rw [← Int.lt_add_one_iff, ← Int.lt_zpow_iff_log_lt (by norm_num) hx,
        zpow_add_one₀ (by norm_num)]
      push_cast
      calc (n : ℚ) * (10 ^ k / 10 ^ 27) < 10 ^ 28 * (10 ^ k / 10 ^ 27) := by gcongr
        _ = 10 ^ k * 10 := by ring
    · rw [← Int.zpow_le_iff_le_log (by norm_num) hx]
      push_cast
      calc (10 : ℚ) ^ k = 10 ^ 27 * (10 ^ k / 10 ^ 27) := by field_simp
        _ ≤ n * (10 ^ k / 10 ^ 27) := by gcongr
  have hu : ulp ((n : ℚ) * (10 ^ k / 10 ^ 27)) = 10 ^ k / 10 ^ 27 := by rw [ulp_of_pos hx, hlog]
  rw [Exact, context, if_neg hx.ne', hu, mul_div_cancel_right₀ _ (by positivity),
    Rounding.round_intCast]

theorem exact_context_of_pos (hx : 0 < x) : Exact (context x) := by
  obtain ⟨hlow, hhigh⟩ := round_ulp_bounds hx
  have hx' : context x = halfEven.round (x / ulp x) * (10 ^ Int.log 10 x / 10 ^ 27) := by
    rw [context, if_neg hx.ne', ← ulp_of_pos hx]
  rcases hhigh.lt_or_eq with hlt | heq
  · rw [hx']
    exact exact_scaled hlow hlt
  · -- The rounding carried into a 29th digit, so the result is the next power of ten.
    have hcarry : context x = (10 ^ 27 : ℤ) * (10 ^ (Int.log 10 x + 1) / 10 ^ 27) := by
      rw [hx', heq, zpow_add_one₀ (by norm_num)]
      push_cast
      ring
    rw [hcarry]
    exact exact_scaled le_rfl (by norm_num)

theorem exact_context (x : ℚ) : Exact (context x) := by
  rcases lt_trichotomy x 0 with hx | rfl | hx
  · have h := exact_context_of_pos (neg_pos.2 hx)
    rw [Exact, context_neg, context_neg] at h
    exact neg_inj.1 h
  · rw [context_zero]
    exact context_zero
  · exact exact_context_of_pos hx

theorem context_pos (hx : 0 < x) : 0 < context x :=
  (zpow_pos (by norm_num) _).trans_le (context_bounds hx).1

theorem context_mono (hx : 0 < x) (hxy : x ≤ y) : context x ≤ context y := by
  have hy := hx.trans_le hxy
  rcases (Int.log_mono_right hx hxy).eq_or_lt with hlog | hlog
  · have hu : ulp x = ulp y := by rw [ulp, ulp, abs_of_pos hx, abs_of_pos hy, hlog]
    have hupos := ulp_pos y
    rw [context, context, if_neg hx.ne', if_neg hy.ne', hu]
    have h : (halfEven.round (x / ulp y) : ℚ) ≤ halfEven.round (y / ulp y) := by
      exact_mod_cast halfEven.round_mono (by gcongr)
    gcongr
  · calc context x ≤ 10 ^ (Int.log 10 x + 1) := (context_bounds hx).2
      _ ≤ 10 ^ Int.log 10 y := zpow_le_zpow_right₀ (by norm_num) (by omega)
      _ ≤ context y := (context_bounds hy).1

theorem context_nonneg (hx : 0 ≤ x) : 0 ≤ context x := by
  rcases hx.eq_or_lt with rfl | hx
  · exact context_zero.ge
  · exact (context_pos hx).le

theorem context_le_of_exact (hx : 0 ≤ x) (hy : Exact y) (hxy : x ≤ y) : context x ≤ y := by
  rcases hx.eq_or_lt with rfl | hx
  · rwa [context_zero]
  · exact (context_mono hx hxy).trans hy.le

theorem context_near (x : ℚ) : |context x - x| ≤ ulp x / 2 := by
  unfold context
  split
  case isTrue h => simpa [h] using (half_pos (ulp_pos 0)).le
  case isFalse h =>
    have hupos := ulp_pos x
    have hround := halfEven.round_near (x / ulp x)
    calc |(halfEven.round (x / ulp x) : ℚ) * ulp x - x|
        = |(halfEven.round (x / ulp x) : ℚ) - x / ulp x| * ulp x := by
          rw [← abs_of_pos hupos, ← abs_mul, abs_of_pos hupos, sub_mul, div_mul_cancel₀ _ hupos.ne']
      _ ≤ 1 / 2 * ulp x := by gcongr
      _ = ulp x / 2 := by ring

theorem ulp_le {k : ℤ} (hx : 0 < x) (hk : x < 10 ^ k) : ulp x ≤ 10 ^ (k - 28) := by
  have hlog : Int.log 10 x < k := (Int.lt_zpow_iff_log_lt (by norm_num) hx).1 (by exact_mod_cast hk)
  rw [ulp, abs_of_pos hx]
  exact zpow_le_zpow_right₀ (by norm_num) (by omega)

theorem exact_of_hasPlaces_of_pos {p : ℕ} (hx : Rounding.HasPlaces p x) (hpos : 0 < x)
    (hlt : x < 10 ^ (28 - p : ℤ)) : Exact x := by
  obtain ⟨n, rfl⟩ := hx
  have hlog : Int.log 10 ((n : ℚ) / 10 ^ p) < 28 - p :=
    (Int.lt_zpow_iff_log_lt (by norm_num) hpos).1 (by exact_mod_cast hlt)
  -- The last digit kept by the context is not before the last one of the number.
  obtain ⟨m, hm⟩ : ∃ m : ℕ, 27 - Int.log 10 ((n : ℚ) / 10 ^ p) - p = m :=
    ⟨(27 - Int.log 10 ((n : ℚ) / 10 ^ p) - p).toNat, by omega⟩
  have hu : ulp ((n : ℚ) / 10 ^ p) = 10 ^ (-(m + p) : ℤ) := by
    rw [ulp, abs_of_pos hpos]
    congr 1
    omega
  have hscaled : (n : ℚ) / 10 ^ p / ulp ((n : ℚ) / 10 ^ p) = ((n * 10 ^ m : ℤ) : ℚ) := by
    rw [hu, zpow_neg, zpow_add₀ (by norm_num), zpow_natCast, zpow_natCast]
    push_cast
    field_simp
  rw [Exact, context, if_neg hpos.ne', hscaled, Rounding.round_intCast, ← hscaled,
    div_mul_cancel₀ _ (ulp_pos _).ne']

/-- A number with `p` places and not more than 28 digits in all is left as it is. -/
theorem exact_of_hasPlaces {p : ℕ} (hx : Rounding.HasPlaces p x) (hlt : |x| < 10 ^ (28 - p : ℤ)) :
    Exact x := by
  rcases lt_trichotomy x 0 with hneg | rfl | hpos
  · rw [abs_of_neg hneg] at hlt
    have h := exact_of_hasPlaces_of_pos hx.neg (neg_pos.2 hneg) hlt
    rw [Exact, context_neg] at h
    exact neg_inj.1 h
  · exact context_zero
  · rw [abs_of_pos hpos] at hlt
    exact exact_of_hasPlaces_of_pos hx hpos hlt

end Lib.Decimal
