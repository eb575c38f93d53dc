import Intel4Ops.Lib.Decimal

/-!
# Binary floating point

Double-precision numbers as the rationals that they are. An operation is the exact operation
followed by a rounding to 53 significant bits, half to even. Numbers stay within the normal range
here, so neither overflow nor underflow is modelled. A double is printed with the fewest digits that
are read back as the same double.
-/

namespace Lib

/-- A double-precision number. -/
structure Double where
  value : ℚ
  deriving DecidableEq

namespace Double

/-- The unit in the last place of a number with 53 significant bits. -/
def ulp (x : ℚ) : ℚ := 2 ^ (Int.log 2 |x| - 52)

/-- The nearest double, of two the one with an even last bit. -/
def nearest (x : ℚ) : Double := ⟨if x = 0 then 0 else Decimal.halfEven.round (x / ulp x) * ulp x⟩

instance : Sub Double := ⟨fun a b => nearest (a.value - b.value)⟩

instance (n : ℕ) : OfNat Double n := ⟨nearest n⟩

theorem value_injective : Function.Injective Double.value := by
  rintro ⟨x⟩ ⟨y⟩ rfl
  rfl

instance : LinearOrder Double := LinearOrder.lift' Double.value value_injective

/-- `round(x, digits)`: the double nearest to the rounded decimal. -/
def round (x : Double) (digits : ℕ) : Double := nearest (Decimal.halfEven.places digits x.value)

/-! ## Printed numbers -/

/-- The nearest decimal with a number of significant digits. -/
def significant (digits : ℕ) (x : ℚ) : ℚ :=
  if x = 0 then 0
  else
    let unit : ℚ := 10 ^ (Int.log 10 |x| - (digits - 1))
    Decimal.halfEven.round (x / unit) * unit

/-- The number that `repr` prints: with as few digits as are read back as the same double, which 17
digits always are. -/
def printed (x : Double) : ℚ :=
  (((List.range 17).map fun k => significant (k + 1) x.value).find? fun d =>
    nearest d = x).getD x.value

theorem round_pos {b : ℕ} (hb : 1 < b) {x : ℚ} (hx : 0 < x) (k : ℕ) :
    (0 : ℚ) < Decimal.halfEven.round (x / (b : ℚ) ^ (Int.log b x - k)) := by
  have hbase : (1 : ℚ) ≤ b := by exact_mod_cast hb.le
  have hunit : (0 : ℚ) < (b : ℚ) ^ (Int.log b x - k) := zpow_pos (by linarith) _
  have hone : (1 : ℚ) ≤ x / (b : ℚ) ^ (Int.log b x - k) := by
    rw [one_le_div hunit]
    calc (b : ℚ) ^ (Int.log b x - k) ≤ (b : ℚ) ^ Int.log b x :=
          zpow_le_zpow_right₀ hbase (by omega)
      _ ≤ x := Int.zpow_log_le_self hb hx
  have hround := Decimal.halfEven.round_mono hone
  have hcast : Decimal.halfEven.round 1 = 1 := by exact_mod_cast Decimal.halfEven.round_intCast 1
  rw [hcast] at hround
  exact_mod_cast hround

theorem nearest_pos {x : ℚ} (hx : 0 < x) : 0 < (nearest x).value := by
  have hround := round_pos (b := 2) one_lt_two hx 52
  rw [nearest]
  dsimp only
  rw [if_neg hx.ne', ulp, abs_of_pos hx]
  exact mul_pos (by exact_mod_cast hround) (zpow_pos two_pos _)

theorem significant_pos {digits : ℕ} (hdigits : 1 ≤ digits) {x : ℚ} (hx : 0 < x) :
    0 < significant digits x := by
  have hround := round_pos (b := 10) (by norm_num) hx (digits - 1)
  rw [Nat.cast_sub hdigits] at hround
  rw [significant, if_neg hx.ne', abs_of_pos hx]
  exact mul_pos (by exact_mod_cast hround) (zpow_pos (by norm_num) _)

theorem printed_pos {x : Double} (hx : 0 < x.value) : 0 < x.printed := by
  rw [printed]
  cases hfind : ((List.range 17).map fun k => significant (k + 1) x.value).find? fun d =>
      nearest d = x with
  | none => exact hx
  | some d =>
    obtain ⟨k, -, rfl⟩ := List.mem_map.1 (List.mem_of_find?_eq_some hfind)
    exact significant_pos (Nat.le_add_left 1 k) hx

end Double

end Lib
