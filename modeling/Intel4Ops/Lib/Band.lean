import Intel4Ops.Lib.Spread
import Mathlib.Tactic.Positivity

/-!
# Bands

A band compares the distance of an observation from a center, in some unit, with a threshold. Where
the unit is zero, an observation beside the center is at a distance of its own, or at none. The
observations within a band form an interval, scaling and shifting everything does not change what
is within, and the center is within exactly when the threshold is positive.
-/

namespace Lib

/-- A band around a center. -/
structure Band (K : Type*) where
  (center unit : K)
  /-- The distance of all observations beside the center when the unit is zero. -/
  jump : Option K
  threshold : K

namespace Band

variable {K : Type*} [Field K] [LinearOrder K]

/-- The distance beside the center when the unit is zero. -/
def beside (b : Band K) : K := b.jump.elim 0 abs

/-- How far an observation is from the center. -/
def distance (b : Band K) (x : K) : K :=
  if b.unit ≠ 0 then |x - b.center| / |b.unit| else if x = b.center then 0 else b.beside

/-- The observation is flagged. -/
def Flags (b : Band K) (x : K) : Prop := b.threshold ≤ b.distance x

/-- The band behind scaling and shifting. -/
def affine (a d : K) (b : Band K) : Band K :=
  { b with center := Lib.affine a d b.center, unit := a * b.unit }

variable [IsStrictOrderedRing K]

theorem distance_center (b : Band K) : b.distance b.center = 0 := by
  rw [distance, sub_self, abs_zero, zero_div, if_pos rfl, ite_self]

theorem not_flags_center (b : Band K) : ¬ b.Flags b.center ↔ 0 < b.threshold := by
  rw [Flags, distance_center, not_le]

theorem beside_nonneg (b : Band K) : 0 ≤ b.beside := by
  rw [beside]
  cases b.jump with
  | none => exact le_rfl
  | some jump => exact abs_nonneg jump

theorem distance_mono (b : Band K) {x y : K} (h : |x - b.center| ≤ |y - b.center|) :
    b.distance x ≤ b.distance y := by
  rw [distance, distance]
  by_cases hunit : b.unit ≠ 0
  · rw [if_pos hunit, if_pos hunit]
    exact div_le_div_of_nonneg_right h (abs_nonneg _)
  · rw [if_neg hunit, if_neg hunit]
    by_cases hy : y = b.center
    · have hx : x = b.center := by
        rw [hy, sub_self, abs_zero] at h
        exact sub_eq_zero.1 (abs_eq_zero.1 (h.antisymm (abs_nonneg _)))
      rw [if_pos hx, if_pos hy]
    · rw [if_neg hy]
      split_ifs
      · exact b.beside_nonneg
      · exact le_rfl

theorem not_flags_between (b : Band K) {x y z : K} (hxy : x ≤ y) (hyz : y ≤ z)
    (hx : ¬ b.Flags x) (hz : ¬ b.Flags z) : ¬ b.Flags y := by
  intro hy
  rcases le_total b.center y with hcenter | hcenter
  · -- above the center the later end is farther
    refine hz (hy.trans (b.distance_mono ?_))
    rw [abs_of_nonneg (sub_nonneg.2 hcenter), abs_of_nonneg (sub_nonneg.2 (hcenter.trans hyz))]
    exact sub_le_sub_right hyz _
  · refine hx (hy.trans (b.distance_mono ?_))
    rw [abs_of_nonpos (sub_nonpos.2 hcenter), abs_of_nonpos (sub_nonpos.2 (hxy.trans hcenter))]
    exact neg_le_neg (sub_le_sub_right hxy _)

/-- Far enough from the center everything is flagged, exactly when there is a unit or the distance
beside the center is flagged. -/
theorem flags_far (b : Band K) :
    (∃ d, ∀ x, d < |x - b.center| → b.Flags x) ↔ b.unit ≠ 0 ∨ b.threshold ≤ b.beside := by
  constructor
  · rintro ⟨d, hfar⟩
    by_contra hneither
    obtain ⟨hunit, hbeside⟩ := not_or.1 hneither
    have hpositive : 0 < |d| + 1 := by positivity
    have hflags := hfar (b.center + (|d| + 1)) (by
      rw [add_sub_cancel_left, abs_of_pos hpositive]
      exact (le_abs_self d).trans_lt (lt_add_one _))
    rw [Flags, distance, if_neg hunit, if_neg (by
      rw [add_eq_left]
      exact hpositive.ne')] at hflags
    exact hbeside hflags
  · intro h
    by_cases hunit : b.unit ≠ 0
    · refine ⟨b.threshold * |b.unit|, fun x hx => ?_⟩
      rw [Flags, distance, if_pos hunit, le_div_iff₀ (abs_pos.2 hunit)]
      exact hx.le
    · have hbeside := h.resolve_left hunit
      refine ⟨0, fun x hx => ?_⟩
      have hne : x ≠ b.center := by
        rintro rfl
        rw [sub_self, abs_zero] at hx
        exact hx.false
      rw [Flags, distance, if_neg hunit, if_neg hne]
      exact hbeside

theorem distance_affine (b : Band K) {a : K} (ha : 0 < a) (d x : K) :
    (b.affine a d).distance (Lib.affine a d x) = b.distance x := by
  have hunit : (b.affine a d).unit = a * b.unit := rfl
  have hcenter : (b.affine a d).center = Lib.affine a d b.center := rfl
  have hbeside : (b.affine a d).beside = b.beside := rfl
  have hdifference : Lib.affine a d x - Lib.affine a d b.center = a * (x - b.center) := by
    rw [Lib.affine, Lib.affine]
    ring
  have hsame : Lib.affine a d x = Lib.affine a d b.center ↔ x = b.center := by
    rw [← sub_eq_zero, hdifference, mul_eq_zero, or_iff_right ha.ne', sub_eq_zero]
  rw [distance, distance, hunit, hcenter, hbeside, hdifference, abs_mul, abs_mul, abs_of_pos ha,
    mul_div_mul_left _ _ ha.ne']
  simp only [hsame, ne_eq, mul_eq_zero, ha.ne', false_or]

theorem flags_affine (b : Band K) {a : K} (ha : 0 < a) (d x : K) :
    (b.affine a d).Flags (Lib.affine a d x) ↔ b.Flags x := by
  rw [Flags, Flags, distance_affine b ha]
  exact Iff.rfl

end Band

end Lib
