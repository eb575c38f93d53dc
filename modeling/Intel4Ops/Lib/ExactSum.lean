import Intel4Ops.Lib.Extended
import Mathlib.Algebra.Order.BigOperators.Group.List

/-!
# Sums that fit the context

Sums of decimals are rounded after every addition, so they may depend on the order of the summands.
They do not as long as the whole sum has not more than 28 digits: then no step is rounded.
-/

namespace Lib.Decimal.Extended

open List

/-- The number, zero for an infinity. -/
def finitePart : Extended → ℚ
  | finite x => x
  | infinite _ => 0

/-- The finite summands have a common number of places, with which their sum has at most 28
digits. -/
def Fits (values : List Extended) : Prop :=
  ∃ p : ℕ, (∀ x, finite x ∈ values → Rounding.HasPlaces p x) ∧
    (values.map finitePart).sum < 10 ^ (28 - p : ℤ)

/-- The sum of non-negative summands without rounding. -/
def total (values : List Extended) : Extended :=
  if infinite false ∈ values then infinite false else finite (values.map finitePart).sum

variable {values values' : List Extended}

theorem Fits.perm (hperm : values.Perm values') (h : Fits values) : Fits values' := by
  obtain ⟨p, hplaces, hlt⟩ := h
  exact ⟨p, fun x hx => hplaces x (hperm.mem_iff.2 hx), (hperm.map finitePart).sum_eq ▸ hlt⟩

theorem total_perm (hperm : values.Perm values') : total values = total values' := by
  have hsum : (values.map finitePart).sum = (values'.map finitePart).sum :=
    (hperm.map finitePart).sum_eq
  rw [total, total, hsum]
  simp only [hperm.mem_iff]

theorem finitePart_nonneg {v : Extended} (h : v.isNegative = false) : 0 ≤ v.finitePart := by
  cases v with
  | finite x => exact not_lt.1 (of_decide_eq_false h)
  | infinite s => exact le_refl 0

section

variable (h : ∀ v ∈ values, v.isNegative = false)
include h

theorem foldlM_add_infinite : values.foldlM add (infinite false) = some (infinite false) := by
  induction values with
  | nil => rfl
  | cons v values ih =>
    have hv := h v mem_cons_self
    have hadd : add (infinite false) v = some (infinite false) := by
      cases v with
      | finite x => rfl
      | infinite s =>
        rw [isNegative] at hv
        rw [hv]
        rfl
    rw [foldlM_cons, hadd]
    exact ih fun w hw => h w (mem_cons_of_mem _ hw)

/-- Adding to a number. By induction on the summands: the sum so far stays below the bound, so it is
exact. -/
theorem foldlM_add_finite {p : ℕ} {a : ℚ}
    (hplaces : ∀ x, finite x ∈ values → Rounding.HasPlaces p x) (ha : Rounding.HasPlaces p a)
    (hnonneg : 0 ≤ a) (hlt : a + (values.map finitePart).sum < 10 ^ (28 - p : ℤ)) :
    values.foldlM add (finite a) = some (if infinite false ∈ values then infinite false
      else finite (a + (values.map finitePart).sum)) := by
  induction values generalizing a with
  | nil => simp [pure]
  | cons v values ih =>
    have hrest : ∀ w ∈ values, w.isNegative = false := fun w hw => h w (mem_cons_of_mem _ hw)
    have hv := h v mem_cons_self
    rw [foldlM_cons]
    cases v with
    | infinite s =>
      rw [isNegative] at hv
      subst hv
      rw [if_pos mem_cons_self]
      exact foldlM_add_infinite hrest
    | finite x =>
      have hx : 0 ≤ x := finitePart_nonneg hv
      have hrestSum : 0 ≤ (values.map finitePart).sum := by
        refine sum_nonneg fun y hy => ?_
        obtain ⟨w, hw, rfl⟩ := mem_map.1 hy
        exact finitePart_nonneg (hrest w hw)
      rw [map_cons, sum_cons, finitePart, ← add_assoc] at hlt
      have hax := ha.add (hplaces x mem_cons_self)
      have hexact : context (a + x) = a + x := by
        apply exact_of_hasPlaces hax
        rw [abs_of_nonneg (add_nonneg hnonneg hx)]
        exact lt_of_le_of_lt (le_add_of_nonneg_right hrestSum) hlt
      have hmem : infinite false ∈ finite x :: values ↔ infinite false ∈ values := by simp
      rw [add, hexact]
      simp only [hmem, map_cons, sum_cons, finitePart, ← add_assoc]
      exact ih hrest (fun y hy => hplaces y (mem_cons_of_mem _ hy)) hax (add_nonneg hnonneg hx) hlt

theorem sum_of_fits (hfits : Fits values) : sum values = some (total values) := by
  obtain ⟨p, hplaces, hlt⟩ := hfits
  rw [sum, foldlM_add_finite h hplaces ⟨0, by simp⟩ le_rfl (by rwa [zero_add]), total, zero_add]

end

theorem sum_perm (hperm : values.Perm values') (h : ∀ v ∈ values, v.isNegative = false)
    (hfits : Fits values) : sum values = sum values' := by
  rw [sum_of_fits h hfits, total_perm hperm,
    sum_of_fits (fun v hv => h v (hperm.mem_iff.2 hv)) (hfits.perm hperm)]

end Lib.Decimal.Extended
