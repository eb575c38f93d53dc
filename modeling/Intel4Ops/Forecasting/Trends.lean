import Intel4Ops.Forecasting.Results
import Mathlib.Algebra.BigOperators.Ring.List
import Mathlib.Tactic.LinearCombination
import Mathlib.Tactic.Positivity

/-!
# Trends that continue

A series that grows by equal steps is continued exactly by the drift, by the least-squares line and
by Holt's smoothing without damping, whose level and trend stay on the line at every step.
-/

namespace Intel4Ops.Forecasting

open Lib List

/-- The first `count` values of a function. -/
def history (f : ℕ → ℚ) (count : ℕ) : List ℚ := (List.range count).map f

/-- The values of a function behind a history. -/
def continuation (f : ℕ → ℚ) (count horizon : ℕ) : List ℚ :=
  (List.range horizon).map fun step => f (count + step)

/-- The method returns a result with the exact continuation. -/
def Continues (code : MethodCode) (f : ℕ → ℚ) (count horizon : ℕ) (parameters : Parameters) :
    Prop :=
  ∃ result, code.forecast (history f count) horizon parameters = .ok result ∧
    result.values = continuation f count horizon

def progression (first step : ℚ) (index : ℕ) : ℚ := first + step * index

section

variable {f : ℕ → ℚ} {count horizon : ℕ} {parameters : Parameters}

@[simp] theorem history_length (f : ℕ → ℚ) (count : ℕ) : (history f count).length = count := by
  rw [history, length_map, length_range]

theorem valueAt_history {index : ℕ} (h : index < count) :
    valueAt (history f count) index = f index := by
  rw [valueAt, getD_eq_getElem?_getD, history, List.getElem?_map, List.getElem?_range h]
  rfl

theorem history_succ (f : ℕ → ℚ) (count : ℕ) :
    history f (count + 1) = history f count ++ [f count] := by
  rw [history, range_succ, map_append, map_singleton, history]

theorem lastValue_history_succ (f : ℕ → ℚ) (count : ℕ) :
    lastValue (history f (count + 1)) = f count := by
  rw [lastValue, history_succ, getLastD_concat]

theorem continues_of_fit {code : MethodCode} {season : ℤ} {fit : Fit}
    (hseason : methodSeason parameters = .ok season)
    (hsupports : code.metadata.supportsSeasonality = false)
    (hcount : code.metadata.minimumHistory ≤ count) (hhorizon : 1 ≤ horizon ∧ horizon ≤ 120)
    (hfit : code.fit season parameters (history f count) horizon = .ok fit)
    (hforecasts : fit.forecasts = continuation f count horizon) :
    Continues code f count horizon parameters := by
  have hne : history f count ≠ [] := by
    have := code.two_le_minimumHistory
    exact ne_nil_of_length_pos (by rw [history_length]; omega)
  refine ⟨_, MethodCode.forecast_eq_ok.2 ⟨hne, ?_, hhorizon, season, hseason, ?_, fit, hfit, rfl⟩,
    hforecasts⟩
  · rwa [history_length]
  · rw [hsupports]
    exact fun h => by cases h

end

/-! ## Drift and line -/

section

variable (first step : ℚ)

theorem driftFit_continues {count : ℕ} (hcount : 2 ≤ count) (horizon : ℕ) :
    (driftFit (history (progression first step) count) horizon).forecasts =
      continuation (progression first step) count horizon := by
  obtain ⟨last, rfl⟩ : ∃ last, count = last + 1 := ⟨count - 1, by omega⟩
  have hlast : (last : ℚ) ≠ 0 := by
    have : last ≠ 0 := by omega
    exact_mod_cast this
  have hslope : (progression first step last - progression first step 0) /
      (((last + 1 : ℕ) : ℚ) - 1) = step := by
    rw [progression, progression, Nat.cast_add_one, add_sub_cancel_right]
    field_simp
    ring
  refine map_congr_left fun index _ => ?_
  rw [lastValue_history_succ, valueAt_history (by omega), history_length, hslope, progression,
    progression]
  push_cast
  ring

/-- The sums of the indices, of their squares and so on below a number. -/
theorem powerSum_succ (count power : ℕ) :
    powerSum (count + 1) power = powerSum count power + (count : ℚ) ^ power := by
  rw [powerSum, range_succ, map_append, sum_append, ← powerSum]
  simp

theorem powerSum_one (count : ℕ) : powerSum count 1 = count * (count - 1) / 2 := by
  induction count with
  | zero => simp [powerSum]
  | succ count ih =>
    rw [powerSum_succ, ih]
    push_cast
    ring

theorem powerSum_two (count : ℕ) :
    powerSum count 2 = count * (count - 1) * (2 * count - 1) / 6 := by
  induction count with
  | zero => simp [powerSum]
  | succ count ih =>
    rw [powerSum_succ, ih]
    push_cast
    ring

theorem sum_parabola (a b c : ℚ) (count : ℕ) :
    ((List.range count).map fun (index : ℕ) => a + b * index + c * (index : ℚ) ^ 2).sum =
      a * count + b * powerSum count 1 + c * powerSum count 2 := by
  induction count with
  | zero => simp [powerSum]
  | succ count ih =>
    rw [range_succ, map_append, sum_append, ih, powerSum_succ, powerSum_succ,
      map_singleton, sum_singleton]
    push_cast
    ring

theorem sum_progression (count : ℕ) :
    (history (progression first step) count).sum = first * count + step * powerSum count 1 := by
  have hparabola : progression first step =
      fun index : ℕ => first + step * (index : ℚ) + 0 * (index : ℚ) ^ 2 := by
    funext index
    rw [progression, zero_mul, add_zero]
  rw [history, hparabola, sum_parabola, zero_mul, add_zero]

theorem linear_progression {count : ℕ} (hcount : 2 ≤ count) :
    linear (history (progression first step) count) = (first, step) := by
  have htwo : (2 : ℚ) ≤ count := by exact_mod_cast hcount
  have hmean : mean (history (progression first step) count) =
      first + step * ((count - 1) / 2) := by
    rw [mean, sum_progression, history_length, powerSum_one]
    field_simp
  -- the squares of the distances from the middle index
  have hsquares : ((List.range count).map fun (index : ℕ) =>
      ((index : ℚ) - (count - 1) / 2) ^ 2).sum = (count : ℚ) * (count - 1) * (count + 1) / 12 := by
    have hparabola : (fun index : ℕ => ((index : ℚ) - (count - 1) / 2) ^ 2) = fun index : ℕ =>
        (((count : ℚ) - 1) / 2) ^ 2 + (-((count : ℚ) - 1)) * index + 1 * (index : ℚ) ^ 2 := by
      funext index
      ring
    rw [hparabola, sum_parabola, powerSum_one, powerSum_two]
    ring
  have hsquares_ne : (count : ℚ) * (count - 1) * (count + 1) / 12 ≠ 0 := by
    have hone : (0 : ℚ) < count - 1 := by linarith
    positivity
  have hproducts : (List.zipWith (fun index value => (index - ((count : ℚ) - 1) / 2) *
      (value - (first + step * (((count : ℚ) - 1) / 2))))
      ((List.range count).map fun (index : ℕ) => (index : ℚ))
      (history (progression first step) count)).sum =
        step * ((count : ℚ) * (count - 1) * (count + 1) / 12) := by
    rw [history, zipWith_map, zipWith_self, ← hsquares, ← sum_map_mul_left]
    refine congrArg List.sum (map_congr_left fun index _ => ?_)
    rw [progression]
    ring
  have hslope : step * ((count : ℚ) * (count - 1) * (count + 1) / 12) /
      ((count : ℚ) * (count - 1) * (count + 1) / 12) = step := mul_div_cancel_right₀ _ hsquares_ne
  rw [linear]
  simp only [history_length, map_map, Function.comp_def, hsquares, hproducts, hsquares_ne,
    if_false, hslope, hmean]
  rw [Prod.mk.injEq]
  exact ⟨by ring, rfl⟩

theorem linearFit_continues {count : ℕ} (hcount : 2 ≤ count) (horizon : ℕ) :
    (linearFit (history (progression first step) count) horizon).forecasts =
      continuation (progression first step) count horizon := by
  rw [linearFit, linear_progression first step hcount]
  refine map_congr_left fun index _ => ?_
  rw [history_length, progression]

/-! ## Smoothing without damping -/

theorem holtStep_progression (alpha beta : ℚ) (index : ℕ) :
    holtStep alpha beta 1 (progression first step index, step)
        (progression first step (index + 1)) =
      (progression first step (index + 1), step) := by
  simp only [holtStep, progression, Prod.mk.injEq]
  push_cast
  constructor
  · ring
  · ring

theorem foldl_holtStep (alpha beta : ℚ) (count : ℕ) :
    ((List.range count).map fun index => progression first step (index + 1)).foldl
        (holtStep alpha beta 1) (progression first step 0, step) =
      (progression first step count, step) := by
  induction count with
  | zero => rfl
  | succ count ih =>
    rw [range_succ, map_append, foldl_append, ih]
    exact holtStep_progression first step alpha beta count

theorem history_tail (f : ℕ → ℚ) (count : ℕ) :
    (history f (count + 1)).tail = (List.range count).map fun index => f (index + 1) := by
  rw [history, range_succ_eq_map, map_cons, tail_cons, map_map]
  rfl

theorem holtFit_continues {count : ℕ} (hcount : 2 ≤ count) (alpha beta : ℚ) (horizon : ℕ) :
    (holtFit alpha beta 1 (history (progression first step) count) horizon).forecasts =
      continuation (progression first step) count horizon := by
  obtain ⟨last, rfl⟩ : ∃ last, count = last + 1 := ⟨count - 1, by omega⟩
  have hstart : valueAt (history (progression first step) (last + 1)) 1 -
      valueAt (history (progression first step) (last + 1)) 0 = step := by
    rw [valueAt_history (by omega), valueAt_history (by omega), progression, progression]
    push_cast
    ring
  refine map_congr_left fun index _ => ?_
  rw [hstart, valueAt_history (by omega), history_tail, getLastD_eq_getLast?,
    List.getLast?_scanl, Option.getD_some, foldl_holtStep]
  simp only [one_pow, map_const', length_range, sum_replicate, nsmul_eq_mul, mul_one, progression]
  push_cast
  ring

end

end Intel4Ops.Forecasting
