import Intel4Ops.Readiness.Model
import Mathlib.Algebra.Order.Archimedean.Basic

/-!
# Confidence floors

More evidence can only raise the highest confidence of a population. Under every other policy enough
evidence of no confidence takes any population below a floor that is not trivial.
-/

namespace Intel4Ops.Readiness

open List

variable {d : ConfidenceDistribution} {minimum ratio : ℚ} {policy : AggregationPolicy}

/-- A floor that every population meets. -/
def TrivialFloor (minimum : ℚ) (policy : AggregationPolicy) (ratio : ℚ) : Prop :=
  minimum ≤ 0 ∨ policy = .coverageAboveThreshold ∧ ratio ≤ 0

theorem ConfidenceDistribution.coverageAbove_nonneg (d : ConfidenceDistribution) (threshold : ℚ) :
    0 ≤ d.coverageAbove threshold := by
  unfold coverageAbove
  split
  · exact le_rfl
  · positivity

theorem TrivialFloor.meets (h : TrivialFloor minimum policy ratio) (d : ConfidenceDistribution) :
    meetsConfidence d minimum policy ratio := by
  rcases h with hminimum | ⟨rfl, hratio⟩
  · exact .inl hminimum
  · exact .inr (hratio.trans (d.coverageAbove_nonneg minimum))

/-- A population meets a floor by its highest confidence if one value of it does. -/
theorem meetsConfidence_max :
    meetsConfidence d minimum .max ratio ↔ minimum ≤ 0 ∨ ∃ v ∈ d.values, minimum ≤ v := by
  refine or_congr_right' fun hminimum => ?_
  show minimum ≤ d.values.max?.getD 0 ↔ _
  cases hmax : d.values.max? with
  | none =>
    rw [List.max?_eq_none_iff.1 hmax]
    refine iff_of_false hminimum ?_
    rintro ⟨v, hv, -⟩
    cases hv
  | some top =>
    obtain ⟨hmem, hle⟩ := List.max?_eq_some_iff.1 hmax
    constructor
    · exact fun h => ⟨top, hmem, h⟩
    · rintro ⟨v, hv, h⟩
      exact h.trans (hle v hv)

theorem meetsConfidence_max_append (h : meetsConfidence d minimum .max ratio) (more : List ℚ) :
    meetsConfidence ⟨d.values ++ more⟩ minimum .max ratio := by
  rw [meetsConfidence_max] at h ⊢
  refine h.imp_right ?_
  rintro ⟨v, hv, hle⟩
  exact ⟨v, mem_append_left _ hv, hle⟩

theorem countP_zeros (hminimum : 0 < minimum) (values : List ℚ) (n : ℕ) :
    (values ++ List.replicate n 0).countP (fun v => minimum ≤ v) ≤ values.length := by
  rw [countP_append, countP_replicate, if_neg (by simpa using hminimum)]
  exact countP_le_length

/-- Enough evidence without confidence takes a population below a floor; the highest confidence has
to be below it already. -/
theorem diluted (hfloor : ¬ TrivialFloor minimum policy ratio)
    (hmax : policy = .max → ¬ meetsConfidence d minimum .max ratio) :
    ∃ n, 0 < n ∧ ¬ meetsConfidence ⟨d.values ++ List.replicate n 0⟩ minimum policy ratio := by
  obtain ⟨hminimum, hratio⟩ := not_or.1 hfloor
  have hpos := not_le.1 hminimum
  cases policy with
  | coverageAboveThreshold =>
    have hratio' : 0 < ratio := not_le.1 fun h => hratio ⟨rfl, h⟩
    obtain ⟨n, hn⟩ := exists_nat_gt (d.values.length / ratio)
    refine ⟨n + 1, n.succ_pos, not_or.2 ⟨hminimum, not_le.2 ?_⟩⟩
    unfold ConfidenceDistribution.coverageAbove
    rw [if_neg (by simp)]
    have hcount := countP_zeros hpos d.values (n + 1)
    rw [length_append, length_replicate, div_lt_iff₀ (by positivity)]
    rw [div_lt_iff₀ hratio'] at hn
    have hcount' : ((d.values ++ List.replicate (n + 1) 0).countP fun v => minimum ≤ v : ℚ) ≤
        d.values.length := by exact_mod_cast hcount
    push_cast
    nlinarith
  | min =>
    refine ⟨1, Nat.one_pos, not_or.2 ⟨hminimum, not_le.2 ?_⟩⟩
    show (d.values ++ [0]).min?.getD 0 < minimum
    cases hmin : (d.values ++ [0]).min? with
    | none => exact hpos
    | some low =>
      have hle := (List.min?_eq_some_iff.1 hmin).2 0 (by simp)
      exact hle.trans_lt hpos
  | median =>
    refine ⟨d.values.length + 1, Nat.succ_pos _, not_or.2 ⟨hminimum, ?_⟩⟩
    have hne : d.values ++ List.replicate (d.values.length + 1) 0 ≠ [] := by simp
    intro hmedian
    have hmedian : minimum ≤
        Lib.median (d.values ++ List.replicate (d.values.length + 1) 0) := by
      simpa only [ConfidenceDistribution.median, if_neg hne] using hmedian
    have hhalf := Lib.length_le_countP_median hne
    have hcount := countP_zeros (hpos.trans_le hmedian) d.values (d.values.length + 1)
    rw [length_append, length_replicate] at hhalf
    omega
  | max =>
    refine ⟨1, Nat.one_pos, fun h => ?_⟩
    rw [meetsConfidence_max] at h
    obtain ⟨v, hv, hle⟩ := h.resolve_left hminimum
    rcases mem_append.1 hv with hv | hv
    · exact hmax rfl (meetsConfidence_max.2 (.inr ⟨v, hv, hle⟩))
    · rw [eq_of_mem_replicate hv] at hle
      exact hminimum hle

end Intel4Ops.Readiness
