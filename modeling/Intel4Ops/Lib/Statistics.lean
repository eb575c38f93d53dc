import Mathlib.Algebra.Order.Field.Basic
import Mathlib.Algebra.BigOperators.Group.List.Basic
import Mathlib.Data.List.GetD
import Mathlib.Data.List.Sort
import Mathlib.Tactic.Linarith

/-!
# Means and medians

The mean and the median of a list of numbers. The median of an even number of values is halfway
between the two in the middle; it does not depend on the order of the list, and one more value
that equals the median does not move it.
-/

namespace Lib

open List

variable {K : Type*} [Field K] [LinearOrder K]

/-- The arithmetic mean. -/
def mean (values : List K) : K := values.sum / values.length

/-- The middle of a sorted list, halfway between the two middle values of an even number. -/
def middle (values : List K) : K :=
  let half := values.length / 2
  if values.length % 2 = 1 then values.getD half 0
  else (values.getD (half - 1) 0 + values.getD half 0) / 2

def median (values : List K) : K := middle (values.insertionSort (· ≤ ·))

/-- One more value makes no difference to the median, whatever it is. -/
def Pinned (values : List K) : Prop := ∀ x y, median (x :: values) = median (y :: values)

theorem median_perm {xs ys : List K} (h : xs.Perm ys) : median xs = median ys := by
  have hsorted : xs.insertionSort (· ≤ ·) = ys.insertionSort (· ≤ ·) := by
    apply List.Perm.eq_of_pairwise' (pairwise_insertionSort _ _) (pairwise_insertionSort _ _)
    exact ((perm_insertionSort _ _).trans h).trans (perm_insertionSort _ _).symm
  rw [median, median, hsorted]

variable {values : List K}

theorem middle_split [IsStrictOrderedRing K] (hne : values ≠ [])
    (hsorted : values.Pairwise (· ≤ ·)) :
    (∀ x ∈ values.take (values.length / 2), x ≤ middle values) ∧
      ∀ x ∈ values.drop (values.length / 2), middle values ≤ x := by
  have hlen : 0 < values.length := length_pos_iff.2 hne
  have hle : ∀ i j (hi : i ≤ j) (hj : j < values.length), values[i] ≤ values[j] := by
    intro i j hi hj
    rcases hi.eq_or_lt with rfl | hi
    · exact le_rfl
    · exact pairwise_iff_getElem.1 hsorted i j (by omega) hj hi
  have hhalf : values.length / 2 < values.length := by omega
  by_cases hodd : values.length % 2 = 1
  · have hmiddle : middle values = values[values.length / 2] := by
      rw [middle, if_pos hodd, getD_eq_getElem _ _ hhalf]
    rw [hmiddle]
    constructor
    · intro x hx
      obtain ⟨i, hi, rfl⟩ := mem_take_iff_getElem.1 hx
      exact hle _ _ (by omega) hhalf
    · intro x hx
      obtain ⟨i, hi, rfl⟩ := mem_drop_iff_getElem.1 hx
      exact hle _ _ (by omega) (by omega)
  · -- an even number of values: the mean of two neighbours lies between them
    have hbefore : values.length / 2 - 1 < values.length := by omega
    have hmiddle : middle values =
        (values[values.length / 2 - 1] + values[values.length / 2]) / 2 := by
      rw [middle, if_neg hodd, getD_eq_getElem _ _ hhalf, getD_eq_getElem _ _ hbefore]
    have hstep := hle (values.length / 2 - 1) (values.length / 2) (by omega) hhalf
    rw [hmiddle]
    constructor
    · intro x hx
      obtain ⟨i, hi, rfl⟩ := mem_take_iff_getElem.1 hx
      have := hle i (values.length / 2 - 1) (by omega) hbefore
      linarith
    · intro x hx
      obtain ⟨i, hi, rfl⟩ := mem_drop_iff_getElem.1 hx
      have := hle (values.length / 2) (i + values.length / 2) (by omega) (by omega)
      simp only [Nat.add_comm (values.length / 2)]
      linarith

theorem length_le_countP_median [IsStrictOrderedRing K] (hne : values ≠ []) :
    values.length ≤ 2 * values.countP fun v => median values ≤ v := by
  obtain ⟨sorted, hs⟩ : ∃ sorted, sorted = values.insertionSort (· ≤ ·) := ⟨_, rfl⟩
  have hperm : sorted.Perm values := hs ▸ perm_insertionSort _ _
  have hsorted : sorted.Pairwise (· ≤ ·) := hs ▸ pairwise_insertionSort _ _
  have hmedian : median values = middle sorted := by rw [median, hs]
  have hne' : sorted ≠ [] := by
    intro h
    exact hne (perm_nil.1 (h ▸ hperm).symm)
  obtain ⟨-, habove⟩ := middle_split hne' hsorted
  -- All values of the upper half count.
  have hupper := countP_eq_length.2 fun v hv => decide_eq_true (habove v hv)
  have hcount := (drop_sublist (sorted.length / 2) sorted).countP_le
    (p := fun v => decide (middle sorted ≤ v))
  rw [hupper, length_drop] at hcount
  rw [hmedian, ← hperm.countP_eq, ← hperm.length_eq]
  omega

theorem median_cons_median [IsStrictOrderedRing K] (hne : values ≠ []) :
    median (median values :: values) = median values := by
  obtain ⟨sorted, hs⟩ : ∃ sorted, sorted = values.insertionSort (· ≤ ·) := ⟨_, rfl⟩
  have hperm : sorted.Perm values := hs ▸ perm_insertionSort _ _
  have hsorted : sorted.Pairwise (· ≤ ·) := hs ▸ pairwise_insertionSort _ _
  have hmedian : median values = middle sorted := by rw [median, hs]
  have hne' : sorted ≠ [] := by
    intro h
    exact hne (perm_nil.1 (h ▸ hperm).symm)
  obtain ⟨hbelow, habove⟩ := middle_split hne' hsorted
  obtain ⟨half, hhalf⟩ : ∃ half, half = sorted.length / 2 := ⟨_, rfl⟩
  rw [← hhalf] at hbelow habove
  -- the sorted list with the middle put between its two halves
  have hput : (middle sorted :: values).insertionSort (· ≤ ·) =
      sorted.take half ++ middle sorted :: sorted.drop half := by
    apply List.Perm.eq_of_pairwise' (pairwise_insertionSort _ _)
    · rw [pairwise_append, pairwise_cons]
      refine ⟨hsorted.sublist (take_sublist _ _), ⟨habove, hsorted.sublist (drop_sublist _ _)⟩, ?_⟩
      intro x hx y hy
      rcases mem_cons.1 hy with rfl | hy
      · exact hbelow x hx
      · exact (hbelow x hx).trans (habove y hy)
    · refine (perm_insertionSort _ _).trans (List.Perm.trans ?_ perm_middle.symm)
      rw [take_append_drop]
      exact hperm.symm.cons _
  have hlen : (sorted.take half).length = half := by rw [length_take]; omega
  rw [hmedian, median, hput, middle]
  simp only [length_append, length_cons, hlen, length_drop]
  by_cases hodd : sorted.length % 2 = 1
  · -- an odd number became even: both neighbours in the middle are the median
    have hnext : sorted.drop half = sorted[half] :: sorted.drop (half + 1) :=
      drop_eq_getElem_cons (by omega)
    have hmiddle : middle sorted = sorted[half] := by
      rw [middle, if_pos hodd, ← hhalf, getD_eq_getElem _ _ (by omega)]
    rw [if_neg (by omega), show (half + (sorted.length - half + 1)) / 2 = half + 1 by omega,
      Nat.add_sub_cancel, getD_append_right _ _ _ _ (by omega),
      getD_append_right _ _ _ _ (by omega), hlen, hnext, Nat.sub_self,
      Nat.add_sub_cancel_left]
    simp only [getD_cons_zero, getD_cons_succ, hmiddle]
    linarith
  · rw [if_pos (by omega), show (half + (sorted.length - half + 1)) / 2 = half by omega,
      getD_append_right _ _ _ _ (by omega), hlen, Nat.sub_self, getD_cons_zero]

@[simp] theorem median_singleton (x : K) : median [x] = x := by
  simp [median, middle]

/-- The only value of a list is its median, so it does make a difference. -/
theorem Pinned.ne_nil [IsStrictOrderedRing K] (h : Pinned values) : values ≠ [] := by
  rintro rfl
  have h := h 0 1
  rw [median_singleton, median_singleton] at h
  exact zero_ne_one h

theorem Pinned.median_eq [IsStrictOrderedRing K] (h : Pinned values) (x : K) :
    median (x :: values) = median values := by
  rw [h x (median values), median_cons_median h.ne_nil]

end Lib
