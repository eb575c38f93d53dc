import Intel4Ops.Statistical.Methods
import Mathlib.Data.Rat.Floor

/-!
# Change points

The change detection of the statistical engine looks for the split of a series with the largest
shift between the means of its parts. A minimal segment of at least one value keeps both parts
nonempty; nothing in the engine asks for one (`change_sound_iff`).
-/

namespace Intel4Ops.Statistical

open Lib

/-- An error of the methods, or the `StatisticsError` of a mean without data. -/
inductive ChangeRaised
  | method (error : Error)
  | statistics
  deriving DecidableEq

/-- The result of a change detection, with its diagnostics. -/
structure ChangeResult where
  (observedValue expectedValue score : ℚ)
  isAnomaly : Bool
  threshold : ℚ
  changePointIndex : ℤ
  (previousLevel newLevel absoluteShift : ℚ)
  duration : ℤ
  deriving DecidableEq

/-- The position that an index of a slice stands for. -/
def position (values : List ℚ) (index : ℤ) : ℕ :=
  if 0 ≤ index then index.toNat else (values.length + index).toNat

/-- `statistics.mean` -/
def meanOf (values : List ℚ) : Except ChangeRaised ℚ := do
  ensure (values ≠ []) .statistics
  return mean values

/-- `statistics.mean(values[:index])` -/
def levelBefore (values : List ℚ) (index : ℤ) : Except ChangeRaised ℚ :=
  meanOf (values.take (position values index))

/-- `statistics.mean(values[index:])` -/
def levelFrom (values : List ℚ) (index : ℤ) : Except ChangeRaised ℚ :=
  meanOf (values.drop (position values index))

/-- `range(start, stop)` -/
def rangeOf (start stop : ℤ) : List ℤ :=
  (List.range (stop - start).toNat).map fun k : ℕ => start + k

/-- One turn of the loop. -/
def bestStep (values : List ℚ) (best : ℤ × ℚ) (index : ℤ) : Except ChangeRaised (ℤ × ℚ) := do
  let after ← levelFrom values index
  let before ← levelBefore values index
  return if |best.2| < |after - before| then (index, after - before) else best

def liftMethod {α : Type} (x : Except Error α) : Except ChangeRaised α := x.mapError .method

/-- `_change` -/
def change (values : List ℚ) (parameters : Parameters ℚ) : Except ChangeRaised ChangeResult := do
  let minimumSegment ← liftMethod (integerParameter parameters "minimum_segment" 3)
  ensure (minimumSegment * 2 ≤ values.length)
    (.method (.insufficientData "Change detection requires two stable segments"))
  let best ← (rangeOf minimumSegment (values.length - minimumSegment + 1)).foldlM
    (bestStep values) (minimumSegment, 0)
  let previous ← levelBefore values best.1
  let current ← levelFrom values best.1
  let relative := if previous = 0 then 0 else best.2 / |previous|
  let threshold ← liftMethod (numericParameter parameters "relative_threshold" (1 / 5))
  return {
    observedValue := current
    expectedValue := previous
    score := relative
    isAnomaly := threshold ≤ |relative|
    threshold
    changePointIndex := best.1
    previousLevel := previous
    newLevel := current
    absoluteShift := best.2
    duration := values.length - best.1 }

/-! ## Splits -/

/-- The shift of the mean at a split. -/
def shift (values : List ℚ) (i : ℤ) : ℚ := mean (values.drop i.toNat) - mean (values.take i.toNat)

/-- Both parts of a split have at least so many values. -/
def Splits (values : List ℚ) (segment i : ℤ) : Prop := segment ≤ i ∧ i ≤ values.length - segment

/-- The split is the first of the largest shifts. -/
structure Largest (values : List ℚ) (segment i : ℤ) : Prop where
  splits : Splits values segment i
  max : ∀ j, Splits values segment j → |shift values j| ≤ |shift values i|
  first : ∀ j, Splits values segment j → j < i → |shift values j| < |shift values i|

/-- What is said of a change detection. -/
def ChangeSound (values : List ℚ) (parameters : Parameters ℚ) (segment : ℤ) : Prop :=
  (∃ error, change values parameters = .error (.method error)) ∨
    ∃ result, change values parameters = .ok result ∧ 1 ≤ segment ∧
      Largest values segment result.changePointIndex ∧
      result.previousLevel = mean (values.take result.changePointIndex.toNat) ∧
      result.newLevel = mean (values.drop result.changePointIndex.toNat) ∧
      ∀ c, (∀ v ∈ values, v = c) → result.isAnomaly = false

variable {values : List ℚ} {parameters : Parameters ℚ} {segment i j : ℤ}

theorem mem_rangeOf {start stop : ℤ} : i ∈ rangeOf start stop ↔ start ≤ i ∧ i < stop := by
  rw [rangeOf, List.mem_map]
  constructor
  · rintro ⟨k, hk, rfl⟩
    rw [List.mem_range] at hk
    omega
  · rintro ⟨hstart, hstop⟩
    exact ⟨(i - start).toNat, by rw [List.mem_range]; omega, by omega⟩

theorem rangeOf_cons {start stop : ℤ} (h : start < stop) :
    rangeOf start stop = start :: rangeOf (start + 1) stop := by
  obtain ⟨n, hn⟩ : ∃ n, (stop - start).toNat = n + 1 := ⟨(stop - start).toNat - 1, by omega⟩
  have hrest : (stop - (start + 1)).toNat = n := by omega
  rw [rangeOf, rangeOf, hn, hrest, List.range_succ_eq_map, List.map_cons, List.map_map]
  congr 1
  · simp
  · refine List.map_congr_left fun k _ => ?_
    simp only [Function.comp_apply, Nat.cast_succ]
    ring

theorem rangeOf_sorted (start stop : ℤ) : (rangeOf start stop).Pairwise (· < ·) :=
  List.pairwise_map.2 (List.pairwise_lt_range.imp fun h => by omega)

/-! ## Segments without values -/

theorem meanOf_of_ne (h : values ≠ []) : meanOf values = .ok (mean values) := by
  rw [meanOf, ensure_of h]
  rfl

theorem meanOf_eq_error {e : ChangeRaised} (h : meanOf values = .error e) : e = .statistics := by
  rw [meanOf, bind_eq_error] at h
  rcases h with h | ⟨-, -, h⟩
  · exact (ensure_eq_error.1 h).2.symm
  · cases h

theorem bestStep_eq_error {best : ℤ × ℚ} {e : ChangeRaised}
    (h : bestStep values best i = .error e) : e = .statistics := by
  simp only [bestStep, bind_eq_error, pure_ne_error, and_false, exists_false, or_false] at h
  rcases h with h | ⟨-, -, h⟩
  · exact meanOf_eq_error h
  · exact meanOf_eq_error h

theorem bestStep_zero (best : ℤ × ℚ) : bestStep values best 0 = .error .statistics := by
  have hbefore : levelBefore values 0 = .error .statistics := rfl
  cases h : bestStep values best 0 with
  | error e => rw [bestStep_eq_error h]
  | ok best' =>
    simp only [bestStep, hbefore, bind_eq_ok, error_bind] at h
    obtain ⟨-, -, h⟩ := h
    cases h

theorem foldlM_bestStep_error {l : List ℤ} (h : 0 ∈ l) (best : ℤ × ℚ) :
    l.foldlM (bestStep values) best = .error .statistics := by
  induction l generalizing best with
  | nil => cases h
  | cons i l ih =>
    rw [List.foldlM_cons]
    cases hstep : bestStep values best i with
    | error e => rw [error_bind, bestStep_eq_error hstep]
    | ok best' =>
      rcases List.mem_cons.1 h with rfl | hl
      · rw [bestStep_zero] at hstep
        cases hstep
      · exact ih hl best'

theorem change_of_no_segment
    (hsegment : integerParameter parameters "minimum_segment" 3 = .ok segment)
    (h : segment < 1) : change values parameters = .error .statistics := by
  have hmem : (0 : ℤ) ∈ rangeOf segment (values.length - segment + 1) :=
    mem_rangeOf.2 ⟨by omega, by omega⟩
  rw [change, hsegment, liftMethod, Except.mapError, ok_bind, ensure_of (by omega), ok_bind,
    foldlM_bestStep_error hmem]
  rfl

/-! ## The largest shift -/

/-- One turn of the loop, where both parts have values. -/
def bestOf (values : List ℚ) (best : ℤ × ℚ) (i : ℤ) : ℤ × ℚ :=
  if |best.2| < |shift values i| then (i, shift values i) else best

theorem Splits.levels (h : Splits values segment i) (hsegment : 1 ≤ segment) :
    levelBefore values i = .ok (mean (values.take i.toNat)) ∧
      levelFrom values i = .ok (mean (values.drop i.toNat)) := by
  obtain ⟨hlow, hhigh⟩ := h
  have hposition : position values i = i.toNat := if_pos (by omega)
  rw [levelBefore, levelFrom, hposition]
  refine ⟨meanOf_of_ne ?_, meanOf_of_ne ?_⟩
  · rw [ne_eq, List.take_eq_nil_iff, ← List.length_eq_zero_iff]
    omega
  · rw [ne_eq, List.drop_eq_nil_iff]
    omega

theorem foldlM_bestStep (hsegment : 1 ≤ segment) {l : List ℤ}
    (hl : ∀ i ∈ l, Splits values segment i) (best : ℤ × ℚ) :
    l.foldlM (bestStep values) best = .ok (l.foldl (bestOf values) best) := by
  induction l generalizing best with
  | nil => rfl
  | cons i l ih =>
    obtain ⟨hi, hrest⟩ := List.forall_mem_cons.1 hl
    have hlevels := hi.levels hsegment
    rw [List.foldlM_cons, bestStep, hlevels.2, ok_bind, hlevels.1, ok_bind, List.foldl_cons]
    exact ih hrest _

/-- From one split on, the loop ends at the first of the largest shifts. -/
theorem foldl_bestOf {l : List ℤ} (hl : (i :: l).Pairwise (· < ·)) :
    ∃ k ∈ i :: l, l.foldl (bestOf values) (i, shift values i) = (k, shift values k) ∧
      (∀ j ∈ i :: l, |shift values j| ≤ |shift values k|) ∧
        ∀ j ∈ i :: l, j < k → |shift values j| < |shift values k| := by
  induction l generalizing i with
  | nil => exact ⟨i, by simp, rfl, by simp, by simp⟩
  | cons a l ih =>
    obtain ⟨hi, hrest⟩ := List.pairwise_cons.1 hl
    have hia := hi a (List.mem_cons_self ..)
    rw [List.foldl_cons, bestOf]
    split
    case isTrue hlt =>
      obtain ⟨k, hk, hfold, hmax, hfirst⟩ := ih hrest
      have hik := hlt.trans_le (hmax a (List.mem_cons_self ..))
      exact ⟨k, List.mem_cons_of_mem _ hk, hfold,
        List.forall_mem_cons.2 ⟨hik.le, hmax⟩, List.forall_mem_cons.2 ⟨fun _ => hik, hfirst⟩⟩
    case isFalse hle =>
      have hskip : (i :: l).Pairwise (· < ·) := List.pairwise_cons.2
        ⟨fun j hj => hi j (List.mem_cons_of_mem _ hj), (List.pairwise_cons.1 hrest).2⟩
      obtain ⟨k, hk, hfold, hmax, hfirst⟩ := ih hskip
      obtain ⟨hmaxi, hmaxl⟩ := List.forall_mem_cons.1 hmax
      obtain ⟨hfirsti, hfirstl⟩ := List.forall_mem_cons.1 hfirst
      have ha := not_lt.1 hle
      refine ⟨k, ?_, hfold, ?_, ?_⟩
      · rcases List.mem_cons.1 hk with rfl | hk
        · simp
        · simp [hk]
      · exact List.forall_mem_cons.2 ⟨hmaxi, List.forall_mem_cons.2 ⟨ha.trans hmaxi, hmaxl⟩⟩
      · refine List.forall_mem_cons.2 ⟨hfirsti, List.forall_mem_cons.2 ⟨fun hak => ?_, hfirstl⟩⟩
        exact ha.trans_lt (hfirsti (hia.trans hak))

theorem exists_largest (hsegment : 1 ≤ segment) (hlength : segment * 2 ≤ values.length) :
    ∃ k, Largest values segment k ∧
      (rangeOf segment (values.length - segment + 1)).foldlM (bestStep values) (segment, 0) =
        .ok (k, shift values k) := by
  have hmem : ∀ j, j ∈ rangeOf segment (values.length - segment + 1) ↔
      Splits values segment j := fun j => by rw [mem_rangeOf, Splits]; omega
  have hsorted := rangeOf_sorted segment (values.length - segment + 1)
  rw [foldlM_bestStep hsegment fun j hj => (hmem j).1 hj]
  rw [rangeOf_cons (by omega)] at hmem hsorted ⊢
  obtain ⟨k, hk, hfold, hmax, hfirst⟩ := @foldl_bestOf values _ _ hsorted
  have hstart : bestOf values (segment, 0) segment = (segment, shift values segment) := by
    unfold bestOf
    split
    case isTrue => rfl
    case isFalse h =>
      have hzero : shift values segment = 0 := by simpa using h
      rw [hzero]
  refine ⟨k, ⟨(hmem k).1 hk, fun j hj => hmax j ((hmem j).2 hj),
    fun j hj => hfirst j ((hmem j).2 hj)⟩, ?_⟩
  rw [List.foldl_cons, hstart, hfold]

theorem shift_constant {c : ℚ} (hconstant : ∀ v ∈ values, v = c) (hsegment : 1 ≤ segment)
    (h : Splits values segment i) : shift values i = 0 := by
  obtain ⟨hlow, hhigh⟩ := h
  rw [shift, mean_constant (c := c) _ fun v hv => hconstant v (List.mem_of_mem_drop hv),
    mean_constant (c := c) _ fun v hv => hconstant v (List.mem_of_mem_take hv), sub_self]
  · rw [ne_eq, List.take_eq_nil_iff, ← List.length_eq_zero_iff]
    omega
  · rw [ne_eq, List.drop_eq_nil_iff]
    omega

/-- A change detection is sound just where the segments have a value, and where a constant series
long enough for them meets a positive threshold. -/
theorem change_sound_iff
    (hsegment : integerParameter parameters "minimum_segment" 3 = .ok segment) :
    ChangeSound values parameters segment ↔ 1 ≤ segment ∧ ∀ c threshold,
      (∀ v ∈ values, v = c) → segment * 2 ≤ values.length →
        numericParameter parameters "relative_threshold" (1 / 5) = .ok threshold →
          0 < threshold := by
  rcases lt_or_ge segment 1 with hnone | hsome
  · rw [ChangeSound, change_of_no_segment hsegment hnone]
    refine iff_of_false ?_ fun h => absurd h.1 (by omega)
    rintro (⟨error, h⟩ | ⟨result, h, -⟩)
    · cases h
    · cases h
  by_cases hlength : segment * 2 ≤ values.length
  · obtain ⟨k, hlargest, hfold⟩ := exists_largest hsome hlength
    have hlevels := hlargest.splits.levels hsome
    rw [ChangeSound, change, hsegment, liftMethod, Except.mapError, ok_bind, ensure_of hlength,
      ok_bind, hfold, ok_bind]
    dsimp only
    rw [hlevels.1, ok_bind, hlevels.2, ok_bind]
    cases hthreshold : numericParameter parameters "relative_threshold" (1 / 5) with
    | error e =>
      refine iff_of_true (.inl ⟨e, rfl⟩) ⟨hsome, fun _ _ _ _ h => ?_⟩
      cases h
    | ok threshold =>
      have hscore : ∀ c, (∀ v ∈ values, v = c) → shift values k = 0 := fun c hconstant =>
        shift_constant hconstant hsome hlargest.splits
      constructor
      · rintro (⟨error, h⟩ | ⟨result, h, -, -, -, -, hflag⟩)
        · cases h
        · refine ⟨hsome, fun c t hconstant _ ht => ?_⟩
          cases h
          cases ht
          have hfalse := hflag c hconstant
          rw [hscore c hconstant] at hfalse
          simpa using hfalse
      · rintro ⟨-, hpositive⟩
        refine .inr ⟨_, rfl, hsome, hlargest, rfl, rfl, fun c hconstant => ?_⟩
        have hpos := hpositive c threshold hconstant hlength rfl
        simp [hscore c hconstant, hpos]
  · rw [ChangeSound, change, hsegment, liftMethod, Except.mapError, ok_bind, ensure_of_not hlength]
    refine iff_of_true (.inl ⟨_, rfl⟩) ⟨hsome, fun _ _ _ h => absurd h hlength⟩

/-- A minimal segment of no values, as it can be given. -/
def noSegment : Parameters ℚ := fun key =>
  if key = "minimum_segment" then some (.number 0) else none

theorem not_changeSound : integerParameter noSegment "minimum_segment" 3 = .ok 0 ∧
    ¬ ChangeSound [1, 2] noSegment 0 := by
  have hraised : change [1, 2] noSegment = .error .statistics := by decide +kernel
  refine ⟨by decide +kernel, ?_⟩
  rw [ChangeSound, hraised]
  rintro (⟨error, h⟩ | ⟨result, h, -⟩)
  · cases h
  · cases h

theorem change_sound_default : ChangeSound [1, 1, 1, 5, 5, 5] (fun _ => none) 3 ↔
    (1 : ℤ) ≤ 3 ∧ ∀ c threshold : ℚ, (∀ v ∈ [1, 1, 1, 5, 5, 5], v = c) →
      (3 : ℤ) * 2 ≤ ([1, 1, 1, 5, 5, 5] : List ℚ).length →
        numericParameter (fun _ => none) "relative_threshold" (1 / 5) = .ok threshold →
          (0 : ℚ) < threshold := by
  have hsegment : integerParameter (fun _ => none : Parameters ℚ) "minimum_segment" 3 = .ok 3 := by
    decide +kernel
  exact change_sound_iff hsegment

end Intel4Ops.Statistical
