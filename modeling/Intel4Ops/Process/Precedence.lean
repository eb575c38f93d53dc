import Intel4Ops.Lib.Decimal
import Intel4Ops.Process.Sequence

/-!
# Precedence confidence

The tally of a pair of activity types is turned into a confidence with its components, a status
and the type of the edge between the two types. Strengths of directions and confidences are exact
rationals, rounded to four places where the source rounds.
-/

namespace Intel4Ops.Process

open Lib

/-! ## Components -/

inductive ProcessStatus
  | autoAccepted | acceptedWithFlag | reviewRequired | conflicted
  deriving DecidableEq

inductive ProcessEdgeType
  | precedes | concurrent | optionalBranch | loop | stateTransition | orderUnresolved

/-- A confidence as it is kept. -/
def round4 (confidence : ℚ) : ℚ := Decimal.halfEven.places 4 confidence

/-- The confidence of one observation, what each further one adds, and the limit. -/
def TemporalEvidenceTier.scale : TemporalEvidenceTier → ℚ × ℚ × ℚ
  | .strong => (75 / 100, 4 / 100, 95 / 100)
  | .moderate => (50 / 100, 3 / 100, 75 / 100)
  | .weak => (20 / 100, 0, 35 / 100)
  | .none => (0, 0, 0)

def temporalConfidenceForTier (tier : TemporalEvidenceTier) (supportCount : ℕ) : ℚ :=
  let (base, step, cap) := tier.scale
  round4 (min (base + step * (supportCount - 1 : ℕ)) cap)

def repetitionConfidence (tally : PairTally) : ℚ :=
  if tally.supportCount = 0 then 0
  else round4 (min (15 / 100 + 5 / 100 * (tally.supportCount - 1 : ℕ)) (1 / 2))

def consistencyConfidence (tally : PairTally) : ℚ :=
  if tally.supportCount = 0 then 0
  else round4 ((max tally.aBeforeBCount tally.bBeforeACount : ℕ) / tally.supportCount)

/-- The strength of the weaker direction, if both directions are strong. -/
def conflictPenalty (tally : PairTally) : ℚ :=
  if tally.supportCount < 2 then 0
  else
    let aStrength : ℚ := tally.aBeforeBCount / tally.supportCount
    let bStrength : ℚ := tally.bBeforeACount / tally.supportCount
    if 3 / 10 ≤ aStrength ∧ 3 / 10 ≤ bStrength then round4 (min aStrength bStrength) else 0

def isContradictory (tally : PairTally) : Bool := decide (0 < conflictPenalty tally)

/-! ## Composition -/

structure PrecedenceConfidenceResult where
  precedenceConfidence : ℚ
  temporalEvidenceTier : TemporalEvidenceTier
  status : ProcessStatus
  (semanticConfidence entityParticipationConfidence temporalConfidence repetitionConfidence
    consistencyConfidence conflictPenalty : ℚ)

def confidenceStatus (confidence : ℚ) : ProcessStatus :=
  if 75 / 100 ≤ confidence then .autoAccepted
  else if 40 / 100 ≤ confidence then .acceptedWithFlag
  else .reviewRequired

/-- The confidence in the order of a pair of types. The less certain of the two types is the
floor. -/
def composePrecedenceConfidence (tally : PairTally)
    (weakerActivityTypeConfidence entityParticipationConfidence : ℚ) :
    PrecedenceConfidenceResult :=
  let tier := tallyTemporalEvidenceTier tally
  let temporal := temporalConfidenceForTier tier tally.supportCount
  let result (confidence : ℚ) (status : ProcessStatus) : PrecedenceConfidenceResult :=
    { precedenceConfidence := confidence
      temporalEvidenceTier := tier
      status := status
      semanticConfidence := weakerActivityTypeConfidence
      entityParticipationConfidence := entityParticipationConfidence
      temporalConfidence := temporal
      repetitionConfidence := repetitionConfidence tally
      consistencyConfidence := consistencyConfidence tally
      conflictPenalty := conflictPenalty tally }
  if tally.supportCount = 0 then result 0 .reviewRequired
  else if isContradictory tally then
    result (round4 (weakerActivityTypeConfidence * (3 / 10))) .conflicted
  else
    let raw := weakerActivityTypeConfidence * (35 / 100) + temporal * (30 / 100) +
      entityParticipationConfidence * (15 / 100) + repetitionConfidence tally * (10 / 100) +
        consistencyConfidence tally * (10 / 100) - conflictPenalty tally
    let rounded := round4 (max (min raw (98 / 100)) 0)
    let confidence := if tier = .weak then min rounded (1 / 2) else rounded
    if tally.aBeforeBCount < tally.sameTimeCount ∧ tally.bBeforeACount < tally.sameTimeCount then
      result confidence .reviewRequired
    else result confidence (confidenceStatus confidence)

def resolveEdgeType (tally : PairTally) (status : ProcessStatus) : ProcessEdgeType :=
  if status = .conflicted then .orderUnresolved
  else if tally.supportCount = 0 then .orderUnresolved
  else if tally.aBeforeBCount ≤ tally.sameTimeCount ∧ tally.bBeforeACount ≤ tally.sameTimeCount ∧
      0 < tally.sameTimeCount then .concurrent
  else .precedes

/-! ## Contradictory pairs -/

/-- Both directions were seen in at least 30% of at least two comparisons. -/
def BothStrong (tally : PairTally) : Prop :=
  2 ≤ tally.supportCount ∧ 3 * tally.supportCount ≤ 10 * tally.aBeforeBCount ∧
    3 * tally.supportCount ≤ 10 * tally.bBeforeACount

theorem le_strength_iff {count support : ℕ} (hpos : 0 < support) :
    (3 / 10 : ℚ) ≤ count / support ↔ 3 * support ≤ 10 * count := by
  have hpos' : (0 : ℚ) < support := Nat.cast_pos.2 hpos
  rw [le_div_iff₀ hpos']
  constructor
  · intro h
    have h' : (3 * support : ℚ) ≤ 10 * count := by linarith
    exact_mod_cast h'
  · intro h
    have h' : (3 * support : ℚ) ≤ 10 * count := by exact_mod_cast h
    linarith

theorem round4_pos {x : ℚ} (h : 3 / 10 ≤ x) : 0 < round4 x := by
  have hmono := Decimal.halfEven.places_mono (p := 4) h
  have hfix : Decimal.halfEven.places 4 (3 / 10) = 3 / 10 :=
    Decimal.halfEven.places_of_hasPlaces ⟨3000, by norm_num⟩
  rw [hfix] at hmono
  exact lt_of_lt_of_le (by norm_num) hmono

theorem isContradictory_iff (tally : PairTally) :
    isContradictory tally = true ↔ BothStrong tally := by
  rw [isContradictory, decide_eq_true_eq, conflictPenalty, BothStrong]
  by_cases hsupport : tally.supportCount < 2
  · rw [if_pos hsupport]
    refine iff_of_false (lt_irrefl 0) ?_
    omega
  · rw [if_neg hsupport, ← le_strength_iff (by omega), ← le_strength_iff (by omega)]
    constructor
    · intro h
      dsimp only at h
      split at h
      case isTrue hstrong => exact ⟨by omega, hstrong⟩
      case isFalse => exact absurd h (lt_irrefl 0)
    · rintro ⟨-, hstrong⟩
      rw [if_pos hstrong]
      exact round4_pos (le_min hstrong.1 hstrong.2)

theorem confidenceStatus_ne_conflicted (confidence : ℚ) :
    confidenceStatus confidence ≠ .conflicted := by
  rw [confidenceStatus]
  split_ifs <;> simp

theorem status_eq_conflicted (tally : PairTally) (weaker participation : ℚ) :
    (composePrecedenceConfidence tally weaker participation).status = .conflicted ↔
      BothStrong tally := by
  rw [← isContradictory_iff]
  simp only [composePrecedenceConfidence]
  by_cases hsupport : tally.supportCount = 0
  · rw [if_pos hsupport]
    refine iff_of_false (by simp) ?_
    rw [isContradictory_iff, BothStrong]
    omega
  · rw [if_neg hsupport]
    by_cases hcontra : isContradictory tally = true
    · rw [if_pos hcontra]
      exact iff_of_true rfl hcontra
    · rw [if_neg hcontra]
      refine iff_of_false ?_ hcontra
      split
      · simp
      · exact confidenceStatus_ne_conflicted _

/-! ## Directed pairs -/

theorem resolveEdgeType_eq_precedes (tally : PairTally) (weaker participation : ℚ) :
    resolveEdgeType tally (composePrecedenceConfidence tally weaker participation).status =
        .precedes ↔
      ¬ BothStrong tally ∧ 0 < tally.supportCount ∧
        (tally.sameTimeCount < tally.aBeforeBCount ∨ tally.sameTimeCount < tally.bBeforeACount ∨
          tally.sameTimeCount = 0) := by
  rw [← status_eq_conflicted tally weaker participation, resolveEdgeType]
  by_cases hstatus : (composePrecedenceConfidence tally weaker participation).status = .conflicted
  · rw [if_pos hstatus]
    exact iff_of_false (by simp) fun h => h.1 hstatus
  · rw [if_neg hstatus]
    by_cases hsupport : tally.supportCount = 0
    · rw [if_pos hsupport]
      refine iff_of_false (by simp) ?_
      omega
    · rw [if_neg hsupport]
      split
      case isTrue h =>
        refine iff_of_false (by simp) ?_
        omega
      case isFalse h =>
        refine iff_of_true rfl ⟨hstatus, ?_⟩
        omega

/-- A pair whose second type was seen first more often is directed nevertheless, unless equal times
were as frequent or the first type was first in 30% of the comparisons. -/
theorem precedes_against_iff (tally : PairTally) (weaker participation : ℚ) :
    resolveEdgeType tally (composePrecedenceConfidence tally weaker participation).status =
          .precedes ∧ tally.aBeforeBCount ≤ tally.bBeforeACount ↔
      tally.aBeforeBCount < tally.bBeforeACount ∧ tally.sameTimeCount < tally.bBeforeACount ∧
        10 * tally.aBeforeBCount < 3 * tally.supportCount := by
  rw [resolveEdgeType_eq_precedes, BothStrong, PairTally.supportCount]
  omega

end Intel4Ops.Process
