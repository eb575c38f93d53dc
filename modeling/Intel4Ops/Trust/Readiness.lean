import Intel4Ops.Lib.Decimal
import Intel4Ops.Lib.Statistics

/-!
# Trust scores and analytical readiness

The outcomes of trust rules are averaged to scores of dimensions and to one overall score, and a
policy decides from them for which analytical levels a dataset is ready. A better assessment has
scores that are no lower; its readiness can be worse, because a failed rule that is not critical
leaves no trace among the warnings.
-/

namespace Intel4Ops.Trust

open Lib List

/-! ## Rules and outcomes -/

/-- `TrustDimension` -/
inductive Dimension
  | completeness
  | validity
  | consistency
  | uniqueness
  | timeliness
  | lineage
  | referentialIntegrity
  deriving DecidableEq

/-- `TrustRuleSeverity` -/
inductive Severity
  | info
  | warning
  | error
  | critical
  deriving DecidableEq

/-- `TrustResultStatus` -/
inductive ResultStatus
  | passed
  | warning
  | failed
  | skipped
  | notApplicable
  deriving DecidableEq

/-- What scores and readiness read of a rule. -/
structure Rule where
  code : String
  dimension : Dimension
  severity : Severity

/-- `TrustRuleOutcome`, less its message and its evidence. -/
structure RuleOutcome where
  status : ResultStatus
  (checkedCount affectedCount : ℕ)
  score : Option ℚ
  deriving DecidableEq

/-- The share of affected records, in percent. -/
def affectedPercentage (checked affected : ℕ) : ℚ :=
  if checked = 0 then 0 else affected * 100 / checked

/-- `BaseTrustRule._outcome`, where `maximum` is the threshold that applies. -/
def outcome (checked affected : ℕ) (maximum : ℚ) : RuleOutcome where
  status :=
    if affected = 0 then .passed
    else if affectedPercentage checked affected ≤ maximum then .warning
    else .failed
  checkedCount := checked
  affectedCount := affected
  score := some (Decimal.halfEven.places 2 (max 0 (100 - affectedPercentage checked affected)))

/-- Rules with their outcomes, in the order of their execution. -/
abbrev Outcomes := List (Rule × RuleOutcome)

/-! ## Scores -/

/-- `DIMENSION_WEIGHTS` -/
def Dimension.weight : Dimension → ℚ
  | completeness => 20 / 100
  | validity => 20 / 100
  | consistency => 15 / 100
  | uniqueness => 15 / 100
  | timeliness => 10 / 100
  | lineage => 15 / 100
  | referentialIntegrity => 5 / 100

def Dimension.all : List Dimension :=
  [completeness, validity, consistency, uniqueness, timeliness, lineage, referentialIntegrity]

/-- The scores that count towards a dimension. -/
def dimensionScores (outcomes : Outcomes) (dimension : Dimension) : List ℚ :=
  outcomes.filterMap fun entry =>
    if entry.1.dimension = dimension ∧ entry.2.status ≠ .skipped ∧ entry.2.status ≠ .notApplicable
    then entry.2.score else none

def dimensionScore (outcomes : Outcomes) (dimension : Dimension) : Option ℚ :=
  let scores := dimensionScores outcomes dimension
  if scores = [] then none else some (Decimal.halfEven.places 2 (mean scores))

/-- The overall score, weighted over the dimensions that were assessed. -/
def overallScore (dimensions : Dimension → Option ℚ) : Option ℚ :=
  let assessed := Dimension.all.filter fun dimension => (dimensions dimension).isSome
  let total := (assessed.map Dimension.weight).sum
  if total = 0 then none
  else some (Decimal.halfEven.places 2
    ((assessed.map fun dimension => (dimensions dimension).getD 0 * dimension.weight).sum / total))

/-- `calculate_scores` -/
def calculateScores (outcomes : Outcomes) : (Dimension → Option ℚ) × Option ℚ :=
  (dimensionScore outcomes, overallScore (dimensionScore outcomes))

/-! ## Readiness -/

/-- `AnalyticalLevel` -/
inductive Level
  | arithmetic
  | statistical
  | forecasting
  | reliability
  | predictive
  | optimization
  | economicRecovery
  deriving DecidableEq

def Level.all : List Level :=
  [arithmetic, statistical, forecasting, reliability, predictive, optimization, economicRecovery]

/-- `ReadinessStatus` -/
inductive ReadinessStatus
  | ready
  | readyWithWarnings
  | insufficientData
  | blocked

/-- `ReadinessDecision` -/
structure ReadinessDecision where
  level : Level
  status : ReadinessStatus
  (blockingCodes warningCodes : List String)
  explanation : String

namespace Level

/-- `minimum_rows` -/
def minimumRows : Level → ℕ
  | arithmetic => 1
  | statistical => 30
  | forecasting => 24
  | reliability => 10
  | predictive => 100
  | optimization => 20
  | economicRecovery => 1

/-- `required_dimensions` -/
def requiredDimensions : Level → List Dimension
  | arithmetic => [.completeness, .validity]
  | statistical => [.completeness, .consistency]
  | forecasting => [.completeness, .consistency, .timeliness, .lineage]
  | reliability => [.completeness, .validity, .consistency]
  | predictive => [.completeness, .validity, .lineage]
  | optimization => [.completeness, .validity, .consistency]
  | economicRecovery => [.completeness, .validity, .lineage]

/-- `minimum_score` -/
def minimumScore : Level → ℚ
  | arithmetic => 60
  | statistical => 70
  | forecasting => 75
  | reliability => 75
  | predictive => 80
  | optimization => 80
  | economicRecovery => 85

end Level

/-- The critical rules that failed. -/
def criticalFailures (outcomes : Outcomes) : List String :=
  ((outcomes.filter fun entry =>
    entry.1.severity = .critical ∧ entry.2.status = .failed).map (·.1.code)).insertionSort (· ≤ ·)

/-- The rules that ended in a warning. -/
def warningCodes (outcomes : Outcomes) : List String :=
  ((outcomes.filter fun entry => entry.2.status = .warning).map (·.1.code)).insertionSort (· ≤ ·)

/-- The required dimensions that were not assessed. -/
def missingDimensions (dimensions : Dimension → Option ℚ) (level : Level) : List Dimension :=
  level.requiredDimensions.filter fun dimension => (dimensions dimension).isNone

/-- The required dimensions below the minimum score. -/
def lowDimensions (dimensions : Dimension → Option ℚ) (level : Level) : List Dimension :=
  level.requiredDimensions.filter fun dimension =>
    (dimensions dimension).getD 0 < level.minimumScore

def blockedExplanation (dimensions : Dimension → Option ℚ) (level : Level) : String :=
  "; ".intercalate
    ((if missingDimensions dimensions level = [] then []
        else ["required dimensions were not assessed"]) ++
      if lowDimensions dimensions level = [] then []
        else ["required dimension scores are below threshold"])

def decideLevel (rowCount : ℕ) (dimensions : Dimension → Option ℚ) (outcomes : Outcomes)
    (level : Level) : ReadinessDecision :=
  let critical := criticalFailures outcomes
  let warnings := warningCodes outcomes
  if critical ≠ [] then
    { level := level, status := .blocked, blockingCodes := critical, warningCodes := warnings
      explanation := "critical trust rules failed" }
  else if rowCount < level.minimumRows then
    { level := level, status := .insufficientData, blockingCodes := [], warningCodes := warnings
      explanation := s!"{rowCount} rows available; {level.minimumRows} required" }
  else if missingDimensions dimensions level ≠ [] ∨ lowDimensions dimensions level ≠ [] then
    { level := level, status := .blocked, blockingCodes := [], warningCodes := warnings
      explanation := blockedExplanation dimensions level }
  else
    { level := level, status := if warnings ≠ [] then .readyWithWarnings else .ready
      blockingCodes := [], warningCodes := warnings
      explanation := "Required trust dimensions and sample size are sufficient" }

/-- `ProgressiveReadinessPolicy.decide` -/
def decide (rowCount : ℕ) (dimensions : Dimension → Option ℚ) (outcomes : Outcomes) :
    List ReadinessDecision :=
  Level.all.map (decideLevel rowCount dimensions outcomes)

/-- The readiness of a dataset, from its scores. -/
def readiness (rowCount : ℕ) (outcomes : Outcomes) : List ReadinessDecision :=
  decide rowCount (calculateScores outcomes).1 outcomes

/-! ## Better assessments -/

def ResultStatus.rank : ResultStatus → Option ℕ
  | failed => some 0
  | warning => some 1
  | passed => some 2
  | skipped => none
  | notApplicable => none

/-- The place of a status in BLOCKED, INSUFFICIENT_DATA < READY_WITH_WARNINGS < READY. -/
def ReadinessStatus.rank : ReadinessStatus → ℕ
  | blocked => 0
  | insufficientData => 0
  | readyWithWarnings => 1
  | ready => 2

/-- A score is no lower than another; a missing score compares with a missing one only. -/
def ScoreAtLeast (first second : Option ℚ) : Prop := Option.Rel (· ≥ ·) first second

/-- An outcome is at least as good as another. -/
structure RuleOutcome.AtLeast (first second : RuleOutcome) : Prop where
  status : first.status = second.status ∨
    ∃ a b, first.status.rank = some a ∧ second.status.rank = some b ∧ b ≤ a
  score : ScoreAtLeast first.score second.score

/-- The same rules with outcomes that are at least as good. -/
def OutcomesAtLeast (first second : Outcomes) : Prop :=
  List.Forall₂ (fun a b => a.1 = b.1 ∧ a.2.AtLeast b.2) first second

/-- Scores and readiness that are no worse. -/
structure NoWorse (rowCount : ℕ) (first second : Outcomes) : Prop where
  dimensions : ∀ dimension,
    ScoreAtLeast ((calculateScores first).1 dimension) ((calculateScores second).1 dimension)
  overall : ScoreAtLeast (calculateScores first).2 (calculateScores second).2
  readiness : List.Forall₂ (fun a b : ReadinessDecision =>
      a.level = b.level ∧ b.status.rank ≤ a.status.rank)
    (readiness rowCount first) (readiness rowCount second)

/-- The rows and the scores of an assessment suffice for a level. -/
def Suffices (rowCount : ℕ) (outcomes : Outcomes) (level : Level) : Prop :=
  level.minimumRows ≤ rowCount ∧ ∀ dimension ∈ level.requiredDimensions,
    dimensionScores outcomes dimension ≠ [] ∧
      level.minimumScore ≤ Decimal.halfEven.places 2 (mean (dimensionScores outcomes dimension))

/-- No warning is what holds the first assessment behind the second. -/
def WarningsAgree (rowCount : ℕ) (first second : Outcomes) : Prop :=
  (∃ entry ∈ second, entry.2.status = .warning) ∨
    (∀ entry ∈ first, entry.2.status ≠ .warning) ∨
    (∃ entry ∈ second, entry.1.severity = .critical ∧ entry.2.status = .failed) ∨
    ∀ level, ¬ Suffices rowCount second level

/-! ## Scores are monotone -/

theorem outcome_rank (checked affected : ℕ) (maximum : ℚ) :
    (outcome checked affected maximum).status.rank =
      some (if affected = 0 then 2
        else if affectedPercentage checked affected ≤ maximum then 1 else 0) := by
  simp only [outcome]
  split
  · rfl
  · split <;> rfl

theorem outcome_atLeast {checked affected affected' : ℕ} (h : affected ≤ affected')
    (maximum : ℚ) :
    (outcome checked affected maximum).AtLeast (outcome checked affected' maximum) := by
  have hpercentage : affectedPercentage checked affected ≤ affectedPercentage checked affected' := by
    unfold affectedPercentage
    split
    · exact le_rfl
    · gcongr
  constructor
  · right
    refine ⟨_, _, outcome_rank .., outcome_rank .., ?_⟩
    split_ifs with h1 h2 h3 h4 h5 <;> first | omega | exact absurd (hpercentage.trans h1) h5 | skip
    all_goals exact absurd (hpercentage.trans ‹_›) ‹_›
  · refine Option.Rel.some ?_
    apply Decimal.Rounding.places_mono
    exact max_le_max le_rfl (by linarith)

theorem dimensionScores_atLeast {first second : Outcomes} (h : OutcomesAtLeast first second)
    (dimension : Dimension) :
    List.Forall₂ (· ≥ ·) (dimensionScores first dimension) (dimensionScores second dimension) := by
  induction h with
  | nil => exact .nil
  | @cons a b first second hab _ ih =>
    obtain ⟨hrule, hstatus, hscore⟩ := hab
    -- a rule counts in both assessments or in none
    have hcounts : ∀ status, status = .skipped ∨ status = .notApplicable →
        (a.2.status = status ↔ b.2.status = status) := by
      rintro status hskip
      rcases hstatus with hequal | ⟨m, n, hm, hn, -⟩
      · rw [hequal]
      · rcases hskip with rfl | rfl
        all_goals
          constructor
          · intro heq
            rw [heq] at hm
            cases hm
          · intro heq
            rw [heq] at hn
            cases hn
    have hskipped := hcounts _ (.inl rfl)
    have hinapplicable := hcounts _ (.inr rfl)
    unfold dimensionScores at ih ⊢
    rw [filterMap_cons, filterMap_cons, hrule]
    by_cases hif : b.1.dimension = dimension ∧ b.2.status ≠ .skipped ∧ b.2.status ≠ .notApplicable
    · rw [if_pos hif, if_pos ⟨hif.1, fun hs => hif.2.1 (hskipped.1 hs),
        fun hs => hif.2.2 (hinapplicable.1 hs)⟩]
      generalize a.2.score = x at hscore ⊢
      generalize b.2.score = y at hscore ⊢
      cases hscore with
      | none => exact ih
      | some hle => exact .cons hle ih
    · rw [if_neg hif, if_neg]
      · exact ih
      · rintro ⟨hdimension, hs, hn⟩
        exact hif ⟨hdimension, fun h => hs (hskipped.2 h), fun h => hn (hinapplicable.2 h)⟩

theorem sum_le_sum_of_forall₂ {xs ys : List ℚ} (h : List.Forall₂ (· ≥ ·) xs ys) :
    ys.sum ≤ xs.sum := by
  induction h with
  | nil => exact le_rfl
  | cons hab _ ih =>
    rw [sum_cons, sum_cons]
    exact add_le_add hab ih

theorem dimensionScore_atLeast {first second : Outcomes} (h : OutcomesAtLeast first second)
    (dimension : Dimension) :
    ScoreAtLeast (dimensionScore first dimension) (dimensionScore second dimension) := by
  have hscores := dimensionScores_atLeast h dimension
  have hlen := hscores.length_eq
  unfold dimensionScore
  by_cases hnil : dimensionScores second dimension = []
  · have hnil' : dimensionScores first dimension = [] := by
      rw [← length_eq_zero_iff, hlen, hnil]
      rfl
    rw [if_pos hnil, if_pos hnil']
    exact .none
  · have hnil' : dimensionScores first dimension ≠ [] := by
      intro h'
      rw [h'] at hlen
      exact hnil (length_eq_zero_iff.1 hlen.symm)
    rw [if_neg hnil, if_neg hnil']
    refine .some (Decimal.Rounding.places_mono _ ?_)
    rw [mean, mean, hlen]
    exact div_le_div_of_nonneg_right (sum_le_sum_of_forall₂ hscores) (Nat.cast_nonneg _)

theorem Dimension.weight_pos (dimension : Dimension) : 0 < dimension.weight := by
  cases dimension <;> norm_num [Dimension.weight]

theorem overallScore_atLeast {first second : Dimension → Option ℚ}
    (h : ∀ dimension, ScoreAtLeast (first dimension) (second dimension)) :
    ScoreAtLeast (overallScore first) (overallScore second) := by
  have hassessed : Dimension.all.filter (fun dimension => (first dimension).isSome) =
      Dimension.all.filter fun dimension => (second dimension).isSome := by
    refine filter_congr ?_
    intro dimension _
    have hdimension := h dimension
    generalize first dimension = a at hdimension ⊢
    generalize second dimension = b at hdimension ⊢
    cases hdimension <;> rfl
  unfold overallScore
  rw [hassessed]
  dsimp only
  split
  · exact .none
  · refine .some (Decimal.Rounding.places_mono _ ?_)
    refine div_le_div_of_nonneg_right (sum_le_sum ?_) (sum_nonneg ?_)
    · intro dimension _
      have hdimension := h dimension
      refine mul_le_mul_of_nonneg_right ?_ dimension.weight_pos.le
      generalize first dimension = a at hdimension ⊢
      generalize second dimension = b at hdimension ⊢
      cases hdimension with
      | none => exact le_rfl
      | some hle => exact hle
    · intro weight hweight
      obtain ⟨dimension, -, rfl⟩ := mem_map.1 hweight
      exact dimension.weight_pos.le

/-! ## Readiness is not -/

theorem warningCodes_eq_nil {outcomes : Outcomes} :
    warningCodes outcomes = [] ↔ ∀ entry ∈ outcomes, entry.2.status ≠ .warning := by
  rw [warningCodes, ← length_eq_zero_iff, length_insertionSort, length_map,
    length_eq_zero_iff, filter_eq_nil_iff]
  simp only [decide_eq_true_eq]

theorem criticalFailures_eq_nil {outcomes : Outcomes} : criticalFailures outcomes = [] ↔
      ∀ entry ∈ outcomes, ¬ (entry.1.severity = .critical ∧ entry.2.status = .failed) := by
  rw [criticalFailures, ← length_eq_zero_iff, length_insertionSort, length_map,
    length_eq_zero_iff, filter_eq_nil_iff]
  simp only [decide_eq_true_eq]

theorem suffices_iff {rowCount : ℕ} {outcomes : Outcomes} {level : Level} :
    Suffices rowCount outcomes level ↔ ¬ rowCount < level.minimumRows ∧
      ¬ (missingDimensions (dimensionScore outcomes) level ≠ [] ∨
        lowDimensions (dimensionScore outcomes) level ≠ []) := by
  unfold Suffices missingDimensions lowDimensions
  rw [not_lt, not_or, not_not, not_not, filter_eq_nil_iff, filter_eq_nil_iff, ← forall₂_and]
  refine and_congr Iff.rfl (forall₂_congr ?_)
  intro dimension _
  unfold dimensionScore
  by_cases hnil : dimensionScores outcomes dimension = []
  · simp [hnil]
  · simp [hnil]

theorem decideLevel_status (rowCount : ℕ) (outcomes : Outcomes) (level : Level) :
    ((criticalFailures outcomes ≠ [] ∨ ¬ Suffices rowCount outcomes level) ∧
        (decideLevel rowCount (dimensionScore outcomes) outcomes level).status.rank = 0) ∨
      (criticalFailures outcomes = [] ∧ Suffices rowCount outcomes level ∧
        (decideLevel rowCount (dimensionScore outcomes) outcomes level).status.rank =
          if warningCodes outcomes = [] then 2 else 1) := by
  unfold decideLevel
  dsimp only
  by_cases hcritical : criticalFailures outcomes = []
  · rw [if_neg (not_not.2 hcritical)]
    by_cases hsuffices : Suffices rowCount outcomes level
    · obtain ⟨hrows, hdimensions⟩ := suffices_iff.1 hsuffices
      refine .inr ⟨hcritical, hsuffices, ?_⟩
      rw [if_neg hrows, if_neg hdimensions]
      by_cases hwarnings : warningCodes outcomes = []
      · simp [hwarnings, ReadinessStatus.rank]
      · simp [hwarnings, ReadinessStatus.rank]
    · refine .inl ⟨.inr hsuffices, ?_⟩
      by_cases hrows : rowCount < level.minimumRows
      · rw [if_pos hrows]
        rfl
      · rw [if_neg hrows, if_pos]
        · rfl
        · by_contra hdimensions
          exact hsuffices (suffices_iff.2 ⟨hrows, hdimensions⟩)
  · rw [if_pos hcritical]
    exact .inl ⟨.inl hcritical, rfl⟩

theorem criticalFailures_atLeast {first second : Outcomes} (h : OutcomesAtLeast first second)
    (hsecond : criticalFailures second = []) : criticalFailures first = [] := by
  rw [criticalFailures_eq_nil] at hsecond ⊢
  induction h with
  | nil => simp
  | @cons a b first second hab _ ih =>
    obtain ⟨hrule, hstatus, -⟩ := hab
    obtain ⟨hb, hsecond⟩ := forall_mem_cons.1 hsecond
    refine forall_mem_cons.2 ⟨?_, ih hsecond⟩
    rintro ⟨hseverity, hfailed⟩
    refine hb ⟨hrule ▸ hseverity, ?_⟩
    rcases hstatus with hequal | ⟨m, n, hm, hn, hle⟩
    · rw [← hequal, hfailed]
    · -- only FAILED is as low as FAILED
      rw [hfailed] at hm
      obtain rfl : 0 = m := Option.some.inj hm
      obtain rfl : n = 0 := Nat.le_zero.1 hle
      cases hb' : b.2.status <;> simp_all [ResultStatus.rank]

theorem suffices_atLeast {rowCount : ℕ} {first second : Outcomes}
    (h : OutcomesAtLeast first second) {level : Level} (hsecond : Suffices rowCount second level) :
    Suffices rowCount first level := by
  refine ⟨hsecond.1, ?_⟩
  intro dimension hdimension
  obtain ⟨hne, hscore⟩ := hsecond.2 dimension hdimension
  have hrel := dimensionScore_atLeast h dimension
  unfold dimensionScore at hrel
  rw [if_neg hne] at hrel
  by_cases hnil : dimensionScores first dimension = []
  · rw [if_pos hnil] at hrel
    cases hrel
  · rw [if_neg hnil] at hrel
    cases hrel with
    | some hle => exact ⟨hnil, hscore.trans hle⟩

namespace FailedRule

/-- A rule on completeness that passes and one on validity with a threshold of ten percent. -/
def complete : Rule := ⟨"COMPLETENESS", .completeness, .error⟩

def valid : Rule := ⟨"NUMERIC_RANGE", .validity, .error⟩

/-- Of a hundred records, five are out of range. -/
def warned : Outcomes := [(complete, outcome 100 0 10), (valid, outcome 100 5 10)]

/-- Of a hundred records, twenty are out of range. -/
def failed : Outcomes := [(complete, outcome 100 0 10), (valid, outcome 100 20 10)]

theorem warned_atLeast_failed : OutcomesAtLeast warned failed :=
  .cons ⟨rfl, outcome_atLeast le_rfl 10⟩ (.cons ⟨rfl, outcome_atLeast (by norm_num) 10⟩ .nil)

end FailedRule

end Intel4Ops.Trust
