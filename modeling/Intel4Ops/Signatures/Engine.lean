import Intel4Ops.Lib.Decimal
import Intel4Ops.Lib.Special
import Intel4Ops.Lib.Texts

/-!
# Signature evaluation

`SignatureEvaluator` compares observed values with those of a signature's conditions. A missing
value fails a comparison, but a value without a number aborts the evaluation. All else that is
expected of an evaluation holds when none does (`evaluate_sound_iff`).
-/

namespace Intel4Ops.Signatures

open Lib Lib.Decimal List

/-! ## Source -/

inductive Operator
  | equals
  | greaterThan
  | lessOrEqual

structure Condition where
  path : String
  operator : Operator
  value : Json

/-- Observed values, none of which is a list or an object. -/
abbrev Observations := String → Option { value : Json // value.scalar?.isSome }

/-- `observations.get(path)` -/
def observed (observations : Observations) (path : String) : Json :=
  (observations path).elim .null (·.1)

/-- The number that `str(value)` stands for. -/
def number? : Json → Option Special
  | .num x => some (.finite x)
  | .str text => Special.ofText? text
  | _ => none

/-- `Decimal(str(value))` -/
def decimal (value : Json) : Except Signal Special := orFail (number? value) .invalidOperation

/-- `_condition` -/
def condition (observations : Observations) (c : Condition) : Except Signal Bool :=
  let actual := observed observations c.path
  match c.operator, actual with
  | .equals, _ => .ok (actual.scalar? = c.value.scalar?)
  | _, .null => .ok false
  | .greaterThan, _ => do
    let left ← decimal actual
    let right ← decimal c.value
    right.lt left
  | .lessOrEqual, _ => do
    let left ← decimal actual
    let right ← decimal c.value
    return !(← right.lt left)

/-- The confidence model of a definition, with its values between zero and one. -/
structure ConfidenceModel where
  (base evidenceIncrement maximum : ℚ)
  base_mem : 0 ≤ base ∧ base ≤ 1
  evidenceIncrement_mem : 0 ≤ evidenceIncrement ∧ evidenceIncrement ≤ 1
  maximum_mem : 0 ≤ maximum ∧ maximum ≤ 1

/-- What a signature version defines of its evaluation. -/
structure Definition where
  (requiredConditions exclusionConditions : List Condition)
  evidenceRequirements : Finset String
  confidenceModel : ConfidenceModel
  knownLimitations : List String

structure SignatureEvaluation where
  matched : Bool
  confidence : ℚ
  (matchedConditions failedConditions evidenceUsed limitations : List String)

/-- The labels of the required conditions that hold, or of those that fail. -/
def labels (holds : Bool) (held : List Bool) : List String :=
  (held.zipIdx.filter (·.1 = holds)).map fun h => "condition:" ++ toString (h.2 + 1)

variable {definition : Definition} {observations : Observations} {evidence evidence' : Finset String}

/-- `min(maximum, base + increment * len(required_evidence & evidence_types))` -/
def Definition.confidence (definition : Definition) (evidence : Finset String) : ℚ :=
  let model := definition.confidenceModel
  min model.maximum (context (model.base + context (model.evidenceIncrement *
    (definition.evidenceRequirements ∩ evidence).card)))

/-- `SignatureEvaluation` of the values of the required conditions and of the exclusion. -/
def Definition.result (definition : Definition) (evidence : Finset String) (held : List Bool)
    (excluded : Bool) : SignatureEvaluation :=
  let isMatch := decide (labels false held = [] ∧ excluded = false ∧
    definition.evidenceRequirements ⊆ evidence)
  { matched := isMatch
    confidence :=
      if isMatch then definition.confidence evidence
      else min (definition.confidence evidence) (49 / 100)
    matchedConditions := labels true held
    failedConditions := labels false held
    evidenceUsed := (definition.evidenceRequirements ∩ evidence).sort (· ≤ ·)
    limitations := definition.knownLimitations }

/-- `evaluate` -/
def evaluate (definition : Definition) (observations : Observations) (evidence : Finset String) :
    Except Signal SignatureEvaluation := do
  let held ← definition.requiredConditions.mapM (condition observations)
  let excluded ← definition.exclusionConditions.anyM (condition observations)
  return definition.result evidence held excluded

/-! ## Conditions -/

variable {c : Condition} {cs : List Condition} {left right : Special}

/-- The condition is true; of two values without numbers in order, neither is compared. -/
def Condition.Holds (observations : Observations) (c : Condition) : Prop :=
  match c.operator with
  | .equals => (observed observations c.path).scalar? = c.value.scalar?
  | .greaterThan => ∃ left right, number? (observed observations c.path) = some left ∧
      number? c.value = some right ∧ right.lt left = .ok true
  | .lessOrEqual => ∃ left right, number? (observed observations c.path) = some left ∧
      number? c.value = some right ∧ right.lt left = .ok false

/-- A value is a number that other numbers compare with. -/
def Readable (value : Json) : Prop := ∃ x, number? value = some x ∧ x.isNan = false

/-- A comparison of a value, not null, where one side is no number. -/
structure Condition.Unreadable (observations : Observations) (c : Condition) : Prop where
  compares : c.operator ≠ .equals
  given : observed observations c.path ≠ .null
  unreadable : ¬ (Readable (observed observations c.path) ∧ Readable c.value)

theorem exists_lt_iff :
    (∃ b, right.lt left = .ok b) ↔ left.isNan = false ∧ right.isNan = false := by
  cases left <;> cases right <;> simp [Special.lt, Special.isNan]

theorem decimal_eq_ok {value : Json} {x : Special} :
    decimal value = .ok x ↔ number? value = some x :=
  orFail_eq_ok

/-- A condition with readable values has a truth value, which says whether it holds. -/
theorem condition_eq_ok {b : Bool} (h : condition observations c = .ok b) :
    b = true ↔ c.Holds observations := by
  unfold condition at h
  unfold Condition.Holds
  dsimp only at h
  split at h
  case h_1 hoperator =>
    rw [hoperator, ← Except.ok.inj h, decide_eq_true_eq]
  case h_2 hnull hoperator =>
    obtain rfl := Except.ok.inj h
    rw [hnull]
    cases hc : c.operator with
    | equals => exact absurd hc hoperator
    | greaterThan | lessOrEqual => simp [number?]
  case h_3 hoperator hnull =>
    simp only [bind_eq_ok, decimal_eq_ok] at h
    obtain ⟨left, hleft, right, hright, hlt⟩ := h
    simp [hoperator, hleft, hright, hlt]
  case h_4 hoperator hnull =>
    simp only [bind_eq_ok, decimal_eq_ok, pure_eq_ok] at h
    obtain ⟨left, hleft, right, hright, b, hlt, rfl⟩ := h
    simp [hoperator, hleft, hright, hlt]

/-- A condition has a truth value unless it compares a value that is not readable. -/
theorem exists_condition_iff :
    (∃ b, condition observations c = .ok b) ↔ ¬ c.Unreadable observations := by
  have hcompare : c.operator ≠ .equals → observed observations c.path ≠ .null →
      ((∃ b, condition observations c = .ok b) ↔
        Readable (observed observations c.path) ∧ Readable c.value) := by
    intro hoperator hgiven
    have hexists : (∃ b, condition observations c = .ok b) ↔
        ∃ left, number? (observed observations c.path) = some left ∧
          ∃ right, number? c.value = some right ∧ ∃ b, right.lt left = .ok b := by
      unfold condition
      dsimp only
      split
      case h_1 h => exact absurd h hoperator
      case h_2 h _ => exact absurd h hgiven
      case h_3 => simp only [bind_eq_ok, decimal_eq_ok]; tauto
      case h_4 => simp only [bind_eq_ok, decimal_eq_ok, pure_eq_ok]; tauto
    rw [hexists]
    simp only [exists_lt_iff, Readable]
    constructor
    · rintro ⟨left, hleft, right, hright, hx, hy⟩
      exact ⟨⟨left, hleft, hx⟩, right, hright, hy⟩
    · rintro ⟨⟨left, hleft, hx⟩, right, hright, hy⟩
      exact ⟨left, hleft, right, hright, hx, hy⟩
  by_cases hoperator : c.operator = .equals
  · refine iff_of_true ⟨decide ((observed observations c.path).scalar? = c.value.scalar?), ?_⟩
      fun h => h.compares hoperator
    rw [condition, hoperator]
  by_cases hgiven : observed observations c.path = .null
  · refine iff_of_true ⟨false, ?_⟩ fun h => h.given hgiven
    unfold condition
    rw [hgiven]
    cases hc : c.operator with
    | equals => exact absurd hc hoperator
    | greaterThan => rfl
    | lessOrEqual => rfl
  rw [hcompare hoperator hgiven]
  exact ⟨fun h hunreadable => hunreadable.unreadable h,
    fun h => by_contra fun hnot => h ⟨hoperator, hgiven, hnot⟩⟩

/-! ## Evaluations -/

/-- The conditions can be read up to the first one that holds. -/
def Decided (observations : Observations) : List Condition → Prop
  | [] => True
  | c :: cs => ¬ c.Unreadable observations ∧ (c.Holds observations ∨ Decided observations cs)

theorem exists_anyM_iff :
    (∃ b, cs.anyM (condition observations) = .ok b) ↔ Decided observations cs := by
  induction cs with
  | nil => exact iff_of_true ⟨false, rfl⟩ trivial
  | cons c cs ih =>
    rw [Decided, ← exists_condition_iff, ← ih, List.anyM]
    cases hc : condition observations c with
    | error e => simp
    | ok b =>
      have hholds := condition_eq_ok hc
      cases b with
      | true | false => simp [← hholds]

theorem anyM_eq_ok {b : Bool} (h : cs.anyM (condition observations) = .ok b) :
    b = true ↔ ∃ c ∈ cs, c.Holds observations := by
  induction cs with
  | nil =>
    obtain rfl : false = b := Except.ok.inj h
    simp
  | cons c cs ih =>
    rw [List.anyM] at h
    obtain ⟨held, hc, h⟩ := bind_eq_ok.1 h
    have hholds := condition_eq_ok hc
    rw [exists_mem_cons_iff, ← hholds]
    cases held with
    | true =>
      obtain rfl : true = b := Except.ok.inj h
      simp
    | false => simpa using ih h

theorem labels_false_eq_nil {held : List Bool} : labels false held = [] ↔ ∀ b ∈ held, b = true := by
  have hmem : ∀ b ∈ held, ∃ i, (b, i) ∈ held.zipIdx := fun b hb => by
    obtain ⟨i, hi, rfl⟩ := mem_iff_getElem.1 hb
    exact ⟨i, mk_mem_zipIdx_iff_getElem?.2 (getElem?_eq_getElem hi)⟩
  simp only [labels, map_eq_nil_iff, filter_eq_nil_iff, decide_eq_true_eq, Prod.forall]
  constructor
  · intro h b hb
    obtain ⟨i, hi⟩ := hmem b hb
    simpa using h b i hi
  · intro h b i hi
    simp [h b (fst_mem_of_mem_zipIdx hi)]

theorem evaluate_eq_ok {r : SignatureEvaluation} :
    evaluate definition observations evidence = .ok r ↔ ∃ held excluded,
      definition.requiredConditions.mapM (condition observations) = .ok held ∧
        definition.exclusionConditions.anyM (condition observations) = .ok excluded ∧
          r = definition.result evidence held excluded := by
  simp only [evaluate, bind_eq_ok, pure_eq_ok, eq_comm (a := r), exists_and_left]

theorem confidence_mono (h : evidence ⊆ evidence') :
    definition.confidence evidence ≤ definition.confidence evidence' := by
  have hmono : ∀ {x y : ℚ}, 0 ≤ x → x ≤ y → context x ≤ context y := by
    intro x y hx hxy
    rcases hx.eq_or_lt with rfl | hx
    · exact context_zero.trans_le (context_nonneg hxy)
    · exact context_mono hx hxy
  have hcard : ((definition.evidenceRequirements ∩ evidence).card : ℚ) ≤
      (definition.evidenceRequirements ∩ evidence').card := by
    exact_mod_cast Finset.card_le_card (Finset.inter_subset_inter_left h)
  have hincrement := definition.confidenceModel.evidenceIncrement_mem.1
  have hscaled := mul_le_mul_of_nonneg_left hcard hincrement
  have hzero : 0 ≤ definition.confidenceModel.evidenceIncrement *
      (definition.evidenceRequirements ∩ evidence).card := by positivity
  have hrounded := context_nonneg hzero
  have hbase := definition.confidenceModel.base_mem.1
  exact min_le_min_left _ (hmono (by linarith) (add_le_add_right (hmono hzero hscaled) _))

theorem confidence_mem : 0 ≤ definition.confidence evidence ∧
    definition.confidence evidence ≤ 1 := by
  have hincrement := definition.confidenceModel.evidenceIncrement_mem.1
  have hrounded := context_nonneg (x := definition.confidenceModel.evidenceIncrement *
    (definition.evidenceRequirements ∩ evidence).card) (by positivity)
  have hbase := definition.confidenceModel.base_mem.1
  exact ⟨le_min definition.confidenceModel.maximum_mem.1 (context_nonneg (by linarith)),
    (min_le_left _ _).trans definition.confidenceModel.maximum_mem.2⟩

/-- What is expected of the evaluations of a definition on observations. -/
structure EvaluatesSoundly (definition : Definition) (observations : Observations) : Prop where
  total : ∀ evidence, ∃ r, evaluate definition observations evidence = .ok r
  matched : ∀ evidence r, evaluate definition observations evidence = .ok r →
    (r.matched = true ↔ (∀ c ∈ definition.requiredConditions, c.Holds observations) ∧
      (∀ c ∈ definition.exclusionConditions, ¬ c.Holds observations) ∧
        definition.evidenceRequirements ⊆ evidence)
  mono : ∀ evidence evidence' r r', evidence ⊆ evidence' →
    evaluate definition observations evidence = .ok r →
      evaluate definition observations evidence' = .ok r' →
        (r.matched = true → r'.matched = true) ∧ r.confidence ≤ r'.confidence
  bounds : ∀ evidence r, evaluate definition observations evidence = .ok r →
    0 ≤ r.confidence ∧ r.confidence ≤ 1 ∧ (r.matched = false → r.confidence < 1 / 2)

theorem matched_iff {r : SignatureEvaluation}
    (h : evaluate definition observations evidence = .ok r) :
    r.matched = true ↔ (∀ c ∈ definition.requiredConditions, c.Holds observations) ∧
      (∀ c ∈ definition.exclusionConditions, ¬ c.Holds observations) ∧
        definition.evidenceRequirements ⊆ evidence := by
  obtain ⟨held, excluded, hheld, hexcluded, rfl⟩ := evaluate_eq_ok.1 h
  have hexclusion := anyM_eq_ok hexcluded
  have hrequired : (∀ b ∈ held, b = true) ↔
      ∀ c ∈ definition.requiredConditions, c.Holds observations := by
    have hmem := fun b => mem_of_mapM_eq_ok (a := b) hheld
    have hall := (mapM_eq_ok_iff.1 hheld).1
    constructor
    · intro hb c hc
      obtain ⟨b, hcb⟩ := hall c hc
      exact (condition_eq_ok hcb).1 (hb b ((hmem b).2 ⟨c, hc, hcb⟩))
    · intro hc b hb
      obtain ⟨c, hmemc, hcb⟩ := (hmem b).1 hb
      exact (condition_eq_ok hcb).2 (hc c hmemc)
  rw [Definition.result, decide_eq_true_eq, labels_false_eq_nil, hrequired]
  refine and_congr_right fun _ => and_congr_left fun _ => ?_
  rw [← Bool.not_eq_true, hexclusion]
  exact not_exists.trans (forall_congr' fun c => not_and)

theorem confidence_of_ok {r : SignatureEvaluation}
    (h : evaluate definition observations evidence = .ok r) :
    r.confidence = if r.matched = true then definition.confidence evidence
      else min (definition.confidence evidence) (49 / 100) := by
  obtain ⟨held, excluded, -, -, rfl⟩ := evaluate_eq_ok.1 h
  rfl

/-- Evaluations are sound just where every required condition and, up to the first that holds, every
exclusion can be read. -/
theorem evaluate_sound_iff (definition : Definition) (observations : Observations) :
    EvaluatesSoundly definition observations ↔
      (∀ c ∈ definition.requiredConditions, ¬ c.Unreadable observations) ∧
        Decided observations definition.exclusionConditions := by
  constructor
  · intro h
    obtain ⟨r, hr⟩ := h.total ∅
    obtain ⟨held, excluded, hheld, hexcluded, -⟩ := evaluate_eq_ok.1 hr
    exact ⟨fun c hc => exists_condition_iff.1 ((mapM_eq_ok_iff.1 hheld).1 c hc),
      exists_anyM_iff.1 ⟨excluded, hexcluded⟩⟩
  · rintro ⟨hrequired, hdecided⟩
    obtain ⟨held, hheld⟩ := exists_mapM_eq_ok fun c hc => exists_condition_iff.2 (hrequired c hc)
    obtain ⟨excluded, hexcluded⟩ := exists_anyM_iff.2 hdecided
    refine ⟨fun _ => ⟨_, evaluate_eq_ok.2 ⟨held, excluded, hheld, hexcluded, rfl⟩⟩,
      fun _ _ => matched_iff, fun evidence evidence' r r' hsubset hr hr' => ?_,
      fun evidence r hr => ?_⟩
    · have hmatched : r.matched = true → r'.matched = true := by
        rw [matched_iff hr, matched_iff hr']
        exact fun h => ⟨h.1, h.2.1, h.2.2.trans hsubset⟩
      refine ⟨hmatched, ?_⟩
      have hmono := @confidence_mono definition _ _ hsubset
      rw [confidence_of_ok hr, confidence_of_ok hr']
      split_ifs with h h'
      · exact hmono
      · exact absurd (hmatched h) h'
      · exact (min_le_left _ _).trans hmono
      · exact min_le_min_right _ hmono
    · obtain ⟨hzero, hone⟩ := @confidence_mem definition evidence
      rw [confidence_of_ok hr]
      split_ifs with h
      · exact ⟨hzero, hone, fun hnot => absurd (h.symm.trans hnot) (by decide)⟩
      · refine ⟨le_min hzero (by norm_num), (min_le_left _ _).trans hone, fun _ => ?_⟩
        exact (min_le_right _ _).trans_lt (by norm_num)

/-- A billing variance above zero. -/
def billing : Definition where
  requiredConditions := [⟨"billing_variance", .greaterThan, .str "0"⟩]
  exclusionConditions := []
  evidenceRequirements := {"invoice"}
  confidenceModel := ⟨7 / 10, 1 / 20, 49 / 50, by norm_num, by norm_num, by norm_num⟩
  knownLimitations := []

/-- A billing variance that is not available aborts the evaluation. -/
theorem not_evaluatesSoundly : ¬ EvaluatesSoundly billing fun _ => some ⟨.str "n/a", rfl⟩ := by
  intro h
  obtain ⟨r, hr⟩ := h.total ∅
  have haborts : (evaluate billing (fun _ => some ⟨.str "n/a", rfl⟩) ∅).toOption.isSome = false := by
    decide +kernel
  rw [hr] at haborts
  cases haborts

end Intel4Ops.Signatures
