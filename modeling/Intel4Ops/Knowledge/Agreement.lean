import Intel4Ops.Knowledge.Evaluation

/-!
# Agreement of the two evaluators

A formula is put to both evaluators: to the validation as the input of a case, to the execution as
one record for each value or as two parameters. They part on missing values that are counted, on
distinct texts that are no numbers, on sums of nothing and on numbers that are not finite.
-/

namespace Intel4Ops.Knowledge

open Lib List Option

/-! ## One case for both evaluators -/

/-- An operation with the values or the operands that it is applied to. -/
structure FormulaCase where
  operation : Operation
  values : List Value
  (left right : Value)

namespace FormulaCase

variable (c : FormulaCase)

/-- The input of the validation: a list of values, or two operands. -/
def input : ValidationInput :=
  if c.operation.aggregates then
    { unit := none, values := some c.values, left := none, right := none }
  else { unit := none, values := none, left := some c.left, right := some c.right }

/-- One record for each value. -/
def records (field : String) : List Record := c.values.map fun value => [(field, value)]

/-- The parameters of the execution. -/
def parameters (field : String) : Record :=
  if c.operation.aggregates then [("field", .text field)]
  else [(c.operation.operandKeys.1, c.left), (c.operation.operandKeys.2, c.right)]

/-- What the validation computes. -/
def validated (outputUnit : Option String) : Except String ValidationOutput :=
  validate outputUnit c.operation c.input

/-- What the execution computes. -/
def executed (field : String) : Except String ArithmeticOutcome :=
  execute ⟨c.operation, c.operation.requiredParameters⟩ (c.records field) (c.parameters field)

end FormulaCase

/-- The value of a validation after the rounding of the engine. -/
def ValidationOutput.rounded : ValidationOutput → Special
  | count n => .finite n
  | decimal x => quantize x

/-- Both fail, or both succeed with the same value. -/
def Agree : Except String ValidationOutput → Except String ArithmeticOutcome → Prop
  | .ok output, .ok outcome => output.rounded = outcome.value
  | .error _, .error _ => True
  | _, _ => False

/-! ## Where they agree -/

/-- The numbers among the present values. -/
def numbers (values : List Value) : List Special := (present values).filterMap (·.decimal?)

/-- A present value is no number. -/
def HasUnreadable (values : List Value) : Prop := ∃ v ∈ present values, v.decimal? = none

/-- All numbers are finite. -/
def AllFinite (numeric : List Special) : Prop := ∀ x ∈ numeric, x.isFinite = true

/-- The arithmetic of a validation over numbers signals. -/
def AggregateSignals (operation : Operation) (numeric : List Special) : Prop :=
  match operation with
  | .sum => Special.SumInvalid numeric
  | .average => Special.SumInvalid numeric
  | _ => 2 ≤ numeric.length ∧ ∃ x ∈ numeric, x.isNan = true

/-- The arithmetic of a validation over two numbers signals. -/
def PairSignals (operation : Operation) (left right : Special) : Prop :=
  left = .nan true ∨ right = .nan true ∨
    (left ≠ .nan false ∧ right ≠ .nan false ∧
      match operation with
      | .ratio => ∃ s t, left = .infinite s ∧ right = .infinite t
      | .percentage => ∃ s t, left = .infinite s ∧ right = .infinite t
      | .percentageVariance => ∃ t, right = .infinite t
      | _ => ∃ s, left = .infinite s ∧ right = .infinite s)

/-- What makes both evaluators agree on a case. -/
def FormulaCase.Agreeing (c : FormulaCase) : Prop :=
  match c.operation with
  | .count => ∀ v ∈ c.values, v ≠ .null ∧ v.decimal?.isSome
  | .distinctCount => ∀ v ∈ c.values, v ≠ .null → v.decimal?.isSome
  | operation =>
    if operation.aggregates then
      HasUnreadable c.values ∨ (operation ≠ .sum ∧ numbers c.values = []) ∨
        (numbers c.values ≠ [] ∧ AllFinite (numbers c.values)) ∨
        AggregateSignals operation (numbers c.values)
    else
      ∀ left ∈ c.left.decimal?, ∀ right ∈ c.right.decimal?,
        (left.isFinite = true ∧ right.isFinite = true) ∨ PairSignals operation left right

/-! ## Reading values -/

variable {v : Value} {operation : Operation} {c : FormulaCase}

theorem mem_present {values : List Value} : v ∈ present values ↔ v ∈ values ∧ v ≠ .null := by
  simp [present]

theorem Value.decimal?_null : Value.null.decimal? = none := by decide +kernel

theorem Value.decimal?_bool (b : Bool) : (Value.bool b).decimal? = none := by
  cases b <;> decide +kernel

/-- The execution takes the finite ones of the numbers that the validation reads. -/
theorem decimalValue_eq_ok {x : Special} :
    decimalValue v = .ok x ↔ v.decimal? = some x ∧ x.isFinite = true := by
  cases v with
  | null => simp [decimalValue, Value.decimal?_null]
  | bool b => simp [decimalValue, Value.decimal?_bool]
  | text s =>
    simp only [decimalValue, bind_eq_ok, orFail_eq_ok, ensure_eq_ok, pure_eq_ok, exists_const]
    constructor
    · rintro ⟨y, hy, hfinite, rfl⟩
      exact ⟨hy, hfinite⟩
    · rintro ⟨hx, hfinite⟩
      exact ⟨x, hx, hfinite, rfl⟩

theorem decimalValue_eq_error (h : ∀ x ∈ v.decimal?, x.isFinite = false) :
    ∃ e, decimalValue v = .error e := by
  cases hvalue : decimalValue v with
  | error e => exact ⟨e, rfl⟩
  | ok x =>
    obtain ⟨hx, hfinite⟩ := decimalValue_eq_ok.1 hvalue
    rw [h x hx] at hfinite
    cases hfinite

theorem read_numbers (values : List Value) :
    ((∃ e, (present values).mapM (fun v => orFail v.decimal? "InvalidOperation") = .error e) ∧
        HasUnreadable values) ∨
      ((present values).mapM (fun v => orFail v.decimal? "InvalidOperation") =
          .ok (numbers values) ∧ ¬ HasUnreadable values) := by
  by_cases h : HasUnreadable values
  · obtain ⟨v, hv, hnone⟩ := h
    left
    exact ⟨mapM_eq_error_of_mem hv (by rw [hnone]; rfl), v, hv, hnone⟩
  · right
    refine ⟨mapM_orFail ?_, h⟩
    intro v hv
    rw [isSome_iff_ne_none]
    exact fun hnone => h ⟨v, hv, hnone⟩

/-- The execution reads all present values if they are finite, or fails. -/
theorem read_finite (values : List Value) : ((∃ e, (present values).mapM decimalValue = .error e) ∧
        (HasUnreadable values ∨ ¬ AllFinite (numbers values))) ∨
      ((present values).mapM decimalValue = .ok (numbers values) ∧
        ¬ HasUnreadable values ∧ AllFinite (numbers values)) := by
  by_cases h : ∀ v ∈ present values, ∃ x, decimalValue v = .ok x
  · right
    have hreads : ∀ v ∈ present values, ∃ x, v.decimal? = some x ∧ x.isFinite = true :=
      fun v hv => (h v hv).imp fun x hx => decimalValue_eq_ok.1 hx
    refine ⟨?_, ?_, ?_⟩
    · rw [numbers]
      generalize present values = vs at hreads ⊢
      induction vs with
      | nil => rfl
      | cons v vs ih =>
        obtain ⟨⟨x, hx, hfinite⟩, hvs⟩ := forall_mem_cons.1 hreads
        rw [mapM_cons, decimalValue_eq_ok.2 ⟨hx, hfinite⟩, ok_bind, ih hvs, filterMap_cons_some hx]
        rfl
    · rintro ⟨v, hv, hnone⟩
      obtain ⟨x, hx, -⟩ := hreads v hv
      rw [hnone] at hx
      cases hx
    · intro x hx
      obtain ⟨v, hv, hvx⟩ := mem_filterMap.1 hx
      obtain ⟨y, hy, hfinite⟩ := hreads v hv
      rw [hvx] at hy
      exact some.inj hy ▸ hfinite
  · left
    push Not at h
    obtain ⟨v, hv, hfails⟩ := h
    refine ⟨?_, ?_⟩
    · cases hvalue : decimalValue v with
      | ok x => exact absurd hvalue (hfails x)
      | error e => exact mapM_eq_error_of_mem hv hvalue
    · by_contra hboth
      rw [not_or, not_not] at hboth
      obtain ⟨hreadable, hfinite⟩ := hboth
      cases hdecimal : v.decimal? with
      | none => exact hreadable ⟨v, hv, hdecimal⟩
      | some x =>
        refine hfails x (decimalValue_eq_ok.2 ⟨hdecimal, hfinite x ?_⟩)
        exact mem_filterMap.2 ⟨v, hv, hdecimal⟩

/-! ## Unfolding both evaluators -/

theorem FormulaCase.records_field (c : FormulaCase) (field : String) :
    (c.records field).filterMap (·.field field) = c.values := by
  unfold FormulaCase.records
  induction c.values with
  | nil => rfl
  | cons value values ih =>
    rw [map_cons, filterMap_cons_some (b := value) (by simp [Record.field]), ih]

theorem FormulaCase.records_length (c : FormulaCase) (field : String) :
    (c.records field).length = c.values.length := by
  simp [FormulaCase.records]

namespace Agree

theorem of_same (result : Except Signal Special) (checked excluded : ℕ) : Agree (reported result)
      ((arithmetic result).map fun value => ⟨value, checked, excluded⟩) := by
  cases result with
  | ok value => rfl
  | error signal => trivial

theorem error_right {validated : Except String ValidationOutput} {e : String} :
    Agree validated (.error e) ↔ ∃ e, validated = .error e := by
  cases validated with
  | ok output | error e => simp [Agree]

end Agree

theorem reported_eq_error {result : Except Signal Special} :
    (∃ e, reported result = .error e) ↔ ∃ signal, result = .error signal := by
  cases result with
  | ok value | error signal => simp [reported]

/-! ## Counts -/

theorem count_agree_iff (outputUnit : Option String) (field : String) (values : List Value)
    (left right : Value) :
    Agree (FormulaCase.validated ⟨.count, values, left, right⟩ outputUnit)
        (FormulaCase.executed ⟨.count, values, left, right⟩ field) ↔
      ∀ v ∈ values, v ≠ .null ∧ v.decimal?.isSome := by
  have hexecuted : FormulaCase.executed ⟨.count, values, left, right⟩ field =
      .ok ⟨.finite values.length, values.length, 0⟩ := by
    simp [FormulaCase.executed, execute, Operation.requiredParameters, ensure_of,
      FormulaCase.records_length, pure, Except.pure]
  have hvalidated : FormulaCase.validated ⟨.count, values, left, right⟩ outputUnit =
      ((present values).mapM fun v => orFail v.decimal? "InvalidOperation") >>= fun _ =>
        .ok (.count (present values).length) := by
    simp [FormulaCase.validated, FormulaCase.input, validate, Operation.aggregates, ensure_of,
      validateValues]
  rw [hexecuted, hvalidated]
  rcases read_numbers values with ⟨⟨e, he⟩, v, hv, hnone⟩ | ⟨hread, hreadable⟩
  · rw [he, error_bind]
    refine iff_of_false (by simp [Agree]) fun h => ?_
    have hsome := (h v (mem_present.1 hv).1).2
    rw [hnone] at hsome
    cases hsome
  · rw [hread, ok_bind]
    have hlength : (present values).length = values.length ↔ ∀ v ∈ values, v ≠ .null := by
      rw [present, length_filter_eq_length_iff]
      simp
    have hsome : ∀ v ∈ values, v ≠ .null → v.decimal?.isSome = true := by
      intro v hv hpresent
      by_contra hnone
      exact hreadable ⟨v, mem_present.2 ⟨hv, hpresent⟩, by simpa using hnone⟩
    show Special.finite ((present values).length : ℚ) = .finite values.length ↔ _
    rw [Special.finite.injEq, Nat.cast_inj, hlength]
    constructor
    · intro h v hv
      exact ⟨h v hv, hsome v hv (h v hv)⟩
    · intro h v hv
      exact (h v hv).1

theorem distinctCount_agree_iff (outputUnit : Option String) (field : String) (values : List Value)
    (left right : Value) :
    Agree (FormulaCase.validated ⟨.distinctCount, values, left, right⟩ outputUnit)
        (FormulaCase.executed ⟨.distinctCount, values, left, right⟩ field) ↔
      ∀ v ∈ values, v ≠ .null → v.decimal?.isSome := by
  obtain ⟨checked, excluded, hexecuted⟩ : ∃ checked excluded,
      FormulaCase.executed ⟨.distinctCount, values, left, right⟩ field =
        .ok ⟨.finite (firsts ((present values).map (·.str))).length, checked, excluded⟩ := by
    have hfield := FormulaCase.records_field ⟨.distinctCount, values, left, right⟩ field
    have hparameter : Record.field [("field", Value.text field)] "field" = some (.text field) := by
      simp [Record.field]
    simp [FormulaCase.executed, FormulaCase.parameters, execute, Operation.requiredParameters,
      Operation.aggregates, ensure_of, parameter, hparameter, hfield, Value.str, pure, Except.pure]
  have hvalidated : FormulaCase.validated ⟨.distinctCount, values, left, right⟩ outputUnit =
      ((present values).mapM fun v => orFail v.decimal? "InvalidOperation") >>= fun _ =>
        .ok (.count (firsts ((present values).map (·.str))).length) := by
    simp [FormulaCase.validated, FormulaCase.input, validate, Operation.aggregates, ensure_of,
      validateValues]
  rw [hexecuted, hvalidated]
  rcases read_numbers values with ⟨⟨e, he⟩, v, hv, hnone⟩ | ⟨hread, hreadable⟩
  · rw [he, error_bind]
    refine iff_of_false (by simp [Agree]) fun h => ?_
    obtain ⟨hmem, hpresent⟩ := mem_present.1 hv
    have hsome := h v hmem hpresent
    rw [hnone] at hsome
    cases hsome
  · rw [hread, ok_bind]
    refine iff_of_true rfl fun v hv hpresent => ?_
    by_contra hnone
    exact hreadable ⟨v, mem_present.2 ⟨hv, hpresent⟩, by simpa using hnone⟩

/-! ## Aggregates -/

/-- The arithmetic that both evaluators apply to at least one number. -/
def aggregated (operation : Operation) (numeric : List Special) : Except Signal Special :=
  match operation with
  | .sum => Special.sum numeric
  | .average => do (← Special.sum numeric).div (.finite numeric.length)
  | .minimum => (extremes Special.lt numeric).getD (.error .invalidOperation)
  | _ => (extremes (fun a b => Special.lt b a) numeric).getD (.error .invalidOperation)

/-- The operations over a list that are no counts. -/
def Operation.folds : Operation → Bool
  | sum => true
  | average => true
  | minimum => true
  | maximum => true
  | _ => false

theorem aggregateValues_eq (h : operation.folds = true) (numeric : List Special) :
    aggregateValues operation numeric = arithmetic (aggregated operation numeric) := by
  cases operation with
  | sum | average | minimum | maximum => rfl
  | _ => cases h

theorem validateValues_eq (h : operation.folds = true) (values : List Value)
    {numeric : List Special} (hne : numeric ≠ []) :
    validateValues operation values numeric = reported (aggregated operation numeric) := by
  obtain ⟨first, rest, rfl⟩ := exists_cons_of_ne_nil hne
  cases operation with
  | sum => rfl
  | average => simp [validateValues, aggregated]
  | minimum | maximum => rfl
  | _ => cases h

theorem validateValues_nil (h : operation.folds = true) (values : List Value) :
    (∃ e, validateValues operation values [] = .error e) ↔ operation ≠ .sum := by
  cases operation with
  | sum => simp [validateValues, reported, Special.sum, pure, Except.pure]
  | average => simp [validateValues]
  | minimum | maximum => simp [validateValues, extremes]
  | _ => cases h

theorem average_eq_error {numeric : List Special} (hne : numeric ≠ []) :
    (∃ e, aggregated .average numeric = .error e) ↔ Special.SumInvalid numeric := by
  rw [← Special.sum_eq_error]
  have hlength : (numeric.length : ℚ) ≠ 0 := by
    rw [Nat.cast_ne_zero]
    exact fun h => hne (length_eq_zero_iff.1 h)
  simp only [aggregated]
  cases hsum : Special.sum numeric with
  | error e => simp
  | ok total =>
    have hquiet := Special.sum_ne_signaling hsum
    refine iff_of_false ?_ (by simp)
    rintro ⟨e, he⟩
    rw [ok_bind] at he
    cases total with
    | finite x => simp [Special.div, Special.propagate, Special.divNumbers, hlength] at he
    | infinite s => simp [Special.div, Special.propagate, Special.divNumbers] at he
    | nan signaling =>
      cases signaling
      · simp [Special.div, Special.propagate] at he
      · exact hquiet rfl

theorem extremes_eq_error {before : Special → Special → Except Signal Bool}
    (h : Special.Ordering before) {numeric : List Special} (hne : numeric ≠ []) :
    (∃ e, (extremes before numeric).getD (.error .invalidOperation) = .error e) ↔
      2 ≤ numeric.length ∧ ∃ x ∈ numeric, x.isNan = true := by
  obtain ⟨first, rest, rfl⟩ := exists_cons_of_ne_nil hne
  refine (Special.extremum_eq_error h first rest).trans (and_congr_left fun _ => ?_)
  rw [length_cons, ← length_pos_iff]
  omega

theorem aggregated_eq_error (h : operation.folds = true) {numeric : List Special}
    (hne : numeric ≠ []) :
    (∃ e, aggregated operation numeric = .error e) ↔ AggregateSignals operation numeric := by
  cases operation with
  | sum => exact Special.sum_eq_error numeric
  | average => exact average_eq_error hne
  | minimum => exact extremes_eq_error Special.lt_ordering hne
  | maximum => exact extremes_eq_error Special.gt_ordering hne
  | _ => cases h

theorem validated_of_folds (h : c.operation.folds = true) (outputUnit : Option String) :
    c.validated outputUnit =
      ((present c.values).mapM fun v => orFail v.decimal? "InvalidOperation") >>=
        validateValues c.operation (present c.values) := by
  have hlist : c.operation.aggregates = true := by
    revert h
    cases c.operation <;> simp [Operation.folds, Operation.aggregates]
  simp [FormulaCase.validated, FormulaCase.input, validate, hlist, ensure_of]

/-- An execution of an aggregate reads the same values and needs at least one. -/
theorem executed_of_folds (h : c.operation.folds = true) (field : String) :
    c.executed field = (present c.values).mapM decimalValue >>= fun numeric =>
      ensure (numeric ≠ []) ("No numeric values available for field " ++ field) >>= fun _ =>
        aggregateValues c.operation numeric >>= fun result =>
          .ok ⟨result, c.values.length, c.values.length - numeric.length⟩ := by
  have hlist : c.operation.aggregates = true := by
    revert h
    cases c.operation <;> simp [Operation.folds, Operation.aggregates]
  have hcount : c.operation ≠ .count := by
    rintro hc
    rw [hc] at h
    cases h
  have hdistinct : c.operation ≠ .distinctCount := by
    rintro hc
    rw [hc] at h
    cases h
  have hrequired : c.operation.requiredParameters = ["field"] := by
    revert hlist hcount
    cases c.operation <;> simp [Operation.requiredParameters, Operation.aggregates]
  have hparameter : Record.field [("field", Value.text field)] "field" = some (.text field) := by
    simp [Record.field]
  simp [FormulaCase.executed, FormulaCase.parameters, execute, hlist, hcount, hdistinct, hrequired,
    hparameter, parameter, ensure_of, aggregate, Value.str, c.records_field, c.records_length,
    pure, Except.pure]

theorem executed_of_numbers_nil (h : c.operation.folds = true) (field : String)
    (hnil : numbers c.values = []) : ∃ e, c.executed field = .error e := by
  rw [executed_of_folds h]
  rcases read_finite c.values with ⟨⟨e, he⟩, -⟩ | ⟨hfinite, -⟩
  · exact ⟨e, by rw [he, error_bind]⟩
  · rw [hfinite, ok_bind, ensure_of_not (by simpa using hnil), error_bind]
    exact ⟨_, rfl⟩

theorem folds_agree_iff (outputUnit : Option String) (field : String)
    (h : c.operation.folds = true) :
    Agree (c.validated outputUnit) (c.executed field) ↔
      HasUnreadable c.values ∨ (c.operation ≠ .sum ∧ numbers c.values = []) ∨
        (numbers c.values ≠ [] ∧ AllFinite (numbers c.values)) ∨
        AggregateSignals c.operation (numbers c.values) := by
  rw [validated_of_folds h]
  rcases read_numbers c.values with ⟨⟨e, he⟩, hunreadable⟩ | ⟨hread, hreadable⟩
  · -- neither evaluator gets past the value that is no number
    rw [he, executed_of_folds h]
    rcases read_finite c.values with ⟨⟨e', he'⟩, -⟩ | ⟨-, hreads, -⟩
    · rw [he']
      exact iff_of_true trivial (.inl hunreadable)
    · exact absurd hunreadable hreads
  rw [hread, ok_bind]
  by_cases hnil : numbers c.values = []
  · -- the execution fails, and a validation fails unless it sums
    obtain ⟨e, he⟩ := executed_of_numbers_nil h field hnil
    rw [he, Agree.error_right, hnil, validateValues_nil h]
    constructor
    · intro hsum
      exact .inr (.inl ⟨hsum, rfl⟩)
    · rintro (hunreadable | ⟨hsum, -⟩ | ⟨hempty, -⟩ | hsignals)
      · exact absurd hunreadable hreadable
      · exact hsum
      · exact absurd rfl hempty
      · intro hsum
        rw [hsum] at hsignals
        simp [AggregateSignals, Special.SumInvalid] at hsignals
  · rw [validateValues_eq h _ hnil, executed_of_folds h]
    rcases read_finite c.values with ⟨⟨e, he⟩, hcause⟩ | ⟨hfinite, -, hall⟩
    · -- the execution refuses numbers that are not finite
      have hinfinite := hcause.resolve_left hreadable
      rw [he, error_bind, Agree.error_right, reported_eq_error, aggregated_eq_error h hnil]
      simp [hreadable, hnil, hinfinite]
    · rw [hfinite, ok_bind, ensure_of hnil, ok_bind, aggregateValues_eq h]
      refine iff_of_true ?_ (.inr (.inr (.inl ⟨hnil, hall⟩)))
      exact Agree.of_same _ _ _

/-! ## Operands -/

theorem pair_of_finite (h : operation.aggregates = false) {a b : ℚ}
    (hb : operation.divides = true → b ≠ 0) :
    ∃ result, validatePair operation (.finite a) (.finite b) = reported result ∧
      executePair operation (.finite a) (.finite b) = arithmetic result := by
  cases operation with
  | ratio => exact ⟨_, rfl, rfl⟩
  | percentage =>
    refine ⟨_, rfl, ?_⟩
    have hvalue : a * 100 / b = a / b * 100 := by ring
    simp [executePair, Special.div_finite _ (hb rfl), hvalue]
  | percentageVariance =>
    refine ⟨_, rfl, ?_⟩
    have hvalue : (a - b) * 100 / b = (a - b) / b * 100 := by ring
    simp [executePair, Special.div_finite _ (hb rfl), hvalue]
  | absoluteVariance | reconciliation => exact ⟨Special.sub (.finite a) (.finite b), rfl, rfl⟩
  | _ => cases h

theorem pair_of_zero (h : operation.divides = true) (a : ℚ) :
    ∃ e, validatePair operation (.finite a) (.finite 0) = .error e := by
  cases operation with
  | ratio | percentage | percentageVariance =>
    obtain ⟨signal, hsignal⟩ := Special.div_zero a
    simp [validatePair, hsignal, reported]
  | _ => cases h

theorem relative_eq_error {left right : Special}
    (hfinite : ¬ (left.isFinite = true ∧ right.isFinite = true)) :
    (∃ e, (left.sub right >>= fun difference => difference.div right) = .error e) ↔
      left = .nan true ∨ right = .nan true ∨
        (left ≠ .nan false ∧ ∃ t, right = .infinite t) := by
  cases right with
  | finite b =>
    cases left with
    | finite a => exact absurd ⟨rfl, rfl⟩ hfinite
    | infinite s =>
      simp [Special.sub, Special.neg, Special.add, Special.addNumbers, Special.propagate,
        Special.div, Special.divNumbers]
    | nan signaling =>
      cases signaling <;> simp [Special.sub, Special.neg, Special.add, Special.propagate,
        Special.div]
  | infinite t =>
    cases left with
    | finite a =>
      simp [Special.sub, Special.neg, Special.add, Special.addNumbers, Special.propagate,
        Special.div, Special.divNumbers]
    | infinite s =>
      cases s <;> cases t <;> simp [Special.sub, Special.neg, Special.add, Special.addNumbers,
        Special.propagate, Special.div, Special.divNumbers]
    | nan signaling =>
      cases signaling <;> simp [Special.sub, Special.neg, Special.add, Special.propagate,
        Special.div]
  | nan signaling =>
    cases signaling
    · cases left with
      | finite a | infinite s =>
        simp [Special.sub, Special.neg, Special.add, Special.propagate, Special.div]
      | nan signaling =>
        cases signaling <;> simp [Special.sub, Special.neg, Special.add, Special.propagate,
          Special.div]
    · simp [Special.sub, Special.neg, Special.add, Special.propagate]

theorem pair_eq_error (h : operation.aggregates = false) {left right : Special}
    (hfinite : ¬ (left.isFinite = true ∧ right.isFinite = true)) :
    (∃ e, validatePair operation left right = .error e) ↔ PairSignals operation left right := by
  have hquiet : ∀ {P : Prop}, (P → left ≠ .nan false ∧ right ≠ .nan false) →
      ((left = .nan true ∨ right = .nan true ∨ P) ↔ left = .nan true ∨ right = .nan true ∨
        (left ≠ .nan false ∧ right ≠ .nan false ∧ P)) := by
    intro P hP
    have hboth : P ↔ left ≠ .nan false ∧ right ≠ .nan false ∧ P :=
      ⟨fun p => ⟨(hP p).1, (hP p).2, p⟩, fun p => p.2.2⟩
    rw [← hboth]
  have hinfinities : (∃ s t, left = .infinite s ∧ right = .infinite t) →
      left ≠ .nan false ∧ right ≠ .nan false := by
    rintro ⟨s, t, rfl, rfl⟩
    simp
  have hsame : (∃ s, left = .infinite s ∧ right = .infinite s) →
      left ≠ .nan false ∧ right ≠ .nan false := by
    rintro ⟨s, rfl, rfl⟩
    simp
  cases operation with
  | ratio =>
    simp only [validatePair, reported_eq_error, PairSignals, Special.div_eq_error hfinite]
    exact hquiet hinfinities
  | percentage =>
    simp only [validatePair, reported_eq_error, PairSignals, Special.div_scale_eq_error,
      Special.div_eq_error hfinite]
    exact hquiet hinfinities
  | percentageVariance =>
    have hscaled : (∃ e, (left.sub right >>= fun difference =>
        difference.div right >>= Special.scale 100) = .error e) ↔
          ∃ e, (left.sub right >>= fun difference => difference.div right) = .error e := by
      cases hsub : left.sub right with
      | error e => simp
      | ok difference => exact Special.div_scale_eq_error difference right 100
    have hinfinite : (left ≠ .nan false ∧ ∃ t, right = .infinite t) ↔
        left ≠ .nan false ∧ right ≠ .nan false ∧ ∃ t, right = .infinite t := by
      refine and_congr_right fun _ => ⟨?_, And.right⟩
      rintro ⟨t, rfl⟩
      exact ⟨by simp, t, rfl⟩
    simp only [validatePair, reported_eq_error, PairSignals]
    rw [hscaled, relative_eq_error hfinite, hinfinite]
  | absoluteVariance | reconciliation =>
    simp only [validatePair, reported_eq_error, PairSignals, Special.sub_eq_error]
    exact hquiet hsame
  | _ => cases h

theorem validated_of_pair (h : c.operation.aggregates = false) (outputUnit : Option String) :
    c.validated outputUnit = orFail c.left.decimal? "InvalidOperation" >>= fun left =>
      orFail c.right.decimal? "InvalidOperation" >>= fun right =>
        validatePair c.operation left right := by
  simp [FormulaCase.validated, FormulaCase.input, validate, h, ensure_of, present, pure,
    Except.pure]

theorem executed_of_pair (h : c.operation.aggregates = false) (field : String) :
    c.executed field = decimalValue c.left >>= fun left => decimalValue c.right >>= fun right =>
      ensure (¬ (c.operation.divides ∧ right = .finite 0)) "Division by zero is not permitted" >>=
        fun _ => executePair c.operation left right >>= fun value => .ok ⟨value, 0, 0⟩ := by
  have hcount : c.operation ≠ .count := by
    rintro hc
    rw [hc] at h
    cases h
  have hdistinct : c.operation ≠ .distinctCount := by
    rintro hc
    rw [hc] at h
    cases h
  have hrequired : c.operation.requiredParameters =
      [c.operation.operandKeys.1, c.operation.operandKeys.2] := by
    revert h
    cases c.operation <;> simp [Operation.requiredParameters, Operation.aggregates]
  have hkeys : c.operation.operandKeys.1 ≠ c.operation.operandKeys.2 := by
    cases c.operation <;> decide
  have hleft : Record.field (c.parameters field) c.operation.operandKeys.1 = some c.left := by
    simp [FormulaCase.parameters, h, Record.field]
  have hright : Record.field (c.parameters field) c.operation.operandKeys.2 = some c.right := by
    simp [FormulaCase.parameters, h, Record.field, hkeys]
  simp [FormulaCase.executed, execute, h, hcount, hdistinct, hrequired, hleft, hright, parameter,
    ensure_of, pure, Except.pure]

theorem executed_pair_error (h : c.operation.aggregates = false) (field : String)
    (hfinite : ∀ left ∈ c.left.decimal?, ∀ right ∈ c.right.decimal?,
      ¬ (left.isFinite = true ∧ right.isFinite = true)) : ∃ e, c.executed field = .error e := by
  rw [executed_of_pair h]
  cases hleft : decimalValue c.left with
  | error e => exact ⟨e, by rw [error_bind]⟩
  | ok left =>
    obtain ⟨hl, hlfinite⟩ := decimalValue_eq_ok.1 hleft
    have hright : ∀ right ∈ c.right.decimal?, right.isFinite = false := by
      intro right hr
      by_contra hrfinite
      exact hfinite left hl right hr ⟨hlfinite, by simpa using hrfinite⟩
    obtain ⟨e, he⟩ := decimalValue_eq_error hright
    exact ⟨e, by rw [ok_bind, he, error_bind]⟩

theorem pair_agree_of_finite (outputUnit : Option String) (field : String)
    (h : c.operation.aggregates = false) {a b : ℚ} (hleft : c.left.decimal? = some (.finite a))
    (hright : c.right.decimal? = some (.finite b)) :
    Agree (c.validated outputUnit) (c.executed field) := by
  have hl : decimalValue c.left = .ok (.finite a) := decimalValue_eq_ok.2 ⟨hleft, rfl⟩
  have hr : decimalValue c.right = .ok (.finite b) := decimalValue_eq_ok.2 ⟨hright, rfl⟩
  rw [validated_of_pair h, executed_of_pair h, hl, hr, hleft, hright]
  simp only [orFail_some, ok_bind]
  by_cases hzero : c.operation.divides = true ∧ b = 0
  · obtain ⟨hdivides, rfl⟩ := hzero
    obtain ⟨e, he⟩ := pair_of_zero hdivides a
    rw [he, ensure_of_not (by simp [hdivides]), error_bind]
    trivial
  · obtain ⟨result, hvalidated, hexecuted⟩ := pair_of_finite h (a := a) (b := b)
      fun hdivides hb => hzero ⟨hdivides, hb⟩
    rw [hvalidated, hexecuted, ensure_of (by simpa using hzero), ok_bind]
    exact Agree.of_same result 0 0

theorem pair_agree_iff (outputUnit : Option String) (field : String)
    (h : c.operation.aggregates = false) :
    Agree (c.validated outputUnit) (c.executed field) ↔
      ∀ left ∈ c.left.decimal?, ∀ right ∈ c.right.decimal?,
        (left.isFinite = true ∧ right.isFinite = true) ∨
          PairSignals c.operation left right := by
  by_cases hboth : ∃ left ∈ c.left.decimal?, ∃ right ∈ c.right.decimal?,
      left.isFinite = true ∧ right.isFinite = true
  · obtain ⟨left, hleft, right, hright, hlfinite, hrfinite⟩ := hboth
    cases left with
    | finite a =>
      cases right with
      | finite b =>
        refine iff_of_true (pair_agree_of_finite outputUnit field h hleft hright) ?_
        intro left hl right hr
        obtain rfl := mem_unique hleft hl
        obtain rfl := mem_unique hright hr
        exact .inl ⟨rfl, rfl⟩
      | infinite t | nan signaling => cases hrfinite
    | infinite s | nan signaling => cases hlfinite
  · push Not at hboth
    obtain ⟨e, he⟩ := executed_pair_error h field fun left hl right hr hfinite =>
      hboth left hl right hr hfinite.1 hfinite.2
    rw [he, Agree.error_right, validated_of_pair h]
    cases hleft : c.left.decimal? with
    | none => simp
    | some left =>
      cases hright : c.right.decimal? with
      | none => simp
      | some right =>
        have hfinite : ¬ (left.isFinite = true ∧ right.isFinite = true) :=
          fun hfinite => hboth left hleft right hright hfinite.1 hfinite.2
        simp only [orFail_some, ok_bind, mem_def, some.injEq, forall_eq']
        rw [pair_eq_error h hfinite, or_iff_right hfinite]

/-! ## Where the evaluators agree -/

/-- A formula that validates runs with the same result exactly on the agreeing cases. -/
theorem evaluators_agree_iff (outputUnit : Option String) (field : String) (c : FormulaCase) :
    Agree (c.validated outputUnit) (c.executed field) ↔ c.Agreeing := by
  rcases c with ⟨operation, values, left, right⟩
  cases operation with
  | count => exact count_agree_iff outputUnit field values left right
  | distinctCount => exact distinctCount_agree_iff outputUnit field values left right
  | sum | average | minimum | maximum => exact folds_agree_iff outputUnit field rfl
  | ratio | percentage | absoluteVariance | percentageVariance | reconciliation =>
    exact pair_agree_iff outputUnit field rfl

/-! ## A count with a missing value -/

namespace CountedNull

/-- A missing value and a number are counted. -/
def counted : FormulaCase where
  operation := .count
  values := [.null, .text "1"]
  left := .null
  right := .null

theorem validated_count : counted.validated none = .ok (.count 1) := by decide +kernel

theorem executed_count : counted.executed "amount" = .ok ⟨.finite 2, 2, 0⟩ := by decide +kernel

/-- The count that validated as one runs as two. -/
theorem not_agree : ¬ Agree (counted.validated none) (counted.executed "amount") := by
  rw [validated_count, executed_count]
  show ¬ Special.finite ((1 : ℕ) : ℚ) = .finite 2
  decide

end CountedNull

end Intel4Ops.Knowledge
