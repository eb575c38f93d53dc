import Intel4Ops.Lib.Decimal
import Intel4Ops.Lib.Group
import Intel4Ops.Lib.Special
import Mathlib.Data.List.Sort

/-!
# The two evaluators of formulas

A formula is evaluated once when the validation cases of its version run, and once when the
version is executed over records. Both evaluators know the same operations. Decimals are exact
here: the rounding of intermediate results and the limit of their digits are left out.
-/

namespace Intel4Ops.Knowledge

open Lib

/-- `CalculationOperation` -/
inductive Operation
  | count
  | distinctCount
  | sum
  | average
  | minimum
  | maximum
  | ratio
  | percentage
  | absoluteVariance
  | percentageVariance
  | reconciliation
  deriving DecidableEq

/-- The operations over a list of values. -/
def Operation.aggregates : Operation → Bool
  | count => true
  | distinctCount => true
  | sum => true
  | average => true
  | minimum => true
  | maximum => true
  | _ => false

/-- A Python value: nothing, a truth value, or any other value by its text. -/
inductive Value
  | null
  | bool (b : Bool)
  | text (s : String)
  deriving DecidableEq

/-- `str(value)` -/
def Value.str : Value → String
  | null => "None"
  | bool b => if b then "True" else "False"
  | text s => s

/-- `Decimal(str(value))` -/
def Value.decimal? (value : Value) : Option Special := Special.ofText? value.str

/-- The values that are not missing. -/
def present (values : List Value) : List Value := values.filter (· ≠ .null)

/-- `min` or `max` of values, of which there is at least one. -/
def extremes (before : Special → Special → Except Signal Bool) :
    List Special → Option (Except Signal Special)
  | [] => none
  | first :: rest => some (rest.foldlM (Special.extremum before) first)

/-! ## Validation -/

/-- What a validation case puts in. -/
structure ValidationInput where
  unit : Option String
  values : Option (List Value)
  (left right : Option Value)

/-- What a validation case puts out. -/
inductive ValidationOutput
  | count (n : ℕ)
  | decimal (value : Special)
  deriving DecidableEq

/-- The name of the exception that a signal raises. -/
def signalName : Signal → String
  | .invalidOperation => "InvalidOperation"
  | .divisionByZero => "DivisionByZero"

def reported (result : Except Signal Special) : Except String ValidationOutput :=
  match result with
  | .ok value => .ok (.decimal value)
  | .error signal => .error (signalName signal)

/-- The operations of `_execute` over the present values and over their numbers. -/
def validateValues (operation : Operation) (values : List Value) (numeric : List Special) :
    Except String ValidationOutput :=
  match operation with
  | .count => .ok (.count values.length)
  | .distinctCount => .ok (.count (firsts (values.map (·.str))).length)
  | .sum => reported (Special.sum numeric)
  | .average =>
    if numeric = [] then .error "ZeroDivisionError"
    else reported (do (← Special.sum numeric).div (.finite numeric.length))
  | .minimum =>
    match extremes Special.lt numeric with
    | none => .error "ValueError"
    | some result => reported result
  | .maximum =>
    match extremes (fun a b => Special.lt b a) numeric with
    | none => .error "ValueError"
    | some result => reported result
  | _ => .error "Unsupported operation"

/-- The operations of `_execute` over two operands. -/
def validatePair (operation : Operation) (left right : Special) : Except String ValidationOutput :=
  match operation with
  | .absoluteVariance => reported (left.sub right)
  | .reconciliation => reported (left.sub right)
  | .ratio => reported (left.div right)
  | .percentage => reported (do (← left.div right).scale 100)
  | .percentageVariance => reported (do (← (← left.sub right).div right).scale 100)
  | _ => .error "Unsupported operation"

/-- `KnowledgeValidationService._execute` -/
def validate (outputUnit : Option String) (operation : Operation) (input : ValidationInput) :
    Except String ValidationOutput := do
  ensure (input.unit = none ∨ input.unit = outputUnit) "UNIT_MISMATCH"
  ensure (operation.aggregates → input.values.isSome) "MISSING_INPUT"
  let values := present (input.values.getD [])
  let numeric ← values.mapM fun value => orFail value.decimal? "InvalidOperation"
  if operation.aggregates then validateValues operation values numeric
  else do
    let left ← orFail input.left "KeyError"
    let left ← orFail left.decimal? "InvalidOperation"
    let right ← orFail input.right "KeyError"
    let right ← orFail right.decimal? "InvalidOperation"
    validatePair operation left right

/-! ## Execution -/

/-- A record: its fields and their values. -/
abbrev Record := List (String × Value)

def Record.field (record : Record) (name : String) : Option Value :=
  (record.find? (·.1 = name)).map (·.2)

/-- `CalculationDefinition`, as far as the evaluator reads it. -/
structure CalculationDefinition where
  operation : Operation
  requiredParameters : List String

/-- `ArithmeticOutcome` -/
structure ArithmeticOutcome where
  value : Special
  (checkedCount excludedCount : ℕ)
  deriving DecidableEq

def Operation.operandKeys : Operation → String × String
  | ratio => ("numerator", "denominator")
  | percentage => ("numerator", "denominator")
  | absoluteVariance => ("actual", "comparison")
  | percentageVariance => ("actual", "comparison")
  | _ => ("left", "right")

/-- The parameters that the registered definitions of an operation require. -/
def Operation.requiredParameters : Operation → List String
  | count => []
  | operation =>
    if operation.aggregates then ["field"]
    else [operation.operandKeys.1, operation.operandKeys.2]

/-- `decimal_value` -/
def decimalValue (value : Value) : Except String Special :=
  let failure := "Operand must be a finite numeric value"
  match value with
  | .text _ => do
    let converted ← orFail value.decimal? failure
    ensure converted.isFinite failure
    return converted
  | _ => .error failure

/-- `value.quantize(DEFAULT_QUANTUM, ROUND_HALF_EVEN)` -/
def quantize : Special → Special
  | .finite x => .finite (Decimal.halfEven.places 6 x)
  | x => x

/-- Arithmetic on finite operands, whose signals are not caught. -/
def arithmetic (result : Except Signal Special) : Except String Special :=
  match result with
  | .ok value => .ok (quantize value)
  | .error signal => .error (signalName signal)

/-- The operations of `_aggregate` over at least one value. -/
def aggregateValues (operation : Operation) (values : List Special) : Except String Special :=
  match operation with
  | .sum => arithmetic (Special.sum values)
  | .average => arithmetic (do (← Special.sum values).div (.finite values.length))
  | .minimum => arithmetic ((extremes Special.lt values).getD (.error .invalidOperation))
  | _ => arithmetic ((extremes (fun a b => Special.lt b a) values).getD (.error .invalidOperation))

/-- `ArithmeticEvaluator._aggregate` -/
def aggregate (operation : Operation) (records : List Record) (field : String) :
    Except String ArithmeticOutcome := do
  let values ← (present (records.filterMap (·.field field))).mapM decimalValue
  ensure (values ≠ []) ("No numeric values available for field " ++ field)
  let result ← aggregateValues operation values
  return ⟨result, records.length, records.length - values.length⟩

/-- The operations of `execute` over two operands. -/
def executePair (operation : Operation) (left right : Special) : Except String Special :=
  match operation with
  | .ratio => arithmetic (left.div right)
  | .percentage => arithmetic (do (← left.scale 100).div right)
  | .percentageVariance => arithmetic (do (← (← left.sub right).scale 100).div right)
  | _ => arithmetic (left.sub right)

def Operation.divides : Operation → Bool
  | ratio => true
  | percentage => true
  | percentageVariance => true
  | _ => false

def parameter (parameters : Record) (name : String) : Except String Value :=
  orFail (parameters.field name) "KeyError"

/-- `ArithmeticEvaluator.execute` -/
def execute (definition : CalculationDefinition) (records : List Record) (parameters : Record) :
    Except String ArithmeticOutcome := do
  let missing := definition.requiredParameters.filter fun name => (parameters.field name).isNone
  ensure (missing = [])
    ("Missing calculation parameters: " ++ ", ".intercalate (missing.insertionSort (· ≤ ·)))
  if definition.operation = .count then
    return ⟨.finite records.length, records.length, 0⟩
  else if definition.operation = .distinctCount then do
    let field ← parameter parameters "field"
    let values := present (records.filterMap (·.field field.str))
    return ⟨.finite (firsts (values.map (·.str))).length, records.length,
      records.length - values.length⟩
  else if definition.operation.aggregates then do
    let field ← parameter parameters "field"
    aggregate definition.operation records field.str
  else do
    let left ← parameter parameters definition.operation.operandKeys.1
    let left ← decimalValue left
    let right ← parameter parameters definition.operation.operandKeys.2
    let right ← decimalValue right
    ensure (¬ (definition.operation.divides ∧ right = .finite 0))
      "Division by zero is not permitted"
    let value ← executePair definition.operation left right
    return ⟨value, 0, 0⟩

end Intel4Ops.Knowledge
