import Mathlib.Algebra.Order.Ring.Unbundled.Rat
import Mathlib.Data.Rat.Floor

/-!
# JSON values

A JSON document as a program receives it after parsing: numbers are the exact values that they
stand for, and an object is a list of fields. A scalar is a value that can be a member of a set or
a key of a dictionary; truth values are the numbers zero and one there, as in Python.

The texts that `int` and `float` read have blanks around them, a sign, digits that single
underscores may group, and for a `float` a fraction and an exponent. Digits are those of ASCII, and
the texts of infinities and of `nan` are left out.
-/

namespace Lib

inductive Json
  | null
  | bool (b : Bool)
  | num (x : ℚ)
  | str (s : String)
  | arr (items : List Json)
  | obj (fields : List (String × Json))

/-- A value that can be hashed. -/
inductive Scalar
  | null
  | num (x : ℚ)
  | str (s : String)
  deriving DecidableEq

namespace Scalar

/-- The values that `<` compares: two numbers, or two strings. -/
def Ordered : Scalar → Scalar → Prop
  | num _, num _ => True
  | str _, str _ => True
  | _, _ => False

instance : (a b : Scalar) → Decidable (a.Ordered b)
  | num _, num _ => isTrue trivial
  | str _, str _ => isTrue trivial
  | null, _ => isFalse id
  | num _, null => isFalse id
  | num _, str _ => isFalse id
  | str _, null => isFalse id
  | str _, num _ => isFalse id

/-- `<` on ordered values. -/
def lt : Scalar → Scalar → Bool
  | num x, num y => x < y
  | str s, str t => s < t
  | _, _ => false

end Scalar

namespace Json

/-- The value of a field, or nothing when the field is missing. -/
def field (fields : List (String × Json)) (key : String) : Option Json :=
  (fields.find? (·.1 = key)).map (·.2)

/-- The scalar that a value is, unless it is an array or an object. -/
def scalar? : Json → Option Scalar
  | null => some .null
  | bool b => some (.num (if b then 1 else 0))
  | num x => some (.num x)
  | str s => some (.str s)
  | arr _ => none
  | obj _ => none

end Json

/-! ## Numbers in texts -/

namespace Numeral

/-- The number that a run of digits stands for. -/
def digits (text : List Char) : Option ℕ :=
  let groups := text.splitOn '_'
  if groups.all (fun group => group ≠ [] ∧ group.all Char.isDigit) then
    some (groups.flatten.foldl (fun n c => 10 * n + (c.toNat - '0'.toNat)) 0)
  else none

/-- The digits, or zero where none stand. -/
def digitsOrNone (text : List Char) : Option ℕ := if text = [] then some 0 else digits text

/-- The text without the blanks around it. -/
def strip (text : String) : List Char :=
  ((text.toList.dropWhile Char.isWhitespace).reverse.dropWhile Char.isWhitespace).reverse

/-- A sign in front of what `read` reads. -/
def signed {α : Type*} [Neg α] (read : List Char → Option α) : List Char → Option α
  | '-' :: text => (read text).map (- ·)
  | '+' :: text => read text
  | text => read text

/-- `int(text)` -/
def int? (text : String) : Option ℤ := signed (fun cs => (digits cs).map (↑·)) (strip text)

/-- A number with a point; digits stand on one of its sides at least. -/
def pointed (text : List Char) : Option ℚ :=
  match text.span (· ≠ '.') with
  | (whole, []) => (digits whole).map (↑·)
  | (whole, _ :: fraction) => do
    if whole = [] ∧ fraction = [] then none
    let whole ← digitsOrNone whole
    let places := (fraction.filter Char.isDigit).length
    let fraction ← digitsOrNone fraction
    return whole + fraction / 10 ^ places

/-- A number with a point and an exponent. -/
def scientific (text : List Char) : Option ℚ :=
  match text.span (fun c => c ≠ 'e' ∧ c ≠ 'E') with
  | (mantissa, []) => pointed mantissa
  | (mantissa, _ :: exponent) => do
    let mantissa ← pointed mantissa
    let exponent ← signed (fun cs => (digits cs).map ((↑·) : ℕ → ℤ)) exponent
    return mantissa * 10 ^ exponent

/-- `float(text)`; the text of an integer stands for that integer. -/
def float? (text : String) : Option ℚ :=
  match int? text with
  | some n => some (n : ℚ)
  | none => signed scientific (strip text)

theorem float?_of_int? {text : String} {n : ℤ} (h : int? text = some n) :
    float? text = some (n : ℚ) := by
  rw [float?, h]

end Numeral

/-- `int(x)` of a number drops its fraction. -/
def truncate (x : ℚ) : ℤ := if 0 ≤ x then ⌊x⌋ else ⌈x⌉

@[simp] theorem truncate_intCast (n : ℤ) : truncate n = n := by
  simp [truncate]

namespace Json

/-- `isinstance(value, (int, float, str))` -/
def isNumeral : Json → Bool
  | bool _ => true
  | num _ => true
  | str _ => true
  | _ => false

/-- `int(value)` -/
def int? : Json → Option ℤ
  | bool b => some (if b then 1 else 0)
  | num x => some (truncate x)
  | str s => Numeral.int? s
  | _ => none

/-- `float(value)` -/
def float? : Json → Option ℚ
  | bool b => some (if b then 1 else 0)
  | num x => some x
  | str s => Numeral.float? s
  | _ => none

/-- A value that `int` reads is read by `float` too, with the same whole part. -/
theorem truncate_float? {value : Json} {n : ℤ} (h : value.int? = some n) :
    ∃ x, value.float? = some x ∧ truncate x = n := by
  cases value with
  | bool b =>
    cases h
    refine ⟨_, rfl, ?_⟩
    cases b
    · exact truncate_intCast 0
    · exact truncate_intCast 1
  | num x => exact ⟨x, rfl, Option.some.inj h⟩
  | str s => exact ⟨n, Numeral.float?_of_int? h, truncate_intCast n⟩
  | null | arr items | obj fields => cases h

/-- The items that `for item in value` visits: a text has its characters, an object its keys. -/
def iterate? : Json → Option (List Json)
  | arr items => some items
  | str s => some (s.toList.map fun c => str c.toString)
  | obj fields => some (fields.map fun field => str field.1)
  | _ => none

end Json

end Lib
