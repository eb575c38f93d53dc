import Intel4Ops.Lib.Decimal

/-!
# Decimal numbers with infinities

Decimals that are parsed from texts may be infinite. An operation rounds its exact result to the
context, and is invalid where no result is defined.
-/

namespace Lib.Decimal

/-- A number or a signed infinity. -/
inductive Extended
  | finite (value : ℚ)
  | infinite (negative : Bool)
  deriving DecidableEq

namespace Extended

/-- The number is below zero. -/
def isNegative : Extended → Bool
  | finite a => decide (a < 0)
  | infinite s => s

def neg : Extended → Extended
  | finite a => finite (-a)
  | infinite s => infinite (!s)

def add : Extended → Extended → Option Extended
  | finite a, finite b => some (finite (context (a + b)))
  | infinite s, finite _ => some (infinite s)
  | finite _, infinite s => some (infinite s)
  | infinite s, infinite t => if s = t then some (infinite s) else none

def sub (a b : Extended) : Option Extended := a.add b.neg

def mul : Extended → Extended → Option Extended
  | finite a, finite b => some (finite (context (a * b)))
  | infinite s, b => if b = finite 0 then none else some (infinite (xor s b.isNegative))
  | a, infinite s => if a = finite 0 then none else some (infinite (xor s a.isNegative))

def div : Extended → Extended → Option Extended
  | finite a, finite b => if b = 0 then none else some (finite (context (a / b)))
  | infinite s, finite b => some (infinite (xor s (decide (b < 0))))
  | finite _, infinite _ => some (finite 0)
  | infinite _, infinite _ => none

def le : Extended → Extended → Bool
  | finite a, finite b => decide (a ≤ b)
  | infinite s, b => s || b == infinite false
  | finite _, infinite s => !s

/-- The greater number, the first one of equal numbers. -/
def max (a b : Extended) : Extended := if b.le a then a else b

/-- The sum in order, from zero. -/
def sum : List Extended → Option Extended := List.foldlM add (finite 0)

end Extended

end Lib.Decimal
