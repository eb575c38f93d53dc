/-!
# Identifiers and instants

Rows are named by identifiers that only equality is ever asked of, and instants are compared and
subtracted. Both are numbers here.
-/

namespace Lib

/-- A row identifier. -/
abbrev UUID := Nat

/-- An instant, counted in microseconds. -/
abbrev Instant := Int

end Lib
