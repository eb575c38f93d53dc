import Mathlib.Data.Finset.Sort
import Mathlib.Data.String.Basic

/-!
# Texts in order

What sorting a set of texts needs of their order, as instances of its own, so that a definition that
sorts texts holds no proof about the order.
-/

namespace Lib

instance instIsTransText : IsTrans String (· ≤ ·) := ⟨fun _ _ _ => le_trans⟩

instance instAntisymmText : Std.Antisymm fun a b : String => a ≤ b := ⟨fun _ _ => le_antisymm⟩

end Lib
