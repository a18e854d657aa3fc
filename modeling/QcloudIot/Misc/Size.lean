import Mathlib

/-!
# Sizes

Subtraction of 64-bit unsigned numbers, which wraps.
-/

namespace QcloudIot

/-- The difference of two numbers of type `size_t`. -/
def sizeSub (a b : Nat) : Nat := if b ≤ a then a - b else a + 2 ^ 64 - b

theorem sizeSub_of_le {a b : Nat} (le : b ≤ a) : sizeSub a b = a - b := if_pos le

end QcloudIot
