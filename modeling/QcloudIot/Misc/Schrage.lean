import Mathlib

/-!
# Schrage's method

A multiplicative generator modulo `m = a * q + r` by two small products: the quotient and the
remainder of the value by `q`, with division that truncates toward zero.
-/

namespace QcloudIot

section Schrage

variable {a q r x : Int}

/-- The product modulo `a * q + r`, up to a multiple of it. -/
def schrage (a q r x : Int) : Int := a * x.tmod q - r * x.tdiv q

theorem schrage_emod (a q r x : Int) : schrage a q r x % (a * q + r) = a * x % (a * q + r) := by
  have split : a * x = schrage a q r x + (a * q + r) * x.tdiv q := by
    conv_lhs => rw [← Int.mul_tdiv_add_tmod x q]
    rw [schrage]
    ring
  rw [split, Int.add_mul_emod_self_left]

/-- The remainder and the quotient have the sign of the value. -/
theorem schrage_parts (positive : 0 < q) :
    (0 ≤ x → 0 ≤ x.tmod q ∧ x.tmod q < q ∧ 0 ≤ x.tdiv q ∧ q * x.tdiv q ≤ x) ∧
      (x ≤ 0 → -q < x.tmod q ∧ x.tmod q ≤ 0 ∧ x.tdiv q ≤ 0 ∧ x ≤ q * x.tdiv q) := by
  have split := Int.mul_tdiv_add_tmod x q
  constructor
  · intro nonneg
    have rest := Int.tmod_nonneg q nonneg
    have below := Int.tmod_lt_of_pos x positive
    have quotient := Int.tdiv_nonneg nonneg positive.le
    exact ⟨rest, below, quotient, by omega⟩
  · intro nonpos
    have rest := Int.tmod_nonneg q (Int.neg_nonneg_of_nonpos nonpos)
    have below := Int.tmod_lt_of_pos (-x) positive
    have quotient := Int.tdiv_nonneg (Int.neg_nonneg_of_nonpos nonpos) positive.le
    rw [Int.neg_tmod] at rest below
    rw [Int.neg_tdiv] at quotient
    exact ⟨by omega, by omega, by omega, by omega⟩

/-- A multiplier without a factor of the modulus never leads to a multiple of it. -/
theorem not_dvd_mul_emod {m : Int} (coprime : IsCoprime m a) (other : ¬ m ∣ x) :
    ¬ m ∣ a * x % m := by
  intro divides
  have product : m ∣ a * x := by
    rw [← Int.mul_ediv_add_emod (a * x) m]
    exact dvd_add (dvd_mul_right m _) divides
  exact other (coprime.dvd_of_dvd_mul_left product)

end Schrage

end QcloudIot
