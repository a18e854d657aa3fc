import QcloudIot.Utils.Rand

/-!
# The values of the generator

Nothing overflows, what is returned and stored is the product modulo 2^31 - 1, and zero is never
reached from another class of seeds.
-/

namespace QcloudIot.Utils.Rand

variable {n : Int}

theorem int32_of_bounds (low : -2 ^ 31 ≤ n) (high : n < 2 ^ 31) : int32 n = some n :=
  if_pos ⟨low, high⟩

/-- A negative number plus the modulus. -/
theorem addUnsigned_of_neg (low : -(2 ^ 31 - 1) ≤ n) (negative : n < 0) :
    addUnsigned n (2 ^ 31 - 1) = n + (2 ^ 31 - 1) := by
  have modulus : (BitVec.ofNat 32 (2 ^ 31 - 1)).toInt = 2 ^ 31 - 1 := by decide
  have inner : n.bmod (2 ^ 32) = n := Int.bmod_eq_of_le (by omega) (by omega)
  rw [addUnsigned, BitVec.toInt_add, BitVec.toInt_ofInt, modulus, inner]
  exact Int.bmod_eq_of_le (by omega) (by omega)

/-- The correction at the end. -/
theorem corrected_eq_emod (low : -(2 ^ 31 - 1) ≤ n) (high : n < 2 ^ 31 - 1) :
    (if n < 0 then addUnsigned n (2 ^ 31 - 1) else n) = n % (2 ^ 31 - 1) := by
  split
  · next negative =>
    rw [addUnsigned_of_neg low negative]
    omega
  · next nonneg => exact (Int.emod_eq_of_lt (Int.not_lt.mp nonneg) high).symm

theorem toInt_bounds (seed : BitVec 32) : -2 ^ 31 ≤ seed.toInt ∧ seed.toInt < 2 ^ 31 := by
  have low := seed.le_toInt
  have high := seed.toInt_lt
  exact ⟨low, high⟩

/-- The products and their difference stay in range. -/
theorem parts_bounds {x : Int} (low : -2 ^ 31 ≤ x) (high : x < 2 ^ 31) :
    (-44488 < x.tmod 44488 ∧ x.tmod 44488 < 44488) ∧
      (-48272 < x.tdiv 44488 ∧ x.tdiv 44488 < 48272) ∧
      (-(2 ^ 31 - 1) ≤ schrage 48271 44488 3399 x ∧ schrage 48271 44488 3399 x < 2 ^ 31 - 1) := by
  obtain ⟨nonneg, nonpos⟩ := @schrage_parts 44488 x (by decide)
  rw [schrage]
  rcases Int.le_total 0 x with upper | lower
  · obtain ⟨rest, below, quotient, part⟩ := nonneg upper
    refine ⟨⟨?_, ?_⟩, ⟨?_, ?_⟩, ?_, ?_⟩ <;> omega
  · obtain ⟨below, rest, quotient, part⟩ := nonpos lower
    refine ⟨⟨?_, ?_⟩, ⟨?_, ?_⟩, ?_, ?_⟩ <;> omega

/-- Every seed has a next value, and it is the product modulo 2^31 - 1. -/
theorem qcloudRandR_eq (seed : BitVec 32) :
    qcloudRandR seed = some (48271 * seed.toInt % (2 ^ 31 - 1),
      BitVec.ofInt 32 (48271 * seed.toInt % (2 ^ 31 - 1))) := by
  obtain ⟨low, high⟩ := toInt_bounds seed
  obtain ⟨⟨restLow, restHigh⟩, ⟨quotientLow, quotientHigh⟩, valueLow, valueHigh⟩ :=
    parts_bounds low high
  have congruent : schrage 48271 44488 3399 seed.toInt % (2 ^ 31 - 1) =
      48271 * seed.toInt % (2 ^ 31 - 1) := schrage_emod 48271 44488 3399 seed.toInt
  have value := corrected_eq_emod valueLow valueHigh
  rw [← congruent, ← value]
  rw [schrage] at valueLow valueHigh ⊢
  have rest := int32_of_bounds (n := seed.toInt.tmod 44488) (by omega) (by omega)
  have product := int32_of_bounds (n := 48271 * seed.toInt.tmod 44488) (by omega) (by omega)
  have quotient := int32_of_bounds (n := seed.toInt.tdiv 44488) (by omega) (by omega)
  have carry := int32_of_bounds (n := 3399 * seed.toInt.tdiv 44488) (by omega) (by omega)
  have difference := int32_of_bounds
    (n := 48271 * seed.toInt.tmod 44488 - 3399 * seed.toInt.tdiv 44488) (by omega) (by omega)
  unfold qcloudRandR randStep
  simp only [rest, product, quotient, carry, difference, Option.bind_eq_bind, Option.bind_some]
  rfl

theorem toInt_emod (n : Int) :
    (BitVec.ofInt 32 (n % (2 ^ 31 - 1))).toInt = n % (2 ^ 31 - 1) := by
  rw [BitVec.toInt_ofInt]
  exact Int.bmod_eq_of_le (by omega) (by omega)

/-- From a seed that is no multiple of 2^31 - 1 on, no value is zero. Induction on the number of
    calls. -/
theorem randSequence_ne_zero (n : Nat) {seed : BitVec 32} (other : ¬ (2 ^ 31 - 1 : Int) ∣ seed.toInt) :
    ∃ values, randSequence qcloudRandR n seed = some values ∧ values.length = n ∧
      ∀ x ∈ values, x ≠ 0 := by
  induction n generalizing seed with
  | zero => exact ⟨[], rfl, rfl, List.forall_mem_nil _⟩
  | succ n ih =>
    have coprime : IsCoprime (2 ^ 31 - 1 : Int) 48271 := by
      rw [Int.isCoprime_iff_gcd_eq_one]
      decide
    have next := not_dvd_mul_emod coprime other
    obtain ⟨values, later, length, nonzero⟩ := @ih
      (BitVec.ofInt 32 (48271 * seed.toInt % (2 ^ 31 - 1))) (by rw [toInt_emod]; exact next)
    refine ⟨48271 * seed.toInt % (2 ^ 31 - 1) :: values, ?_, congrArg (· + 1) length, ?_⟩
    · rw [randSequence, qcloudRandR_eq]
      simp only [Option.bind_eq_bind, Option.bind_some, later]
      rfl
    · refine List.forall_mem_cons.mpr ⟨?_, nonzero⟩
      intro zero
      exact next (zero ▸ dvd_zero _)

/-- For every seed the two generators agree, have a value, which means that nothing overflows, and
    return and store the product modulo 2^31 - 1; no value that follows a seed which is not a
    multiple of 2^31 - 1 is zero. -/
theorem rand_product (seed : BitVec 32) :
    randR seed = qcloudRandR seed ∧
    (∃ stored : BitVec 32,
      qcloudRandR seed = some (48271 * seed.toInt % (2 ^ 31 - 1), stored) ∧
      stored.toInt = 48271 * seed.toInt % (2 ^ 31 - 1) ∧
      0 ≤ 48271 * seed.toInt % (2 ^ 31 - 1) ∧
      48271 * seed.toInt % (2 ^ 31 - 1) < 2 ^ 31 - 1) ∧
    (¬ (2 ^ 31 - 1 : Int) ∣ seed.toInt → ∀ n, ∃ values,
      randSequence qcloudRandR n seed = some values ∧ values.length = n ∧
        ∀ x ∈ values, x ≠ 0) := by
  refine ⟨rfl, ⟨_, qcloudRandR_eq seed, toInt_emod _, ?_, ?_⟩, ?_⟩
  · exact Int.emod_nonneg _ (by decide)
  · exact Int.emod_lt_of_pos _ (by decide)
  · intro other n
    exact randSequence_ne_zero n other

/-- A seed that is negative as an `int32_t`. -/
theorem rand_product_negative :
    ∃ values, randSequence qcloudRandR 3 (BitVec.ofInt 32 (-5)) = some values ∧ values.length = 3 ∧
      ∀ x ∈ values, x ≠ 0 :=
  (rand_product (BitVec.ofInt 32 (-5))).2.2 (by decide) 3

end QcloudIot.Utils.Rand
