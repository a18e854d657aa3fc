import QcloudIot.Json.Grammar
import QcloudIot.Ota.Client

/-!
# Printed integers

What `%d` prints for an integer is a number of the grammar.
-/

namespace QcloudIot.Json

open Ota (decimal)

/-! ## Bytes of a text -/

theorem toListLoop_eq_drop (bytes : ByteArray) (i : Nat) (read : List UInt8) :
    ByteArray.toList.loop bytes i read = read.reverse ++ bytes.data.toList.drop i := by
  fun_induction ByteArray.toList.loop bytes i read with
  | case1 i read inside ih =>
    have size : i < bytes.data.toList.length := inside
    have byte : bytes.get! i = bytes.data.toList[i] := getElem!_pos bytes.data i inside
    rw [ih, List.reverse_cons, List.append_assoc, List.singleton_append, byte,
      List.getElem_cons_drop]
  | case2 i read outside =>
    have size : bytes.data.toList.length ≤ i := Nat.not_lt.mp outside
    rw [List.drop_of_length_le size, List.append_nil]

theorem toList_eq_data (bytes : ByteArray) : bytes.toList = bytes.data.toList := by
  rw [ByteArray.toList, toListLoop_eq_drop]
  rfl

theorem utf8_append (a b : String) : Ota.utf8 (a ++ b) = Ota.utf8 a ++ Ota.utf8 b := by
  unfold Ota.utf8
  rw [toList_eq_data, toList_eq_data, toList_eq_data]
  exact ByteArray.toList_data_append

/-! ## Digits -/

theorem utf8_repr_digit : ∀ d < 10, Ota.utf8 (Nat.repr d) = [UInt8.ofNat (48 + d)] := by
  intro d below
  interval_cases d <;> with_unfolding_all decide

/-- The digits of a natural number; the first one is zero only if the number is. -/
theorem utf8_repr (n : Nat) : Ota.utf8 n.repr ≠ [] ∧ (∀ b ∈ Ota.utf8 n.repr, isDigit b = true) ∧
    ((Ota.utf8 n.repr).head? = some 48 → n = 0) := by
  have isDigitOf : ∀ d < 10, isDigit (UInt8.ofNat (48 + d)) = true := by
    decide
  have isZero : ∀ d < 10, UInt8.ofNat (48 + d) = 48 → d = 0 := by
    decide
  induction n using Nat.strongRecOn with
  | ind n ih =>
    by_cases small : n < 10
    · rw [utf8_repr_digit n small]
      refine ⟨List.cons_ne_nil _ _, ?_, ?_⟩
      · intro b mem
        rw [List.mem_singleton.mp mem]
        exact isDigitOf n small
      · intro zero
        exact isZero n small (Option.some.inj zero)
    · obtain ⟨nonempty, digits, leading⟩ := ih (n / 10) (by omega)
      have last : n % 10 < 10 := Nat.mod_lt _ (by decide)
      rw [Nat.repr_eq_repr_append_repr (by omega), utf8_append, utf8_repr_digit _ last]
      refine ⟨List.append_ne_nil_of_left_ne_nil nonempty _, ?_, ?_⟩
      · intro b mem
        rcases List.mem_append.mp mem with mem | mem
        · exact digits b mem
        · rw [List.mem_singleton.mp mem]
          exact isDigitOf _ last
      · intro zero
        rw [List.head?_append_of_ne_nil _ nonempty] at zero
        have tenth := leading zero
        omega

theorem decimal_natCast (n : Nat) : decimal n = Ota.utf8 n.repr := by
  rw [decimal, Int.toString_eq_repr, Int.repr_eq_if, if_pos (Int.natCast_nonneg n),
    Int.toNat_natCast]

theorem utf8_minus : Ota.utf8 "-" = [minus] := by with_unfolding_all decide

/-- A sign, and the digits of the absolute value. -/
theorem decimal_eq (n : Int) :
    decimal n = (if 0 ≤ n then [] else [minus]) ++ Ota.utf8 n.natAbs.repr := by
  rw [decimal, Int.toString_eq_repr, Int.repr_eq_if]
  by_cases positive : 0 ≤ n
  · have same : n.toNat = n.natAbs := by omega
    rw [if_pos positive, if_pos positive, same, List.nil_append]
  · have same : (-n).toNat = n.natAbs := by omega
    rw [if_neg positive, if_neg positive, utf8_append, utf8_minus, same]

/-- A printed integer is a number without a fraction and an exponent. -/
theorem decimal_number (n : Int) : ∃ number : Number, number.exp = none ∧
    number.mantissa ++ number.exponent = decimal n := by
  obtain ⟨nonempty, digits, leading⟩ := utf8_repr n.natAbs
  refine ⟨⟨decide (¬ 0 ≤ n), ⟨_, nonempty, digits⟩, none, none, ?_⟩, rfl, ?_⟩
  · intro first
    dsimp only at first ⊢
    rw [leading first]
    exact utf8_repr_digit 0 (by decide)
  · rw [decimal_eq]
    unfold Number.mantissa Number.exponent
    dsimp only
    by_cases positive : 0 ≤ n
    · rw [if_pos positive, decide_eq_false (not_not.mpr positive), if_neg Bool.false_ne_true,
        List.append_nil, List.append_nil]
    · rw [if_neg positive, decide_eq_true positive, if_pos rfl, List.append_nil, List.append_nil]

/-- A number below a power of ten has no more digits than the power. Induction on the power. -/
theorem length_utf8_repr {n k : Nat} (below : n < 10 ^ (k + 1)) :
    (Ota.utf8 n.repr).length ≤ k + 1 := by
  induction k generalizing n with
  | zero =>
    rw [utf8_repr_digit n below]
    exact Nat.le_refl _
  | succ k ih =>
    by_cases small : n < 10
    · rw [utf8_repr_digit n small, List.length_singleton]
      omega
    · have tenth : n / 10 < 10 ^ (k + 1) := Nat.div_lt_of_lt_mul (by rwa [pow_succ'] at below)
      have last : n % 10 < 10 := Nat.mod_lt _ (by decide)
      have shorter := ih tenth
      rw [Nat.repr_eq_repr_append_repr (by omega), utf8_append, utf8_repr_digit _ last,
        List.length_append, List.length_singleton]
      omega

theorem length_decimal {n : Int} {k : Nat} (below : n.natAbs < 10 ^ (k + 1)) :
    (decimal n).length ≤ k + 2 := by
  have digits := length_utf8_repr below
  rw [decimal_eq, List.length_append]
  split
  · rw [List.length_nil]
    omega
  · rw [List.length_singleton]
    omega

end QcloudIot.Json
