import Mathlib

/-!
# Text in memory

A C string is the part of the memory in front of the first zero byte. `strstr` looks for the
first place where a text occurs, and `strrchr` for the last place of a byte.
-/

namespace QcloudIot

/-- The string at the front of the memory. -/
def cString (memory : List UInt8) : List UInt8 := memory.takeWhile (· ≠ 0)

/-- A text without a zero byte is a prefix of the string that is read at its place. -/
theorem cString_append {text : List UInt8} (noNul : 0 ∉ text) (behind : List UInt8) :
    cString (text ++ behind) = text ++ cString behind := by
  rw [cString, List.takeWhile_append_of_pos]
  · rfl
  · intro b mem
    exact decide_eq_true fun zero => noNul (zero ▸ mem)

theorem cString_nul {text : List UInt8} (noNul : 0 ∉ text) (behind : List UInt8) :
    cString (text ++ 0 :: behind) = text := by
  rw [cString_append noNul]
  exact List.append_nil text

/-- A zero byte ends the string, whatever follows it. -/
theorem cString_append_nul (front behind : List UInt8) :
    cString (front ++ 0 :: behind) = cString front := by
  induction front with
  | nil => rfl
  | cons b front ih =>
    rw [cString, List.cons_append, List.takeWhile_cons, cString, List.takeWhile_cons]
    split
    · exact congrArg (b :: ·) ih
    · rfl

theorem cString_append_of_mem {front : List UInt8} (nul : 0 ∈ front) (behind : List UInt8) :
    cString (front ++ behind) = cString front := by
  obtain ⟨before, after, rfl⟩ := List.append_of_mem nul
  rw [List.append_assoc, List.cons_append, cString_append_nul, cString_append_nul]

theorem length_cString_le (memory : List UInt8) : (cString memory).length ≤ memory.length :=
  (List.takeWhile_prefix _).length_le

/-- The string at a place inside a string is the rest of it. -/
theorem cString_drop {memory : List UInt8} {n : Nat} (inside : n ≤ (cString memory).length) :
    cString (memory.drop n) = (cString memory).drop n := by
  induction n generalizing memory with
  | zero => rfl
  | succ n ih =>
    cases memory with
    | nil => exact absurd inside (Nat.not_succ_le_zero n)
    | cons b memory =>
      have first : cString (b :: memory) =
          if decide (b ≠ 0) = true then b :: cString memory else [] := List.takeWhile_cons
      rw [first] at inside ⊢
      by_cases char : decide (b ≠ 0) = true
      · rw [if_pos char] at inside ⊢
        exact ih (Nat.le_of_succ_le_succ inside)
      · rw [if_neg char] at inside
        exact absurd inside (Nat.not_succ_le_zero n)

/-! ## Searching a text -/

section Strstr

variable {α : Type} [DecidableEq α] {needle text behind : List α} {i : Nat}

/-- The first position at which `needle` occurs in a text. -/
def strstr (needle : List α) : List α → Option Nat
  | [] => if needle = [] then some 0 else none
  | b :: text => if needle <+: b :: text then some 0 else (strstr needle text).map (· + 1)

/-- `needle` occurs at the position found and at none in front of it. -/
theorem strstr_eq_some (nonempty : needle ≠ []) :
    strstr needle text = some i ↔
      needle <+: text.drop i ∧ ∀ j < i, ¬ needle <+: text.drop j := by
  induction text generalizing i with
  | nil =>
    rw [strstr, if_neg nonempty, List.drop_nil]
    constructor
    · intro found
      cases found
    · intro ⟨occurs, _⟩
      exact absurd (List.prefix_nil.mp occurs) nonempty
  | cons b text ih =>
    rw [strstr]
    by_cases here : needle <+: b :: text
    · rw [if_pos here]
      constructor
      · intro found
        cases found
        exact ⟨here, fun j below => absurd below (Nat.not_lt_zero j)⟩
      · intro ⟨_, first⟩
        cases i with
        | zero => rfl
        | succ i => exact absurd here (first 0 (Nat.succ_pos i))
    · rw [if_neg here]
      cases i with
      | zero =>
        constructor
        · intro found
          cases later : strstr needle text <;> rw [later] at found <;> cases found
        · intro ⟨occurs, _⟩
          exact absurd occurs here
      | succ i =>
        have shift : (strstr needle text).map (· + 1) = some (i + 1) ↔
            strstr needle text = some i := by
          cases strstr needle text <;> simp
        rw [shift, ih]
        constructor
        · intro ⟨occurs, first⟩
          refine ⟨occurs, fun j below => ?_⟩
          cases j with
          | zero => exact here
          | succ j => exact first j (by omega)
        · intro ⟨occurs, first⟩
          exact ⟨occurs, fun j below => first (j + 1) (by omega)⟩

theorem strstr_within (nonempty : needle ≠ []) (found : strstr needle text = some i) :
    i + needle.length ≤ text.length := by
  have fits := ((strstr_eq_some nonempty).mp found).1.length_le
  have some := List.length_pos_iff.mpr nonempty
  rw [List.length_drop] at fits
  omega

/-- What is found in a text is found at the same place when the text goes on. -/
theorem strstr_append (nonempty : needle ≠ []) (found : strstr needle text = some i) :
    strstr needle (text ++ behind) = some i := by
  have within := strstr_within nonempty found
  rw [strstr_eq_some nonempty] at found ⊢
  obtain ⟨occurs, first⟩ := found
  constructor
  · rw [List.drop_append_of_le_length (by omega)]
    exact occurs.trans (List.prefix_append _ _)
  · intro j below earlier
    rw [List.drop_append_of_le_length (by omega)] at earlier
    have fits : needle.length ≤ (text.drop j).length := by
      rw [List.length_drop]
      omega
    exact first j below
      (List.prefix_of_prefix_length_le earlier (List.prefix_append _ _) fits)

/-- Nothing is found in a text that ends before the first occurrence does. -/
theorem strstr_cut (nonempty : needle ≠ []) (found : strstr needle (text ++ behind) = some i)
    (cut : text.length < i + needle.length) : strstr needle text = none := by
  cases earlier : strstr needle text with
  | none => rfl
  | some j =>
    have within := strstr_within nonempty earlier
    have same : strstr needle (text ++ behind) = some j := strstr_append nonempty earlier
    rw [found] at same
    cases same
    omega

end Strstr

/-! ## The last place of a byte -/

section Strrchr

variable {α : Type} [DecidableEq α] {ch : α}

/-- The last position of an element. -/
def strrchr (ch : α) : List α → Option Nat
  | [] => none
  | b :: text =>
    match strrchr ch text with
    | some i => some (i + 1)
    | none => if b = ch then some 0 else none

theorem strrchr_eq_none {text : List α} (missing : ch ∉ text) : strrchr ch text = none := by
  induction text with
  | nil => rfl
  | cons b text ih =>
    rw [List.mem_cons, not_or] at missing
    rw [strrchr, ih missing.2]
    exact if_neg fun same => missing.1 same.symm

/-- What follows the last position found does not have the element. -/
theorem strrchr_append {level : List α} (missing : ch ∉ level) (front : List α) :
    strrchr ch (front ++ ch :: level) = some front.length := by
  induction front with
  | nil =>
    rw [List.nil_append, strrchr, strrchr_eq_none missing]
    exact if_pos rfl
  | cons b front ih => rw [List.cons_append, strrchr, ih, List.length_cons]

end Strrchr

end QcloudIot
