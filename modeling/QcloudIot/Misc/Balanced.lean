import Mathlib

/-!
# Balanced brackets

A run over a text counts how many brackets of one kind are open. A text is balanced if the
run never closes more than it opened and has closed everything at the end. Balanced texts
are closed under concatenation and under being bracketed, and every text without brackets
is balanced.
-/

namespace QcloudIot

section

variable {α : Type} [DecidableEq α] (opening closing : α)

/-- The number of brackets open after `text`, when `depth` were open before it; `none` if a
    bracket is closed that was not opened. -/
def nest : Nat → List α → Option Nat
  | depth, [] => some depth
  | depth, b :: text =>
    if b = closing then
      match depth with
      | 0 => none
      | depth + 1 => nest depth text
    else if b = opening then nest (depth + 1) text
    else nest depth text

/-- Every bracket of the text is closed in it, and every one it closes was opened in it. -/
def Balanced (text : List α) : Prop := nest opening closing 0 text = some 0

instance (text : List α) : Decidable (Balanced opening closing text) :=
  inferInstanceAs (Decidable (_ = _))

theorem nest_cons (depth : Nat) (b : α) (text : List α) :
    nest opening closing depth (b :: text) =
      if b = closing then
        match depth with
        | 0 => none
        | depth + 1 => nest opening closing depth text
      else if b = opening then nest opening closing (depth + 1) text
      else nest opening closing depth text := by
  cases depth <;> rfl

theorem nest_append (depth : Nat) (first second : List α) :
    nest opening closing depth (first ++ second) =
      (nest opening closing depth first).bind fun depth => nest opening closing depth second := by
  induction first generalizing depth with
  | nil => rfl
  | cons b first ih =>
    rw [List.cons_append, nest_cons, nest_cons]
    split_ifs with close open_
    · cases depth with
      | zero => rfl
      | succ depth => exact ih depth
    · exact ih (depth + 1)
    · exact ih depth

/-- Brackets that were open before do not matter. -/
theorem nest_add {depth after : Nat} {text : List α} (more : Nat)
    (run : nest opening closing depth text = some after) :
    nest opening closing (depth + more) text = some (after + more) := by
  induction text generalizing depth with
  | nil =>
    cases run
    rfl
  | cons b text ih =>
    rw [nest_cons] at run ⊢
    split_ifs at run ⊢ with close open_
    · cases depth with
      | zero => cases run
      | succ depth =>
        rw [Nat.succ_add]
        exact ih run
    · rw [Nat.add_right_comm]
      exact ih run
    · exact ih run

variable {opening closing}

theorem Balanced.nest {text : List α} (balanced : Balanced opening closing text) (depth : Nat) :
    nest opening closing depth text = some depth := by
  have run := nest_add opening closing depth balanced
  rwa [Nat.zero_add] at run

theorem Balanced.append {first second : List α} (h₁ : Balanced opening closing first)
    (h₂ : Balanced opening closing second) : Balanced opening closing (first ++ second) := by
  rw [Balanced, nest_append, h₁]
  exact h₂

theorem Balanced.of_not_mem {text : List α} (noOpening : opening ∉ text)
    (noClosing : closing ∉ text) : Balanced opening closing text := by
  induction text with
  | nil => rfl
  | cons b text ih =>
    rw [List.mem_cons, not_or] at noOpening noClosing
    rw [Balanced, nest_cons, if_neg (Ne.symm noClosing.1), if_neg (Ne.symm noOpening.1)]
    exact ih noOpening.2 noClosing.2

/-- A balanced text in brackets is balanced. -/
theorem Balanced.bracket {text : List α} (different : opening ≠ closing)
    (balanced : Balanced opening closing text) :
    Balanced opening closing (opening :: (text ++ [closing])) := by
  rw [Balanced, nest_cons, if_neg different, if_pos rfl, nest_append, balanced.nest]
  rw [Option.bind_some, nest_cons, if_pos rfl]
  rfl

end

end QcloudIot
