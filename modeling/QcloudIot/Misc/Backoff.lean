import Mathlib

/-!
# Exponential back-off

Attempts at something that keeps failing. After each of them the wait for the next one is doubled,
and there is none once the wait would be above a maximum; how many attempts that allows depends on
the first wait.
-/

namespace QcloudIot

/-- When an attempt began and when it was over. -/
structure Span where
  began : Nat
  ended : Nat
  deriving DecidableEq, Repr

/-- Each attempt begins at least `wait` after the one before it was over (the first one: after
    `since`), where `wait` doubles from attempt to attempt. -/
def Spaced : Nat → Nat → List Span → Prop
  | _, _, [] => True
  | wait, since, span :: spans =>
    since + wait ≤ span.began ∧ Spaced (wait * 2) span.ended spans

/-- When the last attempt was over. -/
def lastEnd (since : Nat) (spans : List Span) : Nat :=
  (spans.getLast?.map Span.ended).getD since

theorem lastEnd_concat (since : Nat) (spans : List Span) (span : Span) :
    lastEnd since (spans ++ [span]) = span.ended := by
  rw [lastEnd, List.getLast?_concat]
  rfl

/-- One more attempt. Induction on those before it. -/
theorem Spaced.concat {wait since : Nat} {spans : List Span} (spaced : Spaced wait since spans)
    {span : Span} (later : lastEnd since spans + wait * 2 ^ spans.length ≤ span.began) :
    Spaced wait since (spans ++ [span]) := by
  induction spans generalizing wait since with
  | nil => exact ⟨by simpa [lastEnd] using later, trivial⟩
  | cons first spans ih =>
    refine ⟨spaced.1, ih spaced.2 ?_⟩
    have since' : lastEnd since (first :: spans) = lastEnd first.ended spans := by
      cases spans with
      | nil => rfl
      | cons second spans => rw [lastEnd, lastEnd, List.getLast?_cons_cons, List.getLast?_cons]; rfl
    rw [since', List.length_cons, pow_succ'] at later
    rw [Nat.mul_assoc]
    exact later

/-- The number of attempts until the wait is above the maximum. -/
def doublings (start max : Nat) : Nat := Nat.log 2 (max / start) + 1

/-- The wait after `n` attempts is above the maximum when `n` has reached this number. -/
theorem doublings_le_iff {start max : Nat} (positive : 0 < start) (below : start ≤ max) (n : Nat) :
    doublings start max ≤ n ↔ max < start * 2 ^ n := by
  have some : max / start ≠ 0 := (Nat.div_pos below positive).ne'
  rw [doublings, Nat.succ_le_iff, Nat.log_lt_iff_lt_pow Nat.one_lt_two some,
    Nat.div_lt_iff_lt_mul positive, Nat.mul_comm]

theorem doublings_le_log (start max : Nat) : doublings start max ≤ Nat.log 2 max + 1 :=
  Nat.succ_le_succ (Nat.log_mono_right (Nat.div_le_self max start))

end QcloudIot
