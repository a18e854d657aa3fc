import Mathlib

/-!
# Queues in a circle of slots

A circle of `n` slots with two cursors: the cursor that reads stands at the slot read last, the
one that writes at the slot written last. The queue is empty where they meet, and one slot stays
free, so that `n - 1` items fit. Its contents are the items behind the cursor that reads.
-/

namespace QcloudIot

variable {α : Type} {n r w : Nat}

/-- The slot behind slot `i`. -/
def circleNext (n i : Nat) : Nat := if i + 1 < n then i + 1 else 0

/-- The items between the cursors `r` and `w`. -/
def circleCount (n r w : Nat) : Nat := if r ≤ w then w - r else w + n - r

/-- `k` items from the slot behind `r` on. -/
def circleItems (n : Nat) (slots : Nat → α) : Nat → Nat → List α
  | _, 0 => []
  | r, k + 1 => slots (circleNext n r) :: circleItems n slots (circleNext n r) k

/-- The items of the queue, in the order in which they were written. -/
def circleContents (n : Nat) (slots : Nat → α) (r w : Nat) : List α :=
  circleItems n slots r (circleCount n r w)

/-! ## Cursors -/

theorem circleNext_lt (inside : r < n) : circleNext n r < n := by
  unfold circleNext
  split <;> omega

/-- The step of a cursor that counts modulo the size. -/
theorem circleNext_eq_mod (inside : r < n) : (r + 1) % n = circleNext n r := by
  unfold circleNext
  split
  · rename_i small
    exact Nat.mod_eq_of_lt small
  · rename_i last
    have full : r + 1 = n := by omega
    rw [full, Nat.mod_self]

@[simp] theorem circleCount_self (n r : Nat) : circleCount n r r = 0 := by
  simp [circleCount]

theorem circleCount_lt (inside : r < n) (written : w < n) : circleCount n r w < n := by
  unfold circleCount
  split <;> omega

theorem circleCount_next_read (inside : r < n) (written : w < n) (items : w ≠ r) :
    circleCount n r w = circleCount n (circleNext n r) w + 1 := by
  unfold circleCount circleNext
  split_ifs <;> omega

theorem circleCount_next_write (inside : r < n) (written : w < n) (room : circleNext n w ≠ r) :
    circleCount n r (circleNext n w) = circleCount n r w + 1 := by
  unfold circleNext at room ⊢
  unfold circleCount
  split_ifs at room ⊢ <;> omega

/-- The queue is full when the cursor that writes stands right before the one that reads. -/
theorem circleNext_eq_iff (inside : r < n) (written : w < n) :
    circleNext n w = r ↔ circleCount n r w = n - 1 := by
  unfold circleNext circleCount
  split_ifs <;> omega

/-! ## Contents -/

theorem circleItems_succ (slots : Nat → α) (k : Nat) :
    circleItems n slots r (k + 1) =
      slots (circleNext n r) :: circleItems n slots (circleNext n r) k := rfl

@[simp] theorem length_circleItems (slots : Nat → α) (k : Nat) :
    (circleItems n slots r k).length = k := by
  induction k generalizing r with
  | zero => rfl
  | succ k ih => rw [circleItems, List.length_cons, ih]

@[simp] theorem length_circleContents (slots : Nat → α) :
    (circleContents n slots r w).length = circleCount n r w :=
  length_circleItems slots _

/-- The item written last is the last one. -/
theorem circleItems_write (slots : Nat → α) (x : α) {k : Nat} (inside : r < n) (written : w < n)
    (count : circleCount n r w = k) (room : circleNext n w ≠ r) :
    circleItems n (Function.update slots (circleNext n w) x) r (k + 1) =
      circleItems n slots r k ++ [x] := by
  induction k generalizing r with
  | zero =>
    have same : r = w := by
      unfold circleCount at count
      split at count <;> omega
    rw [same, circleItems, circleItems, circleItems, Function.update_self, List.nil_append]
  | succ k ih =>
    have apart : w ≠ r := by
      intro same
      rw [same, circleCount_self] at count
      omega
    have fewer := circleCount_next_read inside written apart
    have other : circleNext n w ≠ circleNext n r := by
      unfold circleNext
      split_ifs <;> omega
    have rest := ih (circleNext_lt inside) (by omega) other
    rw [circleItems_succ, rest, Function.update_of_ne other.symm, circleItems_succ,
      List.cons_append]

theorem circleContents_write (slots : Nat → α) (x : α) (inside : r < n) (written : w < n)
    (room : circleNext n w ≠ r) :
    circleContents n (Function.update slots (circleNext n w) x) r (circleNext n w) =
      circleContents n slots r w ++ [x] := by
  rw [circleContents, circleCount_next_write inside written room]
  exact circleItems_write slots x inside written rfl room

theorem circleContents_read (slots : Nat → α) (inside : r < n) (written : w < n)
    (items : w ≠ r) :
    circleContents n slots r w =
      slots (circleNext n r) :: circleContents n slots (circleNext n r) w := by
  rw [circleContents, circleCount_next_read inside written items, circleItems]
  rfl

@[simp] theorem circleContents_self (slots : Nat → α) : circleContents n slots r r = [] := by
  rw [circleContents, circleCount_self, circleItems]

end QcloudIot
