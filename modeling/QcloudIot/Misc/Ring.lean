import Mathlib

/-!
# Ring buffers

A ring buffer is an array with a cursor at the slot that is written next, which is the slot
written longest ago. Its contents are the items in the order in which they were written.
-/

namespace QcloudIot

variable {α : Type} {n : Nat}

/-- The items of a ring buffer, oldest first. -/
def ringContents (buf : Fin (n + 1) → α) (cursor : Fin (n + 1)) : List α :=
  List.ofFn fun k => buf (cursor + k)

@[simp] theorem length_ringContents (buf : Fin (n + 1) → α) (cursor : Fin (n + 1)) :
    (ringContents buf cursor).length = n + 1 := by
  rw [ringContents, List.length_ofFn]

theorem mem_ringContents {buf : Fin (n + 1) → α} {cursor : Fin (n + 1)} {x : α} :
    x ∈ ringContents buf cursor ↔ ∃ i, buf i = x := by
  rw [ringContents, List.mem_ofFn]
  constructor
  · rintro ⟨k, found⟩
    exact ⟨cursor + k, found⟩
  · rintro ⟨i, found⟩
    refine ⟨i - cursor, ?_⟩
    show buf (cursor + (i - cursor)) = x
    rw [add_sub_cancel, found]

theorem ringContents_const (x : α) (cursor : Fin (n + 1)) :
    ringContents (fun _ => x) cursor = List.replicate (n + 1) x := by
  rw [ringContents, List.ofFn_const]

/-- Writing an item drops the oldest one. -/
theorem ringContents_update (buf : Fin (n + 1) → α) (cursor : Fin (n + 1)) (x : α) :
    ringContents (Function.update buf cursor x) (cursor + 1) =
      (ringContents buf cursor).tail ++ [x] := by
  have last : (1 : Fin (n + 1)) + Fin.last n = 0 :=
    (add_comm _ _).trans (Fin.last_add_one n)
  rw [ringContents, ringContents, List.ofFn_succ', List.ofFn_succ, List.tail_cons,
    List.concat_eq_append]
  congr 1
  · congr 1
    funext k
    have next : cursor + 1 + k.castSucc = cursor + k.succ := by
      rw [add_assoc, add_comm 1, Fin.coeSucc_eq_succ]
    have moved : cursor + k.succ ≠ cursor := by
      intro same
      exact Fin.succ_ne_zero k (add_eq_left.mp same)
    rw [next, Function.update_of_ne moved]
  · rw [add_assoc, last, add_zero, Function.update_self]

end QcloudIot
