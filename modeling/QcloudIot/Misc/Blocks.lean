import Mathlib

/-!
# Block-wise processing

A block hash folds a compression function over the blocks of its input. An incremental
implementation absorbs the whole blocks and keeps the rest, which does not fill a block, in a
buffer.
-/

namespace QcloudIot

section Blocks

variable {σ α : Type} (process : σ → List α → σ) {size : Nat}

/-- The first `n` blocks of the input. -/
def processBlocks (size : Nat) : Nat → σ → List α → σ
  | 0, state, _ => state
  | n + 1, state, input =>
    processBlocks size n (process state (input.take size)) (input.drop size)

/-- All whole blocks of the input. -/
def absorb (size : Nat) (state : σ) (input : List α) : σ :=
  processBlocks process size (input.length / size) state input

/-- What does not fill a block. -/
def remainder (size : Nat) (input : List α) : List α := input.drop (input.length / size * size)

theorem length_remainder (input : List α) :
    (remainder size input).length = input.length % size := by
  rw [remainder, List.length_drop, mul_comm, Nat.mod_eq_sub_mul_div]

theorem absorb_short {input : List α} (short : input.length < size) (state : σ) :
    absorb process size state input = state := by
  rw [absorb, Nat.div_eq_of_lt short, processBlocks]

theorem remainder_short {input : List α} (short : input.length < size) :
    remainder size input = input := by
  rw [remainder, Nat.div_eq_of_lt short, Nat.zero_mul, List.drop_zero]

theorem length_block_append (positive : 0 < size) {block : List α} (whole : block.length = size)
    (input : List α) : (block ++ input).length / size = input.length / size + 1 := by
  rw [List.length_append, whole, Nat.add_div_left _ positive]

theorem absorb_block (positive : 0 < size) {block : List α} (whole : block.length = size)
    (state : σ) (input : List α) :
    absorb process size state (block ++ input) =
      absorb process size (process state block) input := by
  rw [absorb, length_block_append positive whole, processBlocks, ← whole, List.take_left,
    List.drop_left, absorb]

theorem remainder_block (positive : 0 < size) {block : List α} (whole : block.length = size)
    (input : List α) : remainder size (block ++ input) = remainder size input := by
  rw [remainder, length_block_append positive whole, remainder, Nat.succ_mul, Nat.add_comm,
    ← List.drop_drop]
  congr 1
  rw [← whole, List.drop_left]

/-- Input that comes in two parts is absorbed part by part, the rest of the first one in front
    of the second. -/
theorem absorb_append (positive : 0 < size) (state : σ) (front back : List α) :
    absorb process size state (front ++ back) =
        absorb process size (absorb process size state front) (remainder size front ++ back) ∧
      remainder size (front ++ back) = remainder size (remainder size front ++ back) := by
  induction h : front.length using Nat.strong_induction_on generalizing state front with
  | _ length ih =>
    by_cases short : front.length < size
    · rw [absorb_short process short, remainder_short short]
      exact ⟨rfl, rfl⟩
    · have whole : (front.take size).length = size := by
        rw [List.length_take]
        omega
      have less : (front.drop size).length < length := by
        rw [List.length_drop]
        omega
      obtain ⟨absorbed, rest⟩ := ih _ less (process state (front.take size)) (front.drop size) rfl
      rw [← List.take_append_drop size front, List.append_assoc,
        absorb_block process positive whole, absorb_block process positive whole,
        remainder_block positive whole, remainder_block positive whole]
      exact ⟨absorbed, rest⟩

theorem remainder_whole {input : List α} (whole : input.length % size = 0) :
    remainder size input = [] :=
  List.eq_nil_of_length_eq_zero ((length_remainder input).trans whole)

/-- Behind whole blocks the absorbing goes on as from the start. -/
theorem absorb_append_whole (positive : 0 < size) {front : List α}
    (whole : front.length % size = 0) (state : σ) (back : List α) :
    absorb process size state (front ++ back) =
      absorb process size (absorb process size state front) back := by
  rw [(absorb_append process positive state front back).1, remainder_whole whole, List.nil_append]

end Blocks

section Overwrite

variable {α : Type}

/-- The buffer with the bytes copied to `pos`, as far as they fit. -/
def overwrite (buffer : List α) (pos : Nat) (bytes : List α) : List α :=
  buffer.take pos ++ bytes.take (buffer.length - pos) ++ buffer.drop (pos + bytes.length)

theorem length_overwrite {buffer : List α} {pos : Nat} (inside : pos ≤ buffer.length)
    (bytes : List α) : (overwrite buffer pos bytes).length = buffer.length := by
  rw [overwrite, List.length_append, List.length_append, List.length_take, List.length_take,
    List.length_drop]
  omega

/-- The bytes up to the end of those copied. -/
theorem take_overwrite {buffer : List α} {pos : Nat} {bytes : List α}
    (inside : pos + bytes.length ≤ buffer.length) :
    (overwrite buffer pos bytes).take (pos + bytes.length) = buffer.take pos ++ bytes := by
  have whole : bytes.take (buffer.length - pos) = bytes := List.take_of_length_le (by omega)
  have front : (buffer.take pos ++ bytes).length = pos + bytes.length := by
    rw [List.length_append, List.length_take]
    omega
  rw [overwrite, whole, ← front, List.take_left]

/-- As many bytes as are copied are replaced. -/
theorem overwrite_append (front mid behind : List α) {bytes : List α}
    (fits : bytes.length = mid.length) :
    overwrite (front ++ (mid ++ behind)) front.length bytes = front ++ (bytes ++ behind) := by
  have room : (front ++ (mid ++ behind)).length - front.length = mid.length + behind.length := by
    rw [List.length_append, List.length_append]
    omega
  rw [overwrite, List.take_left, room, List.take_of_length_le (by omega), fits,
    ← List.length_append, ← List.append_assoc front mid, List.drop_left, List.append_assoc]

/-- The bytes in front of those copied stay. -/
theorem getElem?_overwrite_lt {buffer : List α} {pos i : Nat} (before : i < pos)
    (inside : pos ≤ buffer.length) (bytes : List α) :
    (overwrite buffer pos bytes)[i]? = buffer[i]? := by
  rw [overwrite, List.append_assoc, List.getElem?_append_left, List.getElem?_take_of_lt before]
  rw [List.length_take]
  omega

end Overwrite

end QcloudIot
