import QcloudIot.Misc.Queue

/-!
# Ring buffer

`ring_buff_init`, `ring_buff_push_data` and `ring_buff_pop_data` of `utils_ringbuff.c`, and what
they do to the contents.
-/

namespace QcloudIot.Utils

abbrev ringbuffOk : Int := 0
abbrev ringbuffFull : Int := -4
abbrev ringbuffTooShort : Int := -5

/-- `sRingbuff` (`utils_ringbuff.h:30-36`), with both cursors inside the buffer. -/
structure RingBuff where
  size : Nat
  readpoint : Nat
  writepoint : Nat
  buffer : Nat → UInt8
  full : Bool
  readpoint_lt : readpoint < size
  writepoint_lt : writepoint < size

/-- The parameter of type int that a number is passed for. -/
@[irreducible] def toInt (n : Int) : Int := Int.bmod n (2 ^ 32)

theorem toInt_small {n : Nat} (small : n < 2 ^ 31) : toInt n = n := by
  unfold toInt
  apply Int.bmod_eq_of_le <;> omega

theorem toInt_emod (n : Int) : toInt n % 2 ^ 32 = n % 2 ^ 32 := by
  unfold toInt
  exact Int.bmod_emod

namespace RingBuff

/-- `ring_buff_init` and `ring_buff_flush` (`utils_ringbuff.c:21-41`). -/
def init (size : Nat) (positive : 0 < size) : RingBuff :=
  ⟨size, 0, 0, fun _ => 0, false, positive, positive⟩

/-- The bytes that are stored, in the order in which they were pushed. -/
def contents (ring : RingBuff) : List UInt8 :=
  circleContents ring.size ring.buffer ring.readpoint ring.writepoint

/-- One byte is written behind the last one (`utils_ringbuff.c:56-61`). -/
def store (ring : RingBuff) (byte : UInt8) : RingBuff :=
  let writepoint := if ring.writepoint < ring.size - 1 then ring.writepoint + 1 else 0
  { ring with
    writepoint
    buffer := Function.update ring.buffer writepoint byte
    writepoint_lt := by
      have := ring.writepoint_lt
      simp only [writepoint]
      split <;> omega }

/-- The loop of `ring_buff_push_data` (`utils_ringbuff.c:51-63`). -/
def push : RingBuff → List UInt8 → Int × RingBuff
  | ring, [] => (ringbuffOk, ring)
  | ring, byte :: rest =>
    if (ring.writepoint + 1) % ring.size = ring.readpoint then
      (ringbuffFull, { ring with full := true })
    else (ring.store byte).push rest

/-- `ring_buff_push_data` (`utils_ringbuff.c:43-66`). `len` is compared with the size as an
    unsigned number. -/
def ringBuffPushData (ring : RingBuff) (pData : List UInt8) (len : Int) : Int × RingBuff :=
  if len % 2 ^ 32 > ring.size then (ringbuffTooShort, ring)
  else ring.push (pData.take len.toNat)

/-- The cursor moves on to the byte that is read (`utils_ringbuff.c:80-84`). -/
def skip (ring : RingBuff) : RingBuff :=
  { ring with
    readpoint := if ring.readpoint = ring.size - 1 then 0 else ring.readpoint + 1
    readpoint_lt := by
      have := ring.readpoint_lt
      split <;> omega }

/-- The loop of `ring_buff_pop_data` (`utils_ringbuff.c:76-87`). -/
def pop : RingBuff → Nat → List UInt8 × RingBuff
  | ring, 0 => ([], ring)
  | ring, len + 1 =>
    if ring.writepoint = ring.readpoint then ([], ring)
    else
      let rest := ring.skip.pop len
      (ring.skip.buffer ring.skip.readpoint :: rest.1, rest.2)

/-- `ring_buff_pop_data` (`utils_ringbuff.c:68-90`): the value returned, and the bytes written to
    `pData`. -/
def ringBuffPopData (ring : RingBuff) (len : Int) : Int × List UInt8 × RingBuff :=
  if len % 2 ^ 32 > ring.size then (ringbuffTooShort, [], ring)
  else
    let popped := ring.pop len.toNat
    (popped.1.length, popped.1, popped.2)

/-! ## Contents -/

variable {ring : RingBuff}

theorem length_contents (ring : RingBuff) : ring.contents.length < ring.size := by
  rw [contents, length_circleContents]
  exact circleCount_lt ring.readpoint_lt ring.writepoint_lt

@[simp] theorem contents_init (size : Nat) (positive : 0 < size) :
    (init size positive).contents = [] :=
  circleContents_self _

theorem store_writepoint (ring : RingBuff) (byte : UInt8) :
    (ring.store byte).writepoint = circleNext ring.size ring.writepoint := by
  have inside := ring.writepoint_lt
  simp only [store, circleNext]
  split_ifs <;> omega

theorem skip_readpoint (ring : RingBuff) :
    ring.skip.readpoint = circleNext ring.size ring.readpoint := by
  have inside := ring.readpoint_lt
  simp only [skip, circleNext]
  split_ifs <;> omega

/-- A byte is stored behind the others while there is room. -/
theorem contents_store {byte : UInt8} (room : ring.contents.length < ring.size - 1) :
    (ring.store byte).contents = ring.contents ++ [byte] := by
  have apart : circleNext ring.size ring.writepoint ≠ ring.readpoint := by
    intro full
    rw [circleNext_eq_iff ring.readpoint_lt ring.writepoint_lt] at full
    rw [contents, length_circleContents, full] at room
    exact absurd room (lt_irrefl _)
  have written := circleContents_write ring.buffer byte ring.readpoint_lt ring.writepoint_lt apart
  rw [← store_writepoint ring byte] at written
  exact written

/-- What fits is pushed, and the rest is dropped. -/
theorem contents_push (ring : RingBuff) (bytes : List UInt8) :
    (ring.push bytes).2.contents =
        ring.contents ++ bytes.take (ring.size - 1 - ring.contents.length) ∧
      (ring.push bytes).2.size = ring.size := by
  induction bytes generalizing ring with
  | nil => exact ⟨by rw [push, List.take_nil, List.append_nil], rfl⟩
  | cons byte rest ih =>
    have full : (ring.writepoint + 1) % ring.size = ring.readpoint ↔
        ring.contents.length = ring.size - 1 := by
      rw [circleNext_eq_mod ring.writepoint_lt,
        circleNext_eq_iff ring.readpoint_lt ring.writepoint_lt, contents, length_circleContents]
    by_cases stop : (ring.writepoint + 1) % ring.size = ring.readpoint
    · rw [push, if_pos stop, full.mp stop, Nat.sub_self, List.take_zero, List.append_nil]
      exact ⟨rfl, rfl⟩
    · have inside := length_contents ring
      have room : ring.contents.length < ring.size - 1 := by
        have := mt full.mpr stop
        omega
      obtain ⟨pushed, size⟩ := ih (ring.store byte)
      rw [push, if_neg stop]
      refine ⟨?_, size⟩
      have one : ring.size - 1 - ring.contents.length =
          ring.size - 1 - (ring.contents.length + 1) + 1 := by omega
      rw [pushed, contents_store room, List.length_append, List.length_singleton, one,
        List.take_succ_cons, List.append_assoc, List.singleton_append]
      rfl

/-- The bytes popped are the first ones. -/
theorem contents_pop (ring : RingBuff) (len : Nat) :
    (ring.pop len).1 = ring.contents.take len ∧
      (ring.pop len).2.contents = ring.contents.drop len ∧
      (ring.pop len).2.size = ring.size := by
  induction len generalizing ring with
  | zero => exact ⟨by rw [pop, List.take_zero], by rw [pop, List.drop_zero], rfl⟩
  | succ len ih =>
    by_cases empty : ring.writepoint = ring.readpoint
    · have none : ring.contents = [] := by
        rw [contents, empty, circleContents_self]
      rw [pop, if_pos empty, none, List.take_nil, List.drop_nil]
      exact ⟨rfl, rfl, rfl⟩
    · have first : ring.contents =
          ring.skip.buffer ring.skip.readpoint :: ring.skip.contents := by
        rw [contents, circleContents_read ring.buffer ring.readpoint_lt ring.writepoint_lt empty,
          ← skip_readpoint]
        rfl
      obtain ⟨taken, left, size⟩ := ih ring.skip
      rw [pop, if_neg empty, first, List.take_succ_cons, List.drop_succ_cons]
      exact ⟨congrArg _ taken, left, size⟩

end RingBuff

end QcloudIot.Utils
