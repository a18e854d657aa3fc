import QcloudIot.Utils.Md5

/-!
# What the incremental digest computes

A context that has been fed with some data holds the state behind the whole blocks of them and
the rest in its buffer, however the data were divided. Finishing feeds the padding, so that the
context afterwards holds the padded data.
-/

namespace QcloudIot.Md5

/-! ## The digest of a message -/

/-- What MD5 appends to a message of `n` bytes: a one bit, zeros, and the number of bits. -/
def padding (n : Nat) : List UInt8 :=
  iotMd5Padding.take (if n % 64 < 56 then 56 - n % 64 else 120 - n % 64) ++
    (putUint32Le (UInt32.ofNat (8 * n)) ++ putUint32Le (UInt32.ofNat (8 * n / 2 ^ 32)))

def padded (message : List UInt8) : List UInt8 := message ++ padding message.length

/-- The bytes of the state behind the last block. -/
def State.bytes (state : State) : List UInt8 :=
  putUint32Le state.a ++ putUint32Le state.b ++ putUint32Le state.c ++ putUint32Le state.d

/-- The state behind the whole blocks of a message. -/
def stateOf (message : List UInt8) : State :=
  absorb utilsMd5Process 64 utilsMd5Starts.state message

/-- The digest of a message. -/
def md5 (message : List UInt8) : List UInt8 := (stateOf (padded message)).bytes

theorem length_padding (n : Nat) : (padding n).length =
    (if n % 64 < 56 then 56 - n % 64 else 120 - n % 64) + 8 := by
  rw [padding, List.length_append, List.length_take]
  show min _ 64 + 8 = _
  split_ifs <;> omega

theorem length_padded (message : List UInt8) : (padded message).length % 64 = 0 := by
  rw [padded, List.length_append, length_padding]
  split_ifs <;> omega

/-! ## Contexts -/

/-- The context has been fed with the data. -/
structure Context.Holds (ctx : Context) (data : List UInt8) : Prop where
  total : ctx.totalLow.toNat + 2 ^ 32 * ctx.totalHigh.toNat = data.length % 2 ^ 64
  state : ctx.state = stateOf data
  buffer : ctx.buffer.take (data.length % 64) = remainder 64 data
  room : ctx.buffer.length = 64

theorem utilsMd5Starts_holds : utilsMd5Starts.Holds [] where
  total := rfl
  state := rfl
  buffer := rfl
  room := rfl

theorem mask_toNat (n : UInt32) : (n &&& 0x3F).toNat = n.toNat % 64 := by
  rw [UInt32.toNat_and]
  exact Nat.and_two_pow_sub_one_eq_mod n.toNat 6

/-- The number of bytes in the buffer. -/
theorem Context.Holds.left {ctx : Context} {data : List UInt8} (holds : ctx.Holds data) :
    (ctx.totalLow &&& 0x3F).toNat = data.length % 64 := by
  have total := holds.total
  rw [mask_toNat]
  omega

/-- The byte counter. -/
theorem Context.Holds.total_update {ctx : Context} {data input : List UInt8}
    (holds : ctx.Holds data) (short : input.length < 2 ^ 32) :
    (ctx.totalLow + UInt32.ofNat input.length).toNat + 2 ^ 32 *
        (if ctx.totalLow + UInt32.ofNat input.length < UInt32.ofNat input.length then
          ctx.totalHigh + 1 else ctx.totalHigh).toNat = (data ++ input).length % 2 ^ 64 := by
  have total := holds.total
  have low := ctx.totalLow.toNat_lt
  have high := ctx.totalHigh.toNat_lt
  have ilen : (UInt32.ofNat input.length).toNat = input.length := by
    rw [UInt32.toNat_ofNat']
    exact Nat.mod_eq_of_lt short
  have sum : (ctx.totalLow + UInt32.ofNat input.length).toNat =
      (ctx.totalLow.toNat + input.length) % 2 ^ 32 := by
    rw [UInt32.toNat_add, ilen]
  rw [List.length_append]
  by_cases carry : ctx.totalLow + UInt32.ofNat input.length < UInt32.ofNat input.length
  · have next : (ctx.totalHigh + 1).toNat = (ctx.totalHigh.toNat + 1) % 2 ^ 32 := UInt32.toNat_add _ _
    have below := UInt32.lt_iff_toNat_lt.mp carry
    rw [sum, ilen] at below
    rw [if_pos carry, sum, next]
    omega
  · have above : ¬ (ctx.totalLow.toNat + input.length) % 2 ^ 32 < input.length := by
      intro below
      refine carry (UInt32.lt_iff_toNat_lt.mpr ?_)
      rw [sum, ilen]
      exact below
    rw [if_neg carry, sum]
    omega

theorem remainder_append (front back : List UInt8) :
    remainder 64 (front ++ back) = remainder 64 (remainder 64 front ++ back) :=
  (absorb_append utilsMd5Process (by decide) utilsMd5Starts.state front back).2

theorem stateOf_append (front back : List UInt8) :
    stateOf (front ++ back) =
      absorb utilsMd5Process 64 (stateOf front) (remainder 64 front ++ back) :=
  (absorb_append utilsMd5Process (by decide) utilsMd5Starts.state front back).1

/-- What has been fed does not depend on how it was divided. -/
theorem Context.Holds.update {ctx : Context} {data : List UInt8} (holds : ctx.Holds data)
    {input : List UInt8} (short : input.length < 2 ^ 32) :
    (utilsMd5Update ctx input).Holds (data ++ input) := by
  by_cases empty : input.length = 0
  · have none : input = [] := List.eq_nil_of_length_eq_zero empty
    rw [utilsMd5Update, if_pos empty, none, List.append_nil]
    exact holds
  have total := holds.total_update short
  have buffered : (remainder 64 data).length = data.length % 64 := length_remainder data
  have room := holds.room
  rw [utilsMd5Update, if_neg empty]
  simp only [holds.left]
  by_cases fills : data.length % 64 ≠ 0 ∧ input.length ≥ 64 - data.length % 64
  · -- the buffer is filled up to a block
    have piece : (input.take (64 - data.length % 64)).length = 64 - data.length % 64 := by
      rw [List.length_take]
      omega
    have block : overwrite ctx.buffer (data.length % 64)
        (input.take (64 - data.length % 64)) =
          remainder 64 data ++ input.take (64 - data.length % 64) := by
      have front := @take_overwrite _ ctx.buffer (data.length % 64)
        (input.take (64 - data.length % 64)) (by omega)
      have whole := @length_overwrite _ ctx.buffer (data.length % 64) (by omega)
        (input.take (64 - data.length % 64))
      rw [List.take_of_length_le (by omega), holds.buffer] at front
      exact front
    have split : remainder 64 data ++ input = overwrite ctx.buffer (data.length % 64)
        (input.take (64 - data.length % 64)) ++ input.drop (64 - data.length % 64) := by
      rw [block, List.append_assoc, List.take_append_drop]
    have size : (overwrite ctx.buffer (data.length % 64)
        (input.take (64 - data.length % 64))).length = 64 := by
      rw [length_overwrite (by omega), room]
    have rest : (input.drop (64 - data.length % 64)).length % 64 =
        (data ++ input).length % 64 := by
      rw [List.length_drop, List.length_append]
      omega
    simp only [if_pos fills]
    refine ⟨total, ?_, ?_, ?_⟩
    · show absorb utilsMd5Process 64 _ _ = _
      rw [stateOf_append, split, absorb_block utilsMd5Process (by decide) size, holds.state]
    · show (overwrite _ 0 (remainder 64 (input.drop (64 - data.length % 64)))).take _ = _
      have kept := @length_remainder _ 64 (input.drop (64 - data.length % 64))
      rw [remainder_append, split, remainder_block (by decide) size, ← rest, ← kept]
      have front := @take_overwrite _ (overwrite ctx.buffer (data.length % 64)
        (input.take (64 - data.length % 64))) 0
        (remainder 64 (input.drop (64 - data.length % 64))) (by omega)
      rw [Nat.zero_add, List.take_zero, List.nil_append] at front
      exact front
    · show (overwrite _ 0 _).length = 64
      rw [length_overwrite (Nat.zero_le _), size]
  · simp only [if_neg fills]
    by_cases aligned : data.length % 64 = 0
    · -- the buffer is empty
      have none : remainder 64 data = [] := remainder_whole aligned
      have rest : input.length % 64 = (data ++ input).length % 64 := by
        rw [List.length_append]
        omega
      rw [aligned]
      refine ⟨total, ?_, ?_, ?_⟩
      · show absorb utilsMd5Process 64 _ _ = _
        rw [stateOf_append, none, List.nil_append, holds.state]
      · show (overwrite _ 0 (remainder 64 input)).take _ = _
        have kept := @length_remainder _ 64 input
        have front := @take_overwrite _ ctx.buffer 0 (remainder 64 input) (by omega)
        rw [Nat.zero_add, List.take_zero, List.nil_append] at front
        rw [remainder_append, none, List.nil_append, ← rest, ← kept]
        exact front
      · show (overwrite _ 0 _).length = 64
        rw [length_overwrite (Nat.zero_le _), room]
    · -- the input does not fill the buffer
      have few : input.length < 64 - data.length % 64 := by omega
      have sum : (remainder 64 data ++ input).length < 64 := by
        rw [List.length_append]
        omega
      have less : input.length < 64 := by omega
      have all : input.drop (input.length / 64 * 64) = input := by
        rw [Nat.div_eq_of_lt less, Nat.zero_mul, List.drop_zero]
      have place : (data ++ input).length % 64 = data.length % 64 + input.length := by
        rw [List.length_append]
        omega
      rw [all]
      refine ⟨total, ?_, ?_, ?_⟩
      · show absorb utilsMd5Process 64 _ _ = _
        rw [absorb_short utilsMd5Process less, stateOf_append,
          absorb_short utilsMd5Process sum, holds.state]
      · show (overwrite _ _ input).take _ = _
        rw [place, take_overwrite (by omega), holds.buffer, remainder_append,
          remainder_short sum]
      · show (overwrite _ _ input).length = 64
        rw [length_overwrite (by omega), room]

/-! ## Finishing -/

/-- The bits counted by the context. -/
theorem Context.Holds.bits {ctx : Context} {data : List UInt8} (holds : ctx.Holds data) :
    ctx.totalLow <<< (3 : UInt32) = UInt32.ofNat (8 * data.length) ∧
      (ctx.totalLow >>> (29 : UInt32)) ||| (ctx.totalHigh <<< (3 : UInt32)) =
        UInt32.ofNat (8 * data.length / 2 ^ 32) := by
  have total := holds.total
  have low := ctx.totalLow.toNat_lt
  have high := ctx.totalHigh.toNat_lt
  constructor
  · apply UInt32.toNat_inj.mp
    rw [UInt32.toNat_shiftLeft, UInt32.toNat_ofNat']
    show ctx.totalLow.toNat <<< 3 % 2 ^ 32 = _
    rw [Nat.shiftLeft_eq]
    omega
  · apply UInt32.toNat_inj.mp
    rw [UInt32.toNat_or, UInt32.toNat_shiftRight, UInt32.toNat_shiftLeft, UInt32.toNat_ofNat']
    show ctx.totalLow.toNat >>> 29 ||| (ctx.totalHigh.toNat <<< 3 % 2 ^ 32) = _
    have small : ctx.totalLow.toNat >>> 29 < 2 ^ 3 := by
      rw [Nat.shiftRight_eq_div_pow]
      omega
    have shifted : ctx.totalHigh.toNat <<< 3 % 2 ^ 32 = (ctx.totalHigh.toNat % 2 ^ 29) <<< 3 := by
      rw [Nat.shiftLeft_eq, Nat.shiftLeft_eq]
      omega
    rw [shifted, Nat.or_comm, ← Nat.shiftLeft_add_eq_or_of_lt small, Nat.shiftLeft_eq,
      Nat.shiftRight_eq_div_pow]
    omega

/-- Finishing returns the digest of the data, and leaves a context fed with the padded data. -/
theorem Context.Holds.finish {ctx : Context} {data : List UInt8} (holds : ctx.Holds data) :
    (utilsMd5Finish ctx).2 = md5 data ∧ (utilsMd5Finish ctx).1.Holds (padded data) := by
  obtain ⟨low, high⟩ := holds.bits
  have zeros : ∀ n, (iotMd5Padding.take n).length < 2 ^ 32 := by
    intro n
    rw [List.length_take]
    exact lt_of_le_of_lt (min_le_right _ _) (show 64 < 2 ^ 32 by decide)
  have fed : (utilsMd5Finish ctx).1.Holds (padded data) := by
    rw [utilsMd5Finish, holds.left, low, high]
    have first := holds.update (zeros (if data.length % 64 < 56 then 56 - data.length % 64
      else 120 - data.length % 64))
    have second := @Context.Holds.update _ _ first (putUint32Le (UInt32.ofNat (8 * data.length)) ++
      putUint32Le (UInt32.ofNat (8 * data.length / 2 ^ 32))) (show 8 < 2 ^ 32 by decide)
    rw [List.append_assoc] at second
    exact second
  refine ⟨?_, fed⟩
  show (utilsMd5Finish ctx).1.state.bytes = md5 data
  rw [fed.state, md5]

/-- The data padded `n` times. -/
def paddedTimes (n : Nat) (data : List UInt8) : List UInt8 := padded^[n] data

end QcloudIot.Md5
