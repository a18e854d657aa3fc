import QcloudIot.Mqtt.Proofs.PublishParser
import QcloudIot.Mqtt.Proofs.Serializers

/-!
# The remaining length

Both decoders of the remaining length, the one that reads a buffer and the one that reads the
network, follow the same numbers to the base 128, and reject the same bytes.
-/

namespace QcloudIot.Mqtt

/-! ## A network that delivers -/

/-- Every byte that is asked for and has been sent arrives: there is a read for each byte left, and
    none of them gives up early. -/
structure World.Delivers (w : World) : Prop where
  enough : w.net.rx.length ≤ w.env.reads.length
  whole : ∀ outcome ∈ w.env.reads, w.net.rx.length ≤ outcome.avail

/-- Bytes have been consumed from a network that goes on to deliver. -/
structure World.Advances (w w' : World) (n : Nat) : Prop where
  client : w'.client = w.client
  net : w'.net = { w.net with consumed := w.net.consumed + n }
  delivers : w'.Delivers

theorem World.Advances.rx {w w' : World} {n : Nat} (advances : w.Advances w' n) :
    w'.net.rx = w.net.rx.drop n := by
  rw [advances.net, Net.rx, Net.rx, List.drop_drop]

theorem World.Delivers.advances {w : World} (delivers : w.Delivers) : w.Advances w 0 :=
  ⟨rfl, rfl, delivers⟩

theorem World.Advances.trans {w w' w'' : World} {n n' : Nat} (first : w.Advances w' n)
    (second : w'.Advances w'' n') : w.Advances w'' (n + n') := by
  refine ⟨second.client.trans first.client, ?_, second.delivers⟩
  rw [second.net, first.net, Nat.add_assoc]

/-- A read that asks for bytes that have been sent. -/
theorem networkRead_delivers {w : World} {len : Nat} (delivers : w.Delivers) (positive : 0 < len)
    (sent : len ≤ w.net.rx.length) :
    (networkRead len).wp (fun (rc, data) w' => rc = qcloudRetSuccess ∧
      data = w.net.rx.take len ∧ w.Advances w' len) w := by
  obtain ⟨enough, whole⟩ := delivers
  cases reads : w.env.reads with
  | nil =>
    rw [reads, List.length_nil] at enough
    omega
  | cons outcome later =>
    rw [reads] at enough whole
    have avail := whole outcome List.mem_cons_self
    have asked : min outcome.avail len = len := by omega
    have got : (w.net.rx.take len).length = len := by
      rw [List.length_take]
      omega
    have rest : ({ w.net with consumed := w.net.consumed + len } : Net).rx = w.net.rx.drop len := by
      rw [Net.rx, Net.rx, List.drop_drop]
    unfold networkRead
    rw [Prog.wp_prim, reads, List.headD_cons]
    dsimp only
    rw [asked, got, if_pos rfl, List.tail_cons]
    refine ⟨rfl, rfl, rfl, rfl, ?_, ?_⟩
    · change List.length (Net.rx _) ≤ later.length
      rw [rest, List.length_drop]
      rw [List.length_cons] at enough
      omega
    · intro outcome' mem
      have before := whole outcome' (List.mem_cons_of_mem _ mem)
      change List.length (Net.rx _) ≤ outcome'.avail
      rw [rest, List.length_drop]
      omega

/-! ## Digits -/

theorem inner_bits : ∀ b : UInt8, 128 ≤ b.toNat →
    (b &&& 127).toNat = b.toNat % 128 ∧ b &&& 128 ≠ 0 := by
  decide +kernel

theorem last_bits : ∀ b : UInt8, b.toNat < 128 →
    (b &&& 127).toNat = b.toNat % 128 ∧ b &&& 128 = 0 := by
  decide +kernel

/-- A field is a last digit, or a digit in front of a field. -/
theorem isField_cons {digit : UInt8} {digits : List UInt8} (isField : IsField (digit :: digits)) :
    (digit.toNat < 128 ∧ digits = []) ∨ (128 ≤ digit.toNat ∧ IsField digits) := by
  cases digits with
  | nil => exact .inl ⟨isField, rfl⟩
  | cons next digits => exact .inr isField

theorem fieldValue_last {digit : UInt8} (last : digit.toNat < 128) :
    fieldValue [digit] = digit.toNat := by
  rw [fieldValue, fieldValue, Nat.mod_eq_of_lt last]
  omega

/-- Bytes of which there are enough begin with a field, or with bytes that all go on. -/
theorem isField_or_goesOn (bytes : List UInt8) (count : Nat) (long : count ≤ bytes.length) :
    (∃ digits tail, bytes = digits ++ tail ∧ IsField digits ∧ digits.length ≤ count) ∨
      ∀ b ∈ bytes.take count, 128 ≤ b.toNat := by
  induction count generalizing bytes with
  | zero => exact .inr fun b mem => absurd mem List.not_mem_nil
  | succ count ih =>
    cases bytes with
    | nil => exact absurd long (Nat.not_succ_le_zero _)
    | cons b bytes =>
      rw [List.length_cons] at long
      by_cases last : b.toNat < 128
      · exact .inl ⟨[b], bytes, rfl, last, by rw [List.length_singleton]; omega⟩
      · rcases ih bytes (by omega) with ⟨digits, tail, rfl, isField, short⟩ | goesOn
        · refine .inl ⟨b :: digits, tail, rfl, isField.cons (Nat.not_lt.mp last), ?_⟩
          rw [List.length_cons]
          omega
        · refine .inr fun b' mem => ?_
          rw [List.take_succ_cons] at mem
          rcases List.mem_cons.mp mem with rfl | mem
          · exact Nat.not_lt.mp last
          · exact goesOn b' mem

/-! ## The decoder of the buffer -/

/-- The digits of a field are read, whatever is behind them. Induction on the digits. -/
theorem remLenFromBuf_field {digits : List UInt8} (tail : List UInt8) {before : List UInt8}
    {fuel multiplier value : Nat} (isField : IsField digits) (short : digits.length ≤ fuel)
    (bound : fuel ≤ maxNoOfRemainingLengthBytes) :
    remLenFromBuf (before ++ digits ++ tail) fuel before.length multiplier value =
      .ok (value + fieldValue digits * multiplier,
        maxNoOfRemainingLengthBytes - fuel + digits.length) := by
  induction digits generalizing before fuel multiplier value with
  | nil => exact absurd isField id
  | cons digit digits ih =>
    rw [List.length_cons] at short
    obtain ⟨fuel, rfl⟩ := Nat.exists_eq_succ_of_ne_zero (show fuel ≠ 0 by omega)
    have here : (before ++ digit :: digits ++ tail).getD before.length 0 = digit := by
      rw [List.append_assoc]
      exact getD_append_length _ _ _
    rw [remLenFromBuf, here]
    rcases isField_cons isField with ⟨last, rfl⟩ | ⟨inner, isField⟩
    · obtain ⟨low, high⟩ := last_bits digit last
      rw [if_neg (not_not.mpr high), low, fieldValue_last last, Nat.mod_eq_of_lt last,
        List.length_singleton]
      congr 2
      omega
    · obtain ⟨low, high⟩ := inner_bits digit inner
      have rest := @ih (before ++ [digit]) fuel (multiplier * 128)
        (value + digit.toNat % 128 * multiplier) isField (by omega) (by omega)
      rw [List.length_append, List.length_singleton, List.append_assoc, List.append_assoc] at rest
      rw [if_pos high, low, List.append_assoc]
      refine rest.trans ?_
      have sum : value + digit.toNat % 128 * multiplier + fieldValue digits * (multiplier * 128) =
          value + fieldValue (digit :: digits) * multiplier := by
        rw [fieldValue]
        ring
      rw [sum, List.length_cons]
      congr 2
      omega

/-- Bytes that all go on are rejected. -/
theorem remLenFromBuf_goesOn {bytes : List UInt8} {before : List UInt8}
    {fuel multiplier value : Nat} (long : fuel ≤ bytes.length)
    (goesOn : ∀ b ∈ bytes.take fuel, 128 ≤ b.toNat) :
    remLenFromBuf (before ++ bytes) fuel before.length multiplier value =
      .error qcloudErrMqttPacketRead := by
  induction fuel generalizing bytes before multiplier value with
  | zero => rfl
  | succ fuel ih =>
    cases bytes with
    | nil => exact absurd long (Nat.not_succ_le_zero _)
    | cons b bytes =>
      rw [List.length_cons] at long
      rw [List.take_succ_cons] at goesOn
      obtain ⟨_, high⟩ := inner_bits b (goesOn b List.mem_cons_self)
      have rest := @ih bytes (before ++ [b]) (multiplier * 128)
        (value + (b &&& 127).toNat * multiplier) (by omega)
        fun b' mem => goesOn b' (List.mem_cons_of_mem _ mem)
      rw [List.length_append, List.length_singleton, List.append_assoc,
        List.singleton_append] at rest
      rw [remLenFromBuf, getD_append_length]
      rw [if_pos high]
      exact rest

/-! ## The decoder of the network -/

/-- The digits of a field are consumed. Induction on the digits. -/
theorem remLenFromNet_field {digits tail : List UInt8} {w : World} {fuel multiplier value : Nat}
    (delivers : w.Delivers) (sent : w.net.rx = digits ++ tail) (isField : IsField digits)
    (short : digits.length ≤ fuel) :
    (remLenFromNet fuel multiplier value).wp (fun (rc, v) w' => rc = qcloudRetSuccess ∧
      v = value + fieldValue digits * multiplier ∧ w.Advances w' digits.length) w := by
  induction digits generalizing w fuel multiplier value with
  | nil => exact absurd isField id
  | cons digit digits ih =>
    rw [List.length_cons] at short
    obtain ⟨fuel, rfl⟩ := Nat.exists_eq_succ_of_ne_zero (show fuel ≠ 0 by omega)
    have there : 1 ≤ w.net.rx.length := by
      rw [sent, List.length_append, List.length_cons]
      omega
    rw [remLenFromNet, Prog.wp_bind]
    refine Prog.wp_mono (networkRead_delivers delivers Nat.one_pos there) ?_
    rintro ⟨rc, data⟩ w' ⟨rfl, rfl, advances⟩
    have first : (w.net.rx.take 1).headD 0 = digit := by
      rw [sent]
      rfl
    have behind : w'.net.rx = digits ++ tail := by
      rw [advances.rx, sent]
      rfl
    dsimp only
    rw [if_neg (not_not.mpr rfl), first]
    rcases isField_cons isField with ⟨last, rfl⟩ | ⟨inner, isField⟩
    · obtain ⟨low, high⟩ := last_bits digit last
      rw [if_neg (not_not.mpr high), low, fieldValue_last last, Nat.mod_eq_of_lt last]
      exact ⟨rfl, rfl, advances⟩
    · obtain ⟨low, high⟩ := inner_bits digit inner
      rw [if_pos high, low]
      refine Prog.wp_mono (ih advances.delivers behind isField (by omega)) ?_
      rintro ⟨rc, v⟩ w'' ⟨success, isValue, rest⟩
      refine ⟨success, ?_, ?_⟩
      · rw [isValue, fieldValue]
        ring
      · rw [List.length_cons, Nat.add_comm]
        exact advances.trans rest

/-- Bytes that all go on are consumed and rejected. -/
theorem remLenFromNet_goesOn {bytes : List UInt8} {w : World} {fuel multiplier value : Nat}
    (delivers : w.Delivers) (sent : w.net.rx = bytes) (long : fuel ≤ bytes.length)
    (goesOn : ∀ b ∈ bytes.take fuel, 128 ≤ b.toNat) :
    (remLenFromNet fuel multiplier value).wp (fun (rc, _) w' => rc = qcloudErrMqttPacketRead ∧
      w.Advances w' fuel) w := by
  induction fuel generalizing bytes w multiplier value with
  | zero => exact ⟨rfl, delivers.advances⟩
  | succ fuel ih =>
    cases bytes with
    | nil => exact absurd long (Nat.not_succ_le_zero _)
    | cons b bytes =>
      have there : 1 ≤ w.net.rx.length := by
        rw [sent, List.length_cons]
        omega
      rw [List.length_cons] at long
      rw [List.take_succ_cons] at goesOn
      rw [remLenFromNet, Prog.wp_bind]
      refine Prog.wp_mono (networkRead_delivers delivers Nat.one_pos there) ?_
      rintro ⟨rc, data⟩ w' ⟨rfl, rfl, advances⟩
      have first : (w.net.rx.take 1).headD 0 = b := by
        rw [sent]
        rfl
      have behind : w'.net.rx = bytes := by
        rw [advances.rx, sent]
        rfl
      obtain ⟨_, high⟩ := inner_bits b (goesOn b List.mem_cons_self)
      dsimp only
      rw [if_neg (not_not.mpr rfl), first, if_pos high]
      refine Prog.wp_mono (ih advances.delivers behind (by omega)
        fun b' mem => goesOn b' (List.mem_cons_of_mem _ mem)) ?_
      rintro ⟨rc, v⟩ w'' ⟨rejected, rest⟩
      refine ⟨rejected, ?_⟩
      rw [Nat.add_comm]
      exact advances.trans rest

/-! ## The encoder -/

/-- As many digits as were read are enough for the number that is accepted. -/
theorem remLenFromBuf_bound {buf : List UInt8} {fuel ptr multiplier value v count : Nat}
    (bound : fuel ≤ maxNoOfRemainingLengthBytes)
    (accepted : remLenFromBuf buf fuel ptr multiplier value = .ok (v, count)) :
    ∃ k, count = maxNoOfRemainingLengthBytes - fuel + k ∧ 1 ≤ k ∧
      v + multiplier ≤ value + multiplier * 128 ^ k := by
  induction fuel generalizing ptr multiplier value with
  | zero => cases accepted
  | succ fuel ih =>
    have digit : (buf.getD ptr 0 &&& 127).toNat ≤ 127 := by
      rw [UInt8.toNat_and]
      exact Nat.and_le_right
    have low : (buf.getD ptr 0 &&& 127).toNat * multiplier ≤ 127 * multiplier :=
      Nat.mul_le_mul_right _ digit
    rw [remLenFromBuf] at accepted
    split at accepted
    · obtain ⟨k, isCount, _, below⟩ := ih (by omega) accepted
      have power : multiplier * 128 * 128 ^ k = multiplier * 128 ^ (k + 1) := by ring
      refine ⟨k + 1, by omega, by omega, ?_⟩
      rw [power] at below
      omega
    · cases accepted
      refine ⟨1, by omega, Nat.le_refl _, ?_⟩
      rw [pow_one]
      omega

/-- No digits that are accepted as the number are fewer than those that are written. -/
theorem mqttWritePacketRemLen_fewest {buf : List UInt8} {ptr n count : Nat}
    (accepted : mqttReadPacketRemLenFormBuf buf ptr = .ok (n, count)) :
    (mqttWritePacketRemLen n).length ≤ count := by
  obtain ⟨k, isCount, positive, below⟩ := remLenFromBuf_bound (Nat.le_refl _) accepted
  rw [length_mqttWritePacketRemLen, isCount]
  have enough (j : Nat) (few : k ≤ j) : n < 128 ^ j := by
    have power := Nat.pow_le_pow_right (show 0 < 128 by decide) few
    omega
  have one := enough 1
  have two := enough 2
  have three := enough 3
  have four := enough 4
  have some : n < 128 ^ k := enough k (Nat.le_refl _)
  split
  · omega
  · split
    · omega
    · split
      · omega
      · split
        · omega
        · omega

theorem mqttWritePacketRemLen_field {n : Nat} (small : n ≤ 268435455) :
    IsField (mqttWritePacketRemLen n) ∧ fieldValue (mqttWritePacketRemLen n) = n ∧
      1 ≤ (mqttWritePacketRemLen n).length ∧ (mqttWritePacketRemLen n).length ≤ 4 := by
  have fits : n < 128 ^ (4 + 1) := by
    have : 268435455 < 128 ^ (4 + 1) := by decide
    omega
  obtain ⟨isField, isValue⟩ := remLenDigits_field 4 n fits
  refine ⟨isField, isValue, ?_, ?_⟩
  · rw [length_mqttWritePacketRemLen]
    split_ifs <;> omega
  · rw [length_mqttWritePacketRemLen]
    split_ifs <;> omega

/-! ## Both decoders -/

/-- A decoder finds the last digit, or one digit too many. -/
def Decides (bytes : List UInt8) : Prop :=
  maxNoOfRemainingLengthBytes ≤ bytes.length ∨ ∃ b ∈ bytes, b.toNat < 128

theorem Decides.cases {bytes : List UInt8} (decides : Decides bytes) :
    (∃ digits tail, bytes = digits ++ tail ∧ IsField digits ∧
      digits.length ≤ maxNoOfRemainingLengthBytes) ∨
      (maxNoOfRemainingLengthBytes ≤ bytes.length ∧
        ∀ b ∈ bytes.take maxNoOfRemainingLengthBytes, 128 ≤ b.toNat) := by
  by_cases long : maxNoOfRemainingLengthBytes ≤ bytes.length
  · rcases isField_or_goesOn bytes _ long with found | goesOn
    · exact .inl found
    · exact .inr ⟨long, goesOn⟩
  · rcases isField_or_goesOn bytes _ (Nat.le_refl _) with found | goesOn
    · obtain ⟨digits, tail, isBytes, isField, short⟩ := found
      exact .inl ⟨digits, tail, isBytes, isField, by omega⟩
    · obtain ⟨b, mem, last⟩ := decides.resolve_left long
      rw [List.take_length] at goesOn
      exact absurd (goesOn b mem) (by omega)

/-- The decoder of the network accepts a number and consumes as many bytes. -/
def NetReads (w : World) (value count : Nat) : Prop :=
  decodePacketRemLenWithNetRead.wp (fun (rc, v) w' => rc = qcloudRetSuccess ∧ v = value ∧
    w'.net.consumed = w.net.consumed + count) w

/-- The decoder of the network rejects what it reads. -/
def NetRejects (w : World) : Prop :=
  decodePacketRemLenWithNetRead.wp (fun (rc, _) w' => rc ≠ qcloudRetSuccess ∧
    w'.net.consumed = w.net.consumed + maxNoOfRemainingLengthBytes) w

theorem decoders_field {w : World} {digits tail : List UInt8} (before : List UInt8)
    (delivers : w.Delivers) (sent : w.net.rx = digits ++ tail) (isField : IsField digits)
    (short : digits.length ≤ maxNoOfRemainingLengthBytes) :
    mqttReadPacketRemLenFormBuf (before ++ (digits ++ tail)) before.length =
        .ok (fieldValue digits, digits.length) ∧
      NetReads w (fieldValue digits) digits.length := by
  have fromBuf := @remLenFromBuf_field digits tail before _ 1 0 isField short (Nat.le_refl _)
  rw [Nat.mul_one, Nat.zero_add, Nat.sub_self, Nat.zero_add, List.append_assoc] at fromBuf
  refine ⟨fromBuf, ?_⟩
  have fromNet := @remLenFromNet_field digits tail w _ 1 0 delivers sent isField short
  refine Prog.wp_mono fromNet ?_
  rintro ⟨rc, v⟩ w' ⟨success, isValue, advances⟩
  rw [Nat.mul_one, Nat.zero_add] at isValue
  refine ⟨success, isValue, ?_⟩
  rw [advances.net]

theorem decoders_goesOn {w : World} {bytes : List UInt8} (before : List UInt8)
    (delivers : w.Delivers) (sent : w.net.rx = bytes)
    (long : maxNoOfRemainingLengthBytes ≤ bytes.length)
    (goesOn : ∀ b ∈ bytes.take maxNoOfRemainingLengthBytes, 128 ≤ b.toNat) :
    mqttReadPacketRemLenFormBuf (before ++ bytes) before.length =
      .error qcloudErrMqttPacketRead ∧ NetRejects w := by
  refine ⟨remLenFromBuf_goesOn long goesOn, ?_⟩
  refine Prog.wp_mono (remLenFromNet_goesOn delivers sent long goesOn) ?_
  rintro ⟨rc, v⟩ w' ⟨rejected, advances⟩
  refine ⟨?_, ?_⟩
  · rw [rejected]
    decide
  · rw [advances.net]

/-- What `mqtt_write_packet_rem_len` writes is as short as can be and read back by both decoders,
    and both agree on every other sequence of bytes. -/
theorem remainingLength_codec (w : World) (before : List UInt8) (delivers : w.Delivers) :
    (∀ n ≤ 268435455,
      1 ≤ (mqttWritePacketRemLen n).length ∧ (mqttWritePacketRemLen n).length ≤ 4 ∧
      (∀ buf ptr count, mqttReadPacketRemLenFormBuf buf ptr = .ok (n, count) →
        (mqttWritePacketRemLen n).length ≤ count) ∧
      ∀ tail, w.net.rx = mqttWritePacketRemLen n ++ tail →
        mqttReadPacketRemLenFormBuf (before ++ (mqttWritePacketRemLen n ++ tail)) before.length =
            .ok (n, (mqttWritePacketRemLen n).length) ∧
          NetReads w n (mqttWritePacketRemLen n).length) ∧
    ∀ bytes, w.net.rx = bytes → Decides bytes →
      (match mqttReadPacketRemLenFormBuf (before ++ bytes) before.length with
        | .ok (value, count) => NetReads w value count
        | .error _ => NetRejects w) ∧
      (maxNoOfRemainingLengthBytes ≤ bytes.length →
        (∀ b ∈ bytes.take maxNoOfRemainingLengthBytes, 128 ≤ b.toNat) →
        mqttReadPacketRemLenFormBuf (before ++ bytes) before.length =
          .error qcloudErrMqttPacketRead ∧ NetRejects w) := by
  refine ⟨?_, ?_⟩
  · intro n small
    obtain ⟨isField, isValue, positive, short⟩ := mqttWritePacketRemLen_field small
    refine ⟨positive, short, fun _ _ _ => mqttWritePacketRemLen_fewest, ?_⟩
    intro tail sent
    have both := decoders_field before delivers sent isField short
    rw [isValue] at both
    exact both
  · intro bytes sent decides
    refine ⟨?_, decoders_goesOn before delivers sent⟩
    rcases decides.cases with ⟨digits, tail, rfl, isField, short⟩ | ⟨long, goesOn⟩
    · obtain ⟨fromBuf, fromNet⟩ := decoders_field before delivers sent isField short
      rw [fromBuf]
      exact fromNet
    · obtain ⟨fromBuf, fromNet⟩ := decoders_goesOn before delivers sent long goesOn
      rw [fromBuf]
      exact fromNet

/-! ## A number of two digits -/

/-- A new client with a connection on which bytes have been sent, all of which arrive. -/
def World.sentTo (stream : List UInt8) : World :=
  { World.initial
      (qcloudIotMqttInit ⟨⟨[], CStr.noNul_nil⟩, 2000, 60000, 1, 1, none⟩ 0)
      { Env.exhausted with
        reads := List.replicate stream.length
          { avail := stream.length, err := qcloudErrTcpReadFail,
            negative := qcloudErrTcpReadFail_negative, driver := qcloudErrTcpReadFail_driver } } with
    net := { conn := 1, handle := true, stream := stream, consumed := 0, tx := [] } }

theorem World.sentTo_delivers (stream : List UInt8) : (World.sentTo stream).Delivers where
  enough := by
    change stream.length ≤ (List.replicate stream.length _).length
    rw [List.length_replicate]
  whole := by
    intro outcome mem
    change outcome ∈ List.replicate stream.length _ at mem
    rw [List.eq_of_mem_replicate mem]
    exact Nat.le_refl _

theorem remainingLength_codec_321 :
    mqttReadPacketRemLenFormBuf [0x30, 0xC1, 0x02, 0x07] 1 = .ok (321, 2) ∧
      NetReads (.sentTo [0xC1, 0x02, 0x07]) 321 2 :=
  ((remainingLength_codec (.sentTo [0xC1, 0x02, 0x07]) [0x30] (World.sentTo_delivers _)).1 321
    (by decide)).2.2.2 [0x07] rfl

end QcloudIot.Mqtt
