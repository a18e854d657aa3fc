import QcloudIot.Mqtt.Proofs.PublishParser

/-!
# The round trip of a PUBLISH packet

What `_serialize_publish_packet` writes is read back by `deserialize_publish_packet` as it
was: the bits of the fixed header, the topic, the packet id and the payload.
-/

namespace QcloudIot.Mqtt

/-! ## Reading behind a prefix -/

theorem getD_behind (front rest : List UInt8) (i : Nat) :
    (front ++ rest).getD (front.length + i) 0 = rest.getD i 0 := by
  rw [List.getD_append_right _ _ _ _ (Nat.le_add_right _ _), Nat.add_sub_cancel_left]

/-- A 16-bit number is read as it was written. -/
theorem mqttReadUint16_written (front rest : List UInt8) (n : UInt16) :
    mqttReadUint16 (front ++ (mqttWriteUint16 n ++ rest)) front.length = n := by
  have first := getD_behind front (mqttWriteUint16 n ++ rest) 0
  have second := getD_behind front (mqttWriteUint16 n ++ rest) 1
  have high : (mqttWriteUint16 n ++ rest).getD 0 0 = UInt8.ofNat (n.toNat / 256) := rfl
  have low : (mqttWriteUint16 n ++ rest).getD 1 0 = UInt8.ofNat (n.toNat % 256) := rfl
  rw [Nat.add_zero] at first
  rw [mqttReadUint16, first, second, high, low]
  have bound := n.toNat_lt
  have bytes : (UInt8.ofNat (n.toNat % 256)).toNat + 256 * (UInt8.ofNat (n.toNat / 256)).toNat =
      n.toNat := by
    rw [UInt8.toNat_ofNat', UInt8.toNat_ofNat']
    omega
  rw [bytes, UInt16.ofNat_toNat]

/-- A string of at most 65535 bytes is found where it was written. -/
theorem readStringWithLen_written (front string rest : List UInt8) {enddata : Nat}
    (short : string.length ≤ qcloudIotMqttRxBufLen)
    (inside : front.length + 2 + string.length ≤ enddata) :
    readStringWithLen (front ++ (mqttWriteUtf8String string ++ rest)) front.length enddata =
      .ok (front.length + 2, string.length, front.length + 2 + string.length) := by
  have length : (UInt16.ofNat string.length).toNat = string.length := by
    rw [UInt16.toNat_ofNat']
    exact Nat.mod_eq_of_lt (lt_of_le_of_lt short (by decide))
  have announced : (mqttReadUint16 (front ++ (mqttWriteUtf8String string ++ rest))
      front.length).toNat = string.length := by
    rw [mqttWriteUtf8String, List.append_assoc, mqttReadUint16_written, length]
  rw [readStringWithLen, if_pos (by omega), announced, if_neg (Nat.not_lt.mpr short),
    if_pos inside]

/-! ## The fixed header -/

/-- The header byte of a PUBLISH. -/
def publishHeader (dup : UInt8) (qos : QoS) (retained : UInt8) : UInt8 :=
  ((MessageType.publish.code <<< (4 : UInt8)) &&& 0xF0) ||| ((dup <<< (3 : UInt8)) &&& 0x08) |||
    ((qos.code <<< (1 : UInt8)) &&& 0x06) ||| (retained &&& 0x01)

theorem bit_cases {bit : UInt8} (isBit : bit ≤ 1) : bit = 0 ∨ bit = 1 := by
  have most : bit.toNat ≤ 1 := UInt8.le_iff_toNat_le.mp isBit
  rcases Nat.le_one_iff_eq_zero_or_eq_one.mp most with zero | one
  · exact .inl (UInt8.toNat_inj.mp zero)
  · exact .inr (UInt8.toNat_inj.mp one)

/-- The bits of the fixed header are read as they were written. -/
theorem publishHeader_bits {dup retained : UInt8} (qos : QoS) (dupBit : dup ≤ 1)
    (retainedBit : retained ≤ 1) :
    headerType (publishHeader dup qos retained) = MessageType.publish.code ∧
      (publishHeader dup qos retained &&& 0x08) >>> (3 : UInt8) = dup ∧
      (publishHeader dup qos retained &&& 0x06) >>> (1 : UInt8) = qos.code ∧
      publishHeader dup qos retained &&& 0x01 = retained := by
  rcases bit_cases dupBit with rfl | rfl <;> rcases bit_cases retainedBit with rfl | rfl <;>
    cases qos <;> decide

/-! ## The packet -/

/-- The bytes behind the remaining length. -/
def publishBody (qos : QoS) (packetId : UInt16) (topicName : CStr) (payload : List UInt8) :
    List UInt8 :=
  mqttWriteUtf8String topicName.bytes ++
    ((if qos = .qos0 then [] else mqttWriteUint16 packetId) ++ payload)

/-- The remaining length, before it is cut to 32 bits. -/
def publishRemLen (qos : QoS) (topicName : CStr) (payloadLen : Nat) : Nat :=
  2 + topicName.length + payloadLen + if qos = .qos0 then 0 else 2

theorem length_mqttWriteUtf8String (string : List UInt8) :
    (mqttWriteUtf8String string).length = 2 + string.length := by
  rw [mqttWriteUtf8String, List.length_append]
  rfl

theorem length_publishBody (qos : QoS) (packetId : UInt16) (topicName : CStr)
    (payload : List UInt8) :
    (publishBody qos packetId topicName payload).length =
      publishRemLen qos topicName payload.length := by
  rw [publishBody, publishRemLen, List.length_append, List.length_append,
    length_mqttWriteUtf8String, CStr.length]
  have idLength : (if qos = .qos0 then [] else mqttWriteUint16 packetId).length =
      if qos = .qos0 then 0 else 2 := by
    split_ifs <;> rfl
  rw [idLength]
  omega

/-- The packet of a serializer that succeeds. -/
theorem serializePublishPacket_ok {bufLen : Nat} {dup retained : UInt8} {qos : QoS}
    {packetId : UInt16} {topicName : CStr} {payload bytes : List UInt8}
    (written : serializePublishPacket bufLen dup qos retained packetId topicName payload =
      .ok bytes) :
    bytes = publishHeader dup qos retained ::
      mqttWritePacketRemLen (getPublishPacketLen qos topicName payload.length) ++
        publishBody qos packetId topicName payload := by
  rw [serializePublishPacket] at written
  by_cases tooShort : getMqttPacketLen (getPublishPacketLen qos topicName payload.length) > bufLen
  · simp only [if_pos tooShort] at written
    cases written
  · simp only [if_neg tooShort] at written
    cases written
    simp only [publishBody, publishHeader, List.append_assoc, List.cons_append]

/-- The fixed header of a serialized PUBLISH, and the topic behind it, are read. -/
theorem deserializePublishPacket_frame {dup retained : UInt8} {qos : QoS} {id : UInt16}
    {topicName : CStr} {rest front : List UInt8} {remLen : Nat} (dupBit : dup ≤ 1)
    (retainedBit : retained ≤ 1) (short : topicName.length ≤ qcloudIotMqttRxBufLen)
    (encodable : remLen ≤ 268435455) (inside : 2 + topicName.length ≤ remLen)
    (isFront : front = publishHeader dup qos retained :: mqttWritePacketRemLen remLen) :
    deserializePublishPacket (front ++ (mqttWriteUtf8String topicName.bytes ++ rest)) id =
      .ok (
        let curdata := front.length + 2 + topicName.length
        let buf := front ++ (mqttWriteUtf8String topicName.bytes ++ rest)
        let behind := if qos = .qos0 then (id, curdata) else (mqttReadUint16 buf curdata, curdata + 2)
        ({ qos := qos.code, retained, dup, id := behind.1, ptopic := [], topicLen := 0,
           payload := behind.2,
           payloadLen := (((front.length + remLen : Nat) - behind.2 : Int) % 2 ^ 64).toNat },
          front.length + 2, topicName.length)) := by
  obtain ⟨type, dupRead, qosRead, retainedRead⟩ := publishHeader_bits qos dupBit retainedBit
  have header : (front ++ (mqttWriteUtf8String topicName.bytes ++ rest)).getD 0 0 =
      publishHeader dup qos retained := by
    rw [isFront]
    rfl
  have frontLength : front.length = 1 + (mqttWritePacketRemLen remLen).length := by
    rw [isFront, List.length_cons, Nat.add_comm]
  have some : 0 < (mqttWritePacketRemLen remLen).length := length_remLenDigits_pos 4 remLen
  have long : ¬ 4 > (front ++ (mqttWriteUtf8String topicName.bytes ++ rest)).length := by
    rw [List.length_append, List.length_append, length_mqttWriteUtf8String, frontLength]
    omega
  have remLenRead : mqttReadPacketRemLenFormBuf
      (front ++ (mqttWriteUtf8String topicName.bytes ++ rest)) 1 =
        .ok (remLen, (mqttWritePacketRemLen remLen).length) := by
    rw [isFront]
    exact mqttReadPacketRemLenFormBuf_written _ _ (Nat.lt_succ_of_le encodable)
  have topicRead := @readStringWithLen_written front topicName.bytes rest (front.length + remLen)
    short (by rw [CStr.length] at inside; omega)
  have isQos0 : qos.code ≠ QoS.qos0.code ↔ qos ≠ .qos0 := by
    cases qos <;> decide
  rw [deserializePublishPacket, if_neg long, header, if_neg (not_not.mpr type), remLenRead]
  change (readStringWithLen _ (1 + (mqttWritePacketRemLen remLen).length)
    (1 + (mqttWritePacketRemLen remLen).length + remLen) >>= _) = _
  rw [← frontLength, topicRead]
  simp only [bind, Except.bind, pure, Except.pure, dupRead, qosRead, retainedRead]
  by_cases none : qos = .qos0
  · have same : ¬ qos.code ≠ QoS.qos0.code := fun other => isQos0.mp other none
    rw [if_neg same, if_pos none]
    rfl
  · rw [if_pos (isQos0.mpr none), if_neg none]
    rfl

/-- A PUBLISH that is serialized is read back as it was, whatever follows it in the buffer. -/
theorem publish_roundTrip {bufLen : Nat} {dup retained : UInt8} {qos : QoS}
    {packetId id : UInt16} {topicName : CStr} {payload bytes behind : List UInt8}
    (dupBit : dup ≤ 1) (retainedBit : retained ≤ 1)
    (short : topicName.length ≤ qcloudIotMqttRxBufLen)
    (encodable : publishRemLen qos topicName payload.length ≤ 268435455)
    (written : serializePublishPacket bufLen dup qos retained packetId topicName payload =
      .ok bytes) :
    ∃ msg topic topicLen, deserializePublishPacket (bytes ++ behind) id =
        .ok (msg, topic, topicLen) ∧
      msg.dup = dup ∧ msg.qos = qos.code ∧ msg.retained = retained ∧
      ((bytes ++ behind).drop topic).take topicLen = topicName.bytes ∧
      ((bytes ++ behind).drop msg.payload).take msg.payloadLen = payload ∧
      (qos ≠ .qos0 → msg.id = packetId) ∧ msg.payload + msg.payloadLen = bytes.length := by
  have remLen : getPublishPacketLen qos topicName payload.length =
      publishRemLen qos topicName payload.length := by
    rw [getPublishPacketLen]
    exact Nat.mod_eq_of_lt (lt_of_le_of_lt encodable (by decide))
  obtain ⟨front, isFront⟩ : ∃ front, front = publishHeader dup qos retained ::
      mqttWritePacketRemLen (publishRemLen qos topicName payload.length) := ⟨_, rfl⟩
  obtain ⟨idBytes, isIdBytes⟩ : ∃ idBytes, idBytes =
      if qos = .qos0 then [] else mqttWriteUint16 packetId := ⟨_, rfl⟩
  have isBytes : bytes ++ behind = front ++ (mqttWriteUtf8String topicName.bytes ++
      (idBytes ++ (payload ++ behind))) := by
    rw [serializePublishPacket_ok written, remLen, ← isFront, publishBody, ← isIdBytes]
    simp only [List.append_assoc]
  have length : bytes.length = front.length + publishRemLen qos topicName payload.length := by
    rw [serializePublishPacket_ok written, remLen, ← isFront, List.length_append,
      length_publishBody]
  have read := @deserializePublishPacket_frame dup retained qos id topicName
    (idBytes ++ (payload ++ behind)) front _ dupBit retainedBit short encodable
    (by rw [publishRemLen]; omega) isFront
  have frontLength : (front ++ mqttWriteUtf8String topicName.bytes).length =
      front.length + 2 + topicName.length := by
    rw [List.length_append, length_mqttWriteUtf8String, CStr.length]
    omega
  have topic : ((bytes ++ behind).drop (front.length + 2)).take topicName.length =
      topicName.bytes := by
    have start : (front ++ mqttWriteUint16 (UInt16.ofNat topicName.bytes.length)).length =
        front.length + 2 := List.length_append
    rw [isBytes, mqttWriteUtf8String, List.append_assoc, ← List.append_assoc, ← start,
      List.drop_left, CStr.length, List.take_left]
  refine ⟨_, _, _, isBytes ▸ read, rfl, rfl, rfl, topic, ?_⟩
  by_cases none : qos = .qos0
  · have noId : idBytes = [] := by rw [isIdBytes, if_pos none]
    have total : publishRemLen qos topicName payload.length =
        2 + topicName.length + payload.length := by
      rw [publishRemLen, if_pos none, Nat.add_zero]
    have payloadLen : (((front.length + publishRemLen qos topicName payload.length : Nat) -
        (front.length + 2 + topicName.length : Nat) : Int) % 2 ^ 64).toNat = payload.length := by
      rw [total]
      omega
    simp only [if_pos none, payloadLen]
    refine ⟨?_, fun some => absurd none some, by omega⟩
    rw [isBytes, noId, List.nil_append, ← List.append_assoc, ← frontLength, List.drop_left,
      List.take_left]
  · have isId : idBytes = mqttWriteUint16 packetId := by rw [isIdBytes, if_neg none]
    have total : publishRemLen qos topicName payload.length =
        2 + topicName.length + payload.length + 2 := by
      rw [publishRemLen, if_neg none]
    have payloadLen : (((front.length + publishRemLen qos topicName payload.length : Nat) -
        (front.length + 2 + topicName.length + 2 : Nat) : Int) % 2 ^ 64).toNat =
          payload.length := by
      rw [total]
      omega
    simp only [if_neg none, payloadLen]
    refine ⟨?_, fun _ => ?_, by omega⟩
    · have start : (front ++ mqttWriteUtf8String topicName.bytes ++ idBytes).length =
          front.length + 2 + topicName.length + 2 := by
        rw [List.length_append, frontLength, isId]
        rfl
      rw [isBytes, ← List.append_assoc, ← List.append_assoc, ← start, List.drop_left,
        List.take_left]
    · rw [isBytes, ← List.append_assoc, ← frontLength, isId, mqttReadUint16_written]

/-- A PUBLISH with QoS 1, the retain bit, topic `a`, packet id 7 and payload `hi`. -/
def retainedPublish : List UInt8 := [0x33, 7, 0, 1, 97, 0, 7, 104, 105]

/-- It is read in a larger buffer. -/
theorem publish_roundTrip_retained :
    ∃ msg topic topicLen, deserializePublishPacket (retainedPublish ++ [0, 0]) 0 =
        .ok (msg, topic, topicLen) ∧
      msg.dup = 0 ∧ msg.qos = QoS.qos1.code ∧ msg.retained = 1 ∧
      ((retainedPublish ++ [0, 0]).drop topic).take topicLen = [97] ∧
      ((retainedPublish ++ [0, 0]).drop msg.payload).take msg.payloadLen = [104, 105] ∧
      (QoS.qos1 ≠ .qos0 → msg.id = 7) ∧ msg.payload + msg.payloadLen = retainedPublish.length :=
  @publish_roundTrip 64 0 1 .qos1 7 0 ⟨[97], by decide⟩ [104, 105] retainedPublish [0, 0]
    (by decide) (by decide) (by decide) (by decide) (by decide)

end QcloudIot.Mqtt
