import QcloudIot.Mqtt.Proofs.Serializers

/-!
# The predicted length

`get_mqtt_packet_len` compares the remaining length with its bounds when the header byte has been
added, so it predicts one byte too many below three of the bounds; the third bound is one too small
besides. A packet of such a length is refused when it fills its buffer.
-/

namespace QcloudIot.Mqtt

/-- The number of bytes of a packet. -/
def packetLen (remLen : Nat) : Nat := 1 + remLen + (mqttWritePacketRemLen remLen).length

/-- The length of a packet is predicted exactly, and every serializer refuses such a packet exactly
    when the buffer is shorter. -/
structure LenPredicted (remLen : Nat) : Prop where
  exact : getMqttPacketLen remLen = packetLen remLen
  publish : ∀ bufLen dup qos retained packetId topicName payload,
    publishRemLen qos topicName payload.length = remLen →
    (serializePublishPacket bufLen dup qos retained packetId topicName payload =
      .error qcloudErrBufTooShort ↔ bufLen < packetLen remLen)
  subscribe : ∀ bufLen dup packetId topicFilter requestedQoS,
    (subscribeBody packetId topicFilter requestedQoS).length = remLen →
    (serializeSubscribePacket bufLen dup packetId 1 topicFilter requestedQoS =
      .error qcloudErrBufTooShort ↔ bufLen < packetLen remLen)
  unsubscribe : ∀ bufLen dup packetId topicFilter,
    (unsubscribeBody packetId topicFilter).length = remLen →
    (serializeUnsubscribePacket bufLen dup packetId 1 topicFilter =
      .error qcloudErrBufTooShort ↔ bufLen < packetLen remLen)
  connect : ∀ bufLen options username password,
    options.mqttVersion = 3 ∨ options.mqttVersion = 4 →
    connectRemLen options username password = remLen →
    (serializeConnectPacket bufLen options username password =
      .error qcloudErrBufTooShort ↔ bufLen < packetLen remLen)

/-- The lengths below 2^28 that are predicted wrongly. -/
theorem getMqttPacketLen_eq_iff {remLen : Nat} (small : remLen ≤ 268435455) :
    getMqttPacketLen remLen = packetLen remLen ↔ remLen ∉ [127, 16383, 2097150, 2097151] := by
  simp only [List.mem_cons, List.not_mem_nil, or_false, not_or]
  rw [packetLen, length_mqttWritePacketRemLen, getMqttPacketLen]
  split_ifs <;> omega

/-- A packet whose length is predicted exactly is refused when it does not fit. -/
theorem serialize_refused_iff {bufLen remLen : Nat} {header : UInt8} {body : List UInt8}
    (small : remLen ≤ 268435455) (length : body.length = remLen)
    (exact : getMqttPacketLen remLen = packetLen remLen) :
    serialize bufLen header body = .error qcloudErrBufTooShort ↔ bufLen < packetLen remLen := by
  have whole : body.length % 2 ^ 32 = remLen := by
    rw [length]
    omega
  rw [serialize, whole, exact]
  by_cases short : packetLen remLen > bufLen
  · rw [if_pos short]
    exact ⟨fun _ => short, fun _ => rfl⟩
  · rw [if_neg short]
    constructor
    · intro refused
      cases refused
    · intro less
      exact absurd less short

/-- Below 2^28 the prediction is right but for four lengths. -/
theorem lenPredicted_iff {remLen : Nat} (small : remLen ≤ 268435455) :
    LenPredicted remLen ↔ remLen ∉ [127, 16383, 2097150, 2097151] := by
  refine ⟨fun predicted => (getMqttPacketLen_eq_iff small).mp predicted.exact, fun other => ?_⟩
  have exact := (getMqttPacketLen_eq_iff small).mpr other
  refine ⟨exact, ?_, ?_, ?_, ?_⟩
  · intro bufLen dup qos retained packetId topicName payload length
    rw [serializePublishPacket_eq]
    exact serialize_refused_iff small ((length_publishBody ..).trans length) exact
  · intro bufLen dup packetId topicFilter requestedQoS length
    rw [serializeSubscribePacket_eq]
    exact serialize_refused_iff small length exact
  · intro bufLen dup packetId topicFilter length
    rw [serializeUnsubscribePacket_eq]
    exact serialize_refused_iff small length exact
  · intro bufLen options username password version length
    rw [serializeConnectPacket_eq bufLen username password version]
    exact serialize_refused_iff small ((length_connectBody username password version).trans length)
      exact

theorem lenPredicted_hundred : LenPredicted 100 :=
  (lenPredicted_iff (by decide)).mpr (by decide)

/-- With a remaining length of 127 a packet has 129 bytes, and 130 are predicted. -/
theorem lenPredicted_bound : ¬ LenPredicted 127 := by
  intro predicted
  have exact := predicted.exact
  revert exact
  decide

end QcloudIot.Mqtt
