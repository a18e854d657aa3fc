import QcloudIot.Mqtt.Proofs.PublishRoundTrip

/-!
# The room for a packet

Every serializer compares the length that `get_mqtt_packet_len` predicts with the buffer
before it writes. The prediction is made from a remaining length that is cut to 32 bits, and
allows for four bytes of it at most: a remaining length from 2²⁸ on takes a fifth byte, and
one from 2³² on is predicted modulo 2³².
-/

namespace QcloudIot.Mqtt

/-! ## The remaining length field -/

/-- All digits but the last one have the top bit set. -/
def IsField : List UInt8 → Prop
  | [] => False
  | [last] => last.toNat < 128
  | digit :: digits => 128 ≤ digit.toNat ∧ IsField digits

/-- The number that a field encodes. -/
def fieldValue : List UInt8 → Nat
  | [] => 0
  | digit :: digits => digit.toNat % 128 + 128 * fieldValue digits

theorem lastDigit_toNat : ∀ digit < 128, (UInt8.ofNat digit).toNat = digit := by
  decide

theorem innerDigit_toNat : ∀ digit < 128, (UInt8.ofNat digit ||| 0x80).toNat = digit + 128 := by
  decide

theorem IsField.cons {digit : UInt8} {digits : List UInt8} (inner : 128 ≤ digit.toNat)
    (isField : IsField digits) : IsField (digit :: digits) := by
  cases digits with
  | nil => exact absurd isField id
  | cons next rest => exact ⟨inner, isField⟩

/-- The digits that are written encode the number. -/
theorem remLenDigits_field (digits n : Nat) (fits : n < 128 ^ (digits + 1)) :
    IsField (remLenDigits (digits + 1) n) ∧ fieldValue (remLenDigits (digits + 1) n) = n := by
  have last : ∀ n < 128, IsField [UInt8.ofNat n] ∧ fieldValue [UInt8.ofNat n] = n := by
    intro n small
    have digit := lastDigit_toNat n small
    refine ⟨?_, ?_⟩
    · rw [IsField, digit]
      exact small
    · rw [fieldValue, fieldValue, digit]
      omega
  induction digits generalizing n with
  | zero =>
    have small : n < 128 := by simpa using fits
    have single : ¬ n / 128 > 0 := by omega
    rw [remLenDigits, if_neg single, Nat.mod_eq_of_lt small]
    exact last n small
  | succ digits ih =>
    rw [remLenDigits]
    by_cases more : n / 128 > 0
    · have below : n / 128 < 128 ^ (digits + 1) := by
        rw [Nat.div_lt_iff_lt_mul (by omega), ← Nat.pow_succ]
        exact fits
      obtain ⟨isField, value⟩ := ih (n / 128) below
      have digit := innerDigit_toNat (n % 128) (Nat.mod_lt _ (by omega))
      rw [if_pos more]
      refine ⟨isField.cons (by omega), ?_⟩
      rw [fieldValue, value, digit]
      omega
    · have small : n < 128 := by omega
      rw [if_neg more, Nat.mod_eq_of_lt small]
      exact last n small

theorem length_mqttWritePacketRemLen (n : Nat) :
    (mqttWritePacketRemLen n).length =
      if n < 128 then 1 else if n < 16384 then 2 else if n < 2097152 then 3
      else if n < 268435456 then 4 else 5 := by
  simp only [mqttWritePacketRemLen, remLenDigits]
  split_ifs <;> first | rfl | omega

/-- The prediction is large enough below 2²⁸, and one byte too small from there on. -/
theorem getMqttPacketLen_bound (n : Nat) :
    if n < 2 ^ 28 then 1 + (mqttWritePacketRemLen n).length + n ≤ getMqttPacketLen n
    else 1 + (mqttWritePacketRemLen n).length + n = n + 6 := by
  rw [length_mqttWritePacketRemLen, getMqttPacketLen]
  split_ifs <;> omega

/-! ## Serializers -/

/-- What a serializer leaves when it returns: the bytes written from the start of the buffer on,
    and `*serialized_len` if it was assigned. -/
structure Serialized where
  rc : Int
  written : List UInt8
  serializedLen : Option Nat
  deriving DecidableEq, Repr

/-- A serializer that fails returns before the first byte is written. -/
def Serialized.of : Except Int (List UInt8) → Serialized
  | .ok bytes =>
    { rc := qcloudRetSuccess, written := bytes, serializedLen := some (bytes.length % 2 ^ 32) }
  | .error rc => { rc, written := [], serializedLen := none }

/-- Only bytes of the buffer are written; on success their number is returned and the field behind
    the header byte encodes the number of those that follow it; a buffer that is too short is left
    alone. -/
structure Serialized.StaysInside (s : Serialized) (bufLen : Nat) : Prop where
  inside : s.written.length ≤ bufLen
  success : s.rc = qcloudRetSuccess → s.serializedLen = some s.written.length ∧
    ∃ header field body, s.written = header :: field ++ body ∧ IsField field ∧
      fieldValue field = body.length
  tooShort : s.rc = qcloudErrBufTooShort → s.written = []

/-- The prediction for a remaining length is not below what is written: the buffer is found too
    short, or four bytes encode the length, or there is room for a fifth and the sum fits into
    32 bits. -/
def Predicted (bufLen remLen : Nat) : Prop :=
  bufLen < getMqttPacketLen (remLen % 2 ^ 32) ∨ remLen < 2 ^ 28 ∨
    remLen + 6 ≤ bufLen ∧ remLen + 6 < 2 ^ 32

/-- A serializer by its header byte and the bytes behind the remaining length. -/
def serialize (bufLen : Nat) (header : UInt8) (body : List UInt8) : Except Int (List UInt8) :=
  if getMqttPacketLen (body.length % 2 ^ 32) > bufLen then .error qcloudErrBufTooShort
  else .ok (header :: mqttWritePacketRemLen (body.length % 2 ^ 32) ++ body)

theorem serialize_staysInside_iff (bufLen : Nat) (header : UInt8) (body : List UInt8) :
    (Serialized.of (serialize bufLen header body)).StaysInside bufLen ↔
      Predicted bufLen body.length := by
  rw [serialize]
  by_cases short : getMqttPacketLen (body.length % 2 ^ 32) > bufLen
  · rw [if_pos short]
    refine ⟨fun _ => .inl short, fun _ => ⟨Nat.zero_le _, fun success => ?_, fun _ => rfl⟩⟩
    exact absurd success (show qcloudErrBufTooShort ≠ qcloudRetSuccess by decide)
  · rw [if_neg short]
    have length : (header :: mqttWritePacketRemLen (body.length % 2 ^ 32) ++ body).length =
        1 + (mqttWritePacketRemLen (body.length % 2 ^ 32)).length + body.length := by
      rw [List.length_append, List.length_cons]
      omega
    have bound := getMqttPacketLen_bound (body.length % 2 ^ 32)
    constructor
    · intro stays
      by_cases small : body.length < 2 ^ 28
      · exact .inr (.inl small)
      · -- `serialized_len` tells that the sum fits into 32 bits
        have inside : (header :: mqttWritePacketRemLen (body.length % 2 ^ 32) ++ body).length ≤
            bufLen := stays.inside
        have counted : (header :: mqttWritePacketRemLen (body.length % 2 ^ 32) ++ body).length %
            2 ^ 32 = (header :: mqttWritePacketRemLen (body.length % 2 ^ 32) ++ body).length :=
          Option.some.inj (stays.success rfl).1
        rw [length] at inside counted
        have whole : body.length % 2 ^ 32 = body.length := Nat.mod_eq_of_lt (by omega)
        rw [whole, if_neg small] at bound
        rw [whole] at inside counted
        exact .inr (.inr ⟨by omega, by omega⟩)
    · intro predicted
      have fits : body.length < 2 ^ 32 ∧
          1 + (mqttWritePacketRemLen body.length).length + body.length < 2 ^ 32 ∧
          1 + (mqttWritePacketRemLen body.length).length + body.length ≤ bufLen := by
        rcases predicted with refused | small | ⟨room, whole⟩
        · exact absurd refused short
        · have whole : body.length % 2 ^ 32 = body.length := Nat.mod_eq_of_lt (by omega)
          have digits := length_mqttWritePacketRemLen body.length
          rw [whole] at bound short
          rw [if_pos small] at bound
          split_ifs at digits <;> exact ⟨by omega, by omega, by omega⟩
        · have same : body.length % 2 ^ 32 = body.length := Nat.mod_eq_of_lt (by omega)
          rw [same] at bound short
          by_cases small : body.length < 2 ^ 28
          · rw [if_pos small] at bound
            have digits := length_mqttWritePacketRemLen body.length
            split_ifs at digits <;> exact ⟨by omega, by omega, by omega⟩
          · rw [if_neg small] at bound
            exact ⟨by omega, by omega, by omega⟩
      obtain ⟨whole, counted, inside⟩ := fits
      have same : body.length % 2 ^ 32 = body.length := Nat.mod_eq_of_lt whole
      rw [same] at length ⊢
      obtain ⟨isField, value⟩ := remLenDigits_field 4 body.length (lt_trans whole (by decide))
      refine ⟨?_, fun _ => ⟨?_, header, _, body, rfl, isField, value⟩, fun short => ?_⟩
      · show (header :: mqttWritePacketRemLen body.length ++ body).length ≤ bufLen
        rw [length]
        exact inside
      · refine congrArg some (Nat.mod_eq_of_lt ?_)
        rw [length]
        exact counted
      · exact absurd short (show qcloudRetSuccess ≠ qcloudErrBufTooShort by decide)

/-! ## The four packets -/

theorem serializePublishPacket_eq (bufLen : Nat) (dup : UInt8) (qos : QoS) (retained : UInt8)
    (packetId : UInt16) (topicName : CStr) (payload : List UInt8) :
    serializePublishPacket bufLen dup qos retained packetId topicName payload =
      serialize bufLen (publishHeader dup qos retained)
        (publishBody qos packetId topicName payload) := by
  have remLen : getPublishPacketLen qos topicName payload.length =
      publishRemLen qos topicName payload.length % 2 ^ 32 := rfl
  rw [serialize, length_publishBody, serializePublishPacket, remLen]
  by_cases short : getMqttPacketLen (publishRemLen qos topicName payload.length % 2 ^ 32) > bufLen
  · simp only [if_pos short]
    rfl
  · simp only [if_neg short, publishBody, ← List.append_assoc]
    rfl

/-- The bytes behind the remaining length of a SUBSCRIBE of one filter. -/
def subscribeBody (packetId : UInt16) (topicFilter : CStr) (requestedQoS : QoS) : List UInt8 :=
  mqttWriteUint16 packetId ++ (mqttWriteUtf8String topicFilter.bytes ++ [requestedQoS.code])

theorem length_subscribeBody (packetId : UInt16) (topicFilter : CStr) (requestedQoS : QoS) :
    (subscribeBody packetId topicFilter requestedQoS).length =
      2 + (2 + topicFilter.length + 1) := by
  rw [subscribeBody, List.length_append, List.length_append, length_mqttWriteUtf8String]
  rfl

/-- The header byte of a SUBSCRIBE and of an UNSUBSCRIBE. -/
def requestHeader (messageType : MessageType) (dup : UInt8) : UInt8 :=
  ((messageType.code <<< (4 : UInt8)) &&& 0xF0) ||| ((dup <<< (3 : UInt8)) &&& 0x08) |||
    ((QoS.qos1.code <<< (1 : UInt8)) &&& 0x06) ||| ((0 : UInt8) &&& 0x01)

theorem serializeSubscribePacket_eq (bufLen : Nat) (dup : UInt8) (packetId : UInt16)
    (topicFilter : CStr) (requestedQoS : QoS) :
    serializeSubscribePacket bufLen dup packetId 1 topicFilter requestedQoS =
      serialize bufLen (requestHeader .subscribe dup)
        (subscribeBody packetId topicFilter requestedQoS) := by
  have remLen : getSubscribePacketRemLen 1 topicFilter =
      (2 + (2 + topicFilter.length + 1)) % 2 ^ 32 := rfl
  rw [serialize, length_subscribeBody, serializeSubscribePacket, remLen]
  by_cases short : getMqttPacketLen ((2 + (2 + topicFilter.length + 1)) % 2 ^ 32) > bufLen
  · simp only [if_pos short]
    rfl
  · simp only [if_neg short, subscribeBody]
    show Except.ok (_ ++ List.flatMap _ [0]) = _
    rw [List.flatMap_cons, List.flatMap_nil, List.append_nil, List.append_assoc]
    rfl

/-- The bytes behind the remaining length of an UNSUBSCRIBE of one filter. -/
def unsubscribeBody (packetId : UInt16) (topicFilter : CStr) : List UInt8 :=
  mqttWriteUint16 packetId ++ mqttWriteUtf8String topicFilter.bytes

theorem length_unsubscribeBody (packetId : UInt16) (topicFilter : CStr) :
    (unsubscribeBody packetId topicFilter).length = 2 + (2 + topicFilter.length) := by
  rw [unsubscribeBody, List.length_append, length_mqttWriteUtf8String]
  rfl

theorem serializeUnsubscribePacket_eq (bufLen : Nat) (dup : UInt8) (packetId : UInt16)
    (topicFilter : CStr) :
    serializeUnsubscribePacket bufLen dup packetId 1 topicFilter =
      serialize bufLen (requestHeader .unsubscribe dup) (unsubscribeBody packetId topicFilter) := by
  have remLen : getUnsubscribePacketRemLen 1 topicFilter =
      (2 + (2 + topicFilter.length)) % 2 ^ 32 := rfl
  rw [serialize, length_unsubscribeBody, serializeUnsubscribePacket, remLen]
  by_cases short : getMqttPacketLen ((2 + (2 + topicFilter.length)) % 2 ^ 32) > bufLen
  · simp only [if_pos short]
    rfl
  · simp only [if_neg short, unsubscribeBody]
    show Except.ok (_ ++ List.flatMap _ [0]) = _
    rw [List.flatMap_cons, List.flatMap_nil, List.append_nil, List.append_assoc]
    rfl

/-- The name and the version of the protocol. -/
def protocolName (mqttVersion : UInt8) : List UInt8 × UInt8 :=
  if mqttVersion = 4 then ([77, 81, 84, 84], 4) else ([77, 81, 73, 115, 100, 112], 3)

/-- The bytes behind the remaining length of a CONNECT. -/
def connectBody (options : ConnectParams) (username : CStr) (password : Option CStr) :
    List UInt8 :=
  mqttWriteUtf8String (protocolName options.mqttVersion).1 ++
    ([(protocolName options.mqttVersion).2,
        (if options.cleanSession ≠ 0 then 0x02 else 0) ||| 0x80 ||| 0x40] ++
      (mqttWriteUint16 options.keepAliveInterval ++
        (mqttWriteUtf8String options.clientId.bytes ++ (mqttWriteUtf8String username.bytes ++
          (match password with | none => [] | some p => mqttWriteUtf8String p.bytes)))))

/-- The remaining length of a CONNECT, before it is cut to 32 bits. -/
def connectRemLen (options : ConnectParams) (username : CStr) (password : Option CStr) : Nat :=
  (if options.mqttVersion = 3 then 12 else if options.mqttVersion = 4 then 10 else 0) +
    (options.clientId.length + 2) + (username.length + 2) +
    (match password with | none => 0 | some p => p.length + 2)

theorem length_connectBody {options : ConnectParams} (username : CStr) (password : Option CStr)
    (version : options.mqttVersion = 3 ∨ options.mqttVersion = 4) :
    (connectBody options username password).length = connectRemLen options username password := by
  have name : (mqttWriteUtf8String (protocolName options.mqttVersion).1).length + 4 =
      if options.mqttVersion = 3 then 12 else if options.mqttVersion = 4 then 10 else 0 := by
    rcases version with three | four
    · rw [three]
      rfl
    · rw [four]
      rfl
  have keepAlive : (mqttWriteUint16 options.keepAliveInterval).length = 2 := rfl
  unfold connectRemLen connectBody
  rw [← name]
  cases password with
  | none =>
    simp only [List.length_append, length_mqttWriteUtf8String, keepAlive, List.length_cons,
      List.length_nil, CStr.length]
    omega
  | some p =>
    simp only [List.length_append, length_mqttWriteUtf8String, keepAlive, List.length_cons,
      List.length_nil, CStr.length]
    omega

theorem serializeConnectPacket_eq (bufLen : Nat) {options : ConnectParams} (username : CStr)
    (password : Option CStr) (version : options.mqttVersion = 3 ∨ options.mqttVersion = 4) :
    serializeConnectPacket bufLen options username password =
      serialize bufLen 0x10 (connectBody options username password) := by
  have remLen : getPacketConnectRemLen options username password =
      connectRemLen options username password % 2 ^ 32 := rfl
  rw [serialize, length_connectBody username password version]
  unfold serializeConnectPacket
  rw [remLen]
  by_cases short : getMqttPacketLen (connectRemLen options username password % 2 ^ 32) > bufLen
  · simp only [if_pos short]
    rfl
  · unfold connectBody
    simp only [if_neg short, protocolName, List.append_assoc]
    rfl

/-- The serializers stay inside the buffer exactly if the length of the packet is predicted. -/
theorem serializers_stayInside_iff (bufLen : Nat) :
    (∀ dup qos retained packetId topicName payload,
      (Serialized.of (serializePublishPacket bufLen dup qos retained packetId topicName
        payload)).StaysInside bufLen ↔
          Predicted bufLen (publishRemLen qos topicName payload.length)) ∧
    (∀ options username password, options.mqttVersion = 3 ∨ options.mqttVersion = 4 →
      ((Serialized.of (serializeConnectPacket bufLen options username password)).StaysInside
        bufLen ↔ Predicted bufLen (connectRemLen options username password))) ∧
    (∀ dup packetId topicFilter requestedQoS,
      (Serialized.of (serializeSubscribePacket bufLen dup packetId 1 topicFilter
        requestedQoS)).StaysInside bufLen ↔
          Predicted bufLen (2 + (2 + topicFilter.length + 1))) ∧
    (∀ dup packetId topicFilter,
      (Serialized.of (serializeUnsubscribePacket bufLen dup packetId 1 topicFilter)).StaysInside
        bufLen ↔ Predicted bufLen (2 + (2 + topicFilter.length))) := by
  refine ⟨?_, ?_, ?_, ?_⟩
  · intro dup qos retained packetId topicName payload
    rw [serializePublishPacket_eq, serialize_staysInside_iff, length_publishBody]
  · intro options username password version
    rw [serializeConnectPacket_eq bufLen username password version, serialize_staysInside_iff,
      length_connectBody username password version]
  · intro dup packetId topicFilter requestedQoS
    rw [serializeSubscribePacket_eq, serialize_staysInside_iff, length_subscribeBody]
  · intro dup packetId topicFilter
    rw [serializeUnsubscribePacket_eq, serialize_staysInside_iff, length_unsubscribeBody]

/-- The options of a CONNECT with protocol version 4. -/
def connectOptions : ConnectParams where
  clientId := ⟨[100], by decide⟩
  mqttVersion := 4
  keepAliveInterval := 240
  cleanSession := 1
  autoConnectEnable := 1

theorem serializers_stayInside_connect :
    (Serialized.of (serializeConnectPacket 64 connectOptions ⟨[117], by decide⟩ none)).StaysInside
      64 :=
  ((serializers_stayInside_iff 64).2.1 connectOptions ⟨[117], by decide⟩ none (.inr rfl)).mpr
    (.inr (.inl (by decide)))

/-- A payload of 2³² - 3 bytes makes the remaining length 2³², which is cut to 0: all of it is
    written into a buffer of ten bytes. -/
theorem publish_overruns :
    ¬ (Serialized.of (serializePublishPacket 10 0 .qos0 0 0 ⟨[97], by decide⟩
      (List.replicate (2 ^ 32 - 3) 0))).StaysInside 10 := by
  rw [serializePublishPacket_eq, serialize_staysInside_iff, length_publishBody,
    List.length_replicate]
  show ¬ Predicted 10 (2 ^ 32)
  rw [Predicted]
  decide

end QcloudIot.Mqtt
