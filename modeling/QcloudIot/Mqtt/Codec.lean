import QcloudIot.Mqtt.Platform

/-!
# Packet codec

The serializers and deserializers of `mqtt_client_common.c`, `mqtt_client_publish.c`,
`mqtt_client_subscribe.c` and `mqtt_client_unsubscribe.c`. A serializer returns the bytes
it writes to the front of the buffer, a deserializer reads the buffer through an offset
that stands for the C pointer; a byte past the end of the buffer reads as zero.
-/

namespace QcloudIot.Mqtt

/-! ## Fixed header -/

/-- `mqtt_init_packet_header` (`mqtt_client_common.c:242-320`). -/
def mqttInitPacketHeader (messageType : MessageType) (qos : QoS) (dup retained : UInt8) :
    Except Int UInt8 :=
  match messageType with
  | .reserved => .error qcloudErrMqttUnknown
  | _ => .ok (((messageType.code <<< (4 : UInt8)) &&& 0xF0) ||| ((dup <<< (3 : UInt8)) &&& 0x08) |||
      ((qos.code <<< (1 : UInt8)) &&& 0x06) ||| (retained &&& 0x01))

/-- The digits of `mqtt_write_packet_rem_len`; a `uint32_t` has at most five of them. -/
def remLenDigits : Nat → Nat → List UInt8
  | 0, _ => []
  | fuel + 1, length =>
    let encodeByte := UInt8.ofNat (length % 128)
    let length := length / 128
    if length > 0 then (encodeByte ||| 0x80) :: remLenDigits fuel length else [encodeByte]

/-- `mqtt_write_packet_rem_len` (`mqtt_client_common.c:103-121`). -/
def mqttWritePacketRemLen (length : Nat) : List UInt8 := remLenDigits 5 length

/-- `get_mqtt_packet_len` (`mqtt_client_common.c:123-139`). -/
def getMqttPacketLen (remLen : Nat) : Nat :=
  let remLen := remLen + 1
  if remLen < 128 then remLen + 1
  else if remLen < 16384 then remLen + 2
  else if remLen < 2097151 then remLen + 3
  else remLen + 4

/-- The loop of `_decode_packet_rem_len_from_buf_read`; `fuel` counts the bytes it may
    still read before `len` exceeds `MAX_NO_OF_REMAINING_LENGTH_BYTES`. -/
def remLenFromBuf (buf : List UInt8) : Nat → Nat → Nat → Nat → Except Int (Nat × Nat)
  | 0, _, _, _ => .error qcloudErrMqttPacketRead
  | fuel + 1, bufptr, multiplier, value =>
    let c := buf.getD bufptr 0
    let value := value + (c &&& 127).toNat * multiplier
    if c &&& 128 ≠ 0 then remLenFromBuf buf fuel (bufptr + 1) (multiplier * 128) value
    else .ok (value, maxNoOfRemainingLengthBytes - fuel)

/-- `mqtt_read_packet_rem_len_form_buf` (`mqtt_client_common.c:147-173`): the decoded value
    and the number of bytes it takes. -/
def mqttReadPacketRemLenFormBuf (buf : List UInt8) (bufptr : Nat) : Except Int (Nat × Nat) :=
  remLenFromBuf buf maxNoOfRemainingLengthBytes bufptr 1 0

/-- `mqtt_read_uint16_t` (`mqtt_client_common.c:180-188`), without the pointer update. -/
def mqttReadUint16 (buf : List UInt8) (ptr : Nat) : UInt16 :=
  UInt16.ofNat ((buf.getD (ptr + 1) 0).toNat + 256 * (buf.getD ptr 0).toNat)

/-- `mqtt_write_uint_16` (`mqtt_client_common.c:218-224`). -/
def mqttWriteUint16 (anInt : UInt16) : List UInt8 :=
  [UInt8.ofNat (anInt.toNat / 256), UInt8.ofNat (anInt.toNat % 256)]

/-- `mqtt_write_utf8_string` (`mqtt_client_common.c:231-237`): the length is cut to 16 bits,
    the bytes are not. -/
def mqttWriteUtf8String (string : List UInt8) : List UInt8 :=
  mqttWriteUint16 (UInt16.ofNat string.length) ++ string

/-- The packet type in the upper half of a fixed header byte. -/
def headerType (header : UInt8) : UInt8 := (header &&& 0xF0) >>> (4 : UInt8)

/-! ## Serializers -/

/-- `serialize_packet_with_zero_payload` (`mqtt_client_common.c:478-508`). -/
def serializePacketWithZeroPayload (bufLen : Nat) (packetType : MessageType) :
    Except Int (List UInt8) := do
  if 4 > bufLen then throw qcloudErrBufTooShort
  let header ← mqttInitPacketHeader packetType .qos0 0 0
  return header :: mqttWritePacketRemLen 0

/-- `serialize_pub_ack_packet` (`mqtt_client_publish.c:213-241`). -/
def serializePubAckPacket (bufLen : Nat) (packetType : MessageType) (dup : UInt8)
    (packetId : UInt16) : Except Int (List UInt8) := do
  let requestQoS := if packetType = .pubrel then QoS.qos1 else QoS.qos0
  if 4 > bufLen then throw qcloudErrBufTooShort
  let header ← mqttInitPacketHeader packetType requestQoS dup 0
  return header :: mqttWritePacketRemLen 2 ++ mqttWriteUint16 packetId

/-- `_get_publish_packet_len` (`mqtt_client_publish.c:64-73`), cut to `uint32_t`. -/
def getPublishPacketLen (qos : QoS) (topicName : CStr) (payloadLen : Nat) : Nat :=
  (2 + topicName.length + payloadLen + if qos = .qos0 then 0 else 2) % 2 ^ 32

/-- `_serialize_publish_packet` (`mqtt_client_publish.c:256-297`). -/
def serializePublishPacket (bufLen : Nat) (dup : UInt8) (qos : QoS) (retained : UInt8)
    (packetId : UInt16) (topicName : CStr) (payload : List UInt8) : Except Int (List UInt8) := do
  let remLen := getPublishPacketLen qos topicName payload.length
  if getMqttPacketLen remLen > bufLen then throw qcloudErrBufTooShort
  let header ← mqttInitPacketHeader .publish qos dup retained
  return header :: mqttWritePacketRemLen remLen ++ mqttWriteUtf8String topicName.bytes ++
    (if qos = .qos0 then [] else mqttWriteUint16 packetId) ++ payload

/-- The strings `*topicFilters + i` of the subscribe serializers: with one filter this is
    the filter, a further index only moves the pointer inside it. -/
def topicFilterAt (topicFilter : CStr) (i : Nat) : List UInt8 := topicFilter.bytes.drop i

/-- `_get_subscribe_packet_rem_len` (`mqtt_client_subscribe.c:31-41`). -/
def getSubscribePacketRemLen (count : Nat) (topicFilter : CStr) : Nat :=
  (2 + ((List.range count).map fun i => 2 + (topicFilterAt topicFilter i).length + 1).sum) % 2 ^ 32

/-- `_serialize_subscribe_packet` (`mqtt_client_subscribe.c:54-95`). -/
def serializeSubscribePacket (bufLen : Nat) (dup : UInt8) (packetId : UInt16) (count : Nat)
    (topicFilter : CStr) (requestedQoS : QoS) : Except Int (List UInt8) := do
  let remLen := getSubscribePacketRemLen count topicFilter
  if getMqttPacketLen remLen > bufLen then throw qcloudErrBufTooShort
  let header ← mqttInitPacketHeader .subscribe .qos1 dup 0
  return header :: mqttWritePacketRemLen remLen ++ mqttWriteUint16 packetId ++
    (List.range count).flatMap fun i =>
      mqttWriteUtf8String (topicFilterAt topicFilter i) ++ [requestedQoS.code]

/-- `_get_unsubscribe_packet_rem_len` (`mqtt_client_unsubscribe.c:31-41`). -/
def getUnsubscribePacketRemLen (count : Nat) (topicFilter : CStr) : Nat :=
  (2 + ((List.range count).map fun i => 2 + (topicFilterAt topicFilter i).length).sum) % 2 ^ 32

/-- `_serialize_unsubscribe_packet` (`mqtt_client_unsubscribe.c:54-90`). -/
def serializeUnsubscribePacket (bufLen : Nat) (dup : UInt8) (packetId : UInt16) (count : Nat)
    (topicFilter : CStr) : Except Int (List UInt8) := do
  let remLen := getUnsubscribePacketRemLen count topicFilter
  if getMqttPacketLen remLen > bufLen then throw qcloudErrBufTooShort
  let header ← mqttInitPacketHeader .unsubscribe .qos1 dup 0
  return header :: mqttWritePacketRemLen remLen ++ mqttWriteUint16 packetId ++
    (List.range count).flatMap fun i => mqttWriteUtf8String (topicFilterAt topicFilter i)

/-- `_get_packet_connect_rem_len` (`mqtt_client_connect.c:58-79`). -/
def getPacketConnectRemLen (options : ConnectParams) (username : CStr) (password : Option CStr) :
    Nat :=
  ((if options.mqttVersion = 3 then 12 else if options.mqttVersion = 4 then 10 else 0) +
    (options.clientId.length + 2) + (username.length + 2) +
    (match password with | none => 0 | some p => p.length + 2)) % 2 ^ 32

/-- `_serialize_connect_packet` (`mqtt_client_connect.c:114-266`) from the point at which the
    user name and the password of the key authentication build are formatted. -/
def serializeConnectPacket (bufLen : Nat) (options : ConnectParams) (username : CStr)
    (password : Option CStr) : Except Int (List UInt8) := do
  let remLen := getPacketConnectRemLen options username password
  if getMqttPacketLen remLen > bufLen then throw qcloudErrBufTooShort
  let header ← mqttInitPacketHeader .connect .qos0 0 0
  let name : List UInt8 × UInt8 :=
    if options.mqttVersion = 4 then ([77, 81, 84, 84], 4) else ([77, 81, 73, 115, 100, 112], 3)
  let flags : UInt8 := (if options.cleanSession ≠ 0 then 0x02 else 0) ||| 0x80 ||| 0x40
  return header :: mqttWritePacketRemLen remLen ++ mqttWriteUtf8String name.1 ++ [name.2, flags] ++
    mqttWriteUint16 options.keepAliveInterval ++ mqttWriteUtf8String options.clientId.bytes ++
    mqttWriteUtf8String username.bytes ++
    (match password with | none => [] | some p => mqttWriteUtf8String p.bytes)

/-! ## Deserializers -/

/-- `deserialize_ack_packet` (`mqtt_client_common.c:331-378`): the packet type and id. -/
def deserializeAckPacket (buf : List UInt8) : Except Int (UInt8 × UInt16) := do
  if 4 > buf.length then throw qcloudErrBufTooShort
  let packetType := headerType (buf.getD 0 0)
  let (decodedLen, readBytesLen) ← mqttReadPacketRemLenFormBuf buf 1
  let curdata := 1 + readBytesLen
  let enddata := curdata + decodedLen
  if enddata - curdata < 2 then throw qcloudErrFailure
  let packetId := mqttReadUint16 buf curdata
  let curdata := curdata + 2
  if enddata - curdata ≥ 1 then
    if buf.getD curdata 0 ≠ 0 then throw qcloudErrFailure
  return (packetType, packetId)

/-- The payload loop of `deserialize_suback_packet`: at most `max_count + 1` return codes. -/
def readGrantedQoSs (maxCount : Nat) (buf : List UInt8) (enddata : Nat) :
    Nat → Nat → List UInt8 → Except Int (List UInt8)
  | 0, _, granted => .ok granted
  | fuel + 1, curdata, granted =>
    if curdata < enddata then
      if granted.length > maxCount then .error qcloudErrFailure
      else readGrantedQoSs maxCount buf enddata fuel (curdata + 1)
        (granted ++ [buf.getD curdata 0])
    else .ok granted

/-- `deserialize_suback_packet` (`mqtt_client_common.c:390-442`): the packet id and the
    return codes found. -/
def deserializeSubackPacket (maxCount : Nat) (buf : List UInt8) :
    Except Int (UInt16 × List UInt8) := do
  if 5 > buf.length then throw qcloudErrBufTooShort
  if headerType (buf.getD 0 0) ≠ MessageType.suback.code then throw qcloudErrFailure
  let (decodedLen, readBytesLen) ← mqttReadPacketRemLenFormBuf buf 1
  let curdata := 1 + readBytesLen
  let enddata := curdata + decodedLen
  if enddata - curdata < 2 then throw qcloudErrFailure
  let packetId := mqttReadUint16 buf curdata
  let curdata := curdata + 2
  -- the loop stops after `max_count + 2` tests at the latest
  let granted ← readGrantedQoSs maxCount buf enddata (maxCount + 2) curdata []
  return (packetId, granted)

/-- `deserialize_unsuback_packet` (`mqtt_client_common.c:451-468`). -/
def deserializeUnsubackPacket (buf : List UInt8) : Except Int UInt16 := do
  let (type, packetId) ← deserializeAckPacket buf
  if type ≠ MessageType.unsuback.code then throw qcloudErrFailure
  return packetId

/-- `_read_string_with_len` (`mqtt_client_publish.c:33-55`): the offset and length of the
    string and the offset after it. -/
def readStringWithLen (buf : List UInt8) (ptr enddata : Nat) : Except Int (Nat × Nat × Nat) :=
  if ptr + 1 < enddata then
    let stringLen := (mqttReadUint16 buf ptr).toNat
    let ptr := ptr + 2
    if stringLen > qcloudIotMqttRxBufLen then .error qcloudErrFailure
    else if ptr + stringLen ≤ enddata then .ok (ptr, stringLen, ptr + stringLen)
    else .error qcloudErrFailure
  else .error qcloudErrFailure

/-- `deserialize_publish_packet` (`mqtt_client_publish.c:142-202`): the message, whose topic
    fields are still empty, and the offset and length of the topic. With QoS 0 the packet id
    keeps the value `id` it had before the call; `payload_len` is a pointer difference
    converted to `size_t`. -/
def deserializePublishPacket (buf : List UInt8) (id : UInt16) :
    Except Int (MqttMessage × Nat × Nat) := do
  if 4 > buf.length then throw qcloudErrBufTooShort
  let header := buf.getD 0 0
  let qos := (header &&& 0x06) >>> (1 : UInt8)
  if headerType header ≠ MessageType.publish.code then throw qcloudErrFailure
  let (decodedLen, readBytesLen) ← mqttReadPacketRemLenFormBuf buf 1
  let curdata := 1 + readBytesLen
  let enddata := curdata + decodedLen
  let (topicName, topicNameLen, curdata) ← readStringWithLen buf curdata enddata
  let (packetId, curdata) :=
    if qos ≠ QoS.qos0.code then (mqttReadUint16 buf curdata, curdata + 2) else (id, curdata)
  return ({ qos := qos, retained := header &&& 0x01, dup := (header &&& 0x08) >>> (3 : UInt8),
            id := packetId, ptopic := [], topicLen := 0, payload := curdata,
            payloadLen := (((enddata : Int) - curdata) % 2 ^ 64).toNat },
    topicName, topicNameLen)

/-- `_deserialize_connack_packet` (`mqtt_client_connect.c:276-344`): the return code. -/
def deserializeConnackPacket (buf : List UInt8) : Except Int Int := do
  if 4 > buf.length then throw qcloudErrBufTooShort
  if headerType (buf.getD 0 0) ≠ MessageType.connack.code then throw qcloudErrFailure
  let (decodedLen, readBytesLen) ← mqttReadPacketRemLenFormBuf buf 1
  let curdata := 1 + readBytesLen
  let enddata := curdata + decodedLen
  if enddata - curdata ≠ 2 then throw qcloudErrFailure
  let connackRcChar := buf.getD (curdata + 1) 0
  return match connackRcChar.toNat with
    | 0 => qcloudRetMqttConnackConnectionAccepted
    | 1 => qcloudErrMqttConnackUnacceptableProtocolVersion
    | 2 => qcloudErrMqttConnackIdentifierRejected
    | 3 => qcloudErrMqttConnackServerUnavailable
    | 4 => qcloudErrMqttConnackBadUserdata
    | 5 => qcloudErrMqttConnackNotAuthorized
    | _ => qcloudErrMqttConnackUnknown

end QcloudIot.Mqtt
