import QcloudIot.Misc.Access
import QcloudIot.Mqtt.Proofs.PublishParser
import QcloudIot.Mqtt.Proofs.Framing

/-!
# The bounds of the ack parsers

The parsers of the acks are given the whole of `read_buf`. They are written here a second time as
programs that access memory, to say which bytes of `read_buf` they read and which entries of
`grantedQoSs` are stored.
-/

namespace QcloudIot.Mqtt

/-! ## The parsers as programs that access memory -/

namespace Memory

/-- The loop of `_decode_packet_rem_len_from_buf_read`. -/
def remLenFromBuf : Nat → Nat → Nat → Nat → Access Int (Nat × Nat)
  | 0, _, _, _ => .fail qcloudErrMqttPacketRead
  | fuel + 1, bufptr, multiplier, value => do
    let c ← .byte bufptr
    let value := value + (c &&& 127).toNat * multiplier
    if c &&& 128 ≠ 0 then remLenFromBuf fuel (bufptr + 1) (multiplier * 128) value
    else return (value, maxNoOfRemainingLengthBytes - fuel)

/-- `mqtt_read_packet_rem_len_form_buf` (`mqtt_client_common.c:147-173`). -/
def mqttReadPacketRemLenFormBuf (bufptr : Nat) : Access Int (Nat × Nat) :=
  remLenFromBuf maxNoOfRemainingLengthBytes bufptr 1 0

/-- `mqtt_read_uint16_t` (`mqtt_client_common.c:180-188`). -/
def mqttReadUint16 (ptr : Nat) : Access Int UInt16 := do
  let firstByte ← .byte ptr
  let secondByte ← .byte (ptr + 1)
  return UInt16.ofNat (secondByte.toNat + 256 * firstByte.toNat)

/-- `deserialize_ack_packet` (`mqtt_client_common.c:331-378`). -/
def deserializeAckPacket (bufLen : Nat) : Access Int (UInt8 × UInt16) :=
  if 4 > bufLen then .fail qcloudErrBufTooShort
  else do
    let header ← .byte 0
    let (decodedLen, readBytesLen) ← mqttReadPacketRemLenFormBuf 1
    let curdata := 1 + readBytesLen
    let enddata := curdata + decodedLen
    if enddata - curdata < 2 then .fail qcloudErrFailure
    else do
      let packetId ← mqttReadUint16 curdata
      let curdata := curdata + 2
      if enddata - curdata ≥ 1 then do
        let ackCode ← .byte curdata
        if ackCode ≠ 0 then .fail qcloudErrFailure else return (headerType header, packetId)
      else return (headerType header, packetId)

/-- The payload loop of `deserialize_suback_packet`, with the entries of `grantedQoSs`. -/
def readGrantedQoSs (maxCount enddata : Nat) : Nat → Nat → List UInt8 → Access Int (List UInt8)
  | 0, _, granted => return granted
  | fuel + 1, curdata, granted =>
    if curdata < enddata then
      if granted.length > maxCount then .fail qcloudErrFailure
      else do
        let qos ← .byte curdata
        .put granted.length qos
        readGrantedQoSs maxCount enddata fuel (curdata + 1) (granted ++ [qos])
    else return granted

/-- `deserialize_suback_packet` (`mqtt_client_common.c:390-442`). -/
def deserializeSubackPacket (maxCount bufLen : Nat) : Access Int (UInt16 × List UInt8) :=
  if 5 > bufLen then .fail qcloudErrBufTooShort
  else do
    let header ← .byte 0
    if headerType header ≠ MessageType.suback.code then .fail qcloudErrFailure
    else do
      let (decodedLen, readBytesLen) ← mqttReadPacketRemLenFormBuf 1
      let curdata := 1 + readBytesLen
      let enddata := curdata + decodedLen
      if enddata - curdata < 2 then .fail qcloudErrFailure
      else do
        let packetId ← mqttReadUint16 curdata
        let granted ← readGrantedQoSs maxCount enddata (maxCount + 2) (curdata + 2) []
        return (packetId, granted)

/-- `deserialize_unsuback_packet` (`mqtt_client_common.c:451-468`). -/
def deserializeUnsubackPacket (bufLen : Nat) : Access Int UInt16 := do
  let (type, packetId) ← deserializeAckPacket bufLen
  if type ≠ MessageType.unsuback.code then .fail qcloudErrFailure else return packetId

/-- `_deserialize_connack_packet` (`mqtt_client_connect.c:276-344`). -/
def deserializeConnackPacket (bufLen : Nat) : Access Int Int :=
  if 4 > bufLen then .fail qcloudErrBufTooShort
  else do
    let header ← .byte 0
    if headerType header ≠ MessageType.connack.code then .fail qcloudErrFailure
    else do
      let (decodedLen, readBytesLen) ← mqttReadPacketRemLenFormBuf 1
      let curdata := 1 + readBytesLen
      let enddata := curdata + decodedLen
      if enddata - curdata ≠ 2 then .fail qcloudErrFailure
      else do
        let _flags ← .byte curdata
        let connackRcChar ← .byte (curdata + 1)
        return match connackRcChar.toNat with
          | 0 => qcloudRetMqttConnackConnectionAccepted
          | 1 => qcloudErrMqttConnackUnacceptableProtocolVersion
          | 2 => qcloudErrMqttConnackIdentifierRejected
          | 3 => qcloudErrMqttConnackServerUnavailable
          | 4 => qcloudErrMqttConnackBadUserdata
          | 5 => qcloudErrMqttConnackNotAuthorized
          | _ => qcloudErrMqttConnackUnknown

end Memory

/-- The bytes of a buffer. -/
def memoryOf (buf : List UInt8) (place : Nat) : UInt8 := buf.getD place 0

/-! ## They return what the parsers return -/

theorem result_remLenFromBuf (buf : List UInt8) (fuel bufptr multiplier value : Nat) :
    (Memory.remLenFromBuf fuel bufptr multiplier value).result (memoryOf buf) =
      remLenFromBuf buf fuel bufptr multiplier value := by
  induction fuel generalizing bufptr multiplier value with
  | zero => rfl
  | succ fuel ih =>
    rw [Memory.remLenFromBuf, remLenFromBuf, Access.result_byte]
    change Access.result _ (if buf.getD bufptr 0 &&& 128 ≠ 0 then _ else _) = _
    split
    · exact ih _ _ _
    · rfl

theorem result_mqttReadUint16 (buf : List UInt8) (ptr : Nat) :
    (Memory.mqttReadUint16 ptr).result (memoryOf buf) = .ok (mqttReadUint16 buf ptr) := rfl

theorem result_readGrantedQoSs (maxCount enddata : Nat) (buf : List UInt8) (fuel curdata : Nat)
    (granted : List UInt8) :
    (Memory.readGrantedQoSs maxCount enddata fuel curdata granted).result (memoryOf buf) =
      readGrantedQoSs maxCount buf enddata fuel curdata granted := by
  induction fuel generalizing curdata granted with
  | zero => rfl
  | succ fuel ih =>
    rw [Memory.readGrantedQoSs, readGrantedQoSs]
    split
    · split
      · rfl
      · exact ih _ _
    · rfl

theorem result_deserializeAckPacket (buf : List UInt8) :
    (Memory.deserializeAckPacket buf.length).result (memoryOf buf) = deserializeAckPacket buf := by
  rw [Memory.deserializeAckPacket, deserializeAckPacket]
  by_cases short : 4 > buf.length
  · rw [if_pos short, if_pos short]
    rfl
  · rw [if_neg short, if_neg short, Access.result_byte, Access.result_bind,
      Memory.mqttReadPacketRemLenFormBuf, result_remLenFromBuf]
    change _ = (remLenFromBuf buf maxNoOfRemainingLengthBytes 1 1 0 >>= _)
    refine congrArg _ (funext ?_)
    rintro ⟨decodedLen, readBytesLen⟩
    by_cases less : 1 + readBytesLen + decodedLen - (1 + readBytesLen) < 2
    · simp only [if_pos less]
      rfl
    · simp only [if_neg less]
      rw [Access.result_bind, result_mqttReadUint16]
      by_cases more : 1 + readBytesLen + decodedLen - (1 + readBytesLen + 2) ≥ 1
      · simp only [if_pos more]
        change Access.result (memoryOf buf)
          (if memoryOf buf (1 + readBytesLen + 2) ≠ 0 then .fail _ else pure _) = _
        by_cases code : buf.getD (1 + readBytesLen + 2) 0 ≠ 0
        · have code' : memoryOf buf (1 + readBytesLen + 2) ≠ 0 := code
          simp only [if_pos code, if_pos code']
          rfl
        · have code' : ¬ memoryOf buf (1 + readBytesLen + 2) ≠ 0 := code
          simp only [if_neg code, if_neg code']
          rfl
      · simp only [if_neg more]
        rfl

theorem result_deserializeSubackPacket (maxCount : Nat) (buf : List UInt8) :
    (Memory.deserializeSubackPacket maxCount buf.length).result (memoryOf buf) =
      deserializeSubackPacket maxCount buf := by
  rw [Memory.deserializeSubackPacket, deserializeSubackPacket]
  by_cases short : 5 > buf.length
  · rw [if_pos short, if_pos short]
    rfl
  · rw [if_neg short, if_neg short, Access.result_byte]
    by_cases other : headerType (buf.getD 0 0) ≠ MessageType.suback.code
    · have other' : headerType (memoryOf buf 0) ≠ MessageType.suback.code := other
      simp only [if_pos other, if_pos other']
      rfl
    · have other' : ¬ headerType (memoryOf buf 0) ≠ MessageType.suback.code := other
      simp only [if_neg other, if_neg other']
      rw [Access.result_bind, Memory.mqttReadPacketRemLenFormBuf, result_remLenFromBuf]
      change _ = (remLenFromBuf buf maxNoOfRemainingLengthBytes 1 1 0 >>= _)
      refine congrArg _ (funext ?_)
      rintro ⟨decodedLen, readBytesLen⟩
      by_cases less : 1 + readBytesLen + decodedLen - (1 + readBytesLen) < 2
      · simp only [if_pos less]
        rfl
      · simp only [if_neg less]
        rw [Access.result_bind, result_mqttReadUint16]
        change Access.result _ (_ >>= _) = (readGrantedQoSs _ _ _ _ _ _ >>= _)
        rw [Access.result_bind, result_readGrantedQoSs]
        rfl

theorem result_deserializeUnsubackPacket (buf : List UInt8) :
    (Memory.deserializeUnsubackPacket buf.length).result (memoryOf buf) =
      deserializeUnsubackPacket buf := by
  rw [Memory.deserializeUnsubackPacket, deserializeUnsubackPacket, Access.result_bind,
    result_deserializeAckPacket]
  refine congrArg _ (funext ?_)
  rintro ⟨type, packetId⟩
  by_cases other : type ≠ MessageType.unsuback.code
  · simp only [if_pos other]
    rfl
  · simp only [if_neg other]
    rfl

theorem result_deserializeConnackPacket (buf : List UInt8) :
    (Memory.deserializeConnackPacket buf.length).result (memoryOf buf) =
      deserializeConnackPacket buf := by
  rw [Memory.deserializeConnackPacket, deserializeConnackPacket]
  by_cases short : 4 > buf.length
  · rw [if_pos short, if_pos short]
    rfl
  · rw [if_neg short, if_neg short, Access.result_byte]
    by_cases other : headerType (buf.getD 0 0) ≠ MessageType.connack.code
    · have other' : headerType (memoryOf buf 0) ≠ MessageType.connack.code := other
      simp only [if_pos other, if_pos other']
      rfl
    · have other' : ¬ headerType (memoryOf buf 0) ≠ MessageType.connack.code := other
      simp only [if_neg other, if_neg other']
      rw [Access.result_bind, Memory.mqttReadPacketRemLenFormBuf, result_remLenFromBuf]
      change _ = (remLenFromBuf buf maxNoOfRemainingLengthBytes 1 1 0 >>= _)
      refine congrArg _ (funext ?_)
      rintro ⟨decodedLen, readBytesLen⟩
      by_cases less : 1 + readBytesLen + decodedLen - (1 + readBytesLen) ≠ 2
      · simp only [if_pos less]
        rfl
      · simp only [if_neg less]
        rfl

/-! ## What the loops touch -/

/-- The decoder reads as many bytes as it says, one behind the other, and stores nothing. -/
theorem touches_remLenFromBuf (memory : Nat → UInt8) {fuel bufptr multiplier value v count : Nat}
    (bound : fuel ≤ maxNoOfRemainingLengthBytes)
    (ends : (Memory.remLenFromBuf fuel bufptr multiplier value).result memory = .ok (v, count)) :
    ∃ n, count + fuel = maxNoOfRemainingLengthBytes + n ∧
      (Memory.remLenFromBuf fuel bufptr multiplier value).reads memory = List.range' bufptr n ∧
      (Memory.remLenFromBuf fuel bufptr multiplier value).stores memory = [] := by
  induction fuel generalizing bufptr multiplier value with
  | zero => exact nomatch ends
  | succ fuel ih =>
    rw [Memory.remLenFromBuf, Access.result_byte] at ends
    rw [Memory.remLenFromBuf, Access.reads_byte, Access.stores_byte]
    by_cases more : memory bufptr &&& 128 ≠ 0
    · simp only [if_pos more] at ends ⊢
      obtain ⟨n, isCount, reads, stores⟩ := ih (Nat.le_of_succ_le bound) ends
      refine ⟨n + 1, by omega, ?_, stores⟩
      rw [reads, List.range'_succ]
    · simp only [if_neg more] at ends ⊢
      obtain ⟨rfl, rfl⟩ := Prod.mk.inj (Except.ok.inj ends)
      exact ⟨1, by omega, rfl, rfl⟩

theorem reads_readGrantedQoSs (memory : Nat → UInt8) (maxCount enddata fuel curdata : Nat)
    (granted : List UInt8) :
    ∀ place ∈ (Memory.readGrantedQoSs maxCount enddata fuel curdata granted).reads memory,
      place < enddata := by
  induction fuel generalizing curdata granted with
  | zero => exact fun place mem => absurd mem List.not_mem_nil
  | succ fuel ih =>
    rw [Memory.readGrantedQoSs]
    split
    next more =>
      split
      · exact fun place mem => absurd mem List.not_mem_nil
      · rw [Access.reads_byte, Access.reads_put, List.forall_mem_cons]
        exact ⟨more, ih _ _⟩
    · exact fun place mem => absurd mem List.not_mem_nil

/-- The loop stores one entry more than there may be before it notices. -/
theorem stores_readGrantedQoSs (memory : Nat → UInt8) {maxCount fuel : Nat} (enddata curdata : Nat)
    {granted : List UInt8} (rounds : fuel + granted.length = maxCount + 2) :
    (Memory.readGrantedQoSs maxCount enddata fuel curdata granted).stores memory =
      List.range' granted.length (min (enddata - curdata) (maxCount + 1 - granted.length)) := by
  induction fuel generalizing curdata granted with
  | zero =>
    have none : maxCount + 1 - granted.length = 0 := by omega
    rw [none, Nat.min_zero]
    rfl
  | succ fuel ih =>
    rw [Memory.readGrantedQoSs]
    by_cases more : curdata < enddata
    · rw [if_pos more]
      by_cases full : granted.length > maxCount
      · have none : maxCount + 1 - granted.length = 0 := by omega
        rw [if_pos full, none, Nat.min_zero]
        rfl
      · have rest := @ih (curdata + 1) (granted ++ [memory curdata])
          (by rw [List.length_append, List.length_singleton]; omega)
        have count : min (enddata - curdata) (maxCount + 1 - granted.length) =
            min (enddata - (curdata + 1)) (maxCount + 1 - (granted.length + 1)) + 1 := by
          omega
        rw [if_neg full, Access.stores_byte, Access.stores_put, rest, List.length_append,
          List.length_singleton, count, List.range'_succ]
    · have none : enddata - curdata = 0 := by omega
      rw [if_neg more, none, Nat.zero_min]
      rfl

/-- If the loop ends well, it has stored all the return codes. -/
theorem length_readGrantedQoSs {buf : List UInt8} {maxCount fuel enddata curdata : Nat}
    {granted granted' : List UInt8} (rounds : fuel + granted.length = maxCount + 2)
    (some : 0 < fuel)
    (ends : readGrantedQoSs maxCount buf enddata fuel curdata granted = .ok granted') :
    granted'.length = granted.length + (enddata - curdata) := by
  induction fuel generalizing curdata granted with
  | zero => exact absurd some (Nat.lt_irrefl 0)
  | succ fuel ih =>
    rw [readGrantedQoSs] at ends
    by_cases more : curdata < enddata
    · rw [if_pos more] at ends
      by_cases full : granted.length > maxCount
      · rw [if_pos full] at ends
        exact nomatch ends
      · rw [if_neg full] at ends
        have rest := ih (by rw [List.length_append, List.length_singleton]; omega) (by omega) ends
        rw [rest, List.length_append, List.length_singleton]
        omega
    · rw [if_neg more] at ends
      obtain rfl := Except.ok.inj ends
      omega

/-! ## Packets in the read buffer -/

/-- A packet as `_read_mqtt_packet` leaves it in `read_buf`: the fixed header with a canonical
    remaining length, the bytes it announces, and the old bytes behind them. -/
structure ReceivedPacket where
  header : UInt8
  body : List UInt8
  stale : List UInt8
  fills : 1 + (mqttWritePacketRemLen body.length).length + body.length + stale.length =
    qcloudIotMqttRxBufLen

namespace ReceivedPacket

variable (packet : ReceivedPacket)

/-- The packet itself. -/
def bytes : List UInt8 :=
  packet.header :: mqttWritePacketRemLen packet.body.length ++ packet.body

/-- The contents of `read_buf`. -/
def buf : List UInt8 := packet.bytes ++ packet.stale

/-- A program reads bytes of the packet only. -/
def Inside {α : Type} (program : Access Int α) : Prop :=
  ∀ place ∈ program.reads (memoryOf packet.buf), place < packet.bytes.length

/-- What the parsers of the acks should keep to when they are given the packet. -/
structure AcksBounded (maxCount : Nat) : Prop where
  ack : packet.Inside (Memory.deserializeAckPacket packet.buf.length)
  suback : packet.Inside (Memory.deserializeSubackPacket maxCount packet.buf.length)
  unsuback : packet.Inside (Memory.deserializeUnsubackPacket packet.buf.length)
  connack : packet.Inside (Memory.deserializeConnackPacket packet.buf.length)
  stored : ((Memory.deserializeSubackPacket maxCount packet.buf.length).stores
      (memoryOf packet.buf)).length ≤ maxCount ∧
    ∀ place ∈ (Memory.deserializeSubackPacket maxCount packet.buf.length).stores
      (memoryOf packet.buf), place < maxCount
  counted : ∀ packetId granted,
    deserializeSubackPacket maxCount packet.buf = .ok (packetId, granted) →
      1 ≤ granted.length → granted.length ≤ maxCount →
      packet.body.length = 2 + granted.length

/-- The packet is a SUBACK with more return codes than the array of the caller has entries. -/
def Overfull (maxCount : Nat) : Prop :=
  headerType packet.header = MessageType.suback.code ∧ maxCount < packet.body.length - 2

theorem length_bytes : packet.bytes.length =
    1 + (mqttWritePacketRemLen packet.body.length).length + packet.body.length := by
  rw [bytes, List.length_append, List.length_cons]
  omega

theorem length_buf : packet.buf.length = 2048 := by
  have fills : _ = 2048 := packet.fills
  rw [buf, List.length_append, length_bytes]
  exact fills

theorem decodes : mqttReadPacketRemLenFormBuf packet.buf 1 =
    .ok (packet.body.length, (mqttWritePacketRemLen packet.body.length).length) := by
  have small : packet.body.length < 128 ^ maxNoOfRemainingLengthBytes := by
    have fills : _ = 2048 := packet.fills
    exact lt_of_lt_of_le (by omega) (show 2049 ≤ 128 ^ maxNoOfRemainingLengthBytes by decide)
  rw [buf, bytes, List.append_assoc]
  exact mqttReadPacketRemLenFormBuf_written packet.header _ small

/-- The remaining length is read from the bytes behind the first one. -/
theorem reads_remLen {α : Type} (rest : Nat × Nat → Access Int α) :
    (Memory.mqttReadPacketRemLenFormBuf 1 >>= rest).reads (memoryOf packet.buf) =
      List.range' 1 (mqttWritePacketRemLen packet.body.length).length ++
        (rest (packet.body.length, (mqttWritePacketRemLen packet.body.length).length)).reads
          (memoryOf packet.buf) := by
  have ends := (result_remLenFromBuf packet.buf maxNoOfRemainingLengthBytes 1 1 0).trans
    packet.decodes
  obtain ⟨n, isCount, reads, _⟩ := touches_remLenFromBuf _ (Nat.le_refl _) ends
  have isLength : n = (mqttWritePacketRemLen packet.body.length).length := by omega
  rw [Memory.mqttReadPacketRemLenFormBuf, Access.reads_bind _ rest ends, reads, isLength]

theorem stores_remLen {α : Type} (rest : Nat × Nat → Access Int α) :
    (Memory.mqttReadPacketRemLenFormBuf 1 >>= rest).stores (memoryOf packet.buf) =
      (rest (packet.body.length, (mqttWritePacketRemLen packet.body.length).length)).stores
        (memoryOf packet.buf) := by
  have ends := (result_remLenFromBuf packet.buf maxNoOfRemainingLengthBytes 1 1 0).trans
    packet.decodes
  obtain ⟨_, _, _, stores⟩ := touches_remLenFromBuf _ (Nat.le_refl _) ends
  rw [Memory.mqttReadPacketRemLenFormBuf, Access.stores_bind _ rest ends, stores, List.nil_append]

/-- The remaining length lies in the packet. -/
theorem inside_remLen {α : Type} {rest : Nat × Nat → Access Int α}
    (inside : packet.Inside
      (rest (packet.body.length, (mqttWritePacketRemLen packet.body.length).length))) :
    packet.Inside (Memory.mqttReadPacketRemLenFormBuf 1 >>= rest) := by
  have length := packet.length_bytes
  rw [Inside, reads_remLen, List.forall_mem_append]
  refine ⟨?_, inside⟩
  intro place mem
  have below := (List.mem_range'_1.mp mem).2
  omega

theorem inside_fail {α : Type} (error : Int) : packet.Inside (.fail error : Access Int α) :=
  fun _ mem => absurd mem List.not_mem_nil

theorem inside_pure {α : Type} (value : α) : packet.Inside (pure value) :=
  fun _ mem => absurd mem List.not_mem_nil

/-- One more byte of the packet is read. -/
theorem inside_byte {α : Type} {place : Nat} {rest : UInt8 → Access Int α}
    (here : place < packet.bytes.length)
    (inside : packet.Inside (rest (memoryOf packet.buf place))) :
    packet.Inside (.byte place >>= rest) :=
  List.forall_mem_cons.mpr ⟨here, inside⟩

/-- A packet id of the packet is read. -/
theorem inside_uint16 {α : Type} {ptr : Nat} {rest : UInt16 → Access Int α}
    (here : ptr + 1 < packet.bytes.length)
    (inside : packet.Inside (rest (mqttReadUint16 packet.buf ptr))) :
    packet.Inside (Memory.mqttReadUint16 ptr >>= rest) :=
  List.forall_mem_cons.mpr ⟨Nat.lt_of_succ_lt here, List.forall_mem_cons.mpr ⟨here, inside⟩⟩

theorem inside_ack : packet.Inside (Memory.deserializeAckPacket packet.buf.length) := by
  have length := packet.length_bytes
  have long : ¬ 4 > packet.buf.length := by rw [length_buf]; decide
  rw [Memory.deserializeAckPacket, if_neg long]
  refine packet.inside_byte (by omega) (packet.inside_remLen ?_)
  dsimp only
  split
  · exact packet.inside_fail _
  · refine packet.inside_uint16 (by omega) ?_
    split
    · refine packet.inside_byte (by omega) ?_
      split
      · exact packet.inside_fail _
      · exact packet.inside_pure _
    · exact packet.inside_pure _

/-- A program that has stayed inside the packet is followed by one that reads nothing. -/
theorem inside_bind {α β : Type} {first : Access Int α} {rest : α → Access Int β}
    (inside : packet.Inside first) (insideRest : ∀ value, packet.Inside (rest value)) :
    packet.Inside (first >>= rest) := by
  induction first with
  | done value => exact insideRest value
  | fail error => exact packet.inside_fail error
  | read place next ih =>
    obtain ⟨here, behind⟩ := List.forall_mem_cons.mp inside
    exact List.forall_mem_cons.mpr ⟨here, ih _ behind⟩
  | store place entry next ih => exact ih inside

theorem inside_suback (maxCount : Nat) :
    packet.Inside (Memory.deserializeSubackPacket maxCount packet.buf.length) := by
  have length := packet.length_bytes
  have long : ¬ 5 > packet.buf.length := by rw [length_buf]; decide
  rw [Memory.deserializeSubackPacket, if_neg long]
  by_cases other : headerType (memoryOf packet.buf 0) ≠ MessageType.suback.code
  · refine packet.inside_byte (by omega) ?_
    rw [if_pos other]
    exact packet.inside_fail _
  · refine packet.inside_byte (by omega) ?_
    rw [if_neg other]
    refine packet.inside_remLen ?_
    dsimp only
    split
    · exact packet.inside_fail _
    · refine packet.inside_uint16 (by omega) (packet.inside_bind ?_ fun _ => packet.inside_pure _)
      intro place mem
      have below := reads_readGrantedQoSs _ _ _ _ _ _ place mem
      omega

theorem inside_connack : packet.Inside (Memory.deserializeConnackPacket packet.buf.length) := by
  have length := packet.length_bytes
  have long : ¬ 4 > packet.buf.length := by rw [length_buf]; decide
  rw [Memory.deserializeConnackPacket, if_neg long]
  refine packet.inside_byte (by omega) ?_
  split
  · exact packet.inside_fail _
  · refine packet.inside_remLen ?_
    dsimp only
    split
    · exact packet.inside_fail _
    · exact packet.inside_byte (by omega)
        (packet.inside_byte (by omega) (packet.inside_pure _))

theorem inside_unsuback : packet.Inside (Memory.deserializeUnsubackPacket packet.buf.length) := by
  refine packet.inside_bind packet.inside_ack ?_
  rintro ⟨type, packetId⟩
  dsimp only
  split
  · exact packet.inside_fail _
  · exact packet.inside_pure _

/-- What `deserialize_suback_packet` stores: one entry too many if the packet is overfull. -/
theorem stores_suback (maxCount : Nat) :
    (Memory.deserializeSubackPacket maxCount packet.buf.length).stores (memoryOf packet.buf) =
      if headerType packet.header = MessageType.suback.code then
        List.range' 0 (min (packet.body.length - 2) (maxCount + 1))
      else [] := by
  have long : ¬ 5 > packet.buf.length := by rw [length_buf]; decide
  rw [Memory.deserializeSubackPacket, if_neg long, Access.stores_byte]
  change Access.stores _ (if headerType packet.header ≠ MessageType.suback.code then _ else _) = _
  by_cases suback : headerType packet.header = MessageType.suback.code
  · rw [if_neg (not_not.mpr suback), if_pos suback, stores_remLen]
    dsimp only
    split
    next less =>
      have none : packet.body.length - 2 = 0 := by omega
      rw [none, Nat.zero_min]
      rfl
    next some =>
      rw [Access.stores_bind _ _ (result_mqttReadUint16 _ _),
        Access.stores_bind_nil _ _ fun _ => rfl, stores_readGrantedQoSs _ _ _ rfl]
      change List.range' 0 (min _ (maxCount + 1)) = _
      congr 2
      omega
  · rw [if_pos suback, if_neg suback]
    rfl

/-- What `deserialize_suback_packet` returns are all the return codes of the packet. -/
theorem suback_counted {maxCount : Nat} {packetId : UInt16} {granted : List UInt8}
    (parsed : deserializeSubackPacket maxCount packet.buf = .ok (packetId, granted)) :
    packet.body.length = 2 + granted.length := by
  have long : ¬ 5 > packet.buf.length := by rw [length_buf]; decide
  rw [deserializeSubackPacket, if_neg long, packet.decodes] at parsed
  by_cases other : headerType (packet.buf.getD 0 0) ≠ MessageType.suback.code
  · simp only [if_pos other] at parsed
    exact nomatch parsed
  · simp only [if_neg other] at parsed
    by_cases less : 1 + (mqttWritePacketRemLen packet.body.length).length + packet.body.length -
        (1 + (mqttWritePacketRemLen packet.body.length).length) < 2
    · simp only [bind, Except.bind, if_pos less] at parsed
      exact nomatch parsed
    · simp only [bind, Except.bind, if_neg less] at parsed
      rcases loop : readGrantedQoSs maxCount packet.buf
        (1 + (mqttWritePacketRemLen packet.body.length).length + packet.body.length)
        (maxCount + 2) (1 + (mqttWritePacketRemLen packet.body.length).length + 2) [] with
        error | granted'
      · rw [loop] at parsed
        exact nomatch parsed
      · have length := length_readGrantedQoSs rfl (Nat.succ_pos _) loop
        rw [loop] at parsed
        obtain ⟨_, rfl⟩ := Prod.mk.inj (Except.ok.inj parsed)
        rw [length, List.length_nil]
        omega

theorem acksBounded_iff (maxCount : Nat) :
    packet.AcksBounded maxCount ↔ ¬ packet.Overfull maxCount := by
  have stores := packet.stores_suback maxCount
  constructor
  · rintro ⟨_, _, _, _, ⟨few, _⟩, _⟩ ⟨suback, more⟩
    rw [stores, if_pos suback, List.length_range'] at few
    omega
  · intro fits
    refine ⟨packet.inside_ack, packet.inside_suback maxCount, packet.inside_unsuback,
      packet.inside_connack, ?_, fun _ _ parsed _ _ => packet.suback_counted parsed⟩
    rw [stores]
    split
    next suback =>
      have upTo : ¬ maxCount < packet.body.length - 2 := fun more => fits ⟨suback, more⟩
      rw [List.length_range']
      refine ⟨by omega, ?_⟩
      intro place mem
      have below := (List.mem_range'_1.mp mem).2
      omega
    · exact ⟨Nat.zero_le _, fun place mem => absurd mem List.not_mem_nil⟩

end ReceivedPacket

/-- On every packet that `_read_mqtt_packet` leaves in `read_buf` the parsers of the acks keep to
    their bounds, except for a SUBACK with more return codes than there is room for. -/
theorem ackParsers_bounded_iff (w : World)
    (size : w.client.readBuf.length = qcloudIotMqttRxBufLen) :
    readMqttPacket.wp (fun out w' => out.1 = qcloudRetSuccess →
      (∃ packet : ReceivedPacket, w'.client.readBuf = packet.buf) ∧
      ∀ packet : ReceivedPacket, w'.client.readBuf = packet.buf → ∀ maxCount,
        packet.AcksBounded maxCount ↔ ¬ packet.Overfull maxCount) w := by
  refine Prog.wp_mono (readMqttPacket_leaves w size) ?_
  rintro ⟨rc, packetType⟩ w' leaves success
  refine ⟨?_, fun packet _ maxCount => packet.acksBounded_iff maxCount⟩
  obtain ⟨header, body, stale, _, stored, size'⟩ := leaves success
  refine ⟨⟨header, body, stale, ?_⟩, ?_⟩
  · rw [← size', stored]
    simp only [List.length_append, List.length_cons]
    omega
  · exact stored.trans (List.append_assoc (header :: mqttWritePacketRemLen body.length) _ _).symm

theorem ackParsers_bounded_initial :
    readMqttPacket.wp (fun out w' => out.1 = qcloudRetSuccess →
      (∃ packet : ReceivedPacket, w'.client.readBuf = packet.buf) ∧
      ∀ packet : ReceivedPacket, w'.client.readBuf = packet.buf → ∀ maxCount,
        packet.AcksBounded maxCount ↔ ¬ packet.Overfull maxCount)
      (.sentTo [0x90, 0x03, 0x00, 0x01, 0x00]) :=
  ackParsers_bounded_iff (.sentTo [0x90, 0x03, 0x00, 0x01, 0x00]) List.length_replicate

/-- A packet that has been sent and fits is left in `read_buf`. -/
theorem readMqttPacket_receives {w : World} {packet : Packet} {later : List UInt8}
    (delivers : w.Delivers) (sent : w.net.rx = packet.bytes ++ later)
    (size : w.client.readBuf.length = qcloudIotMqttRxBufLen)
    (fits : packet.canonical.length ≤ qcloudIotMqttRxBufLen) :
    readMqttPacket.wp (fun out w' => out.1 = qcloudRetSuccess ∧
      ∃ received : ReceivedPacket, received.header = packet.header ∧
        received.body = packet.payload ∧ w'.client.readBuf = received.buf) w := by
  have isSize : w.client.readBufSize = qcloudIotMqttRxBufLen := size
  rw [wp_readMqttPacket, isSize]
  refine Prog.wp_mono (readMqttPacketIn_packetRead delivers sent (by decide)
    (Nat.le_of_eq size.symm)) ?_
  rintro ⟨rc, packetType⟩ w' read
  have success := read.fits.mpr fits
  have front := (read.found success).2
  have fills : 1 + (mqttWritePacketRemLen packet.payload.length).length + packet.payload.length +
      (w'.client.readBuf.drop packet.canonical.length).length = qcloudIotMqttRxBufLen := by
    have total := packet.length_canonical
    rw [List.length_drop, read.length, size]
    omega
  refine ⟨success, ⟨packet.header, packet.payload, _, fills⟩, rfl, rfl, ?_⟩
  calc w'.client.readBuf
      = w'.client.readBuf.take packet.canonical.length ++
          w'.client.readBuf.drop packet.canonical.length := (List.take_append_drop _ _).symm
    _ = packet.canonical ++ w'.client.readBuf.drop packet.canonical.length := by rw [front]

/-- A SUBACK with two return codes. -/
def twoGranted : Packet where
  header := 0x90
  digits := [0x04]
  payload := [0x00, 0x01, 0x00, 0x00]
  isField := show (4 : UInt8).toNat < 128 by decide
  short := by decide
  announced := by decide

/-- They are stored in an array of one entry, as `_handle_suback_packet` has it. -/
theorem grantedQoSs_overrun : ¬ ∀ w : World, w.client.readBuf.length = qcloudIotMqttRxBufLen →
    readMqttPacket.wp (fun out w' => out.1 = qcloudRetSuccess →
      ∀ packet : ReceivedPacket, w'.client.readBuf = packet.buf → ∀ maxCount,
        packet.AcksBounded maxCount) w := by
  intro bounded
  have sent : (World.sentTo twoGranted.bytes).net.rx = twoGranted.bytes ++ [] := by
    rw [World.sentTo_rx, List.append_nil]
  have left := bounded (.sentTo twoGranted.bytes) List.length_replicate
  obtain ⟨success, received, header, body, held⟩ := readMqttPacket_receives
    (World.sentTo_delivers _) sent List.length_replicate (show 6 ≤ 2048 by decide)
  refine (received.acksBounded_iff 1).mp (left success received held 1) ⟨?_, ?_⟩
  · rw [header]
    decide
  · rw [body]
    decide

end QcloudIot.Mqtt
