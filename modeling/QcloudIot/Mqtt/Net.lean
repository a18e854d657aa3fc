import QcloudIot.Mqtt.Codec

/-!
# Packets on the network

`send_mqtt_packet` and `_read_mqtt_packet` of `mqtt_client_common.c`, with the loops over
`network_stack.write` and `network_stack.read`.
-/

namespace QcloudIot.Mqtt

/-- `bytes` stored into `buf` from offset `pos`; what does not fit is lost. -/
def overwrite (buf : List UInt8) (pos : Nat) (bytes : List UInt8) : List UInt8 :=
  (buf.take pos ++ bytes ++ buf.drop (pos + bytes.length)).take buf.length

@[simp] theorem length_overwrite (buf : List UInt8) (pos : Nat) (bytes : List UInt8) :
    (overwrite buf pos bytes).length = buf.length := by
  simp only [overwrite, List.length_take, List.length_append, List.length_drop]
  omega

/-- Bytes that fit are found where they were stored. -/
theorem overwrite_zero {buf bytes : List UInt8} (fits : bytes.length ≤ buf.length) :
    overwrite buf 0 bytes = bytes ++ buf.drop bytes.length := by
  rw [overwrite, List.take_of_length_le]
  · simp
  · simp only [List.take_zero, List.nil_append, List.length_append, List.length_drop]
    omega

/-- Bytes are written to `write_buf`. -/
def writeToWriteBuf (pos : Nat) (bytes : List UInt8) : Sdk Unit :=
  setClient fun c => { c with writeBuf := overwrite c.writeBuf pos bytes }

@[simp] theorem wp_writeToWriteBuf {Q : Unit → World → Prop} {w : World} (pos : Nat)
    (bytes : List UInt8) :
    (writeToWriteBuf pos bytes).wp Q w ↔ Q () (w.setClient { w.client with
      writeBuf := overwrite w.client.writeBuf pos bytes }) := ⟨id, id⟩

/-- Bytes are written to `read_buf`. -/
def writeToReadBuf (pos : Nat) (bytes : List UInt8) : Sdk Unit :=
  setClient fun c => { c with readBuf := overwrite c.readBuf pos bytes }

@[simp] theorem wp_writeToReadBuf {Q : Unit → World → Prop} {w : World} (pos : Nat)
    (bytes : List UInt8) :
    (writeToReadBuf pos bytes).wp Q w ↔ Q () (w.setClient { w.client with
      readBuf := overwrite w.client.readBuf pos bytes }) := ⟨id, id⟩

/-! ## Sending -/

/-- The memory from `&write_buf[sent]` on: in `Qcloud_IoT_Client` the array `write_buf` is
    followed by the array `read_buf`. -/
def Client.writeBufFrom (c : Client) (sent : Nat) : List UInt8 := (c.writeBuf ++ c.readBuf).drop sent

/-- The loop of `send_mqtt_packet`: `sent` and `rc` when it is left. Every round takes one
    write outcome and a write fails when there is none left, so `fuel` does not run out. -/
def sendLoop (length : Nat) (timer : Timer) : Nat → Nat → Sdk (Nat × Int)
  | 0, sent => return (sent, qcloudRetSuccess)
  | fuel + 1, sent => do
    if sent < length then
      if ← expired timer then
        return (sent, qcloudRetSuccess)
      else
        let c ← client
        -- the source asks for `length` bytes whatever was sent before
        let (rc, sentLen) ← networkWrite ((c.writeBufFrom sent).take length)
        if rc ≠ qcloudRetSuccess then
          return (sent, rc)
        else
          sendLoop length timer fuel (sent + sentLen)
    else
      return (sent, qcloudRetSuccess)

/-- `send_mqtt_packet` (`mqtt_client_common.c:510-555`). -/
def sendMqttPacket (length : Nat) (timer : Timer) : Sdk Int := do
  let c ← client
  if length ≥ c.writeBufSize then
    return qcloudErrBufTooShort
  else if ← expired timer then
    return qcloudErrMqttRequestTimeout
  else
    let fuel ← .prim fun w => (w.env.writes.length + 1, w)
    let (sent, rc) ← sendLoop length timer fuel 0
    if sent = length then
      return qcloudRetSuccess
    else if rc = qcloudRetSuccess then
      if ← expired timer then
        return qcloudErrMqttRequestTimeout
      else
        return rc
    else
      return rc

/-! ## Reading -/

/-- The loop of `_decode_packet_rem_len_with_net_read`. -/
def remLenFromNet : Nat → Nat → Nat → Sdk (Int × Nat)
  | 0, _, value => return (qcloudErrMqttPacketRead, value)
  | fuel + 1, multiplier, value => do
    let (rc, data) ← networkRead 1
    if rc ≠ qcloudRetSuccess then
      return (qcloudErrFailure, value)
    else
      let i := data.headD 0
      let value := value + (i &&& 127).toNat * multiplier
      if i &&& 128 ≠ 0 then
        remLenFromNet fuel (multiplier * 128) value
      else
        return (qcloudRetSuccess, value)

/-- `_decode_packet_rem_len_with_net_read` (`mqtt_client_common.c:557-590`): the return code
    and the value decoded so far. -/
def decodePacketRemLenWithNetRead : Sdk (Int × Nat) :=
  remLenFromNet maxNoOfRemainingLengthBytes 1 0

/-- The loop that discards a packet longer than `read_buf`, asking for `bytesToBeRead` bytes
    after `totalBytesRead` of `remLen`. A successful round of a non-empty buffer makes
    progress, so `fuel = remLen + 1` does not run out. -/
def discardLoop (remLen : Nat) : Nat → Nat → Nat → Sdk Unit
  | 0, _, _ => return ()
  | fuel + 1, bytesToBeRead, totalBytesRead => do
    let (retVal, data) ← networkRead bytesToBeRead
    writeToReadBuf 0 data
    if retVal = qcloudRetSuccess then
      let c ← client
      let totalBytesRead := totalBytesRead + data.length
      if totalBytesRead < remLen then
        discardLoop remLen fuel
          (if remLen - totalBytesRead ≥ c.readBufSize then c.readBufSize
           else remLen - totalBytesRead) totalBytesRead
      else
        return ()
    else
      return ()

/-- `_read_mqtt_packet` (`mqtt_client_common.c:604-703`): the return code and
    `*packet_type`, which only a successful call assigns. -/
def readMqttPacket : Sdk (Int × Option UInt8) := do
  -- 1. read 1st byte in fixed header and check if valid
  let (rc, data) ← networkRead 1
  writeToReadBuf 0 data
  if rc = qcloudErrSslNothingToRead ∨ rc = qcloudErrTcpNothingToRead then
    return (qcloudErrMqttNothingToRead, none)
  else if rc ≠ qcloudRetSuccess then
    return (rc, none)
  else
    -- 2. read the remaining length
    let (rc, remLen) ← decodePacketRemLenWithNetRead
    if rc ≠ qcloudRetSuccess then
      return (rc, none)
    else
      let c ← client
      -- if read buffer is not enough to read the remaining length, discard the packet
      if remLen ≥ c.readBufSize then
        discardLoop remLen (remLen + 1) c.readBufSize 0
        return (qcloudErrBufTooShort, none)
      else
        writeToReadBuf 1 (mqttWritePacketRemLen remLen)
        let len := 1 + (mqttWritePacketRemLen remLen).length
        -- 3. read payload according to remaining length
        if remLen > 0 ∧ len + remLen > c.readBufSize then
          let (_, data) ← networkRead remLen
          writeToReadBuf 0 data
          return (qcloudErrBufTooShort, none)
        else if remLen > 0 then
          let (rc, data) ← networkRead remLen
          writeToReadBuf len data
          if rc ≠ qcloudRetSuccess then
            return (rc, none)
          else
            let c ← client
            return (qcloudRetSuccess, some (headerType (c.readBuf.getD 0 0)))
        else
          let c ← client
          return (qcloudRetSuccess, some (headerType (c.readBuf.getD 0 0)))

end QcloudIot.Mqtt
