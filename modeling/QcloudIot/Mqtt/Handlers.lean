import QcloudIot.Mqtt.Requests
import QcloudIot.Mqtt.Topic

/-!
# Inbound packets

The packet handlers of `mqtt_client_common.c`, `cycle_for_read` and `wait_for_read`. A
handler that may restart the caller's timer returns the timer with its return code.
-/

namespace QcloudIot.Mqtt

/-! ## Delivery -/

/-- The bytes of a buffer up to the first NUL; without one `strlen` runs on past the array,
    where the model stops. -/
def cstrOf (buf : List UInt8) : List UInt8 := buf.takeWhile (· ≠ 0)

/-- The test of `_deliver_message` on one table entry. -/
def handleMatches (topicName : List UInt8) (topicNameLen : Nat) (h : SubTopicHandle) : Bool :=
  match h.topicFilter with
  | none => false
  | some stored =>
    isTopicEquals (cstrOf topicName) stored.text ||
      isTopicMatched stored.text (topicName.take topicNameLen)

/-- The loop of `_deliver_message`: the first matching entry with a message handler gets
    the message. -/
def deliverLoop (topicName : List UInt8) (topicNameLen : Nat) (message : MqttMessage) :
    List (Fin maxMessageHandlers) → Sdk Bool
  | [] => return false
  | i :: rest => do
    let c ← client
    let h := c.subHandles i
    if handleMatches topicName topicNameLen h then
      match h.messageHandler with
      | some fn =>
        emit (.message fn message h.handlerUserData)
        return true
      | none => deliverLoop topicName topicNameLen message rest
    else
      deliverLoop topicName topicNameLen message rest

/-- `_deliver_message` (`mqtt_client_common.c:781-821`) on the array `topicName`. -/
def deliverMessage (topicName : List UInt8) (topicNameLen : Nat) (message : MqttMessage) :
    Sdk Int := do
  let message := { message with ptopic := topicName.take topicNameLen, topicLen := topicNameLen }
  if ← deliverLoop topicName topicNameLen message (List.finRange maxMessageHandlers) then
    return qcloudRetSuccess
  else
    notify .publishRecveived (.message message)
    return qcloudRetSuccess

/-! ## Acknowledgements -/

/-- The marking of one node by `_mask_pubInfo_from`. -/
def PubInfo.mask (msgId : UInt16) (node : PubInfo) : PubInfo :=
  if node.msgId = msgId then { node with nodeState := .invalid } else node

/-- `_mask_pubInfo_from` (`mqtt_client_common.c:828-870`): every node with the id is marked. -/
def maskPubInfoFrom (msgId : UInt16) : Sdk Unit := do
  let c ← client
  if c.listPubWaitAck.length = 0 then
    return ()
  else if !(← halMalloc) then
    -- list_iterator_new
    return ()
  else
    setClient fun c => { c with listPubWaitAck := c.listPubWaitAck.map (PubInfo.mask msgId) }

/-- The loop of `_mask_sub_info_from` from the tail of the list to its head: every node with
    the id is marked and the handle of the last one visited is returned. -/
def maskSubInfoLoop (msgId : UInt16) (messageHandler : SubTopicHandle) :
    List SubInfo → List SubInfo × SubTopicHandle
  | [] => ([], messageHandler)
  | node :: towardsTail =>
    let (masked, found) := maskSubInfoLoop msgId messageHandler towardsTail
    if node.msgId = msgId then ({ node with nodeState := .invalid } :: masked, node.handler)
    else (node :: masked, found)

/-- `_mask_sub_info_from` (`mqtt_client_common.c:877-919`): the contents of
    `*messageHandler` after the call. -/
def maskSubInfoFrom (msgId : UInt16) (messageHandler : SubTopicHandle) : Sdk SubTopicHandle := do
  let c ← client
  if c.listSubWaitAck.length = 0 then
    return messageHandler
  else if !(← halMalloc) then
    -- list_iterator_new
    return messageHandler
  else
    let (masked, found) := maskSubInfoLoop msgId messageHandler c.listSubWaitAck
    setClient fun c => { c with listSubWaitAck := masked }
    return found

/-- `_handle_puback_packet` (`mqtt_client_common.c:921-947`). -/
def handlePubackPacket : Sdk Int := do
  let c ← client
  match deserializeAckPacket c.readBuf with
  | .error rc => return rc
  | .ok (_, packetId) =>
    maskPubInfoFrom packetId
    -- notify this event to user callback
    notify .publishSuccess (.packetId packetId)
    return qcloudRetSuccess

/-- `_check_handle_is_identical` (`mqtt_client_common.c:34-59`) is 0 on two handles with a
    topic filter. -/
def checkHandleIsIdentical (subHandle1 subHandle2 : SubTopicHandle) : Bool :=
  match subHandle1.topicFilter, subHandle2.topicFilter with
  | some filter1, some filter2 =>
    filter1.text = filter2.text && subHandle1.messageHandler = subHandle2.messageHandler &&
      subHandle1.subEventHandler = subHandle2.subEventHandler
  | _, _ => false

/-- The loop of `_handle_suback_packet` over the table slots: the slot of an identical entry
    (`flag_dup`), and the first empty slot seen before the loop is left (`i_free`). -/
def subackScan (subHandles : Fin maxMessageHandlers → SubTopicHandle) (subHandle : SubTopicHandle) :
    List (Fin maxMessageHandlers) → Option (Fin maxMessageHandlers) →
      Option (Fin maxMessageHandlers) × Option (Fin maxMessageHandlers)
  | [], free => (none, free)
  | i :: rest, free =>
    if (subHandles i).topicFilter ≠ none then
      if checkHandleIsIdentical (subHandles i) subHandle then (some i, free)
      else subackScan subHandles subHandle rest free
    else subackScan subHandles subHandle rest (free.or (some i))

/-- The hand-over of an acknowledged handle to the handler table
    (`mqtt_client_common.c:1004-1037`); whether the table had room for it. -/
def installSubHandle (subHandle : SubTopicHandle) : Sdk Bool := do
  let c ← client
  match subackScan c.subHandles subHandle (List.finRange maxMessageHandlers) none with
  | (some i, _) =>
    let entry := { c.subHandles i with handlerUserData := subHandle.handlerUserData }
    setClient fun c => { c with subHandles := Function.update c.subHandles i entry }
    halFree subHandle.topicFilter
    return true
  | (none, some iFree) =>
    setClient fun c => { c with subHandles := Function.update c.subHandles iFree subHandle }
    return true
  | (none, none) => return false

/-- `_handle_suback_packet` (`mqtt_client_common.c:949-1055`). -/
def handleSubackPacket : Sdk Int := do
  let c ← client
  match deserializeSubackPacket 1 c.readBuf with
  | .error rc => return rc
  | .ok (packetId, grantedQoS) =>
    -- grantedQoS[0] keeps its initial QOS0 when the packet carries no return code
    let subNack := grantedQoS.headD 0 == 0x80
    if subNack then
      emit (if c.eventHandle ≠ none then .mqtt .subcribeNack (.packetId packetId) else .nullCall)
      let subHandle ← maskSubInfoFrom packetId .zero
      if subHandle.topicFilter = none then
        return qcloudErrMqttSub
      else
        notifySub subHandle.subEventHandler .subcribeNack subHandle.handlerUserData
        halFree subHandle.topicFilter
        return qcloudErrMqttSub
    else
      let subHandle ← maskSubInfoFrom packetId .zero
      if subHandle.topicFilter = none then
        return qcloudErrMqttSub
      else if !(← installSubHandle subHandle) then
        return qcloudErrFailure
      else
        notify .subcribeSuccess (.packetId packetId)
        notifySub subHandle.subEventHandler .subcribeSuccess subHandle.handlerUserData
        return qcloudRetSuccess

/-- `_handle_unsuback_packet` (`mqtt_client_common.c:1057-1094`). The local `messageHandler`
    is not initialised. -/
def handleUnsubackPacket : Sdk Int := do
  let c ← client
  match deserializeUnsubackPacket c.readBuf with
  | .error rc => return rc
  | .ok packetId =>
    let messageHandler ← maskSubInfoFrom packetId (← uninitialised)
    -- Free the topic filter malloced in qcloud_iot_mqtt_unsubscribe
    halFree messageHandler.topicFilter
    notify .unsubcribeSuccess (.packetId packetId)
    return qcloudRetSuccess

/-! ## PUBLISH -/

/-- `_get_packet_id_in_repeat_buf` (`mqtt_client_common.c:1098-1107`). -/
def getPacketIdInRepeatBuf (c : Client) (packetId : UInt16) : Int :=
  if (List.finRange mqttMaxRepeatBufLen).any fun i => packetId == c.repeatPacketIdBuf i then
    packetId.toNat
  else -1

/-- `_add_packet_id_to_repeat_buf` (`mqtt_client_common.c:1109-1118`). -/
def addPacketIdToRepeatBuf (packetId : UInt16) : Sdk Unit := do
  let c ← client
  if getPacketIdInRepeatBuf c packetId > 0 then
    return ()
  else
    setClient fun c => { c with
      repeatPacketIdBuf := Function.update c.repeatPacketIdBuf c.currentPacketIdCnt packetId
      currentPacketIdCnt := c.currentPacketIdCnt + 1 }

/-- `reset_repeat_packet_id_buffer` (`mqtt_client_common.c:1120-1127`), called by
    `IOT_MQTT_Destroy` only. -/
def resetRepeatPacketIdBuffer (c : Client) : Client :=
  { c with repeatPacketIdBuf := fun _ => 0, currentPacketIdCnt := 0 }

/-- `if (expired(timer)) countdown_ms(timer, 100)`: the caller's timer afterwards. -/
def extendTimer (timer : Timer) : Sdk Timer := do
  if ← expired timer then countdownMs 100 else return timer

/-- The tail of `_handle_publish_packet` and of `_handle_pubrec_packet`: serialize an
    acknowledgement and send it. -/
def sendPubAck (packetType : MessageType) (packetId : UInt16) (timer : Timer) :
    Sdk (Int × Timer) := do
  let c ← client
  match serializePubAckPacket c.writeBufSize packetType 0 packetId with
  | .error rc => return (rc, timer)
  | .ok packet =>
    writeToWriteBuf 0 packet
    let timer ← extendTimer timer
    let rc ← sendMqttPacket packet.length timer
    return (rc, timer)

/-- `fix_topic` and the length of the topic in it (`mqtt_client_common.c:1146-1153`); the topic
    in the packet is not null terminated. -/
def fixTopic (readBuf : List UInt8) (topicName topicLen : Nat) : List UInt8 × Nat :=
  let topicLen := if topicLen > maxSizeOfCloudTopic then maxSizeOfCloudTopic - 1 else topicLen
  (overwrite (List.replicate maxSizeOfCloudTopic 0) 0 ((readBuf.drop topicName).take topicLen),
    topicLen)

/-- `_handle_publish_packet` (`mqtt_client_common.c:1131-1207`). With QoS 0 `msg.id` is not
    initialised. -/
def handlePublishPacket (timer : Timer) : Sdk (Int × Timer) := do
  let c ← client
  match deserializePublishPacket c.readBuf 0 with
  | .error rc => return (rc, timer)
  | .ok (msg, topicName, topicLen) =>
    let (fixTopic, topicLen) := fixTopic c.readBuf topicName topicLen
    if msg.qos = QoS.qos0.code then
      let rc ← deliverMessage fixTopic topicLen msg
      return (rc, timer)
    else
      -- check if packet_id has been received before
      let repeatId := getPacketIdInRepeatBuf c msg.id
      let rc ← (if repeatId < 0 then deliverMessage fixTopic topicLen msg
        else pure qcloudRetSuccess)
      if rc ≠ qcloudRetSuccess then
        return (rc, timer)
      else
        addPacketIdToRepeatBuf msg.id
        sendPubAck (if msg.qos = QoS.qos1.code then .puback else .pubrec) msg.id timer

/-- `_handle_pubrec_packet` (`mqtt_client_common.c:1209-1245`). -/
def handlePubrecPacket (timer : Timer) : Sdk (Int × Timer) := do
  let c ← client
  match deserializeAckPacket c.readBuf with
  | .error rc => return (rc, timer)
  | .ok (_, packetId) => sendPubAck .pubrel packetId timer

/-- `_handle_pingresp_packet` (`mqtt_client_common.c:1247-1257`). -/
def handlePingrespPacket : Sdk Unit := do
  let c ← client
  let pingTimer ← countdown c.options.keepAliveInterval.toNat
  setClient fun c => { c with isPingOutstanding := 0, pingTimer := pingTimer }

/-! ## One packet, and waiting for a packet -/

/-- The first `switch` of `cycle_for_read`: the handler of a packet type. -/
def handlePacket (packetType : UInt8) (timer : Timer) : Sdk (Int × Timer) :=
  if packetType = MessageType.connack.code then return (qcloudRetSuccess, timer)
  else if packetType = MessageType.puback.code then do return (← handlePubackPacket, timer)
  else if packetType = MessageType.suback.code then do return (← handleSubackPacket, timer)
  else if packetType = MessageType.unsuback.code then do return (← handleUnsubackPacket, timer)
  else if packetType = MessageType.publish.code then handlePublishPacket timer
  else if packetType = MessageType.pubrec.code then handlePubrecPacket timer
  else if packetType = MessageType.pubrel.code then return (qcloudRetSuccess, timer)
  else if packetType = MessageType.pubcomp.code then return (qcloudRetSuccess, timer)
  else if packetType = MessageType.pingresp.code then return (qcloudRetSuccess, timer)
  else return (qcloudErrRxMessageInval, timer)

/-- The second `switch` of `cycle_for_read`: the packet types that count as a sign of life. -/
def notePacket (packetType : UInt8) : Sdk Unit :=
  if packetType = MessageType.puback.code ∨ packetType = MessageType.suback.code ∨
      packetType = MessageType.unsuback.code ∨ packetType = MessageType.pingresp.code then
    handlePingrespPacket
  else if packetType = MessageType.publish.code then
    setClient fun c => { c with isPingOutstanding := 0 }
  else return ()

/-- `cycle_for_read` (`mqtt_client_common.c:1259-1334`): the return code, the packet type
    when a packet was read, and the caller's timer. -/
def cycleForRead (timer : Timer) : Sdk (Int × Option UInt8 × Timer) := do
  let (rc, packetType) ← readMqttPacket
  if rc = qcloudErrMqttNothingToRead then
    return (qcloudRetSuccess, none, timer)
  else match packetType with
  | none => return (rc, none, timer)
  | some packetType =>
    let (rc, timer) ← handlePacket packetType timer
    -- the function returns here on a packet of another type, of which the second switch knows none
    notePacket packetType
    return (rc, some packetType, timer)

/-- The loop of `wait_for_read`. A round takes at least one read outcome and a read fails
    when there is none left, so `fuel` does not run out. -/
def waitLoop (packetType : UInt8) : Nat → Timer → Sdk (Int × Timer)
  | 0, timer => return (qcloudErrMqttRequestTimeout, timer)
  | fuel + 1, timer => do
    if ← expired timer then
      return (qcloudErrMqttRequestTimeout, timer)
    else
      let (rc, readPacketType, timer) ← cycleForRead timer
      if rc = qcloudRetSuccess ∧ readPacketType ≠ some packetType then
        waitLoop packetType fuel timer
      else
        return (rc, timer)

/-- `wait_for_read` (`mqtt_client_common.c:1336-1354`). -/
def waitForRead (packetType : UInt8) (timer : Timer) : Sdk (Int × Timer) := do
  let fuel ← .prim fun w => (w.env.reads.length + 1, w)
  waitLoop packetType fuel timer

end QcloudIot.Mqtt
