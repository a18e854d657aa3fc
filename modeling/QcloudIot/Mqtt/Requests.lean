import QcloudIot.Mqtt.Net

/-!
# Requests of the application

`qcloud_iot_mqtt_publish`, `qcloud_iot_mqtt_subscribe`, `qcloud_iot_mqtt_unsubscribe` with
the two wait lists they push to, `qcloud_iot_mqtt_resubscribe` and
`qcloud_iot_mqtt_is_sub_ready`.
-/

namespace QcloudIot.Mqtt

/-- `get_next_packet_id` (`mqtt_client_common.c:61-73`) as a function of the last id. -/
def nextId (id : UInt16) : UInt16 := if maxPacketId = id then 1 else id + 1

/-- `get_next_packet_id` (`mqtt_client_common.c:61-73`). -/
def getNextPacketId : Sdk UInt16 := do
  setClient fun c => { c with nextPacketId := nextId c.nextPacketId }
  return (← client).nextPacketId

@[simp] theorem wp_getNextPacketId {Q : UInt16 → World → Prop} {w : World} :
    getNextPacketId.wp Q w ↔ Q (nextId w.client.nextPacketId)
      (w.setClient { w.client with nextPacketId := nextId w.client.nextPacketId }) :=
  ⟨id, id⟩

/-- `get_client_conn_state` (`mqtt_client_common.c:1363-1371`). -/
def getClientConnState : Sdk Bool := do
  return (← client).isConnected

@[simp] theorem wp_getClientConnState {Q : Bool → World → Prop} {w : World} :
    getClientConnState.wp Q w ↔ Q w.client.isConnected w := ⟨id, id⟩

/-- `set_client_conn_state` (`mqtt_client_common.c:1356-1361`). -/
def setClientConnState (connected : Bool) : Sdk Unit :=
  setClient fun c => { c with isConnected := connected }

@[simp] theorem wp_setClientConnState {Q : Unit → World → Prop} {w : World} (connected : Bool) :
    (setClientConnState connected).wp Q w ↔
      Q () (w.setClient { w.client with isConnected := connected }) := ⟨id, id⟩

/-! ## Wait lists -/

/-- `push_sub_info_to` (`mqtt_client_common.c:1378-1427`). -/
def pushSubInfoTo (len : Nat) (msgId : UInt16) (type : MessageType) (handler : SubTopicHandle) :
    Sdk Int := do
  let c ← client
  if c.listSubWaitAck.length ≥ maxMessageHandlers then
    return qcloudErrMqttMaxSubscriptions
  else if !(← halMalloc) then
    return qcloudErrFailure
  else
    let subStartTime ← countdownMs c.commandTimeoutMs
    -- list_node_new
    if !(← halMalloc) then
      return qcloudErrFailure
    else
      setClient fun c => { c with listSubWaitAck := c.listSubWaitAck ++
        [{ type := type, msgId := msgId, subStartTime := subStartTime, nodeState := .normanl,
           handler := handler, len := len % 2 ^ 16, buf := c.writeBuf.take len }] }
      return qcloudRetSuccess

/-- `_mask_push_pubInfo_to` (`mqtt_client_publish.c:75-127`). -/
def maskPushPubInfoTo (len : Nat) (msgId : UInt16) : Sdk Int := do
  let c ← client
  if len > c.writeBufSize then
    return qcloudErrFailure
  else if c.listPubWaitAck.length ≥ maxRepubNum then
    return qcloudErrFailure
  else if !(← halMalloc) then
    return qcloudErrFailure
  else
    let pubStartTime ← countdownMs c.commandTimeoutMs
    -- list_node_new
    if !(← halMalloc) then
      return qcloudErrFailure
    else
      setClient fun c => { c with listPubWaitAck := c.listPubWaitAck ++
        [{ pubStartTime := pubStartTime, nodeState := .normanl, msgId := msgId, len := len,
           buf := c.writeBuf.take len }] }
      return qcloudRetSuccess

/-- `list_remove` of the node a request has just pushed, which is the tail of the list. -/
def removePushedSubInfo : Sdk Unit :=
  setClient fun c => { c with listSubWaitAck := c.listSubWaitAck.dropLast }

/-- The same for the publish wait list. -/
def removePushedPubInfo : Sdk Unit :=
  setClient fun c => { c with listPubWaitAck := c.listPubWaitAck.dropLast }

/-! ## Publish -/

/-- `qcloud_iot_mqtt_publish` (`mqtt_client_publish.c:299-381`). -/
def qcloudIotMqttPublish (topicName : CStr) (params : PublishParams) : Sdk Int := do
  if topicName.length = 0 then
    return qcloudErrInval
  else if topicName.length > maxSizeOfCloudTopic then
    return qcloudErrMaxTopicLength
  else if params.qos = .qos2 then
    return qcloudErrMqttQosNotSupport
  else if !(← getClientConnState) then
    return qcloudErrMqttNoConn
  else
    let c ← client
    let timer ← countdownMs c.commandTimeoutMs
    let id ← (if params.qos = .qos1 then getNextPacketId else pure params.id)
    match serializePublishPacket c.writeBufSize 0 params.qos params.retained id topicName
        params.payload with
    | .error rc => return rc
    | .ok packet =>
      writeToWriteBuf 0 packet
      let rc ← (if params.qos = .qos0 then pure qcloudRetSuccess
        else maskPushPubInfoTo packet.length id)
      if rc ≠ qcloudRetSuccess then
        return rc
      else
        let rc ← sendMqttPacket packet.length timer
        if rc ≠ qcloudRetSuccess then
          if params.qos = .qos0 then
            return rc
          else
            removePushedPubInfo
            return rc
        else
          return (id.toNat : Int)

/-! ## Subscribe and unsubscribe -/

/-- The common part of `qcloud_iot_mqtt_subscribe` (`mqtt_client_subscribe.c:127-182`) and
    `qcloud_iot_mqtt_unsubscribe` (`mqtt_client_unsubscribe.c:149-194`): store the filter,
    take a packet id, serialize, push to the wait list, send, and undo on a failure. The two
    differ in the serializer, the node type and the handle that is pushed. -/
def sendSubRequest (topicFilter : CStr) (type : MessageType)
    (serialize : Nat → UInt16 → Except Int (List UInt8))
    (subHandle : StoredFilter → SubTopicHandle) : Sdk Int := do
  match ← halMallocString topicFilter with
  | none => return qcloudErrFailure
  | some topicFilterStored =>
    let c ← client
    let timer ← countdownMs c.commandTimeoutMs
    let packetId ← getNextPacketId
    match serialize c.writeBufSize packetId with
    | .error rc =>
      halFree (some topicFilterStored)
      return rc
    | .ok packet =>
      writeToWriteBuf 0 packet
      let rc ← pushSubInfoTo packet.length packetId type (subHandle topicFilterStored)
      if rc ≠ qcloudRetSuccess then
        halFree (some topicFilterStored)
        return rc
      else
        let rc ← sendMqttPacket packet.length timer
        if rc ≠ qcloudRetSuccess then
          removePushedSubInfo
          halFree (some topicFilterStored)
          return rc
        else
          return (packetId.toNat : Int)

/-- The handle a subscribe call pushes. -/
def SubscribeParams.handle (params : SubscribeParams) (topicFilterStored : StoredFilter) :
    SubTopicHandle where
  topicFilter := some topicFilterStored
  messageHandler := params.onMessageHandler
  subEventHandler := params.onSubEventHandler
  handlerUserData := params.userData
  qos := params.qos

/-- `qcloud_iot_mqtt_subscribe` (`mqtt_client_subscribe.c:97-183`). -/
def qcloudIotMqttSubscribe (topicFilter : CStr) (params : SubscribeParams) : Sdk Int := do
  if topicFilter.length = 0 then
    return qcloudErrInval
  else if topicFilter.length > maxSizeOfCloudTopic then
    return qcloudErrMaxTopicLength
  else if params.qos = .qos2 then
    return qcloudErrMqttQosNotSupport
  else if !(← getClientConnState) then
    return qcloudErrMqttNoConn
  else
    sendSubRequest topicFilter .subscribe
      (fun bufLen packetId => serializeSubscribePacket bufLen 0 packetId 1 topicFilter params.qos)
      params.handle

/-- The SUBSCRIBE parameters of a table entry, as `qcloud_iot_mqtt_resubscribe` copies them. -/
def SubTopicHandle.params (h : SubTopicHandle) : SubscribeParams where
  qos := h.qos
  onMessageHandler := h.messageHandler
  onSubEventHandler := h.subEventHandler
  userData := h.handlerUserData

/-- The loop of `qcloud_iot_mqtt_resubscribe` over the table slots. -/
def resubscribeLoop : List (Fin maxMessageHandlers) → Sdk Int
  | [] => return qcloudRetSuccess
  | itr :: rest => do
    let c ← client
    match (c.subHandles itr).topicFilter with
    | none => resubscribeLoop rest
    | some topic =>
      let rc ← qcloudIotMqttSubscribe topic.text (c.subHandles itr).params
      if rc < 0 then
        return rc
      else
        resubscribeLoop rest

/-- `qcloud_iot_mqtt_resubscribe` (`mqtt_client_subscribe.c:185-222`). -/
def qcloudIotMqttResubscribe : Sdk Int := do
  if !(← getClientConnState) then
    return qcloudErrMqttNoConn
  else
    resubscribeLoop (List.finRange maxMessageHandlers)

/-- The condition under which both `qcloud_iot_mqtt_unsubscribe`
    (`mqtt_client_unsubscribe.c:116-118`) and `qcloud_iot_mqtt_is_sub_ready`
    (`mqtt_client_subscribe.c:238-240`) take a table entry to be meant by `topicFilter`. -/
def handleIsMeant (topicFilter : CStr) (h : SubTopicHandle) : Bool :=
  (match h.topicFilter with
    | none => false
    | some stored => stored.text = topicFilter) ||
  topicFilter.strstr [47, 35] || topicFilter.strstr [47, 43]

/-- The loop of `qcloud_iot_mqtt_unsubscribe` over the table slots; returns
    `suber_exists`. -/
def unsubscribeLoop (topicFilter : CStr) : List (Fin maxMessageHandlers) → Sdk Bool
  | [] => return false
  | i :: rest => do
    let c ← client
    let h := c.subHandles i
    if handleIsMeant topicFilter h then
      notifySub h.subEventHandler .unsubscribe h.handlerUserData
      halFree h.topicFilter
      setClient fun c => { c with
        subHandles := Function.update c.subHandles i { h with topicFilter := none } }
      let _ ← unsubscribeLoop topicFilter rest
      return true
    else
      unsubscribeLoop topicFilter rest

/-- The handle an unsubscribe call pushes; its `qos` is not initialised. -/
def unsubscribeHandle (qos : QoS) (topicFilterStored : StoredFilter) : SubTopicHandle :=
  { SubTopicHandle.zero with topicFilter := some topicFilterStored, qos := qos }

/-- `qcloud_iot_mqtt_unsubscribe` (`mqtt_client_unsubscribe.c:92-195`). -/
def qcloudIotMqttUnsubscribe (topicFilter : CStr) : Sdk Int := do
  if topicFilter.length = 0 then
    return qcloudErrInval
  else if topicFilter.length > maxSizeOfCloudTopic then
    return qcloudErrMaxTopicLength
  else
    -- Remove from message handler array
    let suberExists ← unsubscribeLoop topicFilter (List.finRange maxMessageHandlers)
    if !suberExists then
      return qcloudErrMqttUnsubFail
    else if !(← getClientConnState) then
      return qcloudErrMqttNoConn
    else
      let junk ← uninitialised
      sendSubRequest topicFilter .unsubscribe
        (fun bufLen packetId => serializeUnsubscribePacket bufLen 0 packetId 1 topicFilter)
        (unsubscribeHandle junk.qos)

/-- `qcloud_iot_mqtt_is_sub_ready` (`mqtt_client_subscribe.c:224-247`). -/
def qcloudIotMqttIsSubReady (c : Client) (topicFilter : CStr) : Bool :=
  if topicFilter.length = 0 then false
  else if topicFilter.length > maxSizeOfCloudTopic then false
  else (List.finRange maxMessageHandlers).any fun i => handleIsMeant topicFilter (c.subHandles i)

end QcloudIot.Mqtt
