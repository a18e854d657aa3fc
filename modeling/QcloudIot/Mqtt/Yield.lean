import QcloudIot.Mqtt.Connect

/-!
# Yield

`mqtt_client_yield.c`: the sweeps over the two wait lists, keep alive, the handling of an
exceptional disconnect and of a reconnect, and `qcloud_iot_mqtt_yield` itself. The main loop
is split into its rounds (`yieldRound`); a round is the test of the loop and one pass
through its body.
-/

namespace QcloudIot.Mqtt

/-! ## Sweeping the wait lists -/

/-- The loop of `qcloud_iot_mqtt_pub_info_proc`, which walks from the tail of the list to its
    head: what is left of the list. -/
def pubInfoLoop (isConnected : Bool) : List PubInfo → Sdk (List PubInfo)
  | [] => return []
  | node :: towardsTail => do
    let rest ← pubInfoLoop isConnected towardsTail
    -- remove invalid node
    if node.nodeState = .invalid then
      return rest
    else if !isConnected then
      return node :: rest
    else if (← leftMs node.pubStartTime) > 0 then
      return node :: rest
    else
      -- the restarted timer goes away with the node
      let _ ← now
      notify .publishTimeout (.packetId node.msgId)
      return rest

/-- `qcloud_iot_mqtt_pub_info_proc` (`mqtt_client_yield.c:309-388`). -/
def qcloudIotMqttPubInfoProc : Sdk Unit := do
  let c ← client
  if c.listPubWaitAck.length = 0 then
    return ()
  else if !(← halMalloc) then
    -- list_iterator_new
    return ()
  else
    let rest ← pubInfoLoop c.isConnected c.listPubWaitAck
    setClient fun c => { c with listPubWaitAck := rest }

/-- The events of a request whose acknowledgement did not arrive in time
    (`mqtt_client_yield.c:456-479`). -/
def notifySubTimeout (node : SubInfo) : Sdk Unit := do
  let c ← client
  if c.eventHandle = none then
    return ()
  else if node.type = .subscribe then
    notifySub node.handler.subEventHandler .subcribeTimeout node.handler.handlerUserData
    notify .subcribeTimeout (.packetId node.msgId)
  else
    notify .unsubcribeTimeout (.packetId node.msgId)

/-- The loop of `qcloud_iot_mqtt_sub_info_proc`, from the tail of the list to its head. -/
def subInfoLoop (isConnected : Bool) : List SubInfo → Sdk (List SubInfo)
  | [] => return []
  | node :: towardsTail => do
    let rest ← subInfoLoop isConnected towardsTail
    -- remove invalid node
    if node.nodeState = .invalid then
      return rest
    else if !isConnected then
      return node :: rest
    else if (← leftMs node.subStartTime) > 0 then
      return node :: rest
    else
      notifySubTimeout node
      halFree node.handler.topicFilter
      return rest

/-- `qcloud_iot_mqtt_sub_info_proc` (`mqtt_client_yield.c:396-497`). -/
def qcloudIotMqttSubInfoProc : Sdk Unit := do
  let c ← client
  if c.listSubWaitAck.length = 0 then
    return ()
  else if !(← halMalloc) then
    -- list_iterator_new
    return ()
  else
    let rest ← subInfoLoop c.isConnected c.listSubWaitAck
    setClient fun c => { c with listSubWaitAck := rest }

/-! ## Losing and restoring the connection -/

/-- `_get_random_interval` (`mqtt_client_yield.c:25-30`). -/
def getRandomInterval : Sdk Nat := do
  return ((← rand) % 100 + 100) * 10

/-- The disconnect of the network stack by force in `_handle_disconnect`. -/
def forceDisconnect : Sdk Unit := do
  networkDisconnect
  setClientConnState false

/-- `_handle_disconnect` (`mqtt_client_yield.c:60-83`). -/
def handleDisconnect : Sdk Int := do
  if !(← getClientConnState) then
    return qcloudErrMqttNoConn
  else
    let rc ← qcloudIotMqttDisconnect
    let _ ← (if rc ≠ qcloudRetSuccess then forceDisconnect else pure ())
    notify .disconnect .null
    -- exceptional disconnection
    setClient fun c => { c with wasManuallyDisconnected := false }
    return qcloudErrMqttNoConn

/-- The end of `_handle_reconnect` after a failed attempt: the next one waits twice as long. -/
def postponeReconnect : Sdk Int := do
  setClient fun c => { c with
    currentReconnectWaitInterval := c.currentReconnectWaitInterval * 2 % 2 ^ 32 }
  let c ← client
  if maxReconnectWaitInterval < c.currentReconnectWaitInterval then
    return qcloudErrMqttReconnectTimeout
  else
    let timer ← countdownMs c.currentReconnectWaitInterval
    setClient fun c => { c with reconnectDelayTimer := timer }
    return qcloudErrMqttAttemptingReconnect

/-- `_handle_reconnect` (`mqtt_client_yield.c:91-136`); `network_stack.is_connected` always
    returns 1. -/
def handleReconnect : Sdk Int := do
  let c ← client
  if !(← expired c.reconnectDelayTimer) then
    return qcloudErrMqttAttemptingReconnect
  else
    let rc ← qcloudIotMqttAttemptReconnect
    if rc = qcloudRetMqttReconnected then
      notify .reconnect .null
      return rc
    else
      postponeReconnect

/-! ## Keep alive -/

/-- The `do ... while` loop of `_mqtt_keep_alive`: at most `retries + 1` attempts. -/
def sendPing (length : Nat) : Nat → Sdk Int
  | 0 => do
    let timer ← countdownMs (← client).commandTimeoutMs
    sendMqttPacket length timer
  | retries + 1 => do
    let timer ← countdownMs (← client).commandTimeoutMs
    let rc ← sendMqttPacket length timer
    if rc ≠ qcloudRetSuccess then
      sendPing length retries
    else
      return rc

/-- `_mqtt_keep_alive` (`mqtt_client_yield.c:144-203`). -/
def mqttKeepAlive : Sdk Int := do
  let c ← client
  if c.options.keepAliveInterval = 0 then
    return qcloudRetSuccess
  else if !(← expired c.pingTimer) then
    return qcloudRetSuccess
  else if c.isPingOutstanding ≥ mqttPingRetryTimes then
    handleDisconnect
  else
    match serializePacketWithZeroPayload c.writeBufSize .pingreq with
    | .error rc => return rc
    | .ok packet =>
      writeToWriteBuf 0 packet
      let rc ← sendPing packet.length 3
      if rc ≠ qcloudRetSuccess then
        handleDisconnect
      else
        let pingTimer ← countdown (min 5 (c.options.keepAliveInterval.toNat / 2))
        setClient fun c => { c with
          isPingOutstanding := c.isPingOutstanding + 1, pingTimer := pingTimer }
        return qcloudRetSuccess

/-! ## The main loop -/

/-- The return codes of `cycle_for_read` on which the main loop drops the connection
    (`mqtt_client_yield.c:257-258`). -/
def readErrorDisconnects (rc : Int) : Bool :=
  rc = qcloudErrSslReadTimeout || rc = qcloudErrSslRead || rc = qcloudErrTcpPeerShutdown ||
    rc = qcloudErrTcpReadFail

/-- The first half of the loop body with a connection up: one packet, then by its outcome the
    sweeps and keep alive, or the disconnect. -/
def readRound (timer : Timer) : Sdk (Int × Timer) := do
  let (rc, _, timer) ← cycleForRead timer
  if rc = qcloudRetSuccess then
    qcloudIotMqttPubInfoProc
    qcloudIotMqttSubInfoProc
    let rc ← mqttKeepAlive
    return (rc, timer)
  else if readErrorDisconnects rc then
    let rc ← handleDisconnect
    return (rc, timer)
  else
    return (rc, timer)

/-- The second half of the loop body: whether the loop goes on, and the return code. -/
def afterRead (rc : Int) : Sdk (Bool × Int) := do
  if rc = qcloudErrMqttNoConn then
    setClient fun c => { c with counterNetworkDisconnected := c.counterNetworkDisconnected + 1 }
    let c ← client
    if c.options.autoConnectEnable = 1 then
      let interval ← getRandomInterval
      let timer ← countdownMs interval
      setClient fun c => { c with
        currentReconnectWaitInterval := interval, reconnectDelayTimer := timer }
      -- reconnect timeout
      return (true, qcloudErrMqttAttemptingReconnect)
    else
      return (false, rc)
  else
    return (rc = qcloudRetSuccess, rc)

/-- One round of the main loop of `qcloud_iot_mqtt_yield` (`mqtt_client_yield.c:238-284`)
    that is entered with the return code `rc`: whether the loop goes on, and the return code
    and the timer after the round. -/
def yieldRound (rc : Int) (timer : Timer) : Sdk (Bool × Int × Timer) := do
  if ← expired timer then
    return (false, rc, timer)
  else if !(← getClientConnState) then
    let c ← client
    if c.currentReconnectWaitInterval > maxReconnectWaitInterval then
      return (false, qcloudErrMqttReconnectTimeout, timer)
    else
      let rc ← handleReconnect
      return (true, rc, timer)
  else
    let (rc, timer) ← readRound timer
    let (goesOn, rc) ← afterRead rc
    return (goesOn, rc, timer)

/-- The main loop, at most `fuel` rounds of it. -/
def yieldLoop : Nat → Int → Timer → Sdk Int
  | 0, rc, _ => return rc
  | fuel + 1, rc, timer => do
    let (goesOn, rc, timer) ← yieldRound rc timer
    if goesOn then yieldLoop fuel rc timer else return rc

/-- `qcloud_iot_mqtt_yield` (`mqtt_client_yield.c:214-284`) as far as its first `fuel` rounds;
    the loop has no bound of its own while the clock does not reach the timer. -/
def qcloudIotMqttYield (fuel : Nat) (timeoutMs : Nat) : Sdk Int := do
  if timeoutMs = 0 then
    return qcloudErrInval
  else
    let c ← client
    if !c.isConnected && c.wasManuallyDisconnected then
      return qcloudRetMqttManuallyDisconnected
    else if !c.isConnected && c.options.autoConnectEnable = 0 then
      return qcloudErrMqttNoConn
    else
      let timer ← countdownMs timeoutMs
      yieldLoop fuel qcloudRetSuccess timer

end QcloudIot.Mqtt
