import QcloudIot.Mqtt.Handlers

/-!
# Connecting and disconnecting

`mqtt_client_connect.c`: the CONNECT handshake, the reconnect of a client that lost its
connection, and the orderly disconnect.
-/

namespace QcloudIot.Mqtt

/-- `_serialize_connect_packet` (`mqtt_client_connect.c:114-266`): the user name and, where a
    device secret signs it, the password are formatted into fresh blocks. -/
def serializeConnect : Sdk (Except Int (List UInt8)) := do
  let c ← client
  if c.options.clientId.length = 0 then
    return .error qcloudErrInval
  else if !(← halMalloc) then
    return .error qcloudErrMalloc
  else
    let (username, password) ← nextCredentials
    let allocated ← (if password = none then pure true else halMalloc)
    if !allocated then
      return .error qcloudErrMalloc
    else
      return serializeConnectPacket c.writeBufSize c.options username password

/-- The end of `_mqtt_connect` once the CONNACK is accepted (`mqtt_client_connect.c:407-412`). -/
def acceptConnection : Sdk Unit := do
  setClientConnState true
  let c ← client
  let pingTimer ← countdown c.options.keepAliveInterval.toNat
  setClient fun c => { c with
    wasManuallyDisconnected := false, isPingOutstanding := 0, pingTimer := pingTimer }

/-- `_mqtt_connect` up to the CONNECT packet (`mqtt_client_connect.c:353-389`): the timer of
    the handshake. -/
def sendConnect (options : ConnectParams) : Sdk (Except Int Timer) := do
  let c ← client
  let connectTimer ← countdownMs c.commandTimeoutMs
  setClient fun c => { c with options := options }
  -- TCP or TLS network connect
  let rc ← networkConnect
  if rc ≠ qcloudRetSuccess then
    return .error rc
  else
    match ← serializeConnect with
    | .error rc => return .error rc
    | .ok packet =>
      writeToWriteBuf 0 packet
      let rc ← sendMqttPacket packet.length connectTimer
      if rc ≠ qcloudRetSuccess then
        return .error rc
      else
        return .ok connectTimer

/-- `_mqtt_connect` from the CONNACK on (`mqtt_client_connect.c:397-414`). -/
def readConnack : Sdk Int := do
  let c ← client
  match deserializeConnackPacket c.readBuf with
  | .error rc => return rc
  | .ok connackRc =>
    if connackRc ≠ qcloudRetMqttConnackConnectionAccepted then
      return connackRc
    else
      acceptConnection
      return qcloudRetSuccess

/-- `_mqtt_connect` (`mqtt_client_connect.c:353-415`). -/
def mqttConnect (options : ConnectParams) : Sdk Int := do
  match ← sendConnect options with
  | .error rc => return rc
  | .ok connectTimer =>
    -- wait for CONNACK
    let (rc, _) ← waitForRead MessageType.connack.code connectTimer
    if rc ≠ qcloudRetSuccess then
      return rc
    else
      readConnack

/-- `qcloud_iot_mqtt_connect` (`mqtt_client_connect.c:417-437`). -/
def qcloudIotMqttConnect (params : ConnectParams) : Sdk Int := do
  if ← getClientConnState then
    return qcloudRetMqttAlreadyConnected
  else
    let rc ← mqttConnect params
    -- disconnect network if connect fail
    if rc ≠ qcloudRetSuccess then
      networkDisconnect
      return rc
    else
      return rc

/-- `qcloud_iot_mqtt_attempt_reconnect` (`mqtt_client_connect.c:439-464`). -/
def qcloudIotMqttAttemptReconnect : Sdk Int := do
  if ← getClientConnState then
    return qcloudRetMqttAlreadyConnected
  else
    let c ← client
    let rc ← qcloudIotMqttConnect c.options
    if !(← getClientConnState) then
      return rc
    else
      let rc ← qcloudIotMqttResubscribe
      if rc ≠ qcloudRetSuccess then
        return rc
      else
        return qcloudRetMqttReconnected

/-- `qcloud_iot_mqtt_disconnect` (`mqtt_client_connect.c:466-506`). -/
def qcloudIotMqttDisconnect : Sdk Int := do
  if !(← getClientConnState) then
    return qcloudErrMqttNoConn
  else
    let c ← client
    match serializePacketWithZeroPayload c.writeBufSize .disconnect with
    | .error rc => return rc
    | .ok packet =>
      writeToWriteBuf 0 packet
      let timer ← countdownMs c.commandTimeoutMs
      let rc ← sendMqttPacket packet.length timer
      if rc ≠ qcloudRetSuccess then
        return rc
      else
        networkDisconnect
        setClientConnState false
        setClient fun c => { c with wasManuallyDisconnected := true }
        return qcloudRetSuccess

end QcloudIot.Mqtt
