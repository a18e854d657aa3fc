import QcloudIot.Gateway.Messages

/-!
# Devices going online and offline

`IOT_Gateway_Subdev_Online` and `IOT_Gateway_Subdev_Offline` of `gateway_api.c:118-258` with the
sessions of `gateway_common.c:568-682`. A string that is `NULL` is treated like an empty one.
-/

namespace QcloudIot.Gateway

open Mqtt (CStr qcloudRetSuccess qcloudErrInval qcloudErrFailure)
open Ota (utf8)

abbrev qcloudErrGatewayCreateSessionFail : Int := -221
abbrev qcloudErrGatewaySessionNoExist : Int := -222
abbrev qcloudErrGatewaySessionTimeout : Int := -223
abbrev qcloudErrGatewaySubdevOnline : Int := -224
abbrev qcloudErrGatewaySubdevOffline : Int := -225

/-- `MAX_SIZE_OF_CLOUD_TOPIC` -/
abbrev maxSizeOfCloudTopic : Nat := maxSizeOfDeviceName + maxSizeOfProductId + 64 + 6

/-- Undefined behaviour of a call: while it handles a message, when an id does not fit into a
    session, and when a session is written that has been freed. -/
inductive CallFault where
  | message (fault : Fault)
  | sessionOverrun
  | freedSession
  deriving DecidableEq, Repr

/-- What a call does while it waits. -/
def ofWait {α : Type} : Except Fault α → Except CallFault α
  | .ok a => .ok a
  | .error fault => .error (.message fault)

/-! ## Sessions -/

/-- The comparison of `subdev_find_session` and `subdev_remove_session`. -/
def SubdevSession.isDevice (productId deviceName : CStr) (session : SubdevSession) : Bool :=
  session.productId = productId && session.deviceName = deviceName

/-- `subdev_find_session` (`gateway_common.c:568-587`). -/
def Gateway.findSession (g : Gateway) (productId deviceName : CStr) : Option SubdevSession :=
  g.sessionList.find? (·.isDevice productId deviceName)

/-- `subdev_add_session` (`gateway_common.c:589-618`): the allocation, and the gateway. The ids are
    copied without regard to the size of the arrays. -/
def Gateway.addSession (g : Gateway) (productId deviceName : CStr) (allocated : Bool) :
    Except CallFault (Option (Nat × Gateway)) :=
  if ¬ allocated then .ok none
  else if maxSizeOfProductId < productId.length ∨ maxSizeOfDeviceName < deviceName.length then
    .error .sessionOverrun
  else
    let session : SubdevSession :=
      { ref := g.allocated, productId := productId, deviceName := deviceName,
        sessionStatus := .init }
    .ok (some (g.allocated,
      { g with sessionList := session :: g.sessionList, allocated := g.allocated + 1 }))

/-- `subdev_remove_session` (`gateway_common.c:620-654`). -/
def Gateway.removeSession (g : Gateway) (productId deviceName : CStr) : Gateway :=
  { g with sessionList := g.sessionList.eraseP (·.isDevice productId deviceName) }

/-- `session->session_status = status`, where `session` is a pointer that a call has kept. -/
def Gateway.setStatus (g : Gateway) (ref : Nat) (status : SessionStatus) :
    Except CallFault Gateway :=
  if g.sessionList.any (·.ref = ref) then
    .ok { g with
      sessionList := g.sessionList.map fun session =>
        if session.ref = ref then { session with sessionStatus := status } else session }
  else .error .freedSession

/-! ## Requests -/

/-- How a call begins to wait for its answer (`gateway_api.c:167-173`, `229-235`, `368-380`,
    `409-424`): the client id is printed into the reply data, and the result is set unless it was
    too long. -/
def ReplyData.request (reply : ReplyData) (productId deviceName : CStr) : Bool × ReplyData :=
  let clientId := clientIdText productId deviceName
  let reply := { reply with clientId := cut clientId (maxSizeOfClientId - 1) }
  if clientId.length > maxSizeOfClientId then (false, reply)
  else (true, { reply with result := -1001 })

/-- `GatewayParam`. -/
structure GatewayParam where
  productId : CStr
  deviceName : CStr
  subdevProductId : CStr
  subdevDeviceName : CStr
  deriving DecidableEq, Repr

/-- The parameters of which none is empty. -/
def GatewayParam.Filled (param : GatewayParam) : Prop :=
  param.productId.bytes ≠ [] ∧ param.deviceName.bytes ≠ [] ∧ param.subdevProductId.bytes ≠ [] ∧
    param.subdevDeviceName.bytes ≠ []

instance (param : GatewayParam) : Decidable param.Filled :=
  inferInstanceAs (Decidable (_ ∧ _ ∧ _ ∧ _))

/-- `GATEWAY_TOPIC_OPERATION_FMT`. -/
def operationTopic (param : GatewayParam) : List UInt8 :=
  utf8 "$gateway/operation/" ++ param.productId.bytes ++ utf8 "/" ++ param.deviceName.bytes

/-- `GATEWAY_PAYLOAD_STATUS_FMT`. -/
def statusPayload (op : Operation) (param : GatewayParam) : List UInt8 :=
  utf8 "\x7b\"type\":\"" ++ op.text ++ utf8 "\",\"payload\":\x7b\"devices\":[\x7b\"product_id\":\"" ++
    param.subdevProductId.bytes ++ utf8 "\",\"device_name\":\"" ++ param.subdevDeviceName.bytes ++
    utf8 "\"\x7d]\x7d\x7d"

/-- The topic, the payload and the client id are printed (`gateway_api.c:153-173`, `215-235`):
    whether they fit. -/
def Gateway.request (g : Gateway) (op : Operation) (param : GatewayParam) : Bool × Gateway :=
  if (operationTopic param).length > maxSizeOfCloudTopic then (false, g)
  else if (statusPayload op param).length > gatewayPayloadBufferLen then (false, g)
  else
    let (fits, reply) :=
      (g.gatewayData.reply op).request param.subdevProductId param.subdevDeviceName
    (fits, { g with gatewayData := g.gatewayData.setReply reply op })

/-! ## Waiting -/

/-- What a call meets: whether a session is allocated, the return code of `IOT_Gateway_Publish`,
    and the messages that each `IOT_Gateway_Yield` handles. -/
structure CallEnv where
  sessionAllocated : Bool
  published : Int
  yields : Nat → List (Message × MessageEnv)

/-- `IOT_Gateway_Yield`: the messages are handled. -/
def Gateway.yield (g : Gateway) (messages : List (Message × MessageEnv)) : Except Fault Gateway :=
  messages.foldlM (fun g message => g.messageHandler message.1 message.2) g

/-- The loop of `gateway_publish_sync` (`gateway_common.c:668-677`) with `left` rounds to go: whether
    the result has changed. -/
def Gateway.awaitResult (op : Operation) (res : Int) (yields : Nat → List (Message × MessageEnv)) :
    Nat → Gateway → Except Fault (Bool × Gateway)
  | left, g =>
    if (g.gatewayData.reply op).result ≠ res then .ok (true, g)
    else
      match left with
      | 0 => .ok (false, g)
      | left + 1 => do
        let g ← g.yield (yields (gatewayLoopMaxCount - left))
        awaitResult op res yields left g

/-- `gateway_publish_sync` (`gateway_common.c:656-682`). -/
def Gateway.publishSync (g : Gateway) (op : Operation) (env : CallEnv) :
    Except Fault (Int × Gateway) :=
  if env.published < 0 then .ok (qcloudErrFailure, g)
  else do
    let res := (g.gatewayData.reply op).result
    let (changed, g) ← Gateway.awaitResult op res env.yields (gatewayLoopMaxCount + 1) g
    if ¬ changed then return (qcloudErrGatewaySessionTimeout, g)
    else if (g.gatewayData.reply op).result ≠ 0 then return (qcloudErrFailure, g)
    else return (qcloudRetSuccess, g)

/-! ## Online and offline -/

/-- `IOT_Gateway_Subdev_Online` once it has a pointer to a session. -/
def Gateway.onlineSession (g : Gateway) (session : Nat) (param : GatewayParam) (env : CallEnv) :
    Except CallFault (Int × Gateway) :=
  let (fits, g) := g.request .online param
  if ¬ fits then .ok (qcloudErrFailure, g)
  else do
    let (rc, g) ← ofWait (g.publishSync .online env)
    if rc ≠ qcloudRetSuccess then
      return (g.gatewayData.online.result,
        g.removeSession param.subdevProductId param.subdevDeviceName)
    else return (qcloudRetSuccess, ← g.setStatus session .online)

/-- `IOT_Gateway_Subdev_Online` (`gateway_api.c:118-188`). -/
def Gateway.subdevOnline (g : Gateway) (param : GatewayParam) (env : CallEnv) :
    Except CallFault (Int × Gateway) :=
  if ¬ param.Filled then .ok (qcloudErrInval, g)
  else
    match g.findSession param.subdevProductId param.subdevDeviceName with
    | some session =>
      if session.sessionStatus = .online then .ok (qcloudErrGatewaySubdevOnline, g)
      else g.onlineSession session.ref param env
    | none => do
      match ← g.addSession param.subdevProductId param.subdevDeviceName env.sessionAllocated with
      | none => return (qcloudErrGatewayCreateSessionFail, g)
      | some (session, g) => g.onlineSession session param env

/-- `IOT_Gateway_Subdev_Offline` once it has a pointer to a session. -/
def Gateway.offlineSession (g : Gateway) (session : Nat) (param : GatewayParam) (env : CallEnv) :
    Except CallFault (Int × Gateway) :=
  let (fits, g) := g.request .offline param
  if ¬ fits then .ok (qcloudErrFailure, g)
  else do
    let (rc, g) ← ofWait (g.publishSync .offline env)
    if rc ≠ qcloudRetSuccess then return (g.gatewayData.offline.result, g)
    else do
      let g ← g.setStatus session .offline
      return (qcloudRetSuccess, g.removeSession param.subdevProductId param.subdevDeviceName)

/-- `IOT_Gateway_Subdev_Offline` (`gateway_api.c:190-258`). -/
def Gateway.subdevOffline (g : Gateway) (param : GatewayParam) (env : CallEnv) :
    Except CallFault (Int × Gateway) :=
  if ¬ param.Filled then .ok (qcloudErrInval, g)
  else
    match g.findSession param.subdevProductId param.subdevDeviceName with
    | none => .ok (qcloudErrGatewaySessionNoExist, g)
    | some session =>
      if session.sessionStatus = .offline then
        .ok (qcloudErrGatewaySubdevOffline,
          g.removeSession param.subdevProductId param.subdevDeviceName)
      else g.offlineSession session.ref param env

end QcloudIot.Gateway
