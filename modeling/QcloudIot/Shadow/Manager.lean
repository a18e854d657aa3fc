import QcloudIot.Json.Token
import QcloudIot.Misc.Run
import QcloudIot.Misc.Size
import QcloudIot.Misc.Text
import QcloudIot.Mqtt.Handlers

/-!
# The request list of the device shadow

`shadow_client_manager.c`: requests that wait for their answer, the messages on the result
topic and the sweep over requests that have expired. What the client does to the outside is
recorded in a history. The properties that `_handle_delta` updates are not part of this
model: a call of it is an entry of the history.
-/

namespace QcloudIot.Shadow

open Mqtt (CStr FnPtr Ptr Timer cstrOf)
open Json (Fault liteJsonValueOf sscanfI quote colon space)

/-! ## Constants -/

/-- `MAX_SIZE_OF_CLIENT_TOKEN` -/
abbrev maxSizeOfClientToken : Nat := 90
/-- `MAX_APPENDING_REQUEST_AT_ANY_GIVEN_TIME` -/
abbrev maxAppendingRequest : Nat := 10
/-- `CLOUD_IOT_JSON_RX_BUF_LEN` -/
abbrev cloudIotJsonRxBufLen : Nat := Mqtt.qcloudIotMqttRxBufLen + 1
/-- `MAX_SIZE_OF_CLOUD_TOPIC` -/
abbrev maxSizeOfCloudTopic : Nat := 128
/-- `QCLOUD_ERR_MAX_APPENDING_REQUEST` -/
abbrev qcloudErrMaxAppendingRequest : Int := -137

/-- The bytes of a text of ASCII characters. -/
def ascii (chars : List Char) : List UInt8 := chars.map fun c => UInt8.ofNat c.toNat

/-- `CLIENT_TOKEN_FIELD` -/
def clientTokenField : CStr :=
  ⟨ascii ['c', 'l', 'i', 'e', 'n', 't', 'T', 'o', 'k', 'e', 'n'], by decide⟩
/-- `TYPE_FIELD` -/
def typeField : CStr := ⟨ascii ['t', 'y', 'p', 'e'], by decide⟩
/-- `RESULT_FIELD` -/
def resultField : CStr := ⟨ascii ['r', 'e', 's', 'u', 'l', 't'], by decide⟩
/-- `PAYLOAD_STATE` -/
def payloadState : CStr :=
  ⟨ascii ['p', 'a', 'y', 'l', 'o', 'a', 'd', '.', 's', 't', 'a', 't', 'e'], by decide⟩
/-- `PAYLOAD_STATE_DELTA` -/
def payloadStateDelta : CStr :=
  ⟨ascii ['p', 'a', 'y', 'l', 'o', 'a', 'd', '.', 's', 't', 'a', 't', 'e', '.', 'd', 'e', 'l', 't',
    'a'], by decide⟩

/-- `OPERATION_DELTA` -/
def operationDelta : List UInt8 := ascii ['d', 'e', 'l', 't', 'a']
/-- `OPERATION_GET` -/
def operationGet : List UInt8 := ascii ['g', 'e', 't']
/-- `OPERATION_UPDATE` -/
def operationUpdate : List UInt8 := ascii ['u', 'p', 'd', 'a', 't', 'e']

/-! ## Data -/

inductive ShadowType where
  | shadow
  | template
  deriving DecidableEq, Repr

inductive Method where
  | get
  | update
  deriving DecidableEq, Repr

inductive RequestAck where
  | none
  | timeout
  | rejected
  | accepted
  deriving DecidableEq, Repr

structure RequestParams where
  method : Method
  timeoutSec : Nat
  requestCallback : Option FnPtr
  userContext : Ptr
  deriving DecidableEq, Repr

/-- `Request`. `ref` is the identity of the allocation, `clientToken` the field of
    `MAX_SIZE_OF_CLIENT_TOKEN` bytes, and `behind` the bytes of memory behind it. -/
structure Request where
  ref : Nat
  clientToken : List UInt8
  behind : List UInt8
  method : Method
  userContext : Ptr
  timer : Timer
  callback : Option FnPtr
  deriving DecidableEq, Repr

/-- The token as `strcmp` reads it. -/
def Request.tokenText (request : Request) : List UInt8 := cstrOf (request.clientToken ++
    request.behind)

/-- What the client does to the outside, and the requests it accepts. -/
inductive Event where
  /-- `IOT_MQTT_Publish` and its return code -/
  | publish (topic : List UInt8) (payload : CStr) (rc : Int)
  /-- a request is pushed to the list -/
  | accepted (ref : Nat) (callback : Option FnPtr)
  /-- `request->callback` is called -/
  | requestCallback (callback : FnPtr) (ref : Nat) (method : Method) (ack : RequestAck)
      (document : CStr) (userContext : Ptr)
  /-- `_handle_delta` is called -/
  | handleDelta (delta : List UInt8)
  deriving DecidableEq, Repr

/-- `Qcloud_IoT_Shadow`, the number of requests allocated so far, and the history. -/
structure ShadowClient where
  shadowType : ShadowType
  productId : CStr
  deviceName : CStr
  requestList : List Request
  shadowRecvBuf : CStr
  allocated : Nat
  history : List Event
  deriving DecidableEq, Repr

/-! ## Requests -/

/-- `strncpy` into a field of `n` bytes: the rest is filled with NULs, and a text that does not
    fit is not terminated. -/
def strncpy (n : Nat) (src : CStr) : List UInt8 :=
  src.bytes.take n ++ List.replicate (n - src.length) 0

theorem strncpy_length (n : Nat) (src : CStr) : (strncpy n src).length = n := by
  have isLength : src.length = src.bytes.length := rfl
  rw [strncpy, List.length_append, List.length_take, List.length_replicate, isLength]
  omega

/-- `_insert` (`shadow_client_manager.c:350-363`). -/
def insert (str : CStr) (pch : CStr) (pos : Nat) : CStr :=
  if str.length < pos then str
  else
    { bytes := str.bytes.take pos ++ pch.bytes ++ str.bytes.drop pos
      noNul := by
        simp only [List.mem_append, not_or]
        exact ⟨⟨fun mem => str.noNul (List.mem_of_mem_take mem), pch.noNul⟩,
          fun mem => str.noNul (List.mem_of_mem_drop mem)⟩ }

/-- `OPERATION_GET` and `OPERATION_UPDATE`, by the method. -/
def typeStr : Method → List UInt8
  | .get => operationGet
  | .update => operationUpdate

/-- The member that `_set_shadow_json_type` inserts. -/
def jsonNodeStr (method : Method) : CStr where
  bytes := quote :: typeField.bytes ++ [quote, colon, quote] ++ typeStr method ++ [quote, 44, space]
  noNul := by cases method <;> decide

/-- `_set_shadow_json_type` (`shadow_client_manager.c:365-401`). -/
def setShadowJsonType (jsonDoc : CStr) (sizeOfBuffer : Nat) (method : Method) : Int × CStr :=
  let remainSize := sizeSub sizeOfBuffer jsonDoc.length
  if sizeSub remainSize 1 ≤ (jsonNodeStr method).length then
    (Mqtt.qcloudErrInval, jsonDoc)
  else (Mqtt.qcloudRetSuccess, insert jsonDoc (jsonNodeStr method) 1)

/-- The topic of `_publish_operation_to_cloud`. -/
def ShadowClient.operationTopic (s : ShadowClient) : List UInt8 :=
  (match s.shadowType with
    | .template => ascii ['$', 't', 'e', 'm', 'p', 'l', 'a', 't', 'e']
    | .shadow => ascii ['$', 's', 'h', 'a', 'd', 'o', 'w']) ++
  ascii ['/', 'o', 'p', 'e', 'r', 'a', 't', 'i', 'o', 'n', '/'] ++ s.productId.bytes ++
  ascii ['/'] ++ s.deviceName.bytes

/-- How the surroundings answer a request: which allocations succeed, what `IOT_MQTT_Publish`
    returns, the clock, and the memory behind the token field of the new request. -/
structure RequestEnv where
  tokenAllocated : Bool
  published : Int
  requestAllocated : Bool
  nodeAllocated : Bool
  now : Nat
  behind : List UInt8
  deriving DecidableEq, Repr

/-- `_publish_operation_to_cloud` (`shadow_client_manager.c:213-241`). -/
def ShadowClient.publishOperationToCloud (s : ShadowClient) (jsonDoc : CStr) (published : Int) :
    Int × ShadowClient :=
  if s.operationTopic.length > maxSizeOfCloudTopic - 1 then (Mqtt.qcloudErrFailure, s)
  else (published, { s with history := s.history ++ [.publish s.operationTopic jsonDoc published] })

/-- `_add_request_to_list` (`shadow_client_manager.c:422-461`). -/
def ShadowClient.addRequestToList (s : ShadowClient) (clientToken : CStr) (params : RequestParams)
    (env : RequestEnv) : Int × ShadowClient :=
  if s.requestList.length ≥ maxAppendingRequest then (qcloudErrMaxAppendingRequest, s)
  else if ¬ env.requestAllocated then (Mqtt.qcloudErrFailure, s)
  else
    let request : Request :=
      { ref := s.allocated
        clientToken := strncpy maxSizeOfClientToken clientToken
        behind := env.behind
        method := params.method
        userContext := params.userContext
        timer := ⟨env.now + params.timeoutSec * 1000000⟩
        callback := params.requestCallback }
    let s := { s with allocated := s.allocated + 1 }
    if ¬ env.nodeAllocated then (Mqtt.qcloudErrFailure, s)
    else (Mqtt.qcloudRetSuccess, { s with
      requestList := s.requestList ++ [request]
      history := s.history ++ [.accepted request.ref request.callback] })

/-- The text of a string that `LITE_json_value_of` returned. -/
def textOf (bytes : List UInt8) : CStr where
  bytes := cstrOf bytes
  noNul := fun mem => by simpa using List.mem_takeWhile_imp mem

theorem textOf_nuls {level : List UInt8} (noNul : 0 ∉ level) (nuls : Nat) :
    (textOf (level ++ List.replicate nuls 0)).bytes = level := by
  have here : (textOf (level ++ List.replicate nuls 0)).bytes =
      cString (level ++ List.replicate nuls 0) := rfl
  rw [here, cString_append noNul]
  cases nuls with
  | zero => exact List.append_nil level
  | succ n => exact List.append_nil level

/-- `do_shadow_request` once the token is parsed. -/
def ShadowClient.sendRequest (s : ShadowClient) (clientToken : CStr) (params : RequestParams)
    (jsonDoc : CStr) (sizeOfBuffer : Nat) (env : RequestEnv) : Int × CStr × ShadowClient :=
  let (rc, jsonDoc) := setShadowJsonType jsonDoc sizeOfBuffer params.method
  if rc ≠ Mqtt.qcloudRetSuccess then (rc, jsonDoc, s)
  else
    let (rc, s) := s.publishOperationToCloud jsonDoc env.published
    if rc < 0 then (rc, jsonDoc, s)
    else
      let (rc, s) := s.addRequestToList clientToken params env
      (rc, jsonDoc, s)

/-- `do_shadow_request` (`shadow_client_manager.c:122-156`): the return code, the document
    afterwards, and the client. -/
def ShadowClient.doShadowRequest (s : ShadowClient) (params : RequestParams) (jsonDoc : CStr)
    (sizeOfBuffer : Nat) (env : RequestEnv) : Except Fault (Int × CStr × ShadowClient) := do
  match ← liteJsonValueOf clientTokenField jsonDoc env.tokenAllocated with
  | none => return (Mqtt.qcloudErrInval, jsonDoc, s)
  | some clientToken => return s.sendRequest (textOf clientToken) params jsonDoc sizeOfBuffer env

/-! ## Traversal -/

/-- `_traverse_list` (`shadow_client_manager.c:466-499`), from the tail of the list to its head.
    The handle says whether it removes the node, and what it does to the outside. -/
def visit (handle : Request → Except Fault (Bool × List Event)) :
    List Request → Except Fault (List Request × List Event)
  | [] => return ([], [])
  | request :: list => do
    let (kept, events) ← visit handle list
    let (removed, more) ← handle request
    return (if removed then kept else request :: kept, events ++ more)

/-- `_traverse_list` on the request list; `iterator` says whether its iterator is allocated. -/
def ShadowClient.traverseList (s : ShadowClient) (iterator : Bool)
    (handle : Request → Except Fault (Bool × List Event)) : Except Fault ShadowClient :=
  if s.requestList.length ≠ 0 ∧ iterator then do
    let (list, events) ← visit handle s.requestList
    return { s with requestList := list, history := s.history ++ events }
  else return s

/-- The call of `request->callback`, unless it is `NULL`. -/
def Request.call (request : Request) (ack : RequestAck) (document : CStr) : List Event :=
  match request.callback with
  | none => []
  | some callback =>
    [.requestCallback callback request.ref request.method ack document request.userContext]

/-- `parse_shadow_operation_result_code` (`shadow_client_json.c:278-297`). -/
def parseShadowOperationResultCode (jsonDoc : CStr) (allocated : Bool) :
    Except Fault (Option Int) := do
  match ← liteJsonValueOf resultField jsonDoc allocated with
  | none => return none
  | some resultCode => return sscanfI 16 resultCode

/-! ## Messages -/

/-- A message on the result topic. -/
structure Message where
  topicLen : Nat
  payload : List UInt8
  deriving DecidableEq, Repr

/-- Which allocations succeed while a message is handled; those for a request, by its
    identity. -/
structure ReplyEnv where
  typeAllocated : Bool
  tokenAllocated : Bool
  iteratorAllocated : Bool
  stateAllocated : Bool
  resultAllocated : Nat → Bool
  deltaAllocated : Nat → Bool

/-- The delta in the reply to a request, where `_handle_request_callback` looks for one. -/
def replyDelta (recvBuf : CStr) (type : List UInt8) (status : RequestAck) (allocated : Bool) :
    Except Fault (Option (List UInt8)) :=
  if (type = operationGet ∧ status = .accepted) ∨ (type ≠ operationUpdate ∧ status = .rejected) then
    liteJsonValueOf payloadStateDelta recvBuf allocated
  else return none

/-- `_handle_request_callback` (`shadow_client_manager.c:501-548`). -/
def handleRequestCallback (recvBuf : CStr) (clientToken type : List UInt8) (env : ReplyEnv)
    (request : Request) : Except Fault (Bool × List Event) :=
  if request.tokenText = clientToken then do
    match ← parseShadowOperationResultCode recvBuf (env.resultAllocated request.ref) with
    | none => return (true, [])
    | some resultCode =>
      let status : RequestAck := if resultCode = 0 then .accepted else .rejected
      let delta ← replyDelta recvBuf type status (env.deltaAllocated request.ref)
      return (true, (delta.map Event.handleDelta).toList ++ request.call status recvBuf)
  else return (false, [])

/-- The type of a message and, unless it is a delta, its token. -/
def parseReply (recvBuf : CStr) (env : ReplyEnv) :
    Except Fault (Option (List UInt8 × Option (List UInt8))) := do
  match ← liteJsonValueOf typeField recvBuf env.typeAllocated with
  | none => return none
  | some type =>
    if type = operationDelta then return some (type, none)
    match ← liteJsonValueOf clientTokenField recvBuf env.tokenAllocated with
    | none => return none
    | some clientToken => return some (type, some clientToken)

/-- The text in `shadow_recv_buf` when a message has been copied into it. -/
def Message.received (message : Message) : CStr :=
  textOf (message.payload.take (min (cloudIotJsonRxBufLen - 1) message.payload.length))

/-- The message is looked at. -/
def Message.Taken (message : Message) : Prop :=
  message.topicLen ≠ 0 ∧ message.payload.length ≤ cloudIotJsonRxBufLen

instance (message : Message) : Decidable message.Taken := inferInstanceAs (Decidable (_ ∧ _))

/-- `_on_operation_result_handler` (`shadow_client_manager.c:246-307`). -/
def ShadowClient.onOperationResultHandler (s : ShadowClient) (message : Message) (env : ReplyEnv) :
    Except Fault ShadowClient :=
  if ¬ message.Taken then return s
  else do
    let s := { s with shadowRecvBuf := message.received }
    match ← parseReply s.shadowRecvBuf env with
    | none => return s
    | some (_, none) =>
      match ← liteJsonValueOf payloadState s.shadowRecvBuf env.stateAllocated with
      | none => return s
      | some delta => return { s with history := s.history ++ [.handleDelta delta] }
    | some (type, some clientToken) =>
      s.traverseList env.iteratorAllocated
        (handleRequestCallback s.shadowRecvBuf clientToken type env)

/-! ## Expiry -/

/-- `_handle_expired_request_callback` (`shadow_client_manager.c:550-569`); `now` is the clock
    when the request of that identity is looked at. -/
def handleExpiredRequestCallback (recvBuf : CStr) (now : Nat → Nat) (request : Request) :
    Except Fault (Bool × List Event) :=
  if request.timer.endTime ≤ now request.ref then
    return (true, request.call .timeout recvBuf)
  else return (false, [])

/-- `handle_expired_request` (`shadow_client_manager.c:113-120`). -/
def ShadowClient.handleExpiredRequest (s : ShadowClient) (iteratorAllocated : Bool) (now : Nat → Nat) :
    Except Fault ShadowClient :=
  s.traverseList iteratorAllocated (handleExpiredRequestCallback s.shadowRecvBuf now)

/-! ## Runs -/

/-- What happens to a client. -/
inductive Action where
  | request (params : RequestParams) (jsonDoc : CStr) (sizeOfBuffer : Nat) (env : RequestEnv)
  | message (message : Message) (env : ReplyEnv)
  | expire (iteratorAllocated : Bool) (now : Nat → Nat)

def ShadowClient.after (s : ShadowClient) : Action → Except Fault ShadowClient
  | .request params jsonDoc sizeOfBuffer env => do
    let (_, _, s) ← s.doShadowRequest params jsonDoc sizeOfBuffer env
    return s
  | .message message env => s.onOperationResultHandler message env
  | .expire iteratorAllocated now => s.handleExpiredRequest iteratorAllocated now

/-- A client at work; undefined behaviour of the scanner ends a run. -/
def manager : Machine (Except Fault ShadowClient) Action := ⟨fun s action => s.bind (·.after action)⟩

/-- The client of `IOT_Shadow_Construct`: no requests. -/
structure ShadowClient.Fresh (s : ShadowClient) : Prop where
  requestList : s.requestList = []
  history : s.history = []

end QcloudIot.Shadow
