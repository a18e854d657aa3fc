import QcloudIot.Coap.Message
import QcloudIot.Misc.Run

/-!
# The CoAP client

`coap_client_message.c`: requests that wait in the message list, the datagrams that answer
them, and the sweep that sends a request again or gives it up. What the client does to the
outside is recorded in a history. Callbacks are taken not to call back into the client.
-/

namespace QcloudIot.Coap

open Mqtt (FnPtr Ptr Timer)

/-! ## Constants -/

/-- `COAP_MSG_MAX_MSG_ID` -/
abbrev coapMsgMaxMsgId : Nat := 65535

abbrev coapMsgPost : Nat := 2

abbrev coapMsgCode205Content : Nat := 5
abbrev coapMsgCode401Unauthorized : Nat := 1
abbrev coapMsgCode403Forbidden : Nat := 3
abbrev coapMsgCode600Timeout : Nat := 0

abbrev qcloudErrInval : Int := -1002
abbrev qcloudErrSslReadTimeout : Int := -707

/-! ## Data -/

inductive CoapNodeState where
  | normal
  | invalid
  deriving DecidableEq, Repr

inductive CoapEventType where
  | receiveAck
  | receiveRespcontent
  | unauthorized
  | forbidden
  | internalServerError
  | ackTimeout
  | seprespTimeout
  deriving DecidableEq, Repr

/-- `CoAPMsgSendInfo`, a node of the message list. `ref` is the identity of the request,
    `message` the allocated copy of its bytes. -/
structure CoapMsgSendInfo where
  ref : Nat
  nodeState : CoapNodeState
  userContext : Ptr
  msgId : Nat
  acked : Bool
  token : List UInt8
  retransCount : UInt8
  startTime : Timer
  message : Option (List UInt8)
  handler : Option FnPtr
  deriving DecidableEq, Repr

/-- The content of `CoAPEventMessage.message`. -/
inductive EventMessage where
  | message (message : CoapMessage)
  | msgId (id : Nat)
  deriving DecidableEq, Repr

/-- What the client does to the outside, and which requests it takes for answered. -/
inductive Event where
  /-- `network_stack.write` and its return code, for a request or another message -/
  | write (request : Option Nat) (bytes : Option (List UInt8)) (rc : Int)
  /-- an acknowledgement of a request or a response to it is processed -/
  | answered (request : Nat)
  /-- `send_info->handler(message, user_context)` -/
  | handler (handler : FnPtr) (request : Nat) (message : CoapMessage) (userContext : Ptr)
  /-- `client->event_handle.h_fp(context, &event_msg)` -/
  | event (type : CoapEventType) (request : Nat) (message : EventMessage)
  deriving DecidableEq, Repr

/-- `CoAPClient`, the number of requests made so far, and the history. `recvBuf` is the memory
    from `recv_buf` on. -/
structure CoapClient where
  sendBufSize : Nat
  readBufSize : Nat
  recvBuf : List UInt8
  commandTimeoutMs : Nat
  messageList : List CoapMsgSendInfo
  maxRetryCount : UInt8
  eventHandle : Option FnPtr
  requests : Nat
  history : List Event
  deriving DecidableEq, Repr

/-- `DEFAULT_COAP_MESSAGE` -/
def defaultCoapMessage : CoapMessage where
  version := coapMsgVer
  type := .con
  codeClass := coapMsgReq
  codeDetail := coapMsgPost
  msgId := 0
  payload := []
  token := []
  opList := []
  handler := none
  userContext := 0

/-- `COAP_MSG_IS_EMPTY` -/
def CoapMessage.IsEmpty (message : CoapMessage) : Prop :=
  message.codeClass = 0 ∧ message.codeDetail = 0

/-- `COAP_MSG_IS_EMPTY_ACK` -/
def CoapMessage.IsEmptyAck (message : CoapMessage) : Prop :=
  message.codeClass = 2 ∧ message.codeDetail = 3

/-- `COAP_MSG_IS_EMPTY_RSP` -/
def CoapMessage.IsEmptyRsp (message : CoapMessage) : Prop :=
  message.codeClass = 2 ∧ message.codeDetail = 5

instance (message : CoapMessage) : Decidable message.IsEmpty := inferInstanceAs (Decidable (_ ∧ _))
instance (message : CoapMessage) : Decidable message.IsEmptyAck :=
  inferInstanceAs (Decidable (_ ∧ _))
instance (message : CoapMessage) : Decidable message.IsEmptyRsp :=
  inferInstanceAs (Decidable (_ ∧ _))

/-! ## The surroundings -/

/-- How the surroundings answer `coap_message_send`: the return code of the write and the bytes it
    has written, which allocations succeed, and the clock. -/
structure SendEnv where
  rc : Int
  written : Nat
  infoAllocated : Bool
  messageAllocated : Bool
  nodeAllocated : Bool
  now : Nat
  deriving DecidableEq, Repr

/-- How they answer `_coap_message_list_proc`: whether the iterator is allocated, and for each
    request the clock when `left_ms` and when `countdown_ms` reads it, and the return code of a
    write. -/
structure ProcEnv where
  iterator : Bool
  now : Nat → Nat
  restart : Nat → Nat
  rc : Nat → Int

/-- How they answer `coap_message_cycle`. -/
structure CycleEnv where
  readRc : Int
  datagram : List UInt8
  alloc : Nat → Bool
  ack : SendEnv
  proc : ProcEnv
  sweep : ProcEnv

/-- `countdown_ms` at the time `now`. -/
def countdownMs (now timeoutMs : Nat) : Timer := ⟨now + timeoutMs * 1000⟩

/-- `left_ms` at the time `now`. -/
def leftMs (timer : Timer) (now : Nat) : Nat := (timer.endTime - now) / 1000

/-! ## The message list -/

/-- What a command does at a node: the message and the node afterwards, whether the node is
    removed, and what happens to the outside. -/
structure Visit where
  message : CoapMessage
  info : CoapMsgSendInfo
  removed : Bool
  events : List Event
  deriving DecidableEq, Repr

/-- `_event_message_type_set` (`coap_client_message.c:34-51`); `response` is
    `processCmd == PROCESS_RESP_CMD`. -/
def eventMessageTypeSet (message : CoapMessage) (response : Bool) : CoapEventType :=
  if message.codeClass = coapMsgSuccess ∧ message.codeDetail = coapMsgCode205Content then
    if response then .receiveRespcontent else .receiveAck
  else if message.codeClass = coapMsgClientErr ∧
      message.codeDetail = coapMsgCode401Unauthorized then .unauthorized
  else if message.codeClass = coapMsgClientErr ∧
      message.codeDetail = coapMsgCode403Forbidden then .forbidden
  else .internalServerError

/-- `PROCESS_ACK_CMD` (`coap_client_message.c:94-99`). -/
def processAck (s : CoapClient) (env : ProcEnv) (message : CoapMessage) (info : CoapMsgSendInfo) :
    Visit :=
  if info.msgId = message.msgId then
    { message
      info :=
        { info with
          acked := true
          startTime := countdownMs (env.restart info.ref) s.commandTimeoutMs }
      removed := false
      events := [.answered info.ref] }
  else { message, info, removed := false, events := [] }

/-- The response is one to the request: its token is not empty and the same. -/
def CoapMsgSendInfo.TokenIs (info : CoapMsgSendInfo) (message : CoapMessage) : Prop :=
  info.token.length ≠ 0 ∧ info.token = message.token

instance (info : CoapMsgSendInfo) (message : CoapMessage) : Decidable (info.TokenIs message) :=
  inferInstanceAs (Decidable (_ ∧ _))

/-- `PROCESS_RESP_CMD` (`coap_client_message.c:100-119`). -/
def processResp (s : CoapClient) (message : CoapMessage) (info : CoapMsgSendInfo) : Visit :=
  if info.TokenIs message then
    let message := { message with userContext := info.userContext }
    let (message, events) : CoapMessage × List Event :=
      match info.handler, s.eventHandle with
      | some handler, _ => (message, [.handler handler info.ref message info.userContext])
      | none, some _ =>
        let type := eventMessageTypeSet message true
        let message := { message with msgId := info.msgId }
        (message, [.event type info.ref (.message message)])
      | none, none => (message, [])
    { message
      info := { info with nodeState := .invalid }
      removed := false
      events := .answered info.ref :: events }
  else { message, info, removed := false, events := [] }

/-- `PROCESS_PIGGY_CMD` (`coap_client_message.c:120-139`). -/
def processPiggy (s : CoapClient) (message : CoapMessage) (info : CoapMsgSendInfo) : Visit :=
  if info.msgId = message.msgId then
    let message := { message with userContext := info.userContext }
    let events : List Event :=
      match info.handler, s.eventHandle with
      | some handler, _ => [.handler handler info.ref message info.userContext]
      | none, some _ =>
        [.event (eventMessageTypeSet message false) info.ref (.msgId message.msgId)]
      | none, none => []
    { message
      info := { info with acked := true, nodeState := .invalid }
      removed := false
      events := .answered info.ref :: events }
  else { message, info, removed := false, events := [] }

/-- The message that tells a handler that its request is given up. -/
def timeoutMessage (message : CoapMessage) (info : CoapMsgSendInfo) : CoapMessage :=
  { message with
    type := .ack
    userContext := info.userContext
    codeClass := coapMsgSdkinternalErr
    codeDetail := coapMsgCode600Timeout
    msgId := info.msgId }

/-- `PROCESS_WAIT_CMD` (`coap_client_message.c:140-188`). -/
def processWait (s : CoapClient) (env : ProcEnv) (message : CoapMessage) (info : CoapMsgSendInfo) :
    Visit :=
  if info.nodeState = .invalid then { message, info, removed := true, events := [] }
  else if leftMs info.startTime (env.now info.ref) > 0 then
    { message, info, removed := false, events := [] }
  else if info.retransCount < s.maxRetryCount ∧ info.acked = false then
    { message
      info :=
        { info with
          startTime := countdownMs (env.restart info.ref) s.commandTimeoutMs
          retransCount := info.retransCount + 1 }
      removed := false
      events := [.write (some info.ref) info.message (env.rc info.ref)] }
  else
    let info := { info with nodeState := .invalid }
    match info.handler, s.eventHandle with
    | some handler, _ =>
      let message := timeoutMessage message info
      { message, info, removed := true,
        events := [.handler handler info.ref message info.userContext] }
    | none, some _ =>
      { message, info, removed := true,
        events := [.event (if info.acked then .seprespTimeout else .ackTimeout) info.ref
          (.msgId info.msgId)] }
    | none, none => { message, info, removed := true, events := [] }

/-- The loop of `_coap_message_list_proc`, from the tail of the list to its head. -/
def visitList (process : CoapMessage → CoapMsgSendInfo → Visit) :
    List CoapMsgSendInfo → CoapMessage → List CoapMsgSendInfo × CoapMessage × List Event
  | [], message => ([], message, [])
  | info :: list, message =>
    let (list, message, events) := visitList process list message
    let visit := process message info
    (if visit.removed then list else visit.info :: list, visit.message, events ++ visit.events)

/-- `_coap_message_list_proc` (`coap_client_message.c:53-195`) with the command `process`. -/
def CoapClient.coapMessageListProc (s : CoapClient) (message : CoapMessage) (env : ProcEnv)
    (process : CoapMessage → CoapMsgSendInfo → Visit) : Int × CoapClient :=
  if s.messageList.length ≤ 0 then (qcloudErrFailure, s)
  else if ¬ env.iterator then (qcloudRetSuccess, s)
  else
    let (list, _, events) := visitList process s.messageList message
    (qcloudRetSuccess, { s with messageList := list, history := s.history ++ events })

/-! ## Sending -/

/-- `_coap_message_list_add` (`coap_client_message.c:300-343`) for a confirmable request, `bytes`
    being the bytes of `send_buf` that were written. -/
def CoapClient.coapMessageListAdd (s : CoapClient) (ref : Nat) (message : CoapMessage)
    (bytes : List UInt8) (env : SendEnv) : Int × CoapClient :=
  if ¬ env.infoAllocated then (qcloudErrFailure, s)
  else
    let info : CoapMsgSendInfo :=
      { ref
        nodeState := .normal
        acked := false
        userContext := message.userContext
        msgId := message.msgId
        handler := message.handler
        retransCount := 0
        startTime := countdownMs env.now s.commandTimeoutMs
        token := message.token
        message := if env.messageAllocated then some bytes else none }
    if ¬ env.nodeAllocated then (qcloudErrFailure, s)
    else (qcloudRetSuccess, { s with messageList := s.messageList ++ [info] })

/-- The message waits for an acknowledgement. -/
def CoapMessage.IsRequest (message : CoapMessage) : Prop :=
  message.type = .con ∧ message.codeClass = coapMsgReq

instance (message : CoapMessage) : Decidable message.IsRequest :=
  inferInstanceAs (Decidable (_ ∧ _))

/-- `coap_message_send` (`coap_client_message.c:361-392`). -/
def CoapClient.coapMessageSend (s : CoapClient) (message : CoapMessage) (env : SendEnv) :
    Int × CoapClient :=
  match serializeCoapMessage message s.sendBufSize with
  | .error rc => (rc, s)
  | .ok bytes =>
    if message.IsRequest then
      let ref := s.requests
      let s :=
        { s with
          requests := s.requests + 1
          history := s.history ++ [.write (some ref) (some bytes) env.rc] }
      if env.rc = qcloudRetSuccess then
        s.coapMessageListAdd ref message (bytes.take env.written) env
      else (env.rc, s)
    else (env.rc, { s with history := s.history ++ [.write none (some bytes) env.rc] })

/-- `_coap_client_send_ack` (`coap_client_message.c:207-229`). -/
def CoapClient.coapClientSendAck (s : CoapClient) (msgId : Nat) (env : SendEnv) :
    Int × CoapClient :=
  if msgId > coapMsgMaxMsgId then (qcloudErrInval, s)
  else s.coapMessageSend { defaultCoapMessage with type := .ack, msgId } env

/-! ## Receiving -/

/-- `_coap_resp_message_handle` (`coap_client_message.c:248-262`). -/
def CoapClient.coapRespMessageHandle (s : CoapClient) (message : CoapMessage) (env : CycleEnv) :
    CoapClient :=
  let s := if message.type = .con then (s.coapClientSendAck message.msgId env.ack).2 else s
  (s.coapMessageListProc message env.proc (processResp s)).2

/-- What `_coap_message_handle` does with the message that the deserializer leaves, be it an error
    or not. -/
def CoapClient.dispatch (s : CoapClient) (message : CoapMessage) (env : CycleEnv) : CoapClient :=
  if message.type = .ack ∧ message.IsEmptyAck then
    (s.coapMessageListProc message env.proc (processAck s env.proc)).2
  else if message.type = .ack ∧ ¬ message.IsEmpty then
    (s.coapMessageListProc message env.proc (processPiggy s)).2
  else if message.type = .con ∧ message.IsEmptyRsp then s.coapRespMessageHandle message env
  else if message.type = .non ∧ message.IsEmptyRsp then s.coapRespMessageHandle message env
  else s

/-- `_coap_message_handle` (`coap_client_message.c:264-298`) on the first `datalen` bytes of
    `recv_buf`. -/
def CoapClient.coapMessageHandle (s : CoapClient) (datalen : Nat) (env : CycleEnv) :
    Except Fault CoapClient := do
  let (_, message) ← deserializeCoapMessage env.alloc .zero s.recvBuf datalen
  return s.dispatch message env

/-- `coap_message_recv` (`coap_client_message.c:394-414`); `datalen` is an `unsigned short`. -/
def CoapClient.coapMessageRecv (s : CoapClient) (env : CycleEnv) : Except Fault (Int × CoapClient) :=
  if env.readRc = qcloudRetSuccess then do
    let datagram := env.datagram.take s.readBufSize
    let s := { s with recvBuf := datagram ++ s.recvBuf.drop datagram.length }
    let s ← s.coapMessageHandle (datagram.length % 2 ^ 16) env
    return (env.readRc, s)
  else return (env.readRc, s)

/-- `coap_message_cycle` (`coap_client_message.c:345-359`). -/
def CoapClient.coapMessageCycle (s : CoapClient) (env : CycleEnv) :
    Except Fault (Int × CoapClient) := do
  let (rc, s) ← s.coapMessageRecv env
  if rc ≠ qcloudRetSuccess ∧ rc ≠ qcloudErrSslReadTimeout then return (rc, s)
  else return s.coapMessageListProc defaultCoapMessage env.sweep (processWait s env.sweep)

/-! ## Runs -/

/-- What happens to a client. -/
inductive Action where
  | send (message : CoapMessage) (env : SendEnv)
  | cycle (env : CycleEnv)

def CoapClient.after (s : CoapClient) : Action → Except Fault CoapClient
  | .send message env => return (s.coapMessageSend message env).2
  | .cycle env => do
    let (_, s) ← s.coapMessageCycle env
    return s

/-- A client at work; a read behind the receive buffer ends a run. -/
def coapClient : Machine (Except Fault CoapClient) Action := ⟨fun s action => s.bind (·.after action)⟩

/-- The client of `IOT_COAP_Construct` before its first request. -/
structure CoapClient.Fresh (s : CoapClient) : Prop where
  messageList : s.messageList = []
  history : s.history = []

end QcloudIot.Coap
