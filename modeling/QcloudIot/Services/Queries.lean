import QcloudIot.Http.Client
import QcloudIot.Json.Token
import QcloudIot.Misc.Size
import QcloudIot.Mqtt.Handlers
import QcloudIot.Shadow.Manager

/-!
# The queries that wait for their answer

`IOT_Get_Config` of `remote_config_mqtt.c` and `IOT_Get_SysTime` of `system_mqtt.c`: a request is
published, and the client yields until a flag is up that the callbacks of the subscription raise.
What a yield brings is a list of events and a return code. The events since the last request are
kept.
-/

namespace QcloudIot.Services

open Http (atoi signOf numberOf)
open Json (liteJsonValueOf Fault isSpace digitValue)
open Mqtt (CStr MqttEventType qcloudRetSuccess qcloudErrFailure qcloudErrMqttRequestTimeout)
open Shadow (ascii textOf)

/-- `QCLOUD_ERR_JSON_BUFFER_TRUNCATED` -/
abbrev qcloudErrJsonBufferTruncated : Int := -133
/-- `REMOTE_CONFIG_ERRCODE_SUCCESS` -/
abbrev remoteConfigErrcodeSuccess : Int := 0
/-- `MAX_RECV_LEN` -/
abbrev maxRecvLen : Nat := 512

def typeKey : CStr := ⟨ascii ['t', 'y', 'p', 'e'], Shadow.typeField.noNul⟩
def resultKey : CStr := ⟨ascii ['r', 'e', 's', 'u', 'l', 't'], Shadow.resultField.noNul⟩
def payloadKey : CStr := ⟨ascii ['p', 'a', 'y', 'l', 'o', 'a', 'd'], by decide⟩
def switchKey : CStr := ⟨ascii ['s', 'w', 'i', 't', 'c', 'h'], by decide⟩
def timeKey : CStr := ⟨ascii ['t', 'i', 'm', 'e'], by decide⟩
def ntptime1Key : CStr := ⟨ascii ['n', 't', 'p', 't', 'i', 'm', 'e', '1'], by decide⟩
def ntptime2Key : CStr := ⟨ascii ['n', 't', 'p', 't', 'i', 'm', 'e', '2'], by decide⟩

/-- `JSON_TYPE_STRING_REPLY` -/
def reply : List UInt8 := ascii ['r', 'e', 'p', 'l', 'y']
/-- `JSON_TYPE_STRING_PUSH` -/
def push : List UInt8 := ascii ['p', 'u', 's', 'h']
def ssh : List UInt8 := ascii ['s', 's', 'h']

/-- What `IOT_Get_Config` publishes. -/
def getRequest : List UInt8 :=
  ascii ['\x7b', '"', 't', 'y', 'p', 'e', '"', ':', '"', 'g', 'e', 't', '"', '\x7d']

/-- What goes wrong in a callback: a look into a text, a copy that does not fit, `atoi` of a null
    pointer. -/
inductive Crash where
  | text (fault : Fault)
  | overrun
  | nullPointer
  deriving DecidableEq, Repr

/-- A look into a text. -/
def ofText {α : Type} : Except Fault α → Except Crash α
  | .ok a => .ok a
  | .error fault => .error (.text fault)

/-- What a yield brings. -/
structure Round (ε : Type) where
  events : List ε
  ret : Int

/-- What both handlers of subscription events do with `topic_sub_ok`; `none` where they return. -/
def topicSubOkAfter : MqttEventType → Option Bool
  | .subcribeSuccess => some true
  | .subcribeTimeout | .subcribeNack | .unsubscribe | .clientDestroy => some false
  | _ => none

/-! ## The remote configuration -/

/-- Which strings are allocated while a message is handled. -/
structure ConfigEnv where
  typeAllocated : Bool
  resultAllocated : Bool
  payloadAllocated : Bool
  deriving DecidableEq, Repr

inductive ConfigEvent where
  | message (payload : List UInt8) (env : ConfigEnv)
  | sub (type : MqttEventType)
  deriving DecidableEq, Repr

/-- A call of `on_config_proc`. -/
structure ConfigCall where
  errcode : Int
  configJson : List UInt8
  deriving DecidableEq, Repr

/-- `ConfigMQTTState` with the size of the buffer of `ConfigSubscirbeUserData`, and the events since
    the last request, each with the call that was made for it. -/
structure ConfigClient where
  topicSubOk : Bool
  getReplyOk : Bool
  jsonBufferLen : Nat
  received : List (ConfigEvent × Option ConfigCall)
  deriving DecidableEq, Repr

/-- The end of `_config_mqtt_message_callback` (`remote_config_mqtt.c:103-122`): the text of the
    payload is part of the message, and fits the buffer as the message did. -/
def configProc (errcode : Int) (text : CStr) (env : ConfigEnv) : Except Crash (Option ConfigCall) := do
  let configPayload ← ofText (liteJsonValueOf payloadKey text env.payloadAllocated)
  return some ⟨errcode, configPayload.getD []⟩

/-- `_config_mqtt_message_callback` (`remote_config_mqtt.c:61-132`): the call it makes, and the
    client. -/
def ConfigClient.configMqttMessageCallback (s : ConfigClient) (payload : List UInt8)
    (env : ConfigEnv) : Except Crash (Option ConfigCall × ConfigClient) :=
  -- `json_buffer_len - 1` is compared as a `size_t`
  if payload.length > sizeSub s.jsonBufferLen 1 then .ok (none, s)
  else if s.jsonBufferLen ≤ payload.length then .error .overrun
  else do
    match ← ofText (liteJsonValueOf typeKey (textOf payload) env.typeAllocated) with
    | none => return (none, s)
    | some type =>
      if type = reply then do
        let s := { s with getReplyOk := true }
        match ← ofText (liteJsonValueOf resultKey (textOf payload) env.resultAllocated) with
        | none => return (none, s)
        | some result => return (← configProc (atoi result) (textOf payload) env, s)
      else if type = push then
        return (← configProc remoteConfigErrcodeSuccess (textOf payload) env, s)
      else return (none, s)

/-- `_config_mqtt_sub_event_handler` (`remote_config_mqtt.c:134-178`). -/
def ConfigClient.configMqttSubEventHandler (s : ConfigClient) (type : MqttEventType) :
    ConfigClient :=
  match topicSubOkAfter type with
  | none => s
  | some topicSubOk => { s with topicSubOk, getReplyOk := true }

/-- An event reaches the client. -/
def ConfigClient.handle (s : ConfigClient) (event : ConfigEvent) : Except Crash ConfigClient := do
  let (call, s) ← match event with
    | .message payload env => s.configMqttMessageCallback payload env
    | .sub type => .ok (none, s.configMqttSubEventHandler type)
  return { s with received := s.received ++ [(event, call)] }

/-- The loop of `IOT_Get_Config` (`remote_config_mqtt.c:305-316`): the timer has expired when there
    are no rounds left. -/
def ConfigClient.awaitReply (ret : Int) :
    List (Round ConfigEvent) → ConfigClient → Except Crash (Int × ConfigClient)
  | rounds, s =>
    if s.getReplyOk then .ok (ret, s)
    else
      match rounds with
      | [] => .ok (qcloudErrMqttRequestTimeout, s)
      | round :: rounds => do
        let s ← round.events.foldlM ConfigClient.handle s
        if round.ret ≠ qcloudRetSuccess then return (round.ret, s)
        else awaitReply round.ret rounds s

/-- `IOT_Get_Config` (`remote_config_mqtt.c:273-318`); `published` is what `IOT_MQTT_Publish`
    returns. -/
def ConfigClient.getConfig (s : ConfigClient) (bufferSize : Nat) (published : Int)
    (rounds : List (Round ConfigEvent)) : Except Crash (Int × ConfigClient) :=
  if s.topicSubOk = false then .ok (qcloudErrFailure, s)
  else if getRequest.length ≥ bufferSize then .ok (qcloudErrJsonBufferTruncated, s)
  else
    let s := { s with getReplyOk := false, received := [] }
    if published < 0 then .ok (published, s)
    else s.awaitReply published rounds

/-! ## The system time -/

/-- `atol`: the `long` of `strtol`. -/
def atol (text : List UInt8) : Int :=
  let (negative, text) := signOf (text.dropWhile isSpace)
  let value : Int := numberOf 10 (text.takeWhile fun b => digitValue b < 10)
  if negative then max (-value) (-2 ^ 63) else min value (2 ^ 63 - 1)

/-- Which strings are allocated while a message is handled. -/
structure SysEnv where
  typeAllocated : Bool
  switchAllocated : Bool
  timeAllocated : Bool
  ntptime1Allocated : Bool
  ntptime2Allocated : Bool
  deriving DecidableEq, Repr

inductive SysEvent where
  | message (payload : List UInt8) (env : SysEnv)
  | sub (type : MqttEventType)
  deriving DecidableEq, Repr

/-- `SysMQTTState` with the events since the last request, and the calls of `IOT_QCLOUD_SSH_Start`
    and `IOT_QCLOUD_SSH_Stop`. -/
structure SysClient where
  topicSubOk : Bool
  resultRecvOk : Bool
  time : Int
  ntptime1 : UInt64
  ntptime2 : UInt64
  received : List SysEvent
  sshStarts : List Bool
  deriving DecidableEq, Repr

/-- A `long` as a `size_t`. -/
def sizeOfLong (value : Int) : UInt64 := UInt64.ofNat (value % 2 ^ 64).toNat

/-- A time of the NTP, which is the time in milliseconds where the message has none. -/
def ntptimeOf (time : Int) (value : Option (List UInt8)) : UInt64 :=
  value.elim (sizeOfLong time * 1000) (sizeOfLong ∘ atol)

/-- `_system_mqtt_ssh_message_callback` (`system_mqtt.c:32-47`): `atoi` reads a null pointer where
    there is no switch. -/
def SysClient.systemMqttSshMessageCallback (s : SysClient) (rcvBuf : CStr) (env : SysEnv) :
    Except Crash SysClient := do
  match ← ofText (liteJsonValueOf switchKey rcvBuf env.switchAllocated) with
  | none => .error .nullPointer
  | some switch => return { s with sshStarts := s.sshStarts ++ [decide (atoi switch = 1)] }

/-- The rest of `_system_mqtt_message_callback` (`system_mqtt.c:75-107`), for a `size_t` of 64
    bits. -/
def SysClient.resultRecv (s : SysClient) (rcvBuf : CStr) (env : SysEnv) :
    Except Crash SysClient := do
  let value ← ofText (liteJsonValueOf timeKey rcvBuf env.timeAllocated)
  let time := value.elim s.time atol
  let ntptime1 ← ofText (liteJsonValueOf ntptime1Key rcvBuf env.ntptime1Allocated)
  let ntptime2 ← ofText (liteJsonValueOf ntptime2Key rcvBuf env.ntptime2Allocated)
  return { s with
    time
    ntptime1 := ntptimeOf time ntptime1
    ntptime2 := ntptimeOf time ntptime2
    resultRecvOk := true }

/-- `_system_mqtt_message_callback` (`system_mqtt.c:49-110`). -/
def SysClient.systemMqttMessageCallback (s : SysClient) (payload : List UInt8) (env : SysEnv) :
    Except Crash SysClient := do
  let rcvBuf := textOf (payload.take maxRecvLen)
  let type ← ofText (liteJsonValueOf typeKey rcvBuf env.typeAllocated)
  if type = some ssh then s.systemMqttSshMessageCallback rcvBuf env
  else s.resultRecv rcvBuf env

/-- `_system_mqtt_sub_event_handler` (`system_mqtt.c:112-144`). -/
def SysClient.systemMqttSubEventHandler (s : SysClient) (type : MqttEventType) : SysClient :=
  { s with topicSubOk := (topicSubOkAfter type).getD s.topicSubOk }

/-- An event reaches the client. -/
def SysClient.handle (s : SysClient) (event : SysEvent) : Except Crash SysClient :=
  let s := { s with received := s.received ++ [event] }
  match event with
  | .message payload env => s.systemMqttMessageCallback payload env
  | .sub type => .ok (s.systemMqttSubEventHandler type)

/-- A round of the loop that subscribes: what `_iot_system_info_result_subscribe` returns, and what
    the yield brings. -/
structure SubscribeTry where
  subscribed : Int
  round : Round SysEvent

/-- The loop that subscribes (`system_mqtt.c:209-221`); the tries are those for `cntSub < 3`. -/
def SysClient.subscribe : List SubscribeTry → SysClient → Except Crash SysClient
  | [], s => .ok s
  | attempt :: tries, s =>
    if attempt.subscribed < 0 then subscribe tries s
    else do
      let s ← attempt.round.events.foldlM SysClient.handle s
      if attempt.round.ret ≠ 0 ∨ s.topicSubOk then return s else subscribe tries s

/-- The loop of `IOT_Get_SysTime` (`system_mqtt.c:237-240`) with `left` rounds to go. -/
def SysClient.awaitResult : Nat → (Nat → Round SysEvent) → SysClient → Except Crash SysClient
  | 0, _, s => .ok s
  | left + 1, rounds, s => do
    let s ← (rounds 0).events.foldlM SysClient.handle s
    if (rounds 0).ret = 0 ∧ s.resultRecvOk = false then
      awaitResult left (fun i => rounds (i + 1)) s
    else return s

/-- What `IOT_Get_SysTime` has done before it publishes: the client with the topic subscribed. -/
def SysClient.subscribed (s : SysClient) (first second third : SubscribeTry) :
    Except Crash SysClient :=
  if s.topicSubOk then .ok s else SysClient.subscribe [first, second, third] s

/-- `IOT_Get_SysTime` (`system_mqtt.c:195-251`): the return code, what is stored in `*time`, and the
    client. -/
def SysClient.getSysTime (s : SysClient) (first second third : SubscribeTry) (published : Int)
    (rounds : Nat → Round SysEvent) : Except Crash (Int × Option Int × SysClient) := do
  let s ← s.subscribed first second third
  if s.topicSubOk = false then return (qcloudErrFailure, none, s)
  else
    let s := { s with resultRecvOk := false, received := [] }
    if published < 0 then return (published, none, s)
    else
      let s ← s.awaitResult 20 rounds
      if s.resultRecvOk then return (qcloudRetSuccess, some s.time, s)
      else return (qcloudErrFailure, some 0, s)

end QcloudIot.Services
