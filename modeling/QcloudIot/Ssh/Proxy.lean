import QcloudIot.Http.Client
import QcloudIot.Json.InPlace
import QcloudIot.Ota.Client

/-!
# The SSH proxy

`system_mqtt_ssh_proxy.c`: the table of local connections and the messages that come in by websocket.
The connections that have been opened are numbered in their order. What is sent to the server, what
is written to local connections and which of them have been closed is recorded.
-/

namespace QcloudIot.Ssh

open Mqtt (CStr)
open Shadow (ascii strncpy strncpy_length textOf)
open Json (Fault liteJsonValueAt)
open Http (atoi)
open Ota (utf8 decimal)

abbrev qcloudRetSuccess : Int := 0
abbrev qcloudErrFailure : Int := -1001

abbrev localSshCountMax : Nat := 5

/-- `WebsocketMsgType` -/
abbrev newSession : Int := 0
abbrev newSessionResp : Int := 1
abbrev releaseSession : Int := 2
abbrev releaseSessionResp : Int := 3
abbrev cmdPong : Int := 5
abbrev sshRawdata : Int := 6
abbrev verifyDeviceResp : Int := 9

/-- Undefined behaviour: a field that the message lacks is read, a function of a `Network` that has
    not been initialised is called, or memory is left. -/
inductive Crash where
  | missing
  | nullFunction
  | outOfBounds
  | scanner (fault : Fault)
  deriving DecidableEq, Repr

/-! ## The table -/

/-- `Network`: whether its functions are set, and the handle, which is zero where there is no
    connection. -/
structure Network where
  ready : Bool
  handle : Option Nat
  deriving DecidableEq, Repr

/-- The size of `token`. -/
abbrev tokenSize : Nat := 32 + 1

/-- `LocalSshNetworkStack` -/
structure Slot where
  token : List UInt8
  connected : Bool
  localSshNetworkStack : Network
  token_length : token.length = tokenSize
  deriving DecidableEq, Repr

/-- A slot that `memset` has cleared, and the functions of its `Network` thereafter. -/
def Slot.cleared (ready : Bool) : Slot :=
  ⟨List.replicate tokenSize 0, false, ⟨ready, none⟩, List.length_replicate⟩

/-- `token[0] == '\0'` -/
def Slot.isFree (slot : Slot) : Bool := slot.token.head? = some 0

/-- The string at `token`. Where the token has no NUL it goes on in `connected` and ends in the
    padding at the latest. -/
def Slot.text (slot : Slot) : CStr := textOf (slot.token ++ [if slot.connected then 1 else 0, 0])

/-- The table, `sg_local_ssh_count`, the `nonce` of the headers, the flags of `sg_websocketssh`, and
    what has been done. -/
structure Proxy where
  slots : Fin localSshCountMax → Slot
  sgLocalSshCount : Int
  nonce : UInt32
  disconnect : Bool
  waitPong : Bool
  pingCount : Int
  verifySuccess : Bool
  opened : Nat
  closed : List Nat
  sent : List (List UInt8)
  written : List (Fin localSshCountMax × List UInt8)

/-- What the world does during a call: whether the values of the header can be allocated, whether
    `network_init`, `connect` and `Utils_WSClient_send` succeed, and the time. -/
structure Env where
  typeAllocated : Bool
  tokenAllocated : Bool
  lenAllocated : Bool
  initialized : Bool
  connects : Bool
  sends : Bool
  timestamp : Int32

namespace Proxy

/-- The first slot whose token is the string. -/
def findSlot (proxy : Proxy) (token : CStr) : Option (Fin localSshCountMax) :=
  (List.finRange localSshCountMax).find? fun i => (proxy.slots i).text = token

/-- The first free slot. -/
def findFree (proxy : Proxy) : Option (Fin localSshCountMax) :=
  (List.finRange localSshCountMax).find? fun i => (proxy.slots i).isFree

def setSlot (proxy : Proxy) (i : Fin localSshCountMax) (slot : Slot) : Proxy :=
  { proxy with slots := Function.update proxy.slots i slot }

@[simp] theorem setSlot_self (proxy : Proxy) (i : Fin localSshCountMax) (slot : Slot) :
    (proxy.setSlot i slot).slots i = slot := by
  simp only [setSlot, Function.update_self]

theorem setSlot_of_ne (proxy : Proxy) {i j : Fin localSshCountMax} (slot : Slot) (apart : j ≠ i) :
    (proxy.setSlot i slot).slots j = proxy.slots j := by
  simp only [setSlot, Function.update_of_ne apart]

/-- `_local_ssh_create` (`system_mqtt_ssh_proxy.c:184-213`). -/
def localSshCreate (proxy : Proxy) (token : Option CStr) (env : Env) : Int × Proxy :=
  match token with
  | none => (qcloudErrFailure, proxy)
  | some token =>
    match proxy.findFree with
    | none => (qcloudErrFailure, proxy)
    | some i =>
      if env.initialized then
        (qcloudRetSuccess,
          { proxy.setSlot i ⟨strncpy tokenSize token, false, ⟨true, none⟩, strncpy_length _ _⟩ with
            sgLocalSshCount := proxy.sgLocalSshCount + 1 })
      else (qcloudErrFailure, proxy.setSlot i (Slot.cleared true))

/-- `_local_ssh_deinit` (`system_mqtt_ssh_proxy.c:215-218`): `disconnect` closes the connection if
    there is one. -/
def localSshDeinit (proxy : Proxy) (i : Fin localSshCountMax) : Except Crash Proxy :=
  if (proxy.slots i).localSshNetworkStack.ready then
    .ok { proxy with closed := proxy.closed ++ (proxy.slots i).localSshNetworkStack.handle.toList }
  else .error .nullFunction

/-- `_local_ssh_destory` (`system_mqtt_ssh_proxy.c:220-244`). -/
def localSshDestory (proxy : Proxy) (token : Option CStr) : Except Crash (Int × Proxy) :=
  match token with
  | none => .ok (qcloudErrFailure, proxy)
  | some token =>
    match proxy.findSlot token with
    | none => .ok (qcloudRetSuccess, proxy)
    | some i => do
      let deinit ← proxy.localSshDeinit i
      return (qcloudRetSuccess,
        { deinit.setSlot i (Slot.cleared false) with sgLocalSshCount := proxy.sgLocalSshCount - 1 })

/-- `_local_ssh_deinit_all` (`system_mqtt_ssh_proxy.c:246-261`). The loop stops at the first
    session. -/
def localSshDeinitAll (proxy : Proxy) : Except Crash Proxy := do
  let deinit ← match (List.finRange localSshCountMax).find? fun i => !(proxy.slots i).isFree with
    | none => .ok proxy
    | some i => proxy.localSshDeinit i
  return { deinit with slots := fun _ => Slot.cleared false, sgLocalSshCount := 1 }

/-! ## Answers -/

/-- A hexadecimal digit. -/
def hexDigit (n : Nat) : UInt8 := UInt8.ofNat (if n < 10 then 48 + n else 87 + n)

/-- The number as `%08x` prints it. -/
def hex8 (n : UInt32) : List UInt8 :=
  (List.range 8).map fun i => hexDigit (n.toNat / 16 ^ (7 - i) % 16)

/-- The header of `_websocket_ssh_construct_msgheader` (`system_mqtt_ssh_proxy.c:356-370`). -/
def msgHeader (nonce : UInt32) (token : CStr) (msgType payloadLen : Int) (timestamp : Int32) :
    List UInt8 :=
  utf8 "\x7b\"requestId\":\"ws-" ++ hex8 nonce ++ utf8 "\",\"msgType\":" ++ decimal msgType ++
    utf8 ",\"payloadLen\":" ++ decimal payloadLen ++ utf8 ",\"serviceType\":0,\"timestmap\":" ++
    decimal timestamp.toInt ++ utf8 ",\"token\":\"" ++ token.bytes ++ utf8 "\"\x7d\r\n"

/-- The payload of an answer. -/
def respPayload (ret : Int) : List UInt8 :=
  if ret = qcloudRetSuccess then utf8 "\x7b\"code\":0,\"message\":\"success\"\x7d"
  else utf8 "\x7b\"code\":" ++ decimal ret ++ utf8 ",\"message\":\"fail\"\x7d"

/-- The size of `packet`. -/
abbrev packetSize : Nat := 256

/-- An answer is put together in `packet` and sent (`system_mqtt_ssh_proxy.c:372-389` and
    `400-418`). `HAL_Snprintf` returns the length that the header would have. -/
def procResp (proxy : Proxy) (token : Option CStr) (msgType ret : Int) (env : Env) :
    Except Crash Proxy :=
  match token with
  | none => .error .missing
  | some token =>
    let payload := respPayload ret
    let header := msgHeader proxy.nonce token msgType payload.length env.timestamp
    if header.length + payload.length > packetSize then .error .outOfBounds
    else
      let packet := (header ++ payload).take (packetSize - 1) ++ [0]
      .ok { proxy with
        nonce := proxy.nonce + 1
        disconnect := proxy.disconnect || !env.sends
        sent := proxy.sent ++ [packet.take (header.length + payload.length)] }

/-- `_websocket_ssh_proc_newsession_resp` (`system_mqtt_ssh_proxy.c:372-389`). -/
def procNewsessionResp (proxy : Proxy) (token : Option CStr) (ret : Int) (env : Env) :
    Except Crash Proxy :=
  proxy.procResp token newSessionResp ret env

/-- `_websocket_ssh_proc_releasesession_resp` (`system_mqtt_ssh_proxy.c:400-419`). -/
def procReleasesessionResp (proxy : Proxy) (token : Option CStr) (ret : Int) (env : Env) :
    Except Crash Proxy :=
  proxy.procResp token releaseSessionResp ret env

/-- `_websocket_ssh_proc_newsession` (`system_mqtt_ssh_proxy.c:391-398`). -/
def procNewsession (proxy : Proxy) (token : Option CStr) (env : Env) : Except Crash Proxy :=
  let (ret, proxy) := proxy.localSshCreate token env
  if qcloudRetSuccess ≤ ret then proxy.procNewsessionResp token qcloudRetSuccess env
  else proxy.procNewsessionResp token qcloudErrFailure env

/-- `_websocket_ssh_proc_releasesession` (`system_mqtt_ssh_proxy.c:421-425`). -/
def procReleasesession (proxy : Proxy) (token : Option CStr) (env : Env) : Except Crash Proxy := do
  let proxy ← proxy.procReleasesessionResp token qcloudRetSuccess env
  let (_, proxy) ← proxy.localSshDestory token
  return proxy

/-! ## Data -/

/-- `network->write` with `len` bytes of `data`, which is `NULL` or the memory from a place on. -/
def networkWrite (proxy : Proxy) (i : Fin localSshCountMax) (data : Option (List UInt8))
    (len : Int) : Except Crash Proxy :=
  if !(proxy.slots i).localSshNetworkStack.ready then .error .nullFunction
  else if len = 0 then .ok { proxy with written := proxy.written ++ [(i, [])] }
  else
    match data with
    | none => .error .missing
    | some data =>
      -- a negative length is passed on as a huge one
      if 0 ≤ len ∧ len ≤ data.length then
        .ok { proxy with written := proxy.written ++ [(i, data.take len.toNat)] }
      else .error .outOfBounds

/-- `_local_ssh_connect` (`system_mqtt_ssh_proxy.c:178-182`). -/
def localSshConnect (proxy : Proxy) (i : Fin localSshCountMax) (env : Env) :
    Except Crash (Bool × Proxy) :=
  let slot := proxy.slots i
  if !slot.localSshNetworkStack.ready then .error .nullFunction
  else if env.connects then
    .ok (true,
      { proxy.setSlot i { slot with localSshNetworkStack := ⟨true, some proxy.opened⟩ } with
        opened := proxy.opened + 1 })
  else .ok (false, proxy.setSlot i { slot with localSshNetworkStack := ⟨true, none⟩ })

/-- `_local_ssh_send` (`system_mqtt_ssh_proxy.c:265-293`), whose value is not used. -/
def localSshSend (proxy : Proxy) (token : Option CStr) (data : Option (List UInt8)) (dataLen : Int)
    (env : Env) : Except Crash Proxy :=
  match token with
  | none => .error .missing
  | some token =>
    match proxy.findSlot token with
    | none => .ok proxy
    | some i =>
      if (proxy.slots i).connected then proxy.networkWrite i data dataLen
      else do
        let (connected, proxy) ← proxy.localSshConnect i env
        if connected then
          (proxy.setSlot i { proxy.slots i with connected := true }).networkWrite i data dataLen
        else
          let proxy ← proxy.procNewsessionResp (proxy.slots i).text qcloudErrFailure env
          let (_, proxy) ← proxy.localSshDestory (proxy.slots i).text
          return proxy

/-- A read from a local connection fails with `code` in `_local_ssh_recv`
    (`system_mqtt_ssh_proxy.c:316-348`). -/
def localSshRecvFailed (proxy : Proxy) (i : Fin localSshCountMax) (code : Int32) (env : Env) :
    Except Crash Proxy :=
  if (proxy.slots i).isFree ∨ ¬(proxy.slots i).connected then .ok proxy
  else do
    let proxy ← proxy.procNewsessionResp (proxy.slots i).text code.toInt env
    let (_, proxy) ← proxy.localSshDestory (proxy.slots i).text
    return proxy

/-! ## Messages -/

def msgTypeKey : CStr := ⟨ascii ['m', 's', 'g', 'T', 'y', 'p', 'e'], by decide⟩

def tokenKey : CStr := ⟨ascii ['t', 'o', 'k', 'e', 'n'], by decide⟩

def payloadLenKey : CStr :=
  ⟨ascii ['p', 'a', 'y', 'l', 'o', 'a', 'd', 'L', 'e', 'n'], by decide⟩

/-- `"\r\n"` -/
def crlf : List UInt8 := [13, 10]

/-- The place of the first `"\r\n"` in a message with a NUL behind it. -/
def delimiter (message : List UInt8) : Option Nat := strstr crlf (cString (message ++ [0]))

/-- The message once the delimiter has been overwritten. -/
def headerMemory (message : List UInt8) : List UInt8 :=
  match delimiter message with
  | none => message ++ [0]
  | some i => (message ++ [0]).set i 0

/-- The memory from `payload` on. -/
def payloadMemory (message : List UInt8) : Option (List UInt8) :=
  (delimiter message).map fun i => (message ++ [0]).drop (i + 2)

/-- A field of the header. -/
def headerField (key : CStr) (message : List UInt8) (allocated : Bool) :
    Except Crash (Option CStr) :=
  match liteJsonValueAt key (headerMemory message) allocated with
  | .ok value => .ok (value.map textOf)
  | .error fault => .error (.scanner fault)

/-- The branches of `_qcloud_websocket_recv_msg_callback` (`system_mqtt_ssh_proxy.c:605-616`). -/
def procMsg (proxy : Proxy) (msgType : Int) (token payloadLen : Option CStr)
    (payload : Option (List UInt8)) (env : Env) : Except Crash Proxy :=
  if msgType = newSession then proxy.procNewsession token env
  else if msgType = releaseSession then proxy.procReleasesession token env
  else if msgType = cmdPong then .ok { proxy with waitPong := false, pingCount := 0 }
  else if msgType = sshRawdata then
    match payloadLen with
    | none => .error .missing
    | some payloadLen => proxy.localSshSend token payload (atoi payloadLen.bytes) env
  else if msgType = verifyDeviceResp then
    .ok { proxy with disconnect := false, verifySuccess := true }
  else .ok proxy

/-- `_qcloud_websocket_recv_msg_callback` (`system_mqtt_ssh_proxy.c:586-622`). -/
def recvMsgCallback (proxy : Proxy) (message : List UInt8) (env : Env) : Except Crash Proxy := do
  let msgType ← headerField msgTypeKey message env.typeAllocated
  let token ← headerField tokenKey message env.tokenAllocated
  let payloadLen ← headerField payloadLenKey message env.lenAllocated
  match msgType with
  | none => return proxy
  | some msgType =>
    proxy.procMsg (atoi msgType.bytes) token payloadLen (payloadMemory message) env

end Proxy

end QcloudIot.Ssh
