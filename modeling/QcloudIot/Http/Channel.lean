import QcloudIot.Http.Client
import QcloudIot.Mqtt.Types

/-!
# HTTP channels

Opening and closing the connection of an HTTP client (`utils_httpc.c`), and the download
channel of `ota_fetch.c`. The function pointers of a network stack are set by `network_init`,
which a connection reaches only behind the host of its url.
-/

namespace QcloudIot.Http

open Mqtt (CStr)

/-- Calls that do not return. -/
inductive Crash where
  /-- a null pointer is read -/
  | nullPointer
  /-- a function pointer that was never set is called -/
  | unsetFunction
  /-- a division by zero -/
  | divisionByZero
  deriving DecidableEq, Repr

abbrev qcloudErrInval : Int := -1002
abbrev qcloudErrHttpClosed : Int := -3
abbrev qcloudErrHttpParse : Int := -7
/-- `HTTP_CLIENT_MAX_HOST_LEN` -/
abbrev httpClientMaxHostLen : Nat := 64

/-- What the code looks at in a `Network`: whether its function pointers are set, and
    `handle != 0`. -/
structure NetworkStack where
  functions : Bool
  connected : Bool
  deriving DecidableEq, Repr

/-- The network of a client that has been cleared with `memset`. -/
def NetworkStack.cleared : NetworkStack := ⟨false, false⟩

/-- The function pointers are set before the handle is. -/
def NetworkStack.Sound (stack : NetworkStack) : Prop := stack.connected = true → stack.functions = true

/-! ## Connecting -/

/-- `://` -/
abbrev schemeEnd : List UInt8 := [58, 47, 47]

/-- `_http_client_parse_host` (`utils_httpc.c:139-170`): the host. -/
def httpClientParseHost (url : List UInt8) (hostMaxLen : Nat) : Except Int (List UInt8) :=
  match strstr schemeEnd url with
  | none => .error qcloudErrHttpParse
  | some scheme =>
    let host := (url.drop (scheme + 3)).takeWhile (· ≠ 47)
    if hostMaxLen < host.length + 1 then .error qcloudErrHttpParse else .ok host

/-- How the surroundings answer while a connection is opened: the return code of
    `network_stack.init`, whether `network_stack.connect` succeeds, and the return code of
    `_http_client_send_request`. -/
structure ConnectEnv where
  init : Int
  connects : Bool
  sent : Int
  deriving DecidableEq, Repr

/-- `qcloud_http_client_connect` (`utils_httpc.c:719-748`). -/
def qcloudHttpClientConnect (stack : NetworkStack) (url : List UInt8) (env : ConnectEnv) :
    Int × NetworkStack :=
  if stack.connected then (qcloudErrHttpConn, stack)
  else
    match httpClientParseHost url httpClientMaxHostLen with
    | .error rc => (rc, stack)
    | .ok _ =>
      let stack : NetworkStack := { functions := true, connected := false }
      if env.init ≠ qcloudRetSuccess then (env.init, stack)
      else if env.connects then (qcloudRetSuccess, { stack with connected := true })
      else (qcloudErrHttpConn, stack)

/-- `qcloud_http_client_close` (`utils_httpc.c:750-755`). -/
def qcloudHttpClientClose (stack : NetworkStack) : NetworkStack := { stack with connected := false }

/-- `qcloud_http_client_common` (`utils_httpc.c:757-776`). -/
def qcloudHttpClientCommon (stack : NetworkStack) (url : List UInt8) (env : ConnectEnv) :
    Int × NetworkStack :=
  let (rc, stack) :=
    if stack.connected then (qcloudRetSuccess, stack) else qcloudHttpClientConnect stack url env
  if rc ≠ qcloudRetSuccess then (rc, stack)
  else if env.sent ≠ qcloudRetSuccess then (env.sent, qcloudHttpClientClose stack)
  else (qcloudRetSuccess, stack)

/-- The calls through the network stack with which a channel is deinitialised. -/
def NetworkStack.release (stack : NetworkStack) : Except Crash Unit :=
  if stack.functions then .ok () else .error .unsetFunction

/-! ## The download channel -/

/-- `OTAHTTPStruct`: `url` points to a text or is `NULL`. -/
structure FetchChannel where
  url : Option CStr
  offset : Nat
  size : Nat
  stack : NetworkStack
  deriving DecidableEq, Repr

/-- `ofc_Init` (`ota_fetch.c:62-85`), which the allocation may fail. -/
def ofcInit (url : Option CStr) (offset size : Nat) (allocated : Bool) : Option FetchChannel :=
  if allocated then some { url, offset, size, stack := .cleared } else none

/-- `qcloud_ofc_connect` (`ota_fetch.c:87-106`). -/
def qcloudOfcConnect (channel : FetchChannel) (env : ConnectEnv) :
    Except Crash (Int × FetchChannel) :=
  match channel.url with
  | none => .error .nullPointer
  | some url =>
    let (rc, stack) := qcloudHttpClientCommon channel.stack url.bytes env
    .ok (rc, { channel with stack })

/-- What a call of `qcloud_http_recv_data` brings: bytes in the buffer and whether the
    connection is still open, or a negative return code. -/
inductive FetchResult where
  | bytes (chunk : List UInt8) (stillOpen : Bool) (short : chunk.length < 2 ^ 31)
  | failed (rc : Int) (negative : rc < 0)
  deriving DecidableEq, Repr

/-- `IOT_OTA_ERR_FETCH_NOT_EXIST` -/
abbrev iotOtaErrFetchNotExist : Int := -6
/-- `IOT_OTA_ERR_FETCH_AUTH_FAIL` -/
abbrev iotOtaErrFetchAuthFail : Int := -7
/-- `IOT_OTA_ERR_FETCH_TIMEOUT` -/
abbrev iotOtaErrFetchTimeout : Int := -8

/-- The codes that `qcloud_ofc_fetch` and `qcloud_resource_upload_http_recv` return for those of
    the HTTP client. -/
def fetchCode (rc : Int) : Int :=
  if rc = qcloudErrHttpNotFound then iotOtaErrFetchNotExist
  else if rc = qcloudErrHttpAuth then iotOtaErrFetchAuthFail
  else if rc = qcloudErrHttpTimeout then iotOtaErrFetchTimeout
  else rc

/-- `qcloud_ofc_fetch` (`ota_fetch.c:108-134`): the code returned and the bytes in the buffer.
    Without a connection nothing is read. -/
def qcloudOfcFetch (channel : Option FetchChannel) (result : FetchResult) :
    Except Crash ((Int × List UInt8) × Option FetchChannel) :=
  match channel with
  | none => .error .nullPointer
  | some channel =>
    if ¬ channel.stack.connected then .ok ((qcloudErrHttpConn, []), some channel)
    else match result with
    | .bytes chunk stillOpen _ =>
      .ok ((chunk.length, chunk),
        some { channel with stack := { channel.stack with connected := stillOpen } })
    | .failed rc _ =>
      .ok ((fetchCode rc, []), some { channel with stack := qcloudHttpClientClose channel.stack })

/-- `qcloud_ofc_deinit` (`ota_fetch.c:135-147`). -/
def qcloudOfcDeinit : Option FetchChannel → Except Crash Unit
  | none => .ok ()
  | some channel => channel.stack.release

end QcloudIot.Http
