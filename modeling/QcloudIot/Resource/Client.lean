import QcloudIot.Ota.Client

/-!
# The resource client

`resource_client.c` over the messages of `resource_mqtt.c` and the channels of `ota_fetch.c`
and `utils_url_upload.c`. A channel is known by its identity, the number of channels that were
initialised before it; the identities given back are listed. The two directions have an
information block each.
-/

namespace QcloudIot.Resource

open Mqtt (CStr MqttMessage)
open Shadow (ascii textOf strncpy)
open Json (Overrun liteJsonValueAt liteJsonValueOf ofCopy ofMessage)
open Http (Crash ConnectEnv FetchResult NetworkStack atoi toInt32 toUint32 qcloudHttpClientCommon
  qcloudHttpClientClose fetchCode)
open Ota (copied Stored)

/-! ## Constants -/

abbrev qcloudRetSuccess : Int := 0
abbrev qcloudErrFailure : Int := -1001
abbrev errcodeInvalidParam : Int := -2
abbrev errcodeInvalidState : Int := -3
abbrev errcodeFetchFailed : Int := -5
abbrev errcodeFetchNotExist : Int := -6
abbrev errcodeFetchAuthFail : Int := -7
abbrev errcodeFetchTimeout : Int := -8
abbrev errcodeOscFailed : Int := -10
abbrev resultcodeSuccess : Int := 0
abbrev resultcodeTimeout : Int := -1
abbrev resultcodeFileNotexist : Int := -2
abbrev resultcodeSignInvalid : Int := -3
abbrev resultcodeMd5Notmatch : Int := -4

/-- `IOT_REOURCE_URL_LEN` -/
abbrev urlLen : Nat := 1024
/-- `IOT_RESOURCE_NAME_LEN` -/
abbrev nameLen : Nat := 64
/-- The size of `md5sum`. -/
abbrev md5sumLen : Nat := 33

def sizeKey : CStr := ⟨ascii ['s', 'i', 'z', 'e'], by decide⟩
def nameKey : CStr := ⟨ascii ['n', 'a', 'm', 'e'], by decide⟩
def md5sumKey : CStr := ⟨ascii ['m', 'd', '5', 's', 'u', 'm'], Ota.md5Field.noNul⟩
def urlKey : CStr := ⟨ascii ['u', 'r', 'l'], Ota.urlField.noNul⟩
def typeKey : CStr := ⟨ascii ['t', 'y', 'p', 'e'], Shadow.typeField.noNul⟩
def reportKey : CStr := ⟨ascii ['r', 'e', 'p', 'o', 'r', 't'], by decide⟩
def progressKey : CStr := ⟨ascii ['p', 'r', 'o', 'g', 'r', 'e', 's', 's'], by decide⟩
def resultCodeKey : CStr :=
  ⟨ascii ['r', 'e', 's', 'u', 'l', 't', '_', 'c', 'o', 'd', 'e'], Ota.resultField.noNul⟩

/-! ## Data -/

/-- `QCLOUD_RESOURCE_STATE_CODE_E` -/
inductive State where
  | uninited
  | inited
  | start
  | fin
  | disconnected
  deriving DecidableEq, Repr

/-- `state >= QCLOUD_RESOURCE_STATE_START_E` -/
def State.started : State → Bool
  | .uninited | .inited => false
  | .start | .fin | .disconnected => true

/-- A channel of either direction: its identity and its network. -/
structure Channel where
  ident : Nat
  stack : NetworkStack
  deriving DecidableEq, Repr

/-- `struct QCLOUD_RESOURCE_INFO_T`. The texts are fields of memory. -/
structure Info where
  channel : Option Channel
  state : State
  sizeLast : UInt32
  sizePrepared : UInt32
  resourceSize : UInt32
  resourceUrl : List UInt8
  resourceName : List UInt8
  md5sum : List UInt8
  md5 : Md5.Context
  err : Int
  resultCode : UInt32
  deriving DecidableEq, Repr

/-- The texts as they are read: one that fills its field goes on in the next, and the padding
    behind the last one is zero. -/
def Info.urlText (info : Info) : List UInt8 :=
  cString (info.resourceUrl ++ info.resourceName ++ info.md5sum ++ [0])
def Info.nameText (info : Info) : List UInt8 := cString (info.resourceName ++ info.md5sum ++ [0])
def Info.md5Text (info : Info) : List UInt8 := cString (info.md5sum ++ [0])

/-- The context after `memset`. -/
def clearedMd5 : Md5.Context := ⟨0, 0, ⟨0, 0, 0, 0⟩, List.replicate 64 0⟩

/-- The block after `_qcloud_iot_resource_info_reset` (`resource_client.c:238-246`). -/
def Info.reset : Info where
  channel := none
  state := .inited
  sizeLast := 0
  sizePrepared := 0
  resourceSize := UInt32.ofNat (toUint32 (-1))
  resourceUrl := List.replicate urlLen 0
  resourceName := List.replicate nameLen 0
  md5sum := List.replicate md5sumLen 0
  md5 := clearedMd5
  err := 0
  resultCode := 0

/-- The block after `_qcloud_iot_resource_init`. -/
def Info.initial : Info := { Info.reset with resourceSize := 0, md5 := Md5.utilsMd5Starts }

inductive Direction where
  | download
  | upload
  deriving DecidableEq, Repr

/-- `QCLOUD_RESOURCE_REPORT_E` -/
inductive ReportKind where
  | uploading
  | downloading
  | success
  | failed
  deriving DecidableEq, Repr

/-- A report handed to `IOT_MQTT_Publish`. -/
structure Report where
  direction : Direction
  kind : ReportKind
  resultCode : Int
  percent : Int
  name : List UInt8
  deriving DecidableEq, Repr

/-- The report tells the result. -/
def Report.IsResult (report : Report) : Prop := report.kind = .success ∨ report.kind = .failed

/-- `QCLOUD_RESOURCE_CONTEXT_T` with what has happened so far: the reports sent, the number of
    channels initialised, the identities of those deinitialised, and whether the context has been
    given back. -/
structure Context where
  download : Info
  upload : Info
  reports : List Report
  minted : Nat
  released : List Nat
  destroyed : Bool
  deriving DecidableEq, Repr

/-- The context of `IOT_Resource_Init`. -/
def Context.initial : Context where
  download := .initial
  upload := .initial
  reports := []
  minted := 0
  released := []
  destroyed := false

def Context.info (r : Context) : Direction → Info
  | .download => r.download
  | .upload => r.upload

def Context.set (r : Context) (info : Info) : Direction → Context
  | .download => { r with download := info }
  | .upload => { r with upload := info }

/-- A call does not return. -/
inductive Halt where
  | crash (crash : Crash)
  | fault (fault : Overrun)
  deriving DecidableEq, Repr

def ofCrash {α : Type} : Except Crash α → Except Halt α
  | .ok a => .ok a
  | .error crash => .error (.crash crash)

def ofFault {α : Type} : Except Overrun α → Except Halt α
  | .ok a => .ok a
  | .error fault => .error (.fault fault)

/-! ## Messages -/

/-- Which values of a message can be allocated. -/
structure CallbackEnv where
  type : Bool
  size : Bool
  name : Bool
  md5sum : Bool
  url : Bool
  report : Bool
  progress : Bool
  resultCode : Bool
  deriving DecidableEq, Repr

/-- `qcloud_lib_get_json_key_value` (`resource_lib.c:32-41`) on the message, which is searched
    where it lies. -/
def getJsonKeyValueAt (memory : List UInt8) (key : CStr) (allocated : Bool) :
    Except Overrun (Option CStr) := do
  let value ← ofMessage (liteJsonValueAt key memory allocated)
  return value.map textOf

/-- `qcloud_lib_get_json_key_value` on a value that was copied out of the message. -/
def getJsonKeyValue (json key : CStr) (allocated : Bool) : Except Overrun (Option CStr) := do
  let value ← ofCopy (liteJsonValueOf key json allocated)
  return value.map textOf

/-- The `int` that `atoi` reads, in a field of 32 bits. -/
def atoiWord (text : CStr) : UInt32 := UInt32.ofNat (toUint32 (atoi text.bytes))

/-- `_qcloud_iot_resource_cb_proc_download` and `_qcloud_iot_resource_cb_proc_upload`, which do the
    same to the block of their direction. -/
def Info.procTask (info : Info) (memory : List UInt8) (env : CallbackEnv) :
    Except Overrun Info :=
  if info.state.started then return info
  else do
    let some size ← getJsonKeyValueAt memory sizeKey env.size | return info
    let info := { info with resourceSize := atoiWord size }
    let some name ← getJsonKeyValueAt memory nameKey env.name | return info
    let info := { info with resourceName := strncpy nameLen name }
    let some md5sum ← getJsonKeyValueAt memory md5sumKey env.md5sum | return info
    let info := { info with md5sum := strncpy md5sumLen md5sum }
    let some url ← getJsonKeyValueAt memory urlKey env.url | return info
    return { info with resourceUrl := strncpy urlLen url, state := .start }

/-- `_qcloud_iot_resource_cb_proc_download` (`resource_client.c:69-112`). -/
def Context.cbProcDownload (r : Context) (memory : List UInt8) (env : CallbackEnv) :
    Except Overrun Context := do
  let download ← r.download.procTask memory env
  return { r with download }

/-- `_qcloud_iot_resource_cb_proc_upload` (`resource_client.c:114-156`). -/
def Context.cbProcUpload (r : Context) (memory : List UInt8) (env : CallbackEnv) :
    Except Overrun Context := do
  let upload ← r.upload.procTask memory env
  return { r with upload }

/-- The result code of an answer. -/
def Context.setResultCode (r : Context) (d : Direction) (value : CStr) : Context :=
  r.set { r.info d with resultCode := atoiWord value } d

/-- `_qcloud_iot_resource_cb_proc_uploadresult` (`resource_client.c:158-185`). -/
def Context.cbProcUploadresult (r : Context) (memory : List UInt8)
    (env : CallbackEnv) : Except Overrun Context := do
  let some report ← getJsonKeyValueAt memory reportKey env.report | return r
  let some progress ← getJsonKeyValue report progressKey env.progress | return r
  let some value ← getJsonKeyValue progress resultCodeKey env.resultCode | return r
  return r.setResultCode .upload value

/-- The result code in the answer to a progress report. -/
def Context.cbProcProgress (r : Context) (d : Direction) (memory : List UInt8)
    (env : CallbackEnv) : Except Overrun Context := do
  let some value ← getJsonKeyValueAt memory resultCodeKey env.resultCode | return r
  return r.setResultCode d value

/-- What a message asks for, by its type. -/
inductive MessageType where
  | download
  | createUploadTask
  | uploadResult
  | progress (d : Direction)
  deriving DecidableEq, Repr

/-- The comparisons of `_qcloud_iot_resource_callback`. -/
def messageType (jsonType : List UInt8) : Option MessageType :=
  if jsonType = ascii ['d', 'o', 'w', 'n', 'l', 'o', 'a', 'd'] ∨
      jsonType = ascii ['g', 'e', 't', '_', 'd', 'o', 'w', 'n', 'l', 'o', 'a', 'd', '_', 't', 'a',
        's', 'k', '_', 'r', 's', 'p'] then some .download
  else if jsonType = ascii ['c', 'r', 'e', 'a', 't', 'e', '_', 'u', 'p', 'l', 'o', 'a', 'd', '_',
      't', 'a', 's', 'k', '_', 'r', 's', 'p'] then some .createUploadTask
  else if jsonType = ascii ['u', 'p', 'l', 'o', 'a', 'd', '_', 'r', 'e', 's', 'u', 'l', 't'] then
    some .uploadResult
  else if jsonType = ascii ['r', 'e', 'p', 'o', 'r', 't', '_', 'u', 'p', 'l', 'o', 'a', 'd', '_',
      'p', 'r', 'o', 'g', 'r', 'e', 's', 's', '_', 'r', 's', 'p'] then some (.progress .upload)
  else if jsonType = ascii ['r', 'e', 'p', 'o', 'r', 't', '_', 'd', 'o', 'w', 'n', 'l', 'o', 'a',
      'd', '_', 'p', 'r', 'o', 'g', 'r', 'e', 's', 's', '_', 'r', 's', 'p'] then
    some (.progress .download)
  else none

/-- What `_qcloud_iot_resource_callback` does with a message that is there. -/
def Context.dispatch (r : Context) (memory : List UInt8) (env : CallbackEnv) :
    Except Overrun Context := do
  let some jsonType ← getJsonKeyValueAt memory typeKey env.type | return r
  match messageType jsonType.bytes with
  | some .download => r.cbProcDownload memory env
  | some .createUploadTask => r.cbProcUpload memory env
  | some .uploadResult => r.cbProcUploadresult memory env
  | some (.progress d) => r.cbProcProgress d memory env
  | none => return r

/-- `_qcloud_iot_resource_callback` (`resource_client.c:188-236`) with a message of `msgLen` bytes
    at the front of `memory`. -/
def Context.resourceCallback (r : Context) (memory : List UInt8) (msgLen : Nat)
    (env : CallbackEnv) : Except Overrun Context :=
  if msgLen = 0 then return r
  else r.dispatch memory env

/-- `_qcloud_resource_mqtt_cb` (`resource_mqtt.c:47-58`) with a message in `read_buf`, whose length
    is handed on as a `uint32_t`. -/
def Context.resourceMqttCb (r : Context) (readBuf : List UInt8) (message : MqttMessage)
    (env : CallbackEnv) : Except Overrun Context :=
  r.resourceCallback (readBuf.drop message.payload) (message.payloadLen % 2 ^ 32) env

/-! ## Reports -/

/-- `qcloud_resource_mqtt_report_progress` (`resource_mqtt.c:151-200`) with what `IOT_MQTT_Publish`
    returns. -/
def Context.mqttReportProgress (r : Context) (report : Report) (published : Int) : Int × Context :=
  if report.resultCode ≤ -5 ∨ report.resultCode > resultcodeSuccess then (qcloudErrFailure, r)
  else
    let r := { r with reports := r.reports ++ [report] }
    (if published < 0 then errcodeOscFailed else published, r)

/-- `_qcloud_iot_resource_report_download_progress` and
    `_qcloud_iot_resource_report_upload_progress` (`resource_client.c:248-284, 333-369`), which
    report the `kind` of their direction. -/
def Context.reportProgress (r : Context) (d : Direction) (kind : ReportKind) (progress : Int)
    (published : Int) : Int × Context :=
  let fail (r : Context) (err : Int) : Context := r.set { r.info d with err } d
  if (r.info d).state = .uninited then (qcloudErrFailure, fail r errcodeInvalidState)
  else if ¬ (0 ≤ progress ∧ progress ≤ 100) then
    (qcloudErrFailure, fail r errcodeInvalidParam)
  else
    let report : Report :=
      { direction := d, kind, resultCode := 0, percent := progress, name := (r.info d).nameText }
    let (ret, r) := r.mqttReportProgress report published
    if ret < qcloudRetSuccess then (ret, fail r ret) else (qcloudRetSuccess, r)

/-- The name can be reported. -/
def validName (name : List UInt8) : Bool := 1 ≤ name.length ∧ name.length ≤ 64

/-- The report of a result. -/
def resultReport (d : Direction) (name : List UInt8) (resultCode : Int) : Report where
  direction := d
  kind := if resultCode ≠ resultcodeSuccess then .failed else .success
  resultCode
  percent := 0
  name

/-- `_qcloud_iot_resource_report_download_result` (`resource_client.c:286-331`). -/
def Context.reportDownloadResult (r : Context) (name : List UInt8) (resultCode published : Int) :
    Int × Context :=
  if r.download.state = .uninited then
    (qcloudErrFailure, { r with download := { r.download with err := errcodeInvalidState } })
  else if ¬ validName name then (qcloudErrFailure, { r with download := .reset })
  else
    let (ret, r) := r.mqttReportProgress (resultReport .download name resultCode) published
    (if ret < 0 then qcloudErrFailure else ret, { r with download := .reset })

/-- A message that arrives while the client waits. -/
structure Arrival where
  memory : List UInt8
  msgLen : Nat
  env : CallbackEnv
  deriving DecidableEq, Repr

/-- The messages of one call of `IOT_MQTT_Yield`. -/
def Context.arrive (r : Context) : List Arrival → Except Overrun Context
  | [] => return r
  | arrival :: arrivals => do
    let r ← r.resourceCallback arrival.memory arrival.msgLen arrival.env
    r.arrive arrivals

/-- A round of the waiting loop: the messages, and whether `IOT_MQTT_Yield` succeeds. -/
structure Wait where
  arrivals : List Arrival
  succeeds : Bool
  deriving DecidableEq, Repr

/-- The loop that waits for the answer to a result, until the timer has expired. -/
def Context.waitResult (r : Context) : List Wait → Except Overrun (Int × Context)
  | [] => return (qcloudErrFailure, r)
  | wait :: waits => do
    let r ← r.arrive wait.arrivals
    if ¬ wait.succeeds then return (qcloudErrFailure, r)
    else if toInt32 r.upload.resultCode.toNat ≠ -1 then
      return (toInt32 r.upload.resultCode.toNat, r)
    else r.waitResult waits

/-- How the surroundings answer the report of an upload result. -/
structure UploadResultEnv where
  published : Int
  waits : List Wait
  deriving DecidableEq, Repr

/-- `_qcloud_iot_resource_report_upload_result` (`resource_client.c:371-428`). -/
def Context.reportUploadResult (r : Context) (name : List UInt8) (resultCode : Int)
    (env : UploadResultEnv) : Except Overrun (Int × Context) :=
  if r.upload.state = .uninited then
    return (qcloudErrFailure, { r with upload := { r.upload with err := errcodeInvalidState } })
  else if ¬ validName name then return (qcloudErrFailure, { r with upload := .reset })
  else do
    let r := { r with upload := { r.upload with resultCode := UInt32.ofNat (toUint32 (-1)) } }
    let (ret, r) := r.mqttReportProgress (resultReport .upload name resultCode) env.published
    if ret < 0 then return (qcloudErrFailure, { r with upload := .reset })
    else do
      let (ret, r) ← r.waitResult env.waits
      return (ret, { r with upload := .reset })

/-! ## Channels -/

/-- `qcloud_ofc_deinit` and `qcloud_url_upload_deinit`. -/
def Context.deinitChannel (r : Context) : Option Channel → Except Crash Context
  | none => .ok r
  | some channel => do
    channel.stack.release
    return { r with released := r.released ++ [channel.ident] }

/-- How the surroundings answer a start: whether the channel can be allocated, and its
    connection. -/
structure StartEnv where
  allocated : Bool
  connect : ConnectEnv
  deriving DecidableEq, Repr

/-- The channel of a direction is deinitialised, and a new one initialised and connected: what
    both starts do last. -/
def Context.reconnect (r : Context) (d : Direction) (env : StartEnv) :
    Except Crash (Int × Context) := do
  let r ← r.deinitChannel (r.info d).channel
  if ¬ env.allocated then
    return (qcloudErrFailure, r.set { r.info d with channel := none } d)
  else
    let (ret, stack) := qcloudHttpClientCommon .cleared (r.info d).urlText env.connect
    let info := { r.info d with channel := some { ident := r.minted, stack } }
    let info := if ret ≠ qcloudRetSuccess then { info with state := .disconnected } else info
    return (ret, { r.set info d with minted := r.minted + 1 })

/-- `IOT_Resource_StartUpload` (`resource_client.c:568-601`). -/
def Context.startUpload (r : Context) (env : StartEnv) : Except Crash (Int × Context) :=
  let upload := { r.upload with sizeLast := 0, sizePrepared := 0, md5 := Md5.utilsMd5Starts }
  { r with upload }.reconnect .upload env

/-- `IOT_Resource_StartDownload` (`resource_client.c:860-892`). -/
def Context.startDownload (r : Context) (offset : UInt32) (env : StartEnv) :
    Except Crash (Int × Context) :=
  let md5 := if offset = 0 then Md5.utilsMd5Starts else r.download.md5
  { r with download := { r.download with sizePrepared := offset, md5 } }.reconnect .download env

/-! ## Progress -/

/-- The kind of the progress reports of a direction. -/
def Direction.running : Direction → ReportKind
  | .download => .downloading
  | .upload => .uploading

/-- `percent`, which divides by the announced size. -/
def percentOf (info : Info) : Except Crash UInt32 :=
  if info.resourceSize = 0 then .error .divisionByZero
  else .ok (info.sizePrepared * 100 / info.resourceSize)

/-- `size_last` and `size_prepared` behind a number of bytes. -/
def Info.counted (info : Info) (len : Nat) : Info :=
  { info with sizeLast := UInt32.ofNat len, sizePrepared := info.sizePrepared + UInt32.ofNat len }

/-- The status is reported first of all. -/
def Context.reportBegin (r : Context) (d : Direction) (published : Int) : Context :=
  if (r.info d).sizePrepared = 0 then (r.reportProgress d d.running 0 published).2 else r

/-- The percent is reported at the end and every second. -/
def Context.reportPercent (r : Context) (d : Direction) (percent : UInt32) (expired : Bool)
    (published : Int) : Context :=
  if percent = 100 ∨ ((r.info d).sizeLast > 0 ∧ expired) then
    (r.reportProgress d d.running (toInt32 percent.toNat) published).2
  else r

/-- What both yields do first when bytes have gone through
    (`resource_client.c:659-679, 935-955`). -/
def Context.progress (r : Context) (d : Direction) (len : Nat) (expired : Bool)
    (beginPublished progressPublished : Int) : Except Crash Context := do
  let r := r.reportBegin d beginPublished
  let r := r.set ((r.info d).counted len) d
  let percent ← percentOf (r.info d)
  return r.reportPercent d percent expired progressPublished

/-! ## Uploading -/

/-- `qcloud_resource_upload_http_recv` (`resource_upload.c:57-75`): the code and the channel. -/
def uploadHttpRecv (channel : Option Channel) (bufLen : Nat) (received : FetchResult) :
    Int × Option Channel :=
  match channel with
  | none => (Http.qcloudErrInval, none)
  | some channel =>
    if bufLen = 0 then (qcloudRetSuccess, some channel)
    else if ¬ channel.stack.connected then (fetchCode Http.qcloudErrHttpConn, some channel)
    else match received with
    | .bytes _ stillOpen _ =>
      (qcloudRetSuccess,
        some { channel with stack := { channel.stack with connected := stillOpen } })
    | .failed rc _ =>
      (fetchCode rc, some { channel with stack := qcloudHttpClientClose channel.stack })

/-- The result that is reported for a code of a fetch. -/
def failureResult (ret : Int) : Option Int :=
  if ret = errcodeFetchAuthFail then some resultcodeSignInvalid
  else if ret = errcodeFetchNotExist then some resultcodeFileNotexist
  else if ret = errcodeFetchTimeout then some resultcodeTimeout
  else none

/-- `IOT_Resource_UploadRecvResult` (`resource_client.c:603-628`). -/
def Context.uploadRecvResult (r : Context) (bufLen : Nat) (received : FetchResult)
    (env : UploadResultEnv) : Except Overrun (Int × Context) := do
  let (ret, channel) := uploadHttpRecv r.upload.channel bufLen received
  let r := { r with upload := { r.upload with channel } }
  if ret < 0 then do
    let r := { r with upload := { r.upload with state := .fin, err := errcodeFetchFailed } }
    match failureResult ret with
    | none => return (ret, r)
    | some resultCode =>
      let (_, r) ← r.reportUploadResult r.upload.nameText resultCode env
      return (ret, { r with upload := { r.upload with err := ret } })
  else return (ret, r)

/-- How the surroundings answer `IOT_Resource_UploadYield`: whether bytes are written, whether the
    report timer has expired, the progress reports, what is received, and the reports of a
    result. -/
structure UploadEnv where
  written : Bool
  expired : Bool
  beginPublished : Int
  progressPublished : Int
  received : FetchResult
  sendResult : UploadResultEnv
  recvResult : UploadResultEnv
  deriving DecidableEq, Repr

/-- `qcloud_resource_upload_http_send_body` (`resource_upload.c:52-55`). -/
def uploadHttpSendBody (channel : Option Channel) (written : Bool) : Except Crash Int :=
  match channel with
  | none => .ok Http.qcloudErrInval
  | some channel =>
    -- network_stack.write
    if ¬ channel.stack.functions then .error .unsetFunction
    else .ok (if written then qcloudRetSuccess else Http.qcloudErrHttpClosed)

/-- `IOT_Resource_UploadYield` when the body could not be sent (`resource_client.c:648-658`). -/
def Context.uploadFailed (r : Context) (ret : Int) (bufLen : Nat) (env : UploadEnv) :
    Except Overrun Context := do
  let r := { r with upload := { r.upload with state := .fin, err := errcodeFetchFailed } }
  if ret = Http.qcloudErrHttpClosed ∨ ret = Http.qcloudErrHttpConn then do
    let (_, r) ← r.reportUploadResult r.upload.nameText resultcodeSignInvalid env.sendResult
    let r := { r with upload := { r.upload with err := ret } }
    let (_, r) ← r.uploadRecvResult bufLen env.received env.recvResult
    return r
  else return r

/-- `IOT_Resource_UploadYield` when the body has been sent (`resource_client.c:659-688`). -/
def Context.uploadSent (r : Context) (buf : List UInt8) (env : UploadEnv) :
    Except Halt (Int × Context) := do
  let r ← ofCrash (r.progress .upload buf.length env.expired env.beginPublished
    env.progressPublished)
  let r := { r with upload := { r.upload with md5 := Md5.utilsMd5Update r.upload.md5 buf } }
  if r.upload.sizePrepared ≥ r.upload.resourceSize then do
    let r := { r with upload := { r.upload with state := .fin } }
    ofFault (r.uploadRecvResult buf.length env.received env.recvResult)
  else return (toInt32 buf.length, r)

/-- `IOT_Resource_UploadYield` (`resource_client.c:630-689`) with the bytes of `buf`. -/
def Context.uploadYield (r : Context) (buf : List UInt8) (env : UploadEnv) :
    Except Halt (Int × Context) := do
  if buf.length = 0 then return (errcodeInvalidParam, r)
  else if r.upload.state ≠ .start ∨ r.upload.resultCode ≠ 0 then
    return (errcodeInvalidState, { r with upload := { r.upload with err := errcodeInvalidState } })
  else do
    let ret ← ofCrash (uploadHttpSendBody r.upload.channel env.written)
    if ret < 0 then do
      let r ← ofFault (r.uploadFailed ret buf.length env)
      return (ret, r)
    else r.uploadSent buf env

/-! ## Downloading -/

/-- How the surroundings answer `IOT_Resource_DownloadYield`. -/
structure DownloadEnv where
  fetched : FetchResult
  expired : Bool
  beginPublished : Int
  progressPublished : Int
  resultPublished : Int
  deriving DecidableEq, Repr

/-- `qcloud_ofc_fetch` on the channel of the download. -/
def ofcFetch (channel : Option Channel) (fetched : FetchResult) :
    Except Crash ((Int × List UInt8) × Option Channel) :=
  match channel with
  | none => .error .nullPointer
  | some channel =>
    if ¬ channel.stack.connected then .ok ((Http.qcloudErrHttpConn, []), some channel)
    else match fetched with
    | .bytes chunk stillOpen _ =>
      .ok ((chunk.length, chunk),
        some { channel with stack := { channel.stack with connected := stillOpen } })
    | .failed rc _ =>
      .ok ((fetchCode rc, []), some { channel with stack := qcloudHttpClientClose channel.stack })

/-- `IOT_Resource_DownloadYield` when the fetch has failed (`resource_client.c:911-934`). -/
def Context.downloadFailed (r : Context) (ret : Int) (published : Int) : Context :=
  let r := { r with download := { r.download with state := .fin, err := errcodeFetchFailed } }
  match failureResult ret with
  | none => r
  | some resultCode =>
    let r := (r.reportDownloadResult r.download.nameText resultCode published).2
    { r with download := { r.download with err := ret } }

/-- `IOT_Resource_DownloadYield` when bytes were fetched (`resource_client.c:935-961`). -/
def Context.downloadDone (r : Context) (chunk : List UInt8) (env : DownloadEnv) :
    Except Crash Context := do
  let r ← r.progress .download chunk.length env.expired env.beginPublished env.progressPublished
  let r := if r.download.sizePrepared ≥ r.download.resourceSize then
    { r with download := { r.download with state := .fin } } else r
  return { r with download := { r.download with md5 := Md5.utilsMd5Update r.download.md5 chunk } }

/-- `IOT_Resource_DownloadYield` (`resource_client.c:894-962`). -/
def Context.downloadYield (r : Context) (bufLen : UInt32) (env : DownloadEnv) :
    Except Crash (Int × Context) := do
  if bufLen = 0 then return (errcodeInvalidParam, r)
  else if r.download.state ≠ .start ∨ r.download.resultCode ≠ 0 then
    return (errcodeInvalidState,
      { r with download := { r.download with err := errcodeInvalidState } })
  else do
    let ((ret, chunk), channel) ← ofcFetch r.download.channel env.fetched
    let r := { r with download := { r.download with channel } }
    if ret < 0 then return (ret, r.downloadFailed ret env.resultPublished)
    else do
      let r ← r.downloadDone chunk env
      return (ret, r)

/-! ## Questions -/

/-- `IOT_Resource_IsStartUpload` and `IOT_Resource_IsStartDownload`
    (`resource_client.c:547-564, 820-837`), which do the same to the block of their direction. -/
def Context.isStart (r : Context) (d : Direction) : Bool × Context :=
  if (r.info d).state = .uninited then
    (false, r.set { r.info d with err := errcodeInvalidState } d)
  else ((r.info d).state = .start, r.set { r.info d with resultCode := 0 } d)

/-- `QCLOUD_IOT_RESOURCE_CMDTYPE_E` -/
inductive CmdType where
  | fetchedSize
  | uploadedSize
  | size
  | name
  | md5sum
  | md5check
  deriving DecidableEq, Repr

/-- The digest is the announced one. -/
def Info.digestMatches (info : Info) : Bool :=
  info.md5Text = Md5.hexString (Md5.utilsMd5Finish info.md5).2

/-- `QCLOUD_IOT_RESOURCE_MD5CHECK_E` of a download that has ended
    (`resource_client.c:1008-1032`). -/
def Context.md5CheckDownload (r : Context) (published : Int) : Int × Option Stored × Context :=
  let matched := r.download.digestMatches
  let r := { r with download := { r.download with md5 := (Md5.utilsMd5Finish r.download.md5).1 } }
  if matched then (0, some (.word 1), r)
  else (0, some (.word 0),
    (r.reportDownloadResult r.download.nameText resultcodeMd5Notmatch published).2)

/-- `IOT_Resource_DownloadIoctl` (`resource_client.c:964-1041`) with a buffer of `bufLen` bytes
    that is `aligned` to words or not: the code returned, what is stored, and the context. -/
def Context.downloadIoctl (r : Context) (type : CmdType) (bufLen : Nat) (aligned : Bool)
    (published : Int) : Int × Option Stored × Context :=
  let fail (code err : Int) : Int × Option Stored × Context :=
    (code, none, { r with download := { r.download with err } })
  if bufLen = 0 then (errcodeInvalidParam, none, r)
  else if ¬ r.download.state.started then fail errcodeInvalidState errcodeInvalidState
  else match type with
  | .fetchedSize =>
    if bufLen ≠ 4 ∨ ¬ aligned then fail qcloudErrFailure errcodeInvalidParam
    else (0, some (.word r.download.sizePrepared), r)
  | .size =>
    if bufLen ≠ 4 ∨ ¬ aligned then fail qcloudErrFailure errcodeInvalidParam
    else (0, some (.word r.download.resourceSize), r)
  | .name => (0, some (.text (copied bufLen r.download.nameText)), r)
  | .md5sum => (0, some (.text (copied bufLen r.download.md5Text)), r)
  | .md5check =>
    if bufLen ≠ 4 ∨ ¬ aligned then fail qcloudErrFailure errcodeInvalidParam
    else if r.download.state ≠ .fin then fail qcloudErrFailure errcodeInvalidState
    else r.md5CheckDownload published
  | .uploadedSize => fail qcloudErrFailure errcodeInvalidParam

/-- `QCLOUD_IOT_RESOURCE_MD5CHECK_E` of an upload that has ended (`resource_client.c:1097-1123`). -/
def Context.md5CheckUpload (r : Context) (env : UploadResultEnv) :
    Except Overrun (Int × Option Stored × Context) := do
  let matched := r.upload.digestMatches
  let r := { r with upload := { r.upload with md5 := (Md5.utilsMd5Finish r.upload.md5).1 } }
  if matched then return (0, some (.word 1), r)
  else do
    let (_, r) ← r.reportUploadResult r.upload.nameText resultcodeMd5Notmatch env
    return (0, some (.word 0), r)

/-- `IOT_Resource_UploadIoctl` (`resource_client.c:1043-1132`). The size fetched is that of the
    download, whose block also gets the error. -/
def Context.uploadIoctl (r : Context) (type : CmdType) (bufLen : Nat) (aligned : Bool)
    (env : UploadResultEnv) : Except Overrun (Int × Option Stored × Context) :=
  let fail (code err : Int) : Int × Option Stored × Context :=
    (code, none, { r with upload := { r.upload with err } })
  if bufLen = 0 then return (errcodeInvalidParam, none, r)
  else if ¬ r.upload.state.started then return fail errcodeInvalidState errcodeInvalidState
  else match type with
  | .fetchedSize =>
    if bufLen ≠ 4 ∨ ¬ aligned then
      return (qcloudErrFailure, none,
        { r with download := { r.download with err := errcodeInvalidParam } })
    else return (0, some (.word r.download.sizePrepared), r)
  | .uploadedSize =>
    if bufLen ≠ 4 ∨ ¬ aligned then return fail qcloudErrFailure errcodeInvalidParam
    else return (0, some (.word r.upload.sizePrepared), r)
  | .size =>
    if bufLen ≠ 4 ∨ ¬ aligned then return fail qcloudErrFailure errcodeInvalidParam
    else return (0, some (.word r.upload.resourceSize), r)
  | .name => return (0, some (.text (copied bufLen r.upload.nameText)), r)
  | .md5sum => return (0, some (.text (copied bufLen r.upload.md5Text)), r)
  | .md5check =>
    if bufLen ≠ 4 ∨ ¬ aligned then return fail qcloudErrFailure errcodeInvalidParam
    else if r.upload.state ≠ .fin then return fail qcloudErrFailure errcodeInvalidState
    else r.md5CheckUpload env

/-! ## Results of the caller -/

/-- The name of a report: that of the block when none is given. -/
def Info.reportedName (info : Info) : Option CStr → List UInt8
  | none => info.nameText
  | some name => name.bytes

/-- `IOT_Resource_ReportDownloadSuccess` (`resource_client.c:789-802`). -/
def Context.reportDownloadSuccess (r : Context) (name : Option CStr) (published : Int) :
    Int × Context :=
  r.reportDownloadResult (r.download.reportedName name) resultcodeSuccess published

/-- `IOT_Resource_ReportDownloadFail` (`resource_client.c:804-817`). -/
def Context.reportDownloadFail (r : Context) (name : Option CStr) (published : Int) :
    Int × Context :=
  r.reportDownloadResult (r.download.reportedName name) resultcodeTimeout published

/-- `IOT_Resource_ReportUploadSuccess` (`resource_client.c:480-493`). -/
def Context.reportUploadSuccess (r : Context) (name : Option CStr) (env : UploadResultEnv) :
    Except Overrun (Int × Context) :=
  r.reportUploadResult (r.upload.reportedName name) resultcodeSuccess env

/-- `IOT_Resource_ReportUploadFail` (`resource_client.c:495-508`). -/
def Context.reportUploadFail (r : Context) (name : Option CStr) (env : UploadResultEnv) :
    Except Overrun (Int × Context) :=
  r.reportUploadResult (r.upload.reportedName name) resultcodeTimeout env

/-- `_qcloud_iot_resource_destroy` (`resource_client.c:711-746`), which `IOT_Resource_DeInit`
    calls. -/
def Context.deInit (r : Context) : Except Crash (Int × Context) :=
  if r.download.state = .uninited then
    return (qcloudErrFailure, { r with download := { r.download with err := errcodeInvalidState } })
  else if r.upload.state = .uninited then
    return (qcloudErrFailure, { r with upload := { r.upload with err := errcodeInvalidState } })
  else do
    let r ← r.deinitChannel r.download.channel
    let r ← r.deinitChannel r.upload.channel
    return (qcloudRetSuccess, { r with destroyed := true })

/-! ## Runs -/

/-- A message, or a call of the interface. -/
inductive Action where
  | message (arrival : Arrival)
  | isStart (d : Direction)
  | startDownload (offset : UInt32) (env : StartEnv)
  | startUpload (env : StartEnv)
  | downloadYield (bufLen : UInt32) (env : DownloadEnv)
  | uploadYield (buf : List UInt8) (env : UploadEnv)
  | uploadRecvResult (bufLen : Nat) (received : FetchResult) (env : UploadResultEnv)
  | downloadIoctl (type : CmdType) (bufLen : Nat) (aligned : Bool) (published : Int)
  | uploadIoctl (type : CmdType) (bufLen : Nat) (aligned : Bool) (env : UploadResultEnv)
  | reportDownload (success : Bool) (name : Option CStr) (published : Int)
  | reportUpload (success : Bool) (name : Option CStr) (env : UploadResultEnv)
  | deInit
  deriving DecidableEq, Repr

/-- The context when the call returns. -/
def Context.after (r : Context) : Action → Except Halt Context
  | .message arrival => ofFault (r.resourceCallback arrival.memory arrival.msgLen arrival.env)
  | .isStart d => .ok (r.isStart d).2
  | .startDownload offset env => ofCrash ((r.startDownload offset env).map (·.2))
  | .startUpload env => ofCrash ((r.startUpload env).map (·.2))
  | .downloadYield bufLen env => ofCrash ((r.downloadYield bufLen env).map (·.2))
  | .uploadYield buf env => (r.uploadYield buf env).map (·.2)
  | .uploadRecvResult bufLen received env =>
    ofFault ((r.uploadRecvResult bufLen received env).map (·.2))
  | .downloadIoctl type bufLen aligned published =>
    .ok (r.downloadIoctl type bufLen aligned published).2.2
  | .uploadIoctl type bufLen aligned env =>
    ofFault ((r.uploadIoctl type bufLen aligned env).map (·.2.2))
  | .reportDownload success name published =>
    .ok (if success then r.reportDownloadSuccess name published
      else r.reportDownloadFail name published).2
  | .reportUpload success name env =>
    ofFault ((if success then r.reportUploadSuccess name env
      else r.reportUploadFail name env).map (·.2))
  | .deInit => ofCrash (r.deInit.map (·.2))

/-- The context, and how the call has ended that did not return. -/
structure Client where
  context : Context
  halted : Option Halt
  deriving DecidableEq, Repr

/-- The client after `IOT_Resource_Init`. -/
def Client.initial : Client := ⟨.initial, none⟩

/-- A context that was given back, or whose last call did not return, is not used again. -/
def Client.step (s : Client) (action : Action) : Client :=
  if s.halted.isSome ∨ s.context.destroyed then s
  else match s.context.after action with
  | .ok context => { s with context }
  | .error halt => { s with halted := some halt }

def client : Machine Client Action := ⟨Client.step⟩

end QcloudIot.Resource
