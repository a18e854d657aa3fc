import QcloudIot.Http.Channel
import QcloudIot.Json.InPlace
import QcloudIot.Shadow.Manager
import QcloudIot.Utils.Md5

/-!
# The OTA client

`ota_client.c` and `ota_lib.c` over the signal channel of `ota_mqtt.c`: the messages that
announce a firmware, the download, and the check of what was downloaded. The payload of a
message is handled as the text at its place in `read_buf`. `id` of the handle, which nothing
sets, and the timer, of which only `expired` is asked, are not part of the state.
-/

namespace QcloudIot.Ota

open Mqtt (CStr MqttMessage)
open Shadow (ascii textOf)
open Json (Fault Overrun liteJsonValueOf ofCopy ofMessage strlen)
open Http (Crash ConnectEnv FetchChannel FetchResult atoi ofcInit qcloudOfcConnect qcloudOfcFetch
  qcloudOfcDeinit iotOtaErrFetchNotExist iotOtaErrFetchAuthFail iotOtaErrFetchTimeout)

/-! ## Constants -/

abbrev qcloudRetSuccess : Int := 0
abbrev qcloudErrFailure : Int := -1001
abbrev iotOtaErrFail : Int := -1
abbrev iotOtaErrInvalidParam : Int := -2
abbrev iotOtaErrInvalidState : Int := -3
abbrev iotOtaErrStrTooLong : Int := -4
abbrev iotOtaErrFetchFailed : Int := -5
abbrev iotOtaErrNomem : Int := -9
abbrev iotOtaErrOscFailed : Int := -10
abbrev iotOtaErrReportVersion : Int := -11

/-- `OTA_MAX_TOPIC_LEN` -/
abbrev otaMaxTopicLen : Nat := 64
/-- `MSG_REPORT_LEN` and `MSG_UPGPGRADE_LEN` -/
abbrev msgReportLen : Nat := 256
/-- `MSG_INFORM_LEN` -/
abbrev msgInformLen : Nat := 128
/-- `OTA_FILESIZE_STR_LEN` -/
abbrev otaFilesizeStrLen : Nat := 16

/-- `TYPE_FIELD` -/
def typeField : CStr := ⟨ascii ['t', 'y', 'p', 'e'], Shadow.typeField.noNul⟩
/-- `MD5_FIELD` -/
def md5Field : CStr := ⟨ascii ['m', 'd', '5', 's', 'u', 'm'], by decide⟩
/-- `VERSION_FIELD` -/
def versionField : CStr := ⟨ascii ['v', 'e', 'r', 's', 'i', 'o', 'n'], by decide⟩
/-- `URL_FIELD` -/
def urlField : CStr := ⟨ascii ['u', 'r', 'l'], by decide⟩
/-- `FILESIZE_FIELD` -/
def filesizeField : CStr := ⟨ascii ['f', 'i', 'l', 'e', '_', 's', 'i', 'z', 'e'], by decide⟩
/-- `RESULT_FIELD` -/
def resultField : CStr :=
  ⟨ascii ['r', 'e', 's', 'u', 'l', 't', '_', 'c', 'o', 'd', 'e'], by decide⟩

/-- `REPORT_VERSION_RSP` -/
def reportVersionRsp : List UInt8 :=
  ascii ['r', 'e', 'p', 'o', 'r', 't', '_', 'v', 'e', 'r', 's', 'i', 'o', 'n', '_', 'r', 's', 'p']
/-- `UPDATE_FIRMWARE` -/
def updateFirmware : List UInt8 :=
  ascii ['u', 'p', 'd', 'a', 't', 'e', '_', 'f', 'i', 'r', 'm', 'w', 'a', 'r', 'e']

/-! ## Data -/

/-- `IOT_OTA_State_Code` -/
inductive State where
  | uninited
  | inited
  | fetching
  | fetched
  | disconnected
  deriving DecidableEq, Repr

/-- `state >= IOT_OTAS_FETCHING` -/
def State.started : State → Bool
  | .uninited | .inited => false
  | .fetching | .fetched | .disconnected => true

/-- `IOT_OTAReportType` -/
inductive ReportType where
  | downloadTimeout
  | fileNotExist
  | authFail
  | md5NotMatch
  | upgradeFail
  | none
  | downloadBegin
  | downloading
  | upgradeBegin
  | upgradeSuccess
  deriving DecidableEq, Repr

def ReportType.code : ReportType → Int
  | .downloadTimeout => -1
  | .fileNotExist => -2
  | .authFail => -3
  | .md5NotMatch => -4
  | .upgradeFail => -5
  | .none => 0
  | .downloadBegin => 1
  | .downloading => 2
  | .upgradeBegin => 3
  | .upgradeSuccess => 4

/-- `md5sum`, a text field of 33 bytes whose last byte is never written. -/
structure Md5Sum where
  bytes : List UInt8
  whole : bytes.length = 33
  terminated : bytes[32]? = some 0
  deriving DecidableEq, Repr

/-- The field after `memset`. -/
def Md5Sum.cleared : Md5Sum := ⟨List.replicate 33 0, rfl, rfl⟩

/-- `memcpy` of a text of at most 32 bytes. -/
def Md5Sum.store (field : Md5Sum) (value : List UInt8) (short : value.length ≤ 32) : Md5Sum where
  bytes := value ++ field.bytes.drop value.length
  whole := by
    rw [List.length_append, List.length_drop, field.whole]
    omega
  terminated := by
    rw [List.getElem?_append_right short, List.getElem?_drop, Nat.add_sub_cancel' short]
    exact field.terminated

/-- The field as a text. -/
def Md5Sum.text (field : Md5Sum) : List UInt8 := cString field.bytes

/-- A message handed to `IOT_MQTT_Publish`. -/
structure Report where
  qos : Mqtt.QoS
  message : List UInt8
  deriving DecidableEq, Repr

/-- `OTA_Struct_t`, and the reports sent. -/
structure OtaStruct where
  productId : CStr
  deviceName : CStr
  state : State
  sizeLastFetched : UInt32
  sizeFetched : UInt32
  sizeFile : UInt32
  purl : Option CStr
  version : Option CStr
  md5sum : Md5Sum
  md5 : Option Md5.Context
  chFetch : Option FetchChannel
  err : Int
  reports : List Report
  deriving DecidableEq, Repr

/-! ## Announcements -/

/-- Which allocations of a lookup succeed: those of the copies of the key and of the document,
    and that of the value. -/
structure LookupEnv where
  keyAllocated : Bool
  docAllocated : Bool
  valueAllocated : Bool
  deriving DecidableEq, Repr

/-- `_qcloud_otalib_get_firmware_varlen_para` (`ota_lib.c:86-128`): what is assigned to `*dest`,
    unless a copy cannot be allocated. -/
def getFirmwareVarlenPara (jsonDoc key : CStr) (env : LookupEnv) :
    Except Fault (Option (Option CStr)) :=
  if env.keyAllocated ∧ env.docAllocated then do
    let value ← liteJsonValueOf key jsonDoc env.valueAllocated
    return some (value.map textOf)
  else return none

/-- `_qcloud_otalib_get_firmware_fixlen_para` (`ota_lib.c:33-82`): the text that is copied. -/
def getFirmwareFixlenPara (jsonDoc key : CStr) (destLen : Nat) (env : LookupEnv) :
    Except Fault (Option { text : CStr // text.length ≤ destLen }) :=
  if env.keyAllocated ∧ env.docAllocated then do
    match ← liteJsonValueOf key jsonDoc env.valueAllocated with
    | none => return none
    | some value =>
      if short : (textOf value).length ≤ destLen then return some ⟨textOf value, short⟩
      else return none
  else return none

/-- The allocations of a message, by the lookup they are made for. -/
structure CallbackEnv where
  firmwareType : LookupEnv
  resultCode : LookupEnv
  type : LookupEnv
  version : LookupEnv
  url : LookupEnv
  md5 : LookupEnv
  fileSize : LookupEnv
  deriving DecidableEq, Repr

/-- `qcloud_otalib_get_report_version_result` (`ota_lib.c:173-189`). -/
def getReportVersionResult (json : CStr) (env : LookupEnv) : Except Fault Int := do
  match ← getFirmwareVarlenPara json resultField env with
  | some (some resultCode) =>
    return if resultCode.bytes = [48] then qcloudRetSuccess else iotOtaErrFail
  | _ => return iotOtaErrFail

/-- `qcloud_otalib_get_params` (`ota_lib.c:191-235`): the return code and the handle, whose
    fields are assigned as far as it comes. -/
def OtaStruct.getParams (h : OtaStruct) (json : CStr) (env : CallbackEnv) :
    Except Fault (Int × OtaStruct) := do
  let some (some _) ← getFirmwareVarlenPara json typeField env.type
    | return (iotOtaErrFail, h)
  let some version ← getFirmwareVarlenPara json versionField env.version
    | return (iotOtaErrFail, h)
  let h := { h with version }
  if version = none then return (iotOtaErrFail, h)
  let some purl ← getFirmwareVarlenPara json urlField env.url
    | return (iotOtaErrFail, h)
  let h := { h with purl }
  if purl = none then return (iotOtaErrFail, h)
  let some md5sum ← getFirmwareFixlenPara json md5Field 32 env.md5
    | return (iotOtaErrFail, h)
  let h := { h with md5sum := h.md5sum.store md5sum.1.bytes md5sum.2 }
  let some fileSize ← getFirmwareFixlenPara json filesizeField otaFilesizeStrLen env.fileSize
    | return (iotOtaErrFail, h)
  return (qcloudRetSuccess,
    { h with sizeFile := UInt32.ofNat (Http.toUint32 (atoi fileSize.1.bytes)) })

/-- What `_ota_callback` does with the document. -/
def OtaStruct.dispatch (h : OtaStruct) (json : CStr) (env : CallbackEnv) :
    Except Fault OtaStruct := do
  let some (some jsonType) ← getFirmwareVarlenPara json typeField env.firmwareType
    | return h
  if jsonType.bytes = reportVersionRsp then do
    let result ← getReportVersionResult json env.resultCode
    if result < qcloudRetSuccess then
      return { h with err := iotOtaErrReportVersion, state := .fetched }
    else return h
  else if jsonType.bytes ≠ updateFirmware then return h
  else do
    let (rc, h) ← h.getParams json env
    return if rc ≠ 0 then h else { h with state := .fetching }

/-- The text at the front of the memory; without a zero byte reading it leaves the memory. -/
def textAt (memory : List UInt8) : Except Fault CStr := do
  let _ ← strlen memory
  return textOf memory

/-- `_ota_callback` (`ota_client.c:69-127`) with a message of `msgLen` bytes at the front of
    `memory`. The document is copied before it is searched. -/
def OtaStruct.otaCallback (h : OtaStruct) (memory : List UInt8) (msgLen : Nat) (env : CallbackEnv) :
    Except Overrun OtaStruct :=
  if h.state.started then return h
  else if msgLen = 0 then return h
  else if ¬ env.firmwareType.keyAllocated then return h
  else do
    let json ← ofMessage (textAt memory)
    ofCopy (h.dispatch json env)

/-- `_otamqtt_upgrage_cb` (`ota_mqtt.c:100-113`) with a message in `read_buf`, whose length is
    handed on as a `uint32_t`. -/
def OtaStruct.otamqttUpgrageCb (h : OtaStruct) (readBuf : List UInt8) (message : MqttMessage)
    (env : CallbackEnv) : Except Overrun OtaStruct :=
  h.otaCallback (readBuf.drop message.payload) (message.payloadLen % 2 ^ 32) env

/-! ## Reports -/

/-- The bytes of a text. -/
def utf8 (text : String) : List UInt8 := text.toUTF8.toList

/-- The number as `%d` prints it. -/
def decimal (n : Int) : List UInt8 := utf8 (toString n)

/-- The text printed for a pointer, `null` if it is `NULL`. -/
def printed (text : Option CStr) : List UInt8 := (text.map CStr.bytes).getD (utf8 "null")

/-- `qcloud_otalib_gen_report_msg` (`ota_lib.c:253-315`). -/
def genReportMsg (bufLen : Nat) (version : Option CStr) (progress : Int) (reportType : ReportType) :
    Except Int (List UInt8) :=
  let start := utf8 "\x7b\"type\": \"report_progress\", " ++
    utf8 "\"report\": \x7b\"progress\": \x7b\"state\":"
  let start' := utf8 "\x7b\"type\": \"report_progress\", " ++
    utf8 "\"report\":\x7b\"progress\":\x7b\"state\":"
  let text : Option (List UInt8) := match reportType with
    | .downloadBegin =>
      some (start ++ utf8 "\"downloading\", \"percent\":\"0\", \"result_code\":\"0\", " ++
        utf8 "\"result_msg\":\"\"\x7d, \"version\": \"" ++ printed version ++ utf8 "\"\x7d\x7d")
    | .downloading =>
      some (start ++ utf8 "\"downloading\", \"percent\":\"" ++ decimal progress ++
        utf8 "\", \"result_code\":\"0\", \"result_msg\":\"\"\x7d, \"version\": \"" ++
        printed version ++ utf8 "\"\x7d\x7d")
    | .downloadTimeout | .fileNotExist | .md5NotMatch | .authFail | .upgradeFail =>
      some (start ++ utf8 "\"fail\", \"result_code\":\"" ++ decimal reportType.code ++
        utf8 "\", \"result_msg\":\"time_out\"\x7d, \"version\": \"" ++ printed version ++
        utf8 "\"\x7d\x7d")
    | .upgradeBegin =>
      some (start' ++ utf8 "\"burning\", \"result_code\":\"0\", \"result_msg\":\"\"\x7d, " ++
        utf8 "\"version\":\"" ++ printed version ++ utf8 "\"\x7d\x7d")
    | .upgradeSuccess =>
      some (start' ++ utf8 "\"done\", \"result_code\":\"0\", \"result_msg\":\"\"\x7d, " ++
        utf8 "\"version\":\"" ++ printed version ++ utf8 "\"\x7d\x7d")
    | .none => none
  match text with
  | none => .error iotOtaErrFail
  | some text => if text.length ≥ bufLen then .error iotOtaErrStrTooLong else .ok text

/-- How the surroundings answer a report: whether its buffer is allocated, and what
    `IOT_MQTT_Publish` returns. -/
structure ReportEnv where
  allocated : Bool
  published : Int
  deriving DecidableEq, Repr

/-- `_otamqtt_gen_topic_name` (`ota_mqtt.c:46-65`) for a report. -/
def OtaStruct.reportTopic (h : OtaStruct) : Except Int (List UInt8) :=
  let topic := utf8 "$ota/report/" ++ h.productId.bytes ++ utf8 "/" ++ h.deviceName.bytes
  if topic.length ≥ otaMaxTopicLen then .error iotOtaErrFail else .ok topic

/-- `_otamqtt_publish` (`ota_mqtt.c:68-98`). -/
def OtaStruct.otamqttPublish (h : OtaStruct) (qos : Mqtt.QoS) (message : List UInt8)
    (published : Int) : Int × OtaStruct :=
  match h.reportTopic with
  | .error _ => (iotOtaErrFail, h)
  | .ok _ =>
    let h := { h with reports := h.reports ++ [⟨qos, message⟩] }
    (if published < 0 then iotOtaErrOscFailed else published, h)

/-- `IOT_OTA_ResetStatus` (`ota_client.c:129-145`). -/
def OtaStruct.resetStatus (h : OtaStruct) : OtaStruct :=
  { h with state := .inited, err := 0, purl := none, version := none }

/-- `_ota_check_progress` -/
def otaCheckProgress (progress : Int) : Bool := -4 ≤ progress ∧ progress ≤ 100

/-- `IOT_OTA_ReportProgress` (`ota_client.c:147-201`). -/
def OtaStruct.reportProgress (h : OtaStruct) (progress : Int) (reportType : ReportType)
    (env : ReportEnv) : Int × OtaStruct :=
  if h.state = .uninited then (qcloudErrFailure, { h with err := iotOtaErrInvalidState })
  else if ¬ otaCheckProgress progress then
    (qcloudErrFailure, { h with err := iotOtaErrInvalidParam })
  else if ¬ env.allocated then (qcloudErrFailure, { h with err := iotOtaErrNomem })
  else
    match genReportMsg msgReportLen h.version progress reportType with
    | .error ret => (ret, { h with err := ret })
    | .ok message =>
      let (ret, h) := h.otamqttPublish .qos0 message env.published
      if ret ≠ qcloudRetSuccess then (ret, { h with err := ret }) else (qcloudRetSuccess, h)

/-- The reports that end an upgrade. -/
def ReportType.resets : ReportType → Bool
  | .upgradeFail | .upgradeSuccess | .md5NotMatch => true
  | _ => false

/-- `IOT_OTA_ReportUpgradeResult` (`ota_client.c:203-264`). -/
def OtaStruct.reportUpgradeResult (h : OtaStruct) (version : Option CStr) (reportType : ReportType)
    (env : ReportEnv) : Int × OtaStruct :=
  match version with
  | none => (iotOtaErrInvalidParam, h)
  | some version =>
    if h.state = .uninited then (qcloudErrFailure, { h with err := iotOtaErrInvalidState })
    else if version.length < 1 ∨ 32 < version.length then
      (qcloudErrFailure, { h with err := iotOtaErrInvalidParam })
    else if ¬ env.allocated then (qcloudErrFailure, { h with err := iotOtaErrNomem })
    else
      match genReportMsg msgReportLen (some version) 1 reportType with
      | .error ret => (qcloudErrFailure, { h with err := ret })
      | .ok message =>
        let (ret, h) := h.otamqttPublish .qos1 message env.published
        if ret < 0 then (qcloudErrFailure, { h with err := ret })
        else if reportType.resets then (ret, h.resetStatus)
        else (ret, h)

/-- `qcloud_otalib_gen_info_msg` (`ota_lib.c:237-251`), cut at the end of its buffer. -/
def genInfoMsg (bufLen : Nat) (version : CStr) : List UInt8 :=
  let text := utf8 "\x7b\"type\": \"report_version\", \"report\":\x7b\"version\":\"" ++
    version.bytes ++ utf8 "\"\x7d\x7d"
  text.take (bufLen - 1)

/-- `IOT_OTA_ReportVersion` (`ota_client.c:412-467`). -/
def OtaStruct.reportVersion (h : OtaStruct) (version : CStr) (env : ReportEnv) : Int × OtaStruct :=
  if version.length < 1 ∨ 32 < version.length then
    (qcloudErrFailure, { h with err := iotOtaErrInvalidParam })
  else if h.state = .uninited then (qcloudErrFailure, { h with err := iotOtaErrInvalidState })
  else
    let h := h.resetStatus
    if ¬ env.allocated then (qcloudErrFailure, { h with err := iotOtaErrNomem })
    else
      let (ret, h) := h.otamqttPublish .qos1 (genInfoMsg msgInformLen version) env.published
      if ret < 0 then (qcloudErrFailure, { h with err := ret }) else (ret, h)

/-! ## Downloading -/

/-- How the surroundings answer `IOT_OTA_StartDownload`. -/
structure StartEnv where
  md5Allocated : Bool
  fetchAllocated : Bool
  connect : ConnectEnv
  deriving DecidableEq, Repr

/-- `IOT_OTA_StartDownload` (`ota_client.c:356-388`). -/
def OtaStruct.startDownload (h : OtaStruct) (offset size : UInt32) (env : StartEnv) :
    Except Crash (Int × OtaStruct) := do
  let h := { h with sizeFetched := offset }
  -- IOT_OTA_ResetClientMD5
  let h := if offset ≠ 0 then h
    else { h with md5 := if env.md5Allocated then some Md5.utilsMd5Starts else none }
  if h.md5 = none ∧ offset = 0 then return (qcloudErrFailure, h)
  qcloudOfcDeinit h.chFetch
  match ofcInit h.purl offset.toNat size.toNat env.fetchAllocated with
  | none => return (qcloudErrFailure, { h with chFetch := none })
  | some channel =>
    let (ret, channel) ← qcloudOfcConnect channel env.connect
    let h := { h with chFetch := some channel }
    return if ret ≠ qcloudRetSuccess then (ret, { h with state := .disconnected }) else (ret, h)

/-- How the surroundings answer `IOT_OTA_FetchYield`: what is fetched, whether the report timer
    has expired, and the reports. -/
structure FetchEnv where
  fetched : FetchResult
  expired : Bool
  beginReport : ReportEnv
  progressReport : ReportEnv
  failReport : ReportEnv
  deriving DecidableEq, Repr

/-- The report for a code of `qcloud_ofc_fetch`. -/
def failureReport (ret : Int) : Option ReportType :=
  if ret = iotOtaErrFetchAuthFail then some .authFail
  else if ret = iotOtaErrFetchNotExist then some .fileNotExist
  else if ret = iotOtaErrFetchTimeout then some .downloadTimeout
  else none

/-- `IOT_OTA_FetchYield` when the fetch has failed (`ota_client.c:556-573`). -/
def OtaStruct.fetchFailed (h : OtaStruct) (ret : Int) (env : FetchEnv) : OtaStruct :=
  let h := { h with state := .fetched, err := iotOtaErrFetchFailed }
  match failureReport ret with
  | none => h
  | some reportType =>
    { (h.reportUpgradeResult h.version reportType env.failReport).2 with err := ret }

/-- `qcloud_otalib_md5_update`: without data the context is not touched. -/
def OtaStruct.md5Update (h : OtaStruct) (buf : List UInt8) : Except Crash OtaStruct :=
  if buf.length = 0 then .ok h
  else match h.md5 with
    | none => .error .nullPointer
    | some md5 => .ok { h with md5 := some (Md5.utilsMd5Update md5 buf) }

/-- `IOT_OTA_FetchYield` when bytes were fetched (`ota_client.c:574-598`). -/
def OtaStruct.fetchDone (h : OtaStruct) (chunk : List UInt8) (env : FetchEnv) :
    Except Crash OtaStruct := do
  let h := if h.sizeFetched = 0 then (h.reportProgress 0 .downloadBegin env.beginReport).2 else h
  let h := { h with
    sizeLastFetched := UInt32.ofNat chunk.length
    sizeFetched := h.sizeFetched + UInt32.ofNat chunk.length }
  if h.sizeFile = 0 then throw .divisionByZero
  let percent := h.sizeFetched * 100 / h.sizeFile
  let h := if percent = 100 ∨ (h.sizeLastFetched > 0 ∧ env.expired) then
    (h.reportProgress (Http.toInt32 percent.toNat) .downloading env.progressReport).2 else h
  let h := if h.sizeFetched ≥ h.sizeFile then { h with state := .fetched } else h
  h.md5Update chunk

/-- `IOT_OTA_FetchYield` (`ota_client.c:541-599`): the code returned, the bytes put into `buf`, and
    the handle. -/
def OtaStruct.fetchYield (h : OtaStruct) (bufLen : UInt32) (env : FetchEnv) :
    Except Crash (Int × List UInt8 × OtaStruct) := do
  if bufLen = 0 then return (iotOtaErrInvalidParam, [], h)
  if h.state ≠ .fetching then
    return (iotOtaErrInvalidState, [], { h with err := iotOtaErrInvalidState })
  let ((ret, chunk), chFetch) ← qcloudOfcFetch h.chFetch env.fetched
  let h := { h with chFetch }
  if ret < 0 then return (ret, [], h.fetchFailed ret env)
  let h ← h.fetchDone chunk env
  return (ret, chunk, h)

/-! ## Questions -/

/-- `IOT_OTA_CmdType` -/
inductive CmdType where
  | fetchedSize
  | fileSize
  | md5sum
  | version
  | checkFirmware
  deriving DecidableEq, Repr

/-- What is stored in the buffer of the caller. -/
inductive Stored where
  | word (value : UInt32)
  | text (bytes : List UInt8)
  deriving DecidableEq, Repr

/-- `strncpy` of a text into a buffer of `bufLen` bytes whose last one is then cleared. -/
def copied (bufLen : Nat) (text : List UInt8) : List UInt8 :=
  (text ++ List.replicate bufLen 0).take (bufLen - 1) ++ [0]

/-- `IOT_OTAG_CHECK_FIRMWARE` with the context (`ota_client.c:655-666`). -/
def OtaStruct.checkFirmware (h : OtaStruct) (md5 : Md5.Context) (report : ReportEnv) :
    Int × Option Stored × OtaStruct :=
  let (md5, digest) := Md5.utilsMd5Finish md5
  let h := { h with md5 := some md5 }
  if h.md5sum.text = Md5.hexString digest then (0, some (.word 1), h)
  else (0, some (.word 0), (h.reportUpgradeResult h.version .md5NotMatch report).2)

/-- `IOT_OTA_Ioctl` (`ota_client.c:601-675`) with a buffer of `bufLen` bytes that is `aligned` to
    words or not: the code returned, what is stored, and the handle. -/
def OtaStruct.ioctl (h : OtaStruct) (type : CmdType) (bufLen : Nat) (aligned : Bool)
    (report : ReportEnv) : Except Crash (Int × Option Stored × OtaStruct) :=
  if bufLen = 0 then return (iotOtaErrInvalidParam, none, h)
  else if ¬ h.state.started then
    return (iotOtaErrInvalidState, none, { h with err := iotOtaErrInvalidState })
  else
    let invalid : Int × Option Stored × OtaStruct :=
      (qcloudErrFailure, none, { h with err := iotOtaErrInvalidParam })
    match type with
    | .fetchedSize =>
      return if bufLen ≠ 4 ∨ ¬ aligned then invalid else (0, some (.word h.sizeFetched), h)
    | .fileSize =>
      return if bufLen ≠ 4 ∨ ¬ aligned then invalid else (0, some (.word h.sizeFile), h)
    | .version =>
      match h.version with
      | none => .error .nullPointer
      | some version => return (0, some (.text (copied bufLen version.bytes)), h)
    | .md5sum => return (0, some (.text (copied bufLen h.md5sum.text)), h)
    | .checkFirmware =>
      if bufLen ≠ 4 ∨ ¬ aligned then return invalid
      else if h.state ≠ .fetched then
        return (qcloudErrFailure, none, { h with err := iotOtaErrInvalidState })
      else
        match h.md5 with
        | none => .error .nullPointer
        | some md5 => return h.checkFirmware md5 report

/-! ## Calls -/

/-- A message, or a call of the interface. -/
inductive Call where
  | message (memory : List UInt8) (msgLen : Nat) (env : CallbackEnv)
  | startDownload (offset size : UInt32) (env : StartEnv)
  | fetchYield (bufLen : UInt32) (env : FetchEnv)
  | ioctl (type : CmdType) (bufLen : Nat) (aligned : Bool) (report : ReportEnv)
  | updateClientMd5 (buff : List UInt8)
  | resetClientMd5 (allocated : Bool)
  | reportVersion (version : CStr) (env : ReportEnv)
  | reportUpgradeResult (version : Option CStr) (reportType : ReportType) (env : ReportEnv)
  deriving DecidableEq, Repr

/-- The handle afterwards, unless the call crashes. -/
def OtaStruct.after (h : OtaStruct) : Call → Option OtaStruct
  | .message memory msgLen env => (h.otaCallback memory msgLen env).toOption
  | .startDownload offset size env => (h.startDownload offset size env).toOption.map (·.2)
  | .fetchYield bufLen env => (h.fetchYield bufLen env).toOption.map (·.2.2)
  | .ioctl type bufLen aligned report => (h.ioctl type bufLen aligned report).toOption.map (·.2.2)
  | .updateClientMd5 buff => (h.md5Update buff).toOption
  | .resetClientMd5 allocated =>
    some { h with md5 := if allocated then some Md5.utilsMd5Starts else none }
  | .reportVersion version env => some (h.reportVersion version env).2
  | .reportUpgradeResult version reportType env =>
    some (h.reportUpgradeResult version reportType env).2

end QcloudIot.Ota
