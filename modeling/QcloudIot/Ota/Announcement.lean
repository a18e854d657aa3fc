import QcloudIot.Ota.Client

/-!
# The strings of an announcement

What `_ota_callback` does to the blocks in which the handle holds the url and the version. A block
is known by its identity, the number of strings that were allocated before it; the identities given
back are listed. The copies and values that a lookup gives back itself are left out.
-/

namespace QcloudIot.Ota

open Mqtt (CStr)
open Shadow (textOf)
open Json (Fault Overrun ofCopy ofMessage)
open Http (atoi)

/-- An allocated string. -/
structure Block where
  ident : Nat
  text : CStr
  deriving DecidableEq, Repr

/-- `OTA_Struct_t` with the blocks of its strings, whose texts in `ota` are not used, the number of
    strings allocated so far and the identities of those given back. -/
structure Handle where
  ota : OtaStruct
  purl : Option Block
  version : Option Block
  minted : Nat
  released : List Nat
  purlMinted : ∀ block ∈ purl, block.ident < minted
  versionMinted : ∀ block ∈ version, block.ident < minted
  deriving DecidableEq, Repr

/-- The handle with the texts of its strings. -/
def Handle.view (h : Handle) : OtaStruct :=
  { h.ota with purl := h.purl.map Block.text, version := h.version.map Block.text }

/-- A string is allocated that is given back before the call returns. -/
def Handle.borrow (h : Handle) : Handle where
  ota := h.ota
  purl := h.purl
  version := h.version
  minted := h.minted + 1
  released := h.released ++ [h.minted]
  purlMinted block member := Nat.lt_succ_of_lt (h.purlMinted block member)
  versionMinted block member := Nat.lt_succ_of_lt (h.versionMinted block member)

/-- The value of a lookup, in a block of its own. -/
def Handle.block (h : Handle) (value : Option CStr) : Option Block := value.map (⟨h.minted, ·⟩)

theorem Handle.block_lt (h : Handle) (value : Option CStr) :
    ∀ block ∈ h.block value, block.ident < h.minted + 1 := by
  intro block member
  obtain ⟨text, -, rfl⟩ := Option.map_eq_some_iff.mp member
  exact Nat.lt_succ_self h.minted

/-- `*version` is assigned. -/
def Handle.setVersion (h : Handle) (value : Option CStr) : Handle where
  ota := h.ota
  purl := h.purl
  version := h.block value
  minted := h.minted + 1
  released := h.released
  purlMinted block member := Nat.lt_succ_of_lt (h.purlMinted block member)
  versionMinted := h.block_lt value

/-- `*url` is assigned. -/
def Handle.setPurl (h : Handle) (value : Option CStr) : Handle where
  ota := h.ota
  purl := h.block value
  version := h.version
  minted := h.minted + 1
  released := h.released
  purlMinted := h.block_lt value
  versionMinted block member := Nat.lt_succ_of_lt (h.versionMinted block member)

theorem length_md5Value (value : { text : CStr // text.length ≤ 32 }) : value.1.length ≤ 32 :=
  value.2

/-- `md5` is filled. -/
def Handle.storeMd5 (h : Handle) (value : { text : CStr // text.length ≤ 32 }) : Handle :=
  { h with ota := { h.ota with md5sum := h.ota.md5sum.store value.1.bytes (length_md5Value value) } }

/-- `*fileSize` is assigned. -/
def Handle.setSizeFile (h : Handle) (value : CStr) : Handle :=
  { h with ota := { h.ota with sizeFile := UInt32.ofNat (Http.toUint32 (atoi value.bytes)) } }

def Handle.setState (h : Handle) (state : State) : Handle :=
  { h with ota := { h.ota with state } }

/-- `qcloud_otalib_get_params` (`ota_lib.c:191-235`). -/
def Handle.getParams (h : Handle) (json : CStr) (env : CallbackEnv) :
    Except Fault (Int × Handle) := do
  let some (some _) ← getFirmwareVarlenPara json typeField env.type
    | return (iotOtaErrFail, h)
  -- the type goes to `json_type` of the caller
  let h := h.borrow
  let some version ← getFirmwareVarlenPara json versionField env.version
    | return (iotOtaErrFail, h)
  let h := h.setVersion version
  if version = none then return (iotOtaErrFail, h)
  let some purl ← getFirmwareVarlenPara json urlField env.url
    | return (iotOtaErrFail, h)
  let h := h.setPurl purl
  if purl = none then return (iotOtaErrFail, h)
  let some md5sum ← getFirmwareFixlenPara json md5Field 32 env.md5
    | return (iotOtaErrFail, h)
  let h := h.storeMd5 md5sum
  let some fileSize ← getFirmwareFixlenPara json filesizeField otaFilesizeStrLen env.fileSize
    | return (iotOtaErrFail, h)
  return (qcloudRetSuccess, h.setSizeFile fileSize.1)

/-- What `_ota_callback` does with the document. -/
def Handle.dispatch (h : Handle) (json : CStr) (env : CallbackEnv) : Except Fault Handle := do
  let some (some jsonType) ← getFirmwareVarlenPara json typeField env.firmwareType
    | return h
  let h := h.borrow
  if jsonType.bytes = reportVersionRsp then do
    let result ← getReportVersionResult json env.resultCode
    if result < qcloudRetSuccess then
      return { h with ota := { h.ota with err := iotOtaErrReportVersion, state := .fetched } }
    else return h
  else if jsonType.bytes ≠ updateFirmware then return h
  else do
    let (rc, h) ← h.getParams json env
    return if rc ≠ 0 then h else h.setState .fetching

/-- `_ota_callback` (`ota_client.c:69-127`). -/
def Handle.otaCallback (h : Handle) (memory : List UInt8) (msgLen : Nat) (env : CallbackEnv) :
    Except Overrun Handle :=
  if h.ota.state.started then return h
  else if msgLen = 0 then return h
  else if ¬ env.firmwareType.keyAllocated then return h
  else do
    let json ← ofMessage (textAt memory)
    ofCopy (h.dispatch json env)

end QcloudIot.Ota
