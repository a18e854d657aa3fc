import QcloudIot.Gateway.Types

/-!
# Messages to the gateway

`_gateway_message_handler` of `gateway_common.c:340-487` with what it does to the sessions, the
list of bound devices and the results that calls wait for. Which allocations succeed is left open.
-/

namespace QcloudIot.Gateway

open Mqtt (CStr)
open Ota (utf8 decimal)
open Json (liteJsonValueOf sscanfI forEach memory)
open Shadow (textOf typeField resultField)

/-- Undefined behaviour of the handler: in the scanner, when a string is freed twice, and when
    `reply_buf` is overrun. -/
inductive Fault where
  | text (fault : Json.Fault)
  | doubleFree
  | replyOverrun
  deriving DecidableEq, Repr

/-- A look into a text. -/
def ofText {α : Type} : Except Json.Fault α → Except Fault α
  | .ok a => .ok a
  | .error fault => .error (.text fault)

/-! ## Fields -/

def payloadDevices : CStr := ⟨utf8 "payload.devices", by decide +kernel⟩
def payloadStatus : CStr := ⟨utf8 "payload.status", by decide +kernel⟩
def productIdField : CStr := ⟨utf8 "product_id", by decide +kernel⟩
def deviceNameField : CStr := ⟨utf8 "device_name", by decide +kernel⟩

/-- `get_json_type`, `get_json_devices`, `get_json_product_id` and `get_json_device_name`
    (`gateway_common.c:25-35`, `64-74`). -/
def getJsonString (field json : CStr) (allocated : Bool) : Except Fault (Option CStr) := do
  return (← ofText (liteJsonValueOf field json allocated)).map textOf

/-- `get_json_result` and `get_json_payload_status` (`gateway_common.c:37-62`). -/
def getJsonInt32 (field json : CStr) (allocated : Bool) : Except Fault (Option Int) := do
  return (← ofText (liteJsonValueOf field json allocated)).bind (sscanfI 32)

/-! ## Lists of devices -/

/-- Which allocations succeed for an entry of a list. -/
structure EntryEnv where
  productId : Bool
  deviceName : Bool
  bindInfo : Bool

/-- A round of `json_array_for_each_entry`: the entry is cut off behind its end while the body runs,
    which returns whether it breaks. -/
def entryRound {σ : Type} (mem : List UInt8) (body : σ → CStr → Except Fault (σ × Bool)) :
    Except Fault σ → Json.NextObject → Except Fault σ × Bool
  | .error fault, _ => (.error fault, true)
  | .ok st, found =>
    match found.val with
    | none => (.ok st, false)
    | some val =>
      match body st (textOf ((mem.drop val).take found.valLen)) with
      | .error fault => (.error fault, true)
      | .ok (st, finished) => (.ok st, finished)

/-- The loop over the entries. -/
def forEachEntry {σ : Type} (devices : CStr) (body : σ → CStr → Except Fault (σ × Bool)) (st : σ) :
    Except Fault σ := do
  ← ofText (forEach .array (memory devices) (entryRound (memory devices) body) (.ok st))

/-- What a variable for a parsed string points to. -/
inductive StringPtr where
  | null
  | live
  | dangling
  deriving DecidableEq, Repr

/-- The operations on lists of devices. -/
inductive SubdevOp where
  | describe
  | bind
  | unbind
  deriving DecidableEq, Repr

/-- The node that `_subdev_add_bindinfo` fills in. -/
def bindInfo (productId deviceName : CStr) : SubdevBindInfo where
  productId := cut productId maxSizeOfProductId
  deviceName := cut deviceName maxSizeOfDeviceName
  productIdFits := by
    rw [CStr.length, bytes_cut, List.length_take]
    exact min_le_left _ _
  deviceNameFits := by
    rw [CStr.length, bytes_cut, List.length_take]
    exact min_le_left _ _

/-- `_subdev_add_bindinfo` (`gateway_common.c:77-106`): whether the device has been added. -/
def subdevAddBindinfo (list : SubdevBindList) (productId deviceName : CStr) (allocated : Bool) :
    Bool × SubdevBindList :=
  if productId.bytes = [] ∨ deviceName.bytes = [] ∨ ¬ allocated then (false, list)
  else
    (true,
      { bindlistHead := bindInfo productId deviceName :: list.bindlistHead
        bindNum := list.bindNum + 1 })

/-- The comparison in `_subdev_unbind_device`. -/
def SubdevBindInfo.isDevice (productId deviceName : CStr) (info : SubdevBindInfo) : Bool :=
  strncmpEq productId info.productId maxSizeOfProductId &&
    strncmpEq deviceName info.deviceName maxSizeOfDeviceName

/-- `_subdev_unbind_device` (`gateway_common.c:109-132`): whether the device has been found. -/
def subdevUnbindDevice (list : SubdevBindList) (productId deviceName : CStr) :
    Bool × SubdevBindList :=
  if list.bindlistHead.any (·.isDevice productId deviceName) then
    (true,
      { bindlistHead := list.bindlistHead.eraseP (·.isDevice productId deviceName)
        bindNum := list.bindNum - 1 })
  else (false, list)

/-- The variables of `_subdev_proc_devlist`, the number of entries looked at, and how many strings
    have been parsed and released. -/
structure DevPass where
  bindList : SubdevBindList
  subdevProductId : StringPtr
  subdevDeviceName : StringPtr
  entries : Nat
  parsed : Nat
  released : Nat
  deriving DecidableEq, Repr

/-- `HAL_Free` on both variables, which keep their values. -/
def DevPass.release (pass : DevPass) : Except Fault DevPass :=
  match pass.subdevProductId, pass.subdevDeviceName with
  | .dangling, _ => .error .doubleFree
  | _, .dangling => .error .doubleFree
  | productId, deviceName =>
    let freed (p : StringPtr) := if p = .live then 1 else 0
    .ok { pass with
      subdevProductId := if productId = .live then .dangling else productId
      subdevDeviceName := if deviceName = .live then .dangling else deviceName
      entries := pass.entries + 1
      released := pass.released + freed productId + freed deviceName }

/-- The operation on a complete entry. -/
def subdevOp (type : SubdevOp) (list : SubdevBindList) (productId deviceName : CStr)
    (allocated : Bool) : Bool × SubdevBindList :=
  match type with
  | .unbind => subdevUnbindDevice list productId deviceName
  | _ => subdevAddBindinfo list productId deviceName allocated

/-- A round of the loop in `_subdev_proc_devlist` (`gateway_common.c:147-176`), and whether it is
    the last one. When there is no product id the variable for the device name is left alone. -/
def subdevProcEntry (type : SubdevOp) (env : Nat → EntryEnv) (pass : DevPass) (entry : CStr) :
    Except Fault (DevPass × Bool) := do
  match ← getJsonString productIdField entry (env pass.entries).productId with
  | none => return (← { pass with subdevProductId := .null }.release, false)
  | some productId =>
    let pass := { pass with subdevProductId := .live, parsed := pass.parsed + 1 }
    match ← getJsonString deviceNameField entry (env pass.entries).deviceName with
    | none => return (← { pass with subdevDeviceName := .null }.release, false)
    | some deviceName =>
      let pass := { pass with subdevDeviceName := .live, parsed := pass.parsed + 1 }
      let (applied, bindList) :=
        subdevOp type pass.bindList productId deviceName (env pass.entries).bindInfo
      return (← { pass with bindList := bindList }.release, !applied)

/-- The variables of `_subdev_proc_devlist` in front of the loop. -/
def DevPass.start (list : SubdevBindList) : DevPass where
  bindList := list
  subdevProductId := .null
  subdevDeviceName := .null
  entries := 0
  parsed := 0
  released := 0

/-- `_subdev_proc_devlist` (`gateway_common.c:134-179`). -/
def subdevProcDevlist (list : SubdevBindList) (devices : CStr) (type : SubdevOp)
    (env : Nat → EntryEnv) : Except Fault DevPass :=
  forEachEntry devices (subdevProcEntry type env) (.start list)

/-! ## The acknowledgement of a change -/

/-- `reply_buf` of 1024 bytes with `p`, as an offset, and `left_sz`; and whether something has been
    written behind the buffer. -/
structure ReplyBuf where
  text : List UInt8
  p : Nat
  leftSz : Int
  overrun : Bool
  deriving DecidableEq, Repr

/-- `HAL_Snprintf` at `p`, with what follows it: `p` and `left_sz` are moved on by the length of the
    whole text. As a `size_t`, a negative `left_sz` is larger than any text. What is printed behind
    the end of a text that was cut does not belong to the string. -/
def ReplyBuf.snprintf (buf : ReplyBuf) (str : List UInt8) : ReplyBuf :=
  let printed := if buf.leftSz < 0 then str else str.take (buf.leftSz.toNat - 1)
  { text := if buf.p = buf.text.length then buf.text ++ printed else buf.text
    p := buf.p + str.length
    leftSz := buf.leftSz - str.length
    overrun := buf.overrun || (buf.leftSz ≠ 0 && 1024 < buf.p + printed.length + 1) }

def ackPrefix (status : Int) : List UInt8 :=
  utf8 "\x7b\"type\":\"change\", \"payload\":\x7b\"status\":" ++ decimal status ++
    utf8 ", \"devices\":["

def ackEntry (productId deviceName : CStr) : List UInt8 :=
  utf8 "\x7b\"product_id\":\"" ++ productId.bytes ++ utf8 "\",\"device_name\":\"" ++
    deviceName.bytes ++ utf8 "\",\"result\":" ++ decimal 0 ++ utf8 "\x7d"

def ackSuffix : List UInt8 := utf8 "]\x7d\x7d"

abbrev maxSubdevInfoSz : Int := 128

/-- The buffer, and the number of entries looked at. -/
structure AckPass where
  buf : ReplyBuf
  entries : Nat
  deriving DecidableEq, Repr

/-- A round of the loop in `_gateway_ack_change` (`gateway_common.c:207-240`), and whether it is
    the last one. -/
def gatewayAckEntry (env : Nat → EntryEnv) (pass : AckPass) (entry : CStr) :
    Except Fault (AckPass × Bool) := do
  if pass.buf.leftSz < maxSubdevInfoSz then return (pass, true)
  else
    let buf := if pass.entries = 0 then pass.buf else pass.buf.snprintf (utf8 ",")
    match ← getJsonString productIdField entry (env pass.entries).productId with
    | none => return (⟨buf, pass.entries + 1⟩, false)
    | some productId =>
      match ← getJsonString deviceNameField entry (env pass.entries).deviceName with
      | none => return (⟨buf, pass.entries + 1⟩, false)
      | some deviceName =>
        return (⟨buf.snprintf (ackEntry productId deviceName), pass.entries + 1⟩, false)

/-- `_gateway_ack_change` (`gateway_common.c:181-260`): the payload that is published. -/
def gatewayAckChange (devices : CStr) (status : Int) (env : Nat → EntryEnv) :
    Except Fault (List UInt8) := do
  let buf : ReplyBuf := { text := [], p := 0, leftSz := 1023, overrun := false }
  let pass ← forEachEntry devices (gatewayAckEntry env) ⟨buf.snprintf (ackPrefix status), 0⟩
  let buf := pass.buf.snprintf ackSuffix
  if buf.overrun then .error .replyOverrun else .ok buf.text

/-! ## The handler -/

/-- A message. -/
structure Message where
  topicLen : Nat
  payload : List UInt8
  deriving DecidableEq, Repr

/-- Which allocations succeed while a message is handled. -/
structure MessageEnv where
  type : Bool
  status : Bool
  devices : Bool
  result : Bool
  productId : Bool
  deviceName : Bool
  processed : Nat → EntryEnv
  acknowledged : Nat → EntryEnv

/-- The comparison of a type with the text of an operation. -/
def isType (type : CStr) (op : List UInt8) : Bool := op.isPrefixOf type.bytes

/-- `GATEWAY_UNBIND_ALL_OP_STR` -/
def unbindAllOp : List UInt8 := utf8 "unbind_all"
/-- `GATEWAY_SEARCH_OP_STR` -/
def searchOp : List UInt8 := utf8 "search_devices"
/-- `GATEWAY_DESCRIBE_SUBDEVIES_OP_STR` -/
def describeOp : List UInt8 := utf8 "describe_sub_devices"
/-- `GATEWAY_CHANGE_OP_STR` -/
def changeOp : List UInt8 := utf8 "change"

def Gateway.record (g : Gateway) (event : Event) : Gateway :=
  { g with history := g.history ++ [event] }

/-- `_gateway_subdev_unbind_all` and its reply (`gateway_common.c:282-338`), and the event. -/
def Gateway.unbindAll (g : Gateway) : Gateway :=
  let reply := utf8 "\x7b\"type\":\"unbind_all\", \"payload\":\x7b\"result\":0\x7d\x7d"
  ({ g with sessionList := [] }.record (.published reply)).record .unbindAll

/-- The text with which `_gateway_ack_search` answers (`gateway_common.c:262-280`). -/
def searchReply (status : Int) : List UInt8 :=
  utf8 "\x7b\"type\":\"search_devices\", \"payload\":\x7b\"status\":" ++ decimal status ++
    utf8 ", \"result\":0\x7d\x7d"

/-- A search for devices (`gateway_common.c:400-411`). -/
def Gateway.search (g : Gateway) (json : CStr) (env : MessageEnv) : Except Fault Gateway := do
  match ← getJsonInt32 payloadStatus json env.status with
  | none => return g
  | some status => return (g.record (.published (searchReply status))).record (.search status)

/-- `devices_strip` (`gateway_common.c:418-422`). -/
def devicesStrip (devices : CStr) : CStr :=
  if devices.bytes.head? = some 91 then Json.suffix devices 1 else devices

/-- The list of devices (`gateway_common.c:424-428`). -/
def Gateway.describe (g : Gateway) (devices : CStr) (env : MessageEnv) : Except Fault Gateway := do
  let pass ← subdevProcDevlist g.bindList devices .describe env.processed
  return { g with
    bindList := pass.bindList
    gatewayData := { g.gatewayData with
      getBindlist := { g.gatewayData.getBindlist with result := 0 } } }

/-- The bound devices after a change; without a status nothing is processed. -/
def changedList (list : SubdevBindList) (devices : CStr) (status : Option Int)
    (env : Nat → EntryEnv) : Except Fault SubdevBindList :=
  match status with
  | none => .ok list
  | some status => do
    let pass ← subdevProcDevlist list devices (if status ≠ 0 then .bind else .unbind) env
    return pass.bindList

/-- A change of the bound devices (`gateway_common.c:430-440`). -/
def Gateway.change (g : Gateway) (json devices : CStr) (env : MessageEnv) :
    Except Fault Gateway := do
  let status ← getJsonInt32 payloadStatus json env.status
  let bindList ← changedList g.bindList devices status env.processed
  let reply ← gatewayAckChange devices (status.getD 0) env.acknowledged
  return { g with bindList := bindList }.record (.published reply)

/-- The operations in the order in which a type is compared with them. -/
def operationOf (type : CStr) : Option Operation :=
  [Operation.online, .offline, .bind, .unbind].find? fun op => isType type op.text

/-- A result (`gateway_common.c:441-487`), once its client id is known: it is compared with the one
    that a call waits for. -/
def Gateway.takeResult (g : Gateway) (type clientId : CStr) (result : Int) : Gateway :=
  match operationOf type with
  | none => g
  | some op =>
    let pending := g.gatewayData.reply op
    if strncmpEq clientId pending.clientId clientId.length then
      { g with gatewayData := g.gatewayData.setReply { pending with result := result } op }
    else g

/-- The answer to an operation on a device (`gateway_common.c:441-487`). -/
def Gateway.answer (g : Gateway) (type devices : CStr) (env : MessageEnv) :
    Except Fault Gateway := do
  let json := devicesStrip devices
  match ← getJsonInt32 resultField json env.result with
  | none => return g
  | some result =>
    match ← getJsonString productIdField json env.productId with
    | none => return g
    | some productId =>
      match ← getJsonString deviceNameField json env.deviceName with
      | none => return g
      | some deviceName =>
        let clientId := clientIdText productId deviceName
        if clientId.length > maxSizeOfClientId then return g
        else return g.takeResult type clientId result

/-- The text in `recv_buf` when a message has been copied into it. -/
def Message.received (message : Message) : CStr :=
  textOf (message.payload.take (min (gatewayReceiveBufferLen - 1) message.payload.length))

/-- The message is looked at. -/
def Message.Taken (message : Message) : Prop :=
  message.topicLen ≠ 0 ∧ message.payload.length ≤ gatewayReceiveBufferLen

instance (message : Message) : Decidable message.Taken := inferInstanceAs (Decidable (_ ∧ _))

/-- `_gateway_message_handler` on the text in `recv_buf` (`gateway_common.c:381-487`). -/
def Gateway.handleText (g : Gateway) (json : CStr) (env : MessageEnv) : Except Fault Gateway := do
  match ← getJsonString typeField json env.type with
  | none => return g
  | some type =>
    if isType type unbindAllOp then return g.unbindAll
    else if isType type searchOp then g.search json env
    else
      match ← getJsonString payloadDevices json env.devices with
      | none => return g
      | some devices =>
        if isType type describeOp then g.describe devices env
        else if isType type changeOp then g.change json devices env
        else g.answer type devices env

/-- `_gateway_message_handler` (`gateway_common.c:340-487`). -/
def Gateway.messageHandler (g : Gateway) (message : Message) (env : MessageEnv) :
    Except Fault Gateway :=
  if message.Taken then g.handleText message.received env else .ok g

end QcloudIot.Gateway
