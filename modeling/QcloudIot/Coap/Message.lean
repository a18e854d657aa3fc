import QcloudIot.Misc.Size
import QcloudIot.Mqtt.Types

/-!
# CoAP messages

`coap_client_serialize.c` and `coap_client_deserialize.c`. A `char *` into a datagram is the
list of the bytes of memory from there on; `len` counts those that belong to the datagram.
Plain `char` is signed.
-/

namespace QcloudIot.Coap

open Mqtt (FnPtr Ptr)

/-! ## Constants -/

/-- `COAP_MSG_VER` -/
abbrev coapMsgVer : Nat := 1
/-- `COAP_MSG_MAX_TOKEN_LEN` -/
abbrev coapMsgMaxTokenLen : Nat := 8

abbrev coapMsgReq : Nat := 0
abbrev coapMsgSuccess : Nat := 2
abbrev coapMsgClientErr : Nat := 4
abbrev coapMsgServerErr : Nat := 5
abbrev coapMsgSdkinternalErr : Nat := 6

abbrev qcloudRetSuccess : Int := 0
abbrev qcloudErrFailure : Int := -1001
abbrev qcloudErrCoapDataSize : Int := -151
abbrev qcloudErrCoapInternal : Int := -152
abbrev qcloudErrCoapBadmsg : Int := -153
/-- `ENOMEM`, `EINVAL` and `ENOSPC` -/
abbrev enomem : Int := 12
abbrev einval : Int := 22
abbrev enospc : Int := 28

/-! ## Data -/

/-- Undefined behaviour: a read behind the memory of the buffer. -/
inductive Fault where
  | outOfBounds
  deriving DecidableEq, Repr

/-- `CoAPMsgType`. -/
inductive CoapMsgType where
  | con
  | non
  | ack
  | rst
  deriving DecidableEq, Repr

def CoapMsgType.toNat : CoapMsgType → Nat
  | .con => 0
  | .non => 1
  | .ack => 2
  | .rst => 3

/-- The type of the two bits `n`. -/
def CoapMsgType.ofBits (n : Nat) : CoapMsgType :=
  if n = 0 then .con else if n = 1 then .non else if n = 2 then .ack else .rst

/-- `CoAPMsgOption`: `val` are the `val_len` bytes of the value. -/
structure CoapMsgOption where
  optionNum : Nat
  val : List UInt8
  deriving DecidableEq, Repr

/-- `CoAPMessage`: `payload` are the `pay_load_len` bytes of the payload and `token` the
    `token_len` bytes of the token. -/
structure CoapMessage where
  version : Nat
  type : CoapMsgType
  codeClass : Nat
  codeDetail : Nat
  msgId : Nat
  payload : List UInt8
  token : List UInt8
  opList : List CoapMsgOption
  handler : Option FnPtr
  userContext : Ptr
  deriving DecidableEq, Repr

/-- The message of `memset(message, 0, sizeof(CoAPMessage))`. -/
def CoapMessage.zero : CoapMessage where
  version := 0
  type := .con
  codeClass := 0
  codeDetail := 0
  msgId := 0
  payload := []
  token := []
  opList := []
  handler := none
  userContext := 0

/-! ## Serializing -/

/-- `_coap_message_serialize_header` (`coap_client_serialize.c:44-61`). -/
def coapMessageSerializeHeader (message : CoapMessage) (len : Nat) : Except Int (List UInt8) :=
  if len < 4 then .error (-enospc)
  else .ok
    [UInt8.ofNat (coapMsgVer <<< 6 ||| (message.type.toNat &&& 3) <<< 4 |||
        (message.token.length &&& 15)),
      UInt8.ofNat ((message.codeClass &&& 7) <<< 5 ||| (message.codeDetail &&& 31)),
      UInt8.ofNat ((message.msgId &&& 0xFF00) >>> 8),
      UInt8.ofNat (message.msgId &&& 0xFF)]

/-- `_coap_message_serialize_token` (`coap_client_serialize.c:74-84`). -/
def coapMessageSerializeToken (message : CoapMessage) (len : Nat) : Except Int (List UInt8) :=
  if len < message.token.length then .error (-enospc) else .ok message.token

/-- The half of the first byte of an option that stands for its delta or its length. -/
def nibble (n : Nat) : Nat := if n ≥ 269 then 14 else if n ≥ 13 then 13 else n

/-- The extended delta or length of an option. -/
def extended (n : Nat) : List UInt8 :=
  if n ≥ 269 then
    [UInt8.ofNat (((n - 269) &&& 0xFF00) >>> 8), UInt8.ofNat ((n - 269) &&& 0xFF)]
  else if n ≥ 13 then [UInt8.ofNat (n - 13)]
  else []

/-- The difference of two numbers of type `unsigned short`. -/
def shortSub (a b : Nat) : Nat := if b ≤ a then a - b else a + 2 ^ 16 - b

/-- The number of bytes for which `_coap_msg_format_op` checks that there is room: the extended
    length is counted by the option number where the length is below 269. -/
def roomChecked (op : CoapMsgOption) (opDelta : Nat) : Nat :=
  (1 + (if opDelta ≥ 269 then 2 else if opDelta ≥ 13 then 1 else 0) +
    (if op.val.length ≥ 269 then 2 else if op.optionNum ≥ 13 then 1 else 0) +
    op.val.length) % 2 ^ 32

/-- `_coap_msg_format_op` (`coap_client_serialize.c:97-176`). -/
def coapMsgFormatOp (op : CoapMsgOption) (prevNum : Nat) (len : Nat) : Except Int (List UInt8) :=
  let opDelta := shortSub op.optionNum prevNum
  if roomChecked op opDelta > len then .error qcloudErrCoapDataSize
  else .ok (UInt8.ofNat (nibble opDelta <<< 4 ||| nibble op.val.length) ::
    (extended opDelta ++ extended op.val.length ++ op.val))

/-- `_coap_message_serialize_options` (`coap_client_serialize.c:189-211`) from an option on. -/
def coapMessageSerializeOptions : List CoapMsgOption → Nat → Nat → Except Int (List UInt8)
  | [], _, _ => return []
  | op :: ops, prevNum, len => do
    let bytes ← coapMsgFormatOp op prevNum len
    let rest ← coapMessageSerializeOptions ops op.optionNum (sizeSub len bytes.length)
    return bytes ++ rest

/-- `_coap_message_serialize_payload` (`coap_client_serialize.c:224-240`). -/
def coapMessageSerializePayload (message : CoapMessage) (len : Nat) : Except Int (List UInt8) :=
  if message.payload.length = 0 then .ok []
  else if message.payload.length + 1 > len then .error (-enospc)
  else .ok (0xFF :: message.payload)

/-- `serialize_coap_message` (`coap_client_serialize.c:242-288`): the bytes written into a buffer
    of `len` bytes, or the error. -/
def serializeCoapMessage (message : CoapMessage) (len : Nat) : Except Int (List UInt8) :=
  let stages : Except Int (List UInt8) := do
    let header ← coapMessageSerializeHeader message len
    let len := sizeSub len header.length
    let token ← coapMessageSerializeToken message len
    let len := sizeSub len token.length
    let options ← coapMessageSerializeOptions message.opList 0 len
    let len := sizeSub len options.length
    let payload ← coapMessageSerializePayload message len
    return header ++ token ++ options ++ payload
  match stages with
  | .ok bytes => .ok bytes
  | .error _ => .error qcloudErrCoapInternal

/-! ## Deserializing -/

/-- What a stage of the deserializer leaves: the message, the bytes behind it, and their number;
    or its error code. -/
abbrev Stage := Except Int (CoapMessage × List UInt8 × Nat)

/-- `_coap_msg_check` (`coap_client_deserialize.c:58-77`). -/
def coapMsgCheck (msg : CoapMessage) : Int :=
  if msg.codeClass = 0 ∧ msg.codeDetail = 0 then
    if msg.type = .non ∨ msg.token.length ≠ 0 ∨ msg.opList ≠ [] ∨ msg.payload.length ≠ 0 then
      qcloudErrCoapDataSize
    else qcloudRetSuccess
  else if msg.type = .rst then qcloudErrCoapDataSize
  else qcloudRetSuccess

/-- `_coap_message_deserialize_header` (`coap_client_deserialize.c:124-157`); the bits that the
    masks keep are those of the unsigned byte. `token_len` is returned for the next stage. -/
def coapMessageDeserializeHeader (msg : CoapMessage) (p : List UInt8) (len : Nat) :
    Except Fault (Except Int (Nat × CoapMessage × List UInt8 × Nat)) :=
  if len < 4 then .ok (.error qcloudErrCoapDataSize)
  else match p with
  | b₀ :: b₁ :: b₂ :: b₃ :: rest =>
    let version := (b₀.toNat >>> 6) &&& 3
    let tokenLen := b₀.toNat &&& 15
    let codeClass := (b₁.toNat >>> 5) &&& 7
    if version ≠ coapMsgVer then .ok (.error (-einval))
    else if tokenLen > coapMsgMaxTokenLen then .ok (.error qcloudErrCoapDataSize)
    else if codeClass ≠ coapMsgReq ∧ codeClass ≠ coapMsgSuccess ∧ codeClass ≠ coapMsgClientErr ∧
        codeClass ≠ coapMsgServerErr then .ok (.error qcloudErrCoapBadmsg)
    else
      .ok (.ok (tokenLen,
        { msg with
          version := version
          type := .ofBits ((b₀.toNat >>> 4) &&& 3)
          codeDetail := b₁.toNat &&& 31
          codeClass := codeClass
          msgId := b₂.toNat * 256 + b₃.toNat },
        rest, len - 4))
  | _ => .error .outOfBounds

/-- `_coap_message_deserialize_token` (`coap_client_deserialize.c:170-181`). -/
def coapMessageDeserializeToken (tokenLen : Nat) (msg : CoapMessage) (p : List UInt8) (len : Nat) :
    Except Fault Stage :=
  if len < tokenLen then .ok (.error qcloudErrCoapDataSize)
  else if p.length < tokenLen then .error .outOfBounds
  else .ok (.ok ({ msg with token := p.take tokenLen }, p.drop tokenLen, len - tokenLen))

/-- A `char` converted to `unsigned`. -/
def charToUnsigned (b : UInt8) : Nat :=
  if b.toNat < 128 then b.toNat else 2 ^ 32 - (256 - b.toNat)

/-- The delta or the length of an option, from its half of the first byte and the extension at
    `p`. -/
def readExtended (half : Nat) (p : List UInt8) (len : Nat) :
    Except Fault (Except Int (Nat × List UInt8 × Nat)) :=
  if half = 13 then
    if len < 1 then .ok (.error qcloudErrCoapDataSize)
    else match p with
    | b :: rest => .ok (.ok ((13 + charToUnsigned b) % 2 ^ 32, rest, len - 1))
    | _ => .error .outOfBounds
  else if half = 14 then
    if len < 2 then .ok (.error qcloudErrCoapDataSize)
    else match p with
    | b₀ :: b₁ :: rest => .ok (.ok (269 + (b₀.toNat * 256 + b₁.toNat), rest, len - 2))
    | _ => .error .outOfBounds
  else .ok (.ok (half, p, len))

/-- `qcloud_iot_coap_option_init` (`coap_client_common.c:224-250`): the two allocations are the
    `k`-th ones. -/
def qcloudIotCoapOptionInit (alloc : Nat → Bool) (k num : Nat) (val : List UInt8) :
    Option CoapMsgOption :=
  if alloc (2 * k) ∧ alloc (2 * k + 1) then some { optionNum := num % 2 ^ 16, val } else none

/-- The loop of `coap_message_option_add`: behind the last of the options that are not greater. -/
def insertBehind (option : CoapMsgOption) : List CoapMsgOption → List CoapMsgOption
  | prev :: next :: rest =>
    if prev.optionNum ≤ option.optionNum ∧ option.optionNum < next.optionNum then
      prev :: option :: next :: rest
    else prev :: insertBehind option (next :: rest)
  | list => list ++ [option]

/-- `coap_message_option_add` (`coap_client_common.c:161-204`), with the `k`-th allocations. -/
def coapMessageOptionAdd (alloc : Nat → Bool) (k : Nat) (message : CoapMessage) (num : Nat)
    (val : List UInt8) : Int × CoapMessage :=
  match qcloudIotCoapOptionInit alloc k num val with
  | none => (qcloudErrFailure, message)
  | some option =>
    (qcloudRetSuccess,
      { message with
        opList :=
          match message.opList with
          | [] => [option]
          | first :: rest =>
            if option.optionNum < first.optionNum then option :: first :: rest
            else insertBehind option (first :: rest) })

/-- `op_num`, behind the options read before. -/
def numBehind (ops : List CoapMsgOption) (opDelta : Nat) : Nat :=
  match ops.getLast? with
  | none => opDelta
  | some prev => (prev.optionNum + opDelta) % 2 ^ 32

/-- `_coap_message_deserialize_option` (`coap_client_deserialize.c:194-264`) and
    `_coap_msg_op_list_add_last` (`coap_client_deserialize.c:91-112`). -/
def coapMessageDeserializeOption (alloc : Nat → Bool) (k : Nat) (msg : CoapMessage) (p : List UInt8)
    (len : Nat) : Except Fault Stage :=
  if len < 1 then .ok (.error qcloudErrCoapDataSize)
  else match p with
  | [] => .error .outOfBounds
  | b :: p => do
    let opDelta := (b.toNat >>> 4) &&& 15
    let opLen := b.toNat &&& 15
    if opDelta = 15 ∨ opLen = 15 then return .error qcloudErrCoapDataSize
    match ← readExtended opDelta p (len - 1) with
    | .error rc => return .error rc
    | .ok (opDelta, p, len) =>
      match ← readExtended opLen p len with
      | .error rc => return .error rc
      | .ok (opLen, p, len) =>
        if len < opLen then return .error qcloudErrCoapDataSize
        if p.length < opLen then .error .outOfBounds
        else
          match qcloudIotCoapOptionInit alloc k (numBehind msg.opList opDelta) (p.take opLen) with
          | none => return .error qcloudErrFailure
          | some option =>
            return .ok ({ msg with opList := msg.opList ++ [option] }, p.drop opLen, len - opLen)

/-- `_coap_message_deserialize_options` (`coap_client_deserialize.c:277-297`): the byte at `p` is
    read before `len` is looked at. Every round takes a byte, so `len` bounds their number. -/
def coapMessageDeserializeOptions (alloc : Nat → Bool) :
    Nat → Nat → CoapMessage → List UInt8 → Nat → Except Fault Stage
  | _, _, _, [], _ => .error .outOfBounds
  | fuel, k, msg, b :: p, len =>
    if b = 0xFF ∨ len = 0 then .ok (.ok (msg, b :: p, len))
    else match fuel with
    | 0 => .ok (.ok (msg, b :: p, len))
    | fuel + 1 => do
      match ← coapMessageDeserializeOption alloc k msg (b :: p) len with
      | .error rc => return .error rc
      | .ok (msg, p, len) => coapMessageDeserializeOptions alloc fuel (k + 1) msg p len

/-- `_coap_message_deserialize_payload` (`coap_client_deserialize.c:308-336`); `k` options were
    allocated before. -/
def coapMessageDeserializePayload (alloc : Nat → Bool) (k : Nat) (msg : CoapMessage)
    (p : List UInt8) (len : Nat) : Except Fault Stage :=
  if len = 0 then .ok (.ok (msg, p, len))
  else match p with
  | [] => .error .outOfBounds
  | b :: p =>
    if b ≠ 0xFF then .ok (.error qcloudErrCoapDataSize)
    else if len - 1 = 0 then .ok (.error qcloudErrCoapDataSize)
    else if ¬ alloc (2 * k) then .ok (.error (-enomem))
    else if p.length < len - 1 then .error .outOfBounds
    else .ok (.ok ({ msg with payload := p.take (len - 1) }, p.drop (len - 1), 0))

/-- `deserialize_coap_message` (`coap_client_deserialize.c:338-383`): the return code and the
    message afterwards, which is destroyed if a stage fails and stays as it is if the check at
    the end does. -/
def deserializeCoapMessage (alloc : Nat → Bool) (message : CoapMessage) (buf : List UInt8)
    (len : Nat) : Except Fault (Int × CoapMessage) := do
  match ← coapMessageDeserializeHeader message buf len with
  | .error _ => return (qcloudErrCoapInternal, .zero)
  | .ok (tokenLen, message, p, len) =>
    match ← coapMessageDeserializeToken tokenLen message p len with
    | .error _ => return (qcloudErrCoapInternal, .zero)
    | .ok (message, p, len) =>
      match ← coapMessageDeserializeOptions alloc len 0 message p len with
      | .error _ => return (qcloudErrCoapInternal, .zero)
      | .ok (message, p, len) =>
        match ← coapMessageDeserializePayload alloc message.opList.length message p len with
        | .error _ => return (qcloudErrCoapInternal, .zero)
        | .ok (message, _, _) => return (coapMsgCheck message, message)

end QcloudIot.Coap
