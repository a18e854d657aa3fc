import QcloudIot.Gateway.Messages
import QcloudIot.Json.InPlace

/-!
# The acknowledgement of a change in its memory

`_gateway_ack_change` of `gateway_common.c:181-260` with the memory of the text `devices`, in which
the byte behind an entry is set to NUL while the entry is looked at. The lookups go on in what lies
behind that byte when they step over it.
-/

namespace QcloudIot.Gateway

open Mqtt (CStr)
open Ota (utf8)
open Json (memory jsonGetObject jsonGetNextObject liteJsonValueAt)
open Shadow (textOf)

/-- `backup_json_str_last_char` (`json_parser.h:121-125`): the byte that is kept, and the memory. -/
def backupJsonStrLastChar (mem : List UInt8) (jsonStr strLen : Nat) :
    Except Json.Fault (UInt8 × List UInt8) :=
  match mem[jsonStr + strLen]? with
  | none => .error .outOfBounds
  | some register => .ok (register, mem.set (jsonStr + strLen) 0)

/-- `restore_json_str_last_char` (`json_parser.h:136-139`). -/
def restoreJsonStrLastChar (mem : List UInt8) (jsonStr strLen : Nat) (register : UInt8) :
    List UInt8 := mem.set (jsonStr + strLen) register

/-- The head of the loop `json_array_for_each_entry` (`json_parser.h:107-109`) at `pos`: what
    `json_get_next_object` finds and the position behind it, or the end of the loop. -/
def nextArrayEntry (mem : List UInt8) :
    Option Nat → Except Json.Fault (Option (Json.NextObject × Nat))
  | none => .ok none
  | some pos =>
    match mem[pos]? with
    | none => .error .outOfBounds
    | some b =>
      if b = 0 then .ok none
      else do
        match ← jsonGetNextObject .array mem (pos + 1) with
        | none => return none
        | some found => return found.next.map fun next => (found, next)

/-- The comma and the entry that are printed (`gateway_common.c:217-236`); `HAL_Snprintf` does not
    fail. -/
def ReplyBuf.printEntry (buf : ReplyBuf) (isFirst : Bool) (entry : List UInt8) (env : EntryEnv) :
    Except Json.Fault ReplyBuf := do
  let buf := if isFirst then buf else buf.snprintf (utf8 ",")
  match ← liteJsonValueAt productIdField entry env.productId with
  | none => return buf
  | some productId =>
    match ← liteJsonValueAt deviceNameField entry env.deviceName with
    | none => return buf
    | some deviceName => return buf.snprintf (ackEntry (textOf productId) (textOf deviceName))

/-- The variables of the loop: the buffer, the number of entries looked at, and the memory of
    `devices`. -/
structure ChangeAck where
  buf : ReplyBuf
  entries : Nat
  devices : List UInt8
  deriving DecidableEq, Repr

/-- The loop (`gateway_common.c:205-240`) from `pos` on. The exit for which the buffer has no room
    left does not restore the byte behind the entry. -/
def changeAckLoop (env : Nat → EntryEnv) : Nat → Option Nat → ChangeAck → Except Json.Fault ChangeAck
  | 0, _, _ => .error .endless
  | fuel + 1, pos, ack => do
    match ← nextArrayEntry ack.devices pos with
    | none => return ack
    | some (found, next) =>
      match found.val with
      | none => changeAckLoop env fuel (some next) ack
      | some entry =>
        let (oldCh, devices) ← backupJsonStrLastChar ack.devices entry found.valLen
        if ack.buf.leftSz < maxSubdevInfoSz then return { ack with devices }
        else do
          let buf ← ack.buf.printEntry (ack.entries = 0) (devices.drop entry) (env ack.entries)
          changeAckLoop env fuel (some next)
            { buf, entries := ack.entries + 1
              devices := restoreJsonStrLastChar devices entry found.valLen oldCh }

/-- `_gateway_ack_change` (`gateway_common.c:181-260`) up to the end of its loop. -/
def changeAckEntries (devices : CStr) (status : Int) (env : Nat → EntryEnv) :
    Except Json.Fault ChangeAck := do
  let buf : ReplyBuf := { text := [], p := 0, leftSz := 1023, overrun := false }
  let pos ← jsonGetObject .array (memory devices) 0
  changeAckLoop env ((memory devices).length + 1) pos
    { buf := buf.snprintf (ackPrefix status), entries := 0, devices := memory devices }

/-- What is published (`gateway_common.c:241-256`): `reply_buf` behind the end of the text. -/
def ChangeAck.reply (ack : ChangeAck) : ReplyBuf := ack.buf.snprintf ackSuffix

end QcloudIot.Gateway
