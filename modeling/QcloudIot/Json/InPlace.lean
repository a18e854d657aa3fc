import QcloudIot.Json.Token
import QcloudIot.Misc.Text

/-!
# Lookups where the text lies

`LITE_json_value_of` on a text inside a larger memory, which is searched without a copy. The
scanner may step over the NUL of the text and go on in what lies behind it; reading behind the
end of the memory is a `Fault`. A `char *` is the rest of the memory from it on.
-/

namespace QcloudIot.Json

open Mqtt (CStr)

/-- What is left by a read: the message that was received, or the copy of a text. -/
inductive Overrun where
  | message (fault : Fault)
  | copy (fault : Fault)
  deriving DecidableEq, Repr

def ofMessage {α : Type} : Except Fault α → Except Overrun α
  | .ok a => .ok a
  | .error fault => .error (.message fault)

def ofCopy {α : Type} : Except Fault α → Except Overrun α
  | .ok a => .ok a
  | .error fault => .error (.copy fault)

/-- `strlen`. -/
def strlen (mem : List UInt8) : Except Fault Nat :=
  if 0 ∈ mem then .ok (cString mem).length else .error .outOfBounds

/-- `json_get_value_by_name_cb` on keys inside the memory. -/
def jsonGetValueByNameCbAt (mem name : List UInt8) (nv : JsonNv) (found : NextObject) :
    JsonNv × Bool :=
  match found.key with
  | none => (nv, false)
  | some (key, klen) =>
    if klen = name.length ∧ (mem.drop key).take klen = name then
      ({ pV := found.val, vLen := found.valLen, vType := found.valType }, true)
    else (nv, false)

/-- `json_get_value_by_name` (`json_parser.c:234-253`) with `iStrLen = strlen(p_cJsonStr)` and
    without a type: the pointer returned and, unless the parse failed, `*p_iValueLen`. -/
def jsonGetValueByNameAt (mem name : List UInt8) : Except Fault (Option Nat × Option Nat) := do
  let iStrLen ← strlen mem
  if iStrLen = 0 then return (none, none)
  else do
    let (ret, nv) ← forEach .object mem (parseBody (jsonGetValueByNameCbAt mem name))
      (jsonResultErr, { pV := none, vLen := 0, vType := .string })
    return (nv.pV, if ret = jsonResultOk then some nv.vLen else none)

/-- `json_parse_name_value` (`json_parser.c:168-199`) on the text at the front of the memory: the
    return code, the state of the callback, and the memory then. The byte behind `iStrLen` is kept in
    `last_char` while the text is cut there; both tests measure the text as it is. -/
def jsonParseNameValueAt {σ : Type} (mem : List UInt8) (iStrLen : Nat)
    (pfnCB : List UInt8 → σ → NextObject → σ × Bool) (st : σ) :
    Except Fault (Int × σ × List UInt8) :=
  if iStrLen = 0 then .ok (jsonResultErr, st, mem)
  else do
    let len ← strlen mem
    let (lastChar, mem) ←
      if iStrLen ≠ len then
        match mem[iStrLen]? with
        | none => .error .outOfBounds
        | some b => .ok (b, mem.set iStrLen 0)
      else .ok (0, mem)
    let (ret, st) ← forEach .object mem (parseBody (pfnCB mem)) (jsonResultErr, st)
    let len ← strlen mem
    return (ret, st, if iStrLen ≠ len then mem.set iStrLen lastChar else mem)

/-- `json_get_value_by_name` (`json_parser.c:234-253`) on the text at the front of the memory: the
    pointer returned, `*p_iValueLen` and `*p_iValueType` unless the parse failed, and the memory
    then. -/
def jsonGetValueByNameIn (mem : List UInt8) (iStrLen : Nat) (name : List UInt8) (wantsType : Bool) :
    Except Fault ((Option Nat × Option (Nat × JsonType)) × List UInt8) := do
  let (ret, nv, mem) ← jsonParseNameValueAt mem iStrLen (fun mem => jsonGetValueByNameCbAt mem name)
    { pV := none, vLen := 0, vType := .string }
  if ret = jsonResultOk then
    return ((if wantsType ∧ nv.vType = .null then none else nv.pV, some (nv.vLen, nv.vType)), mem)
  else return ((nv.pV, none), mem)

/-- `HAL_Snprintf(ret, value_len + 1, "%s", value)`, which reads `value` up to its NUL. -/
def printedAt (mem : List UInt8) (valueLen : Int) : Except Fault (List UInt8) := do
  let _ ← strlen mem
  return (cString mem).take valueLen.toNat

/-- The loop of `LITE_json_value_of` and what follows it, as in `valueOfFrom`. -/
def valueOfAt (allocated : Bool) (keyNext : List UInt8) :
    List UInt8 → List UInt8 → Int → Except Fault (Option (List UInt8))
  | [], srcIter, valueLen => do
    let (value, out) ← jsonGetValueByNameAt srcIter keyNext
    match value with
    | none => return none
    | some value =>
      if allocated then do
        let ret ← printedAt (srcIter.drop value) ((out.map Int.ofNat).getD valueLen)
        return some ret
      else return none
  | b :: keyIter, srcIter, valueLen =>
    if b = dot then do
      let (value, out) ← jsonGetValueByNameAt srcIter keyNext
      match value with
      | none => return none
      | some value =>
        valueOfAt allocated [] keyIter (srcIter.drop value) ((out.map Int.ofNat).getD valueLen)
    else valueOfAt allocated (keyNext ++ [b]) keyIter srcIter valueLen

/-- `LITE_json_value_of` (`json_token.c:28-72`) on the text at the front of `src`. -/
def liteJsonValueAt (key : CStr) (src : List UInt8) (allocated : Bool) :
    Except Fault (Option (List UInt8)) :=
  valueOfAt allocated [] key.bytes src (-1)

end QcloudIot.Json
