import QcloudIot.Json.Parser

/-!
# Dotted keys

`LITE_json_value_of` of `json_token.c`, and how the SDK reads an integer from the text it
returns.
-/

namespace QcloudIot.Json

open Mqtt (CStr)

/-- The loop of `LITE_json_value_of` and what follows it, `keyNext` being the bytes from
    `key_iter` to where `strchr` has come. `HAL_Malloc` of a component is not checked and taken
    to succeed; `allocated` says whether the one of the result does. -/
def valueOfFrom (allocated : Bool) (keyNext : List UInt8) :
    List UInt8 → CStr → Int → Except Fault (Option (List UInt8))
  | [], srcIter, valueLen => do
    let (value, out) ← jsonGetValueByName srcIter keyNext false
    let valueLen := (out.map fun (len, _) => (len : Int)).getD valueLen
    match value with
    | none => return none
    | some value =>
      return if allocated then some ((srcIter.bytes.drop value).take valueLen.toNat) else none
  | b :: keyIter, srcIter, valueLen =>
    if b = dot then do
      let (value, out) ← jsonGetValueByName srcIter keyNext false
      let valueLen := (out.map fun (len, _) => (len : Int)).getD valueLen
      match value with
      | none => return none
      | some value => valueOfFrom allocated [] keyIter (suffix srcIter value) valueLen
    else valueOfFrom allocated (keyNext ++ [b]) keyIter srcIter valueLen

/-- `LITE_json_value_of` (`json_token.c:28-72`): the string returned. -/
def liteJsonValueOf (key src : CStr) (allocated : Bool) : Except Fault (Option (List UInt8)) :=
  valueOfFrom allocated [] key.bytes src (-1)

/-! ## Integers -/

/-- `isspace`. -/
def isSpace (b : UInt8) : Bool := b = space ∨ 9 ≤ b ∧ b ≤ 13

/-- The value of a digit or a letter; 36 for any other byte. -/
def digitValue (b : UInt8) : Nat :=
  if isDigit b then b.toNat - 48
  else if 97 ≤ b ∧ b ≤ 122 then b.toNat - 87
  else if 65 ≤ b ∧ b ≤ 90 then b.toNat - 55
  else 36

/-- `sscanf` with a directive `%i` for an integer of `bits` bits: the integer stored, if one is.
    The digits after a sign are hexadecimal behind `0x`, octal behind `0`, and decimal
    otherwise; a number that does not fit is saturated as a `long` and truncated. -/
def sscanfI (bits : Nat) (text : List UInt8) : Option Int :=
  let text := text.dropWhile isSpace
  let (negative, text) : Bool × List UInt8 := match text with
    | 45 :: rest => (true, rest)
    | 43 :: rest => (false, rest)
    | _ => (false, text)
  let (base, text) : Nat × List UInt8 := match text with
    | 48 :: 120 :: rest => (16, rest)
    | 48 :: 88 :: rest => (16, rest)
    | 48 :: _ => (8, text)
    | _ => (10, text)
  let digits := text.takeWhile fun b => digitValue b < base
  if digits = [] then none
  else
    let value : Int := (digits.foldl (fun n b => base * n + digitValue b) 0 : Nat)
    let value := if negative then max (-value) (-2 ^ 63) else min value (2 ^ 63 - 1)
    some (BitVec.ofInt bits value).toInt

end QcloudIot.Json
