import QcloudIot.Json.InPlace
import QcloudIot.Shadow.Manager

/-!
# A shadow request in the buffer of its caller

`do_shadow_request` on the memory of the document: the type is inserted where the document lies, the
document is published, and only then the list of requests is looked at. An access behind the buffer is
a `Fault`.
-/

namespace QcloudIot.Shadow

open Mqtt (CStr)
open Json (Fault liteJsonValueOf strlen)

/-- `*(str + i) = b` -/
def storeByte (str : List UInt8) (i : Nat) (b : UInt8) : Except Fault (List UInt8) :=
  if i < str.length then .ok (str.set i b) else .error .outOfBounds

/-- The first loop of `_insert`, with `i + 1` for the `i` of the source: the bytes from `pos` on are
    moved up, the last one first. -/
def moveUp (nlen pos : Nat) : Nat → List UInt8 → Except Fault (List UInt8)
  | 0, str => .ok str
  | i + 1, str =>
    if pos ≤ i then
      match str[i]? with
      | none => .error .outOfBounds
      | some b => do
        let str ← storeByte str (i + nlen) b
        moveUp nlen pos i str
    else .ok str

/-- The second loop of `_insert`. -/
def copyFrom (pos : Nat) : List UInt8 → List UInt8 → Except Fault (List UInt8)
  | [], str => .ok str
  | b :: pch, str => do
    let str ← storeByte str pos b
    copyFrom (pos + 1) pch str

/-- `_insert` (`shadow_client_manager.c:350-363`) on the memory of a text. -/
def insertInto (str pch : List UInt8) (pos : Nat) : Except Fault (List UInt8) := do
  let len ← strlen str
  let str ← moveUp pch.length pos len str
  let str ← copyFrom pos pch str
  storeByte str (len + pch.length) 0

/-- `_set_shadow_json_type` (`shadow_client_manager.c:365-401`) on the memory of the document. -/
def setShadowJsonTypeIn (jsonDoc : List UInt8) (sizeOfBuffer : Nat) (method : Method) :
    Except Fault (Int × List UInt8) := do
  let jsonLen ← strlen jsonDoc
  let remainSize := sizeSub sizeOfBuffer jsonLen
  if sizeSub remainSize 1 ≤ (jsonNodeStr method).length then
    return (Mqtt.qcloudErrInval, jsonDoc)
  else do
    let jsonDoc ← insertInto jsonDoc (jsonNodeStr method).bytes 1
    return (Mqtt.qcloudRetSuccess, jsonDoc)

/-- What `do_shadow_request` leaves: its return code, the memory of the document, the client, and
    whether the parsed token is still allocated. -/
structure RequestDone where
  rc : Int
  jsonDoc : List UInt8
  client : ShadowClient
  tokenHeld : Bool

/-- `do_shadow_request` (`shadow_client_manager.c:122-156`) on the memory of the document. -/
def ShadowClient.doShadowRequestIn (s : ShadowClient) (params : RequestParams)
    (jsonDoc : List UInt8) (sizeOfBuffer : Nat) (env : RequestEnv) : Except Fault RequestDone := do
  match ← liteJsonValueOf clientTokenField (textOf jsonDoc) env.tokenAllocated with
  | none => return ⟨Mqtt.qcloudErrInval, jsonDoc, s, false⟩
  | some clientToken => do
    let (rc, jsonDoc) ← setShadowJsonTypeIn jsonDoc sizeOfBuffer params.method
    if rc ≠ Mqtt.qcloudRetSuccess then return ⟨rc, jsonDoc, s, true⟩
    else do
      let (rc, s) := s.publishOperationToCloud (textOf jsonDoc) env.published
      let (rc, s) := if 0 ≤ rc then s.addRequestToList (textOf clientToken) params env else (rc, s)
      return ⟨rc, jsonDoc, s, false⟩

end QcloudIot.Shadow
