import QcloudIot.Misc.Size
import QcloudIot.Ota.Client

/-!
# Building shadow documents

`IOT_Shadow_JSON_Construct*` of `shadow_client.c:442-895` and `put_json_node` of
`shadow_client_json.c`. The buffer is known by the string it holds and by how far it has been
written; of the properties it is recorded which were read. Handles and buffers are not `NULL`.
-/

namespace QcloudIot.Shadow

open Mqtt (CStr qcloudRetSuccess qcloudErrInval)
open Ota (utf8 decimal)

abbrev qcloudErrJsonBufferTruncated : Int := -133
abbrev qcloudErrJsonBufferTooSmall : Int := -134
abbrev qcloudErrJson : Int := -135

/-! ## Properties -/

/-- `JsonDataType` with what `data` points to (`qcloud_iot_export_shadow.h:85`). Of a number that is
    not an integer, what `%f` prints is given. -/
inductive JsonData where
  | jint32 (value : Int32)
  | jint16 (value : Int16)
  | jint8 (value : Int8)
  | juint32 (value : UInt32)
  | juint16 (value : UInt16)
  | juint8 (value : UInt8)
  | jfloat (printed : CStr)
  | jdouble (printed : CStr)
  | jbool (value : Bool)
  | jstring (value : CStr)
  | jobject (value : CStr)

/-- `DeviceProperty` (`qcloud_iot_export_shadow.h:90-95`). -/
structure DeviceProperty where
  key : Option CStr
  data : Option JsonData

/-- The text that `put_json_node` prints for the data, in front of the comma. -/
def JsonData.text : Option JsonData → List UInt8
  | none => utf8 "null"
  | some (.jint32 value) => decimal value.toInt
  | some (.jint16 value) => decimal value.toInt
  | some (.jint8 value) => decimal value.toInt
  | some (.juint32 value) => decimal value.toNat
  | some (.juint16 value) => decimal value.toNat
  | some (.juint8 value) => decimal value.toNat
  | some (.jfloat printed) => printed.bytes
  | some (.jdouble printed) => printed.bytes
  | some (.jbool value) => utf8 (if value then "true" else "false")
  | some (.jstring value) => utf8 "\"" ++ value.bytes ++ utf8 "\""
  | some (.jobject value) => value.bytes

/-! ## Printing -/

/-- `jsonBuffer`: the string that it holds and the number of bytes up to the last one written; the
    indices of the properties read so far; and `token_num`. -/
@[ext] structure JsonBuffer where
  text : List UInt8
  written : Nat
  reads : List Int
  tokenNum : UInt32

/-- The size that `vsnprintf` gets when one is passed to `HAL_Snprintf`, whose parameter is an
    int. -/
@[irreducible] def snprintfSize (size : Nat) : Nat := (Int.bmod size (2 ^ 32) % 2 ^ 64).toNat

/-- `_check_snprintf_return` (`shadow_client_json.c:74-81`): the code is compared as a `size_t`. -/
def checkSnprintfReturn (returnCode : Int) (maxSizeOfWrite : Nat) : Int :=
  if returnCode % 2 ^ 64 ≥ maxSizeOfWrite then qcloudErrJsonBufferTruncated
  else if returnCode < 0 then qcloudErrJson
  else qcloudRetSuccess

namespace JsonBuffer

/-- `HAL_Snprintf` at an offset into the string (`HAL_OS_linux.c:120-130`). -/
def snprintf (b : JsonBuffer) (offset size : Nat) (str : List UInt8) : Int × JsonBuffer :=
  let room := snprintfSize size
  (if str.length < 2 ^ 31 then str.length else -1,
    if room = 0 then b
    else
      { b with
        text := b.text.take offset ++ str.take (room - 1)
        written := max b.written (offset + min str.length (room - 1) + 1) })

/-- The way the builders print a text: the remaining size is computed and checked, the text is
    printed from `back` bytes before the end of the string on, and the code is checked. -/
def printText (b : JsonBuffer) (sizeOfBuffer back : Nat) (str : List UInt8) : Int × JsonBuffer :=
  let remainSize := sizeSub sizeOfBuffer b.text.length
  if remainSize ≤ 1 then (qcloudErrJsonBufferTooSmall, b)
  else
    let printed := b.snprintf (b.text.length - back) remainSize str
    (checkSnprintfReturn printed.1 remainSize, printed.2)

/-- What follows a check of the code. -/
def andThen (rc : Int × JsonBuffer) (next : JsonBuffer → Int × JsonBuffer) : Int × JsonBuffer :=
  if rc.1 ≠ qcloudRetSuccess then rc else next rc.2

/-- `put_json_node` (`shadow_client_json.c:83-142`). -/
def putJsonNode (b : JsonBuffer) (sizeOfBuffer : Nat) (key : CStr) (data : Option JsonData) :
    Int × JsonBuffer :=
  andThen (b.printText sizeOfBuffer 0 (utf8 "\"" ++ key.bytes ++ utf8 "\":")) fun b =>
    b.printText sizeOfBuffer 0 (JsonData.text data ++ utf8 ",")

/-- What `generate_client_token` prints (`shadow_client_json.c:205-208`). -/
def clientToken (productId : CStr) (tokenNum : UInt32) : List UInt8 :=
  productId.bytes ++ utf8 "-" ++ decimal tokenNum.toNat

/-- `generate_client_token` at the end of the string, with its checks
    (`shadow_client.c:491-503`). -/
def printToken (b : JsonBuffer) (sizeOfBuffer : Nat) (productId : CStr) : Int × JsonBuffer :=
  let remainSize := sizeSub sizeOfBuffer b.text.length
  if remainSize ≤ 1 then (qcloudErrJsonBufferTooSmall, b)
  else
    let printed := { b with tokenNum := b.tokenNum + 1 }.snprintf b.text.length remainSize
      (clientToken productId b.tokenNum)
    (checkSnprintfReturn printed.1 remainSize, printed.2)

/-- What `IOT_Shadow_JSON_Init` prints. -/
def prefixText (overwrite : Bool) : List UInt8 :=
  if overwrite then utf8 "\x7b\"overwriteUpdate\":true, \"state\":\x7b" else utf8 "\x7b\"state\":\x7b"

/-- `IOT_Shadow_JSON_Init` (`shadow_client.c:449-463`). -/
def jsonInit (b : JsonBuffer) (sizeOfBuffer : Nat) (overwrite : Bool) : Int × JsonBuffer :=
  let printed := b.snprintf 0 sizeOfBuffer (prefixText overwrite)
  (checkSnprintfReturn printed.1 sizeOfBuffer, printed.2)

/-- `IOT_Shadow_JSON_Finalize` (`shadow_client.c:472-513`). -/
def jsonFinalize (b : JsonBuffer) (sizeOfBuffer : Nat) (productId : CStr) : Int × JsonBuffer :=
  andThen (b.printText sizeOfBuffer 1 (utf8 "\x7d, \"clientToken\":\"")) fun b =>
    andThen (b.printToken sizeOfBuffer productId) fun b =>
      b.printText sizeOfBuffer 0 (utf8 "\"\x7d")

/-! ## The builders -/

/-- The property at `i` is read. -/
def reading (b : JsonBuffer) (i : Int) : JsonBuffer := { b with reads := b.reads ++ [i] }

@[simp] theorem text_reading (b : JsonBuffer) (i : Int) : (b.reading i).text = b.text := rfl

@[simp] theorem written_reading (b : JsonBuffer) (i : Int) :
    (b.reading i).written = b.written := rfl

@[simp] theorem reads_reading (b : JsonBuffer) (i : Int) :
    (b.reading i).reads = b.reads ++ [i] := rfl

/-- The counter of the loop after `k` rounds, an `int8_t`. -/
@[irreducible] def counter (k : Nat) : Int := Int.bmod k (2 ^ 8)

/-- The loop over the properties (`shadow_client.c:549-563`, `618-629`, `684-698`, `755-769`,
    `865-878`), from round `k` on. The property that a round reads is the one at `index`. -/
def putProperties (index : Nat → Int) (properties : Int → Option DeviceProperty)
    (remainSize count : Nat) : Nat → Nat → JsonBuffer → Option (Int × JsonBuffer)
  | 0, _, _ => none
  | fuel + 1, k, b =>
    if counter k < count then
      let b := b.reading (index k)
      match properties (index k) with
      | some ⟨some key, data⟩ =>
        let rc := b.putJsonNode remainSize key data
        if rc.1 ≠ qcloudRetSuccess then some rc
        else putProperties index properties remainSize count fuel (k + 1) rc.2
      | _ => some (qcloudErrInval, b)
    else some (qcloudRetSuccess, b)

/-- What a builder is called with. The array, or the list of arguments, goes on behind the first
    `count` properties and in front of them, where the program has put something else. -/
structure Construct where
  sizeOfBuffer : Nat
  count : UInt8
  properties : Int → Option DeviceProperty
  productId : CStr

/-- The builders up to what they print behind the properties: the size that remained in front of
    the field is the one that the loop uses. -/
def constructField (c : Construct) (overwrite : Bool) (field : List UInt8) (index : Nat → Int)
    (behind : Nat → JsonBuffer → Int × JsonBuffer) (fuel : Nat) (b : JsonBuffer) :
    Option (Int × JsonBuffer) :=
  let rc := b.jsonInit c.sizeOfBuffer overwrite
  if rc.1 ≠ qcloudRetSuccess then some rc
  else
    let remainSize := sizeSub c.sizeOfBuffer rc.2.text.length
    let rc := rc.2.printText c.sizeOfBuffer 0 field
    if rc.1 ≠ qcloudRetSuccess then some rc
    else
      match putProperties index c.properties remainSize c.count.toNat fuel 0 rc.2 with
      | none => none
      | some rc =>
        some (andThen rc fun b =>
          let remainSize := sizeSub c.sizeOfBuffer b.text.length
          andThen (b.printText c.sizeOfBuffer 1 (utf8 "\x7d,")) fun b =>
            andThen (behind remainSize b) fun b => b.jsonFinalize c.sizeOfBuffer c.productId)

/-- The counter as the index of an array. -/
def arrayIndex (k : Nat) : Int := counter k

/-- `va_arg` hands over the next argument. -/
def argIndex (k : Nat) : Int := k

def reportedField : List UInt8 := utf8 "\"reported\":\x7b"

def desiredField : List UInt8 := utf8 "\"desired\":\x7b"

def desiredNull : List UInt8 := utf8 "\"desired\": null "

/-- The last field of `IOT_Shadow_JSON_ConstructReportAndDesireAllNull`
    (`shadow_client.c:783-784`): the remaining size is that in front of the closing brace. -/
def printDesiredNull (remainSize : Nat) (b : JsonBuffer) : Int × JsonBuffer :=
  let printed := b.snprintf b.text.length remainSize desiredNull
  (checkSnprintfReturn printed.1 remainSize, printed.2)

/-- `IOT_Shadow_JSON_ConstructReport` (`shadow_client.c:515-583`). -/
def constructReport (c : Construct) : Nat → JsonBuffer → Option (Int × JsonBuffer) :=
  constructField c false reportedField argIndex fun _ b => (qcloudRetSuccess, b)

/-- `IOT_Shadow_JSON_ConstructReportArray` (`shadow_client.c:585-648`). -/
def constructReportArray (c : Construct) : Nat → JsonBuffer → Option (Int × JsonBuffer) :=
  constructField c false reportedField arrayIndex fun _ b => (qcloudRetSuccess, b)

/-- `IOT_Shadow_JSON_Construct_OverwriteReport` (`shadow_client.c:650-718`). -/
def constructOverwriteReport (c : Construct) : Nat → JsonBuffer → Option (Int × JsonBuffer) :=
  constructField c true reportedField argIndex fun _ b => (qcloudRetSuccess, b)

/-- `IOT_Shadow_JSON_ConstructReportAndDesireAllNull` (`shadow_client.c:720-795`). -/
def constructReportAndDesireAllNull (c : Construct) :
    Nat → JsonBuffer → Option (Int × JsonBuffer) :=
  constructField c false reportedField argIndex printDesiredNull

/-- `IOT_Shadow_JSON_ConstructDesireAllNull` (`shadow_client.c:797-829`). -/
def constructDesireAllNull (c : Construct) (b : JsonBuffer) : Int × JsonBuffer :=
  andThen (b.jsonInit c.sizeOfBuffer false) fun b =>
    andThen (b.printText c.sizeOfBuffer 0 desiredNull) fun b =>
      b.jsonFinalize c.sizeOfBuffer c.productId

/-- `IOT_Shadow_JSON_ConstructDesirePropNull` (`shadow_client.c:831-895`). -/
def constructDesirePropNull (c : Construct) : Nat → JsonBuffer → Option (Int × JsonBuffer) :=
  constructField c false desiredField argIndex fun _ b => (qcloudRetSuccess, b)

end JsonBuffer

end QcloudIot.Shadow
