import QcloudIot.Json.InPlace
import QcloudIot.Shadow.Manager

/-!
# Dynamic registration

How `dynreg.c`, built for authentication by a secret, takes the secret of the device from the
response of the server. Base64 and AES are given functions.
-/

namespace QcloudIot.Dynreg

open Mqtt (CStr)
open Shadow (ascii strncpy textOf)
open Json (Fault liteJsonValueAt liteJsonValueOf sscanfI)

abbrev qcloudRetSuccess : Int := 0
abbrev qcloudErrFailure : Int := -1001

abbrev decodeBuffLen : Nat := 256
abbrev utilsAesBlockLen : Nat := 16
abbrev ePskType : Int := 2

/-- `qcloud_iot_utils_base64decode` into a buffer of `DECODE_BUFF_LEN` bytes, and `utils_aes_cbc`
    with `UTILS_AES_DECRYPT`: the code and what is written over the data. -/
structure Ciphers where
  base64decode : List UInt8 → Option (List UInt8)
  aesCbc : (data key iv : List UInt8) → Int × List UInt8
  decoded_le : ∀ {payload decoded}, base64decode payload = some decoded →
    decoded.length ≤ decodeBuffLen
  decrypted_length : ∀ data key iv, (aesCbc data key iv).2.length = data.length

/-! ## Keys -/

/-- `CODE_RESAULT` -/
def codeResault : CStr := ⟨ascii ['c', 'o', 'd', 'e'], by decide⟩

/-- `ENCRYPT_TYPE` -/
def encryptType : CStr :=
  ⟨ascii ['e', 'n', 'c', 'r', 'y', 'p', 't', 'i', 'o', 'n', 'T', 'y', 'p', 'e'], by decide⟩

/-- `PSK_DATA` -/
def pskData : CStr := ⟨ascii ['p', 's', 'k'], by decide⟩

def responseKey : CStr := ⟨ascii ['R', 'e', 's', 'p', 'o', 'n', 's', 'e'], by decide⟩

def payloadKey : CStr := ⟨ascii ['P', 'a', 'y', 'l', 'o', 'a', 'd'], by decide⟩

/-! ## The device -/

/-- The bytes from `*pDevInfo` on, those behind it too. -/
abbrev Memory := Nat → UInt8

/-- Where `device_secret` begins in a `DeviceInfo`, behind `product_id`, `device_name` and
    `client_id` (`qcloud_iot_export.h:57-74`). -/
abbrev deviceSecretStart : Nat := (10 + 1) + (48 + 1) + (80 + 1)

abbrev maxSizeOfDeviceSecret : Nat := 64

/-- `product_secret` follows. -/
abbrev productSecretStart : Nat := deviceSecretStart + (maxSizeOfDeviceSecret + 1)

abbrev maxSizeOfProductSecret : Nat := 32

/-- The bytes of a field. -/
def Memory.field (memory : Memory) (start size : Nat) : List UInt8 :=
  (List.range size).map fun i => memory (start + i)

/-- Bytes are written from `start` on. -/
def Memory.write (memory : Memory) (start : Nat) (bytes : List UInt8) : Memory := fun i =>
  if start ≤ i ∧ i < start + bytes.length then bytes.getD (i - start) 0 else memory i

def Memory.deviceSecret (pDevInfo : Memory) : CStr :=
  textOf (pDevInfo.field deviceSecretStart (maxSizeOfDeviceSecret + 1))

def Memory.productSecret (pDevInfo : Memory) : CStr :=
  textOf (pDevInfo.field productSecretStart (maxSizeOfProductSecret + 1))

/-! ## The response -/

/-- Whether the copies of the values can be allocated. -/
structure Env where
  code : Bool
  response : Bool
  payload : Bool
  encryptionType : Bool
  psk : Bool
  deriving DecidableEq, Repr

/-- A number of a document, or `-1`. -/
def getJsonInt (key : CStr) (json : List UInt8) (allocated : Bool) : Except Fault Int := do
  match ← liteJsonValueAt key json allocated with
  | none => return -1
  | some v => return (sscanfI 32 (textOf v).bytes).getD (-1)

/-- `_get_json_resault_code` (`dynreg.c:98-117`). -/
def getJsonResaultCode : List UInt8 → Bool → Except Fault Int := getJsonInt codeResault

/-- `_get_json_encry_type` (`dynreg.c:119-138`). -/
def getJsonEncryType : List UInt8 → Bool → Except Fault Int := getJsonInt encryptType

/-- `_get_json_psk` (`dynreg.c:142-151`). -/
def getJsonPsk (json : List UInt8) (allocated : Bool) : Except Fault (Option CStr) := do
  return (← liteJsonValueAt pskData json allocated).map textOf

/-- The payload is decoded and decrypted in `decodeBuff` (`dynreg.c:355-382`): `decodeBuff`, or the
    code to return. More than the buffer is decrypted when it has been filled. -/
def decryptPayload (ciphers : Ciphers) (payload productSecret : CStr) :
    Except Fault (Except Int (List UInt8)) :=
  match ciphers.base64decode payload.bytes with
  | none => return .error qcloudErrFailure
  | some decoded =>
    let decodeBuff := decoded ++ List.replicate (decodeBuffLen - decoded.length) 0
    let datalen := decoded.length + (utilsAesBlockLen - decoded.length % utilsAesBlockLen)
    if datalen > decodeBuffLen then throw .outOfBounds
    else
      let key := strncpy utilsAesBlockLen productSecret
      let iv := List.replicate utilsAesBlockLen 48
      let (ret, written) := ciphers.aesCbc (decodeBuff.take datalen) key iv
      if ret ≠ qcloudRetSuccess then return .error ret
      else return .ok (written ++ decodeBuff.drop datalen)

/-- `_parse_devinfo` up to the lookup of the secret (`dynreg.c:334-437`): the document in
    `decodeBuff`, or the code to return. The result code of the response is not looked at. -/
def decodeResponse (ciphers : Ciphers) (jdoc : List UInt8) (productSecret : CStr) (env : Env) :
    Except Fault (Except Int (List UInt8)) := do
  let _ ← getJsonResaultCode jdoc env.code
  match ← liteJsonValueAt responseKey jdoc env.response with
  | none => return .error qcloudErrFailure
  | some response =>
    match ← liteJsonValueOf payloadKey (textOf response) env.payload with
    | none => return .error qcloudErrFailure
    | some payload =>
      match ← decryptPayload ciphers (textOf payload) productSecret with
      | .error ret => return .error ret
      | .ok decodeBuff =>
        let enType ← getJsonEncryType decodeBuff env.encryptionType
        if enType < 0 then return .error qcloudErrFailure
        else if ePskType ≠ enType then return .error qcloudErrFailure
        else return .ok decodeBuff

/-- `_parse_devinfo` (`dynreg.c:316-463`): the code, and the memory of the device. A secret that is
    too long is copied by `strcpy`. -/
def parseDevinfo (ciphers : Ciphers) (jdoc : List UInt8) (pDevInfo : Memory) (env : Env) :
    Except Fault (Int × Memory) := do
  match ← decodeResponse ciphers jdoc pDevInfo.productSecret env with
  | .error ret => return (ret, pDevInfo)
  | .ok decodeBuff =>
    match ← getJsonPsk decodeBuff env.psk with
    | none => return (qcloudRetSuccess, pDevInfo)
    | some psk =>
      if psk.length > maxSizeOfDeviceSecret then
        return (qcloudRetSuccess, pDevInfo.write deviceSecretStart (psk.bytes ++ [0]))
      else
        return (qcloudRetSuccess,
          pDevInfo.write deviceSecretStart (strncpy maxSizeOfDeviceSecret psk ++ [0]))

end QcloudIot.Dynreg
