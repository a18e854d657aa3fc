import QcloudIot.Dynreg.Client
import QcloudIot.Json.Proofs.InPlace

/-!
# The secret of a registration

A registration is reported as a success once the document has been decrypted. Whether that document
has a secret that fits is not part of the code returned.
-/

namespace QcloudIot.Dynreg

open Mqtt (CStr)
open Shadow (ascii strncpy strncpy_length textOf textOf_nuls)
open Json (Fault bind_ok liteJsonValueAt liteJsonValueAt_unallocated)

/-- A success is reported only for a secret of at most 64 bytes, which is then that of the device,
    and nothing else is written. -/
def RegistersRight (ciphers : Ciphers) (jdoc : List UInt8) (pDevInfo : Memory) (env : Env) : Prop :=
  ∃ ret after, parseDevinfo ciphers jdoc pDevInfo env = .ok (ret, after) ∧
    (ret = qcloudRetSuccess → ∃ decodeBuff psk,
      decodeResponse ciphers jdoc pDevInfo.productSecret env = .ok (.ok decodeBuff) ∧
      getJsonPsk decodeBuff true = .ok (some psk) ∧ psk.length ≤ maxSizeOfDeviceSecret ∧
      after.deviceSecret = psk) ∧
    ∀ i, ¬(deviceSecretStart ≤ i ∧ i < productSecretStart) → after i = pDevInfo i

/-- The response is refused before its secret is looked for, or it has one of at most 64 bytes,
    which can be copied unless the device has it already. -/
def SecretFits (ciphers : Ciphers) (jdoc : List UInt8) (pDevInfo : Memory) (env : Env) : Prop :=
  (∃ ret, decodeResponse ciphers jdoc pDevInfo.productSecret env = .ok (.error ret)) ∨
    ∃ decodeBuff psk,
      decodeResponse ciphers jdoc pDevInfo.productSecret env = .ok (.ok decodeBuff) ∧
      getJsonPsk decodeBuff true = .ok (some psk) ∧ psk.length ≤ maxSizeOfDeviceSecret ∧
      (env.psk ∨ pDevInfo.deviceSecret = psk)

/-! ## Memory -/

theorem Memory.write_apply_of_not (memory : Memory) {start i : Nat} {bytes : List UInt8}
    (outside : ¬(start ≤ i ∧ i < start + bytes.length)) : memory.write start bytes i = memory i :=
  if_neg outside

/-- A field is read back as it was written. -/
theorem Memory.field_write (memory : Memory) (start : Nat) (bytes : List UInt8) :
    (memory.write start bytes).field start bytes.length = bytes := by
  apply List.ext_getElem
  · simp only [field, List.length_map, List.length_range]
  · intro i inside within
    simp only [field, List.getElem_map, List.getElem_range]
    rw [write, if_pos ⟨by omega, by omega⟩,
      Nat.add_sub_cancel_left, List.getD_eq_getElem _ _ within]

/-- A text that fits is copied whole. -/
theorem textOf_strncpy {n : Nat} {src : CStr} (fits : src.length ≤ n) :
    textOf (strncpy n src ++ [0]) = src := by
  have isLength : src.length = src.bytes.length := rfl
  have nuls : strncpy n src ++ [0] = src.bytes ++ List.replicate (n - src.length + 1) 0 := by
    rw [strncpy, List.take_of_length_le (isLength ▸ fits), List.append_assoc,
      ← List.replicate_succ']
  rw [nuls]
  exact CStr.ext_bytes (textOf_nuls src.noNul _)

/-- The secret that is copied is the one of the device. -/
theorem deviceSecret_write (pDevInfo : Memory) {psk : CStr}
    (fits : psk.length ≤ maxSizeOfDeviceSecret) :
    (pDevInfo.write deviceSecretStart
      (strncpy maxSizeOfDeviceSecret psk ++ [0])).deviceSecret = psk := by
  have size : (strncpy maxSizeOfDeviceSecret psk ++ [0]).length = maxSizeOfDeviceSecret + 1 := by
    rw [List.length_append, strncpy_length, List.length_singleton]
  have read := Memory.field_write pDevInfo deviceSecretStart
    (strncpy maxSizeOfDeviceSecret psk ++ [0])
  rw [size] at read
  rw [Memory.deviceSecret, read, textOf_strncpy fits]

/-! ## Stages -/

/-- A payload is refused with the code of an error. -/
theorem decryptPayload_refused {ciphers : Ciphers} {payload productSecret : CStr} {ret : Int}
    (refused : decryptPayload ciphers payload productSecret = .ok (.error ret)) :
    ret ≠ qcloudRetSuccess := by
  unfold decryptPayload at refused
  cases decoded : ciphers.base64decode payload.bytes with
  | none =>
    simp only [decoded, pure, Except.pure] at refused
    cases refused
    decide
  | some bytes =>
    simp only [decoded] at refused
    split_ifs at refused with full failed
    · simp only [pure, Except.pure] at refused
      cases refused
      exact failed
    · cases refused

/-- A response is refused with the code of an error. -/
theorem decodeResponse_refused {ciphers : Ciphers} {jdoc : List UInt8} {productSecret : CStr}
    {env : Env} {ret : Int}
    (refused : decodeResponse ciphers jdoc productSecret env = .ok (.error ret)) :
    ret ≠ qcloudRetSuccess := by
  have failure : qcloudErrFailure ≠ qcloudRetSuccess := by decide
  obtain ⟨code, -, refused⟩ := bind_ok refused
  obtain ⟨response, -, refused⟩ := bind_ok refused
  cases response with
  | none =>
    cases refused
    exact failure
  | some response =>
    obtain ⟨payload, -, refused⟩ := bind_ok refused
    cases payload with
    | none =>
      cases refused
      exact failure
    | some payload =>
      obtain ⟨decrypted, stage, refused⟩ := bind_ok refused
      cases decrypted with
      | error code =>
        cases refused
        exact decryptPayload_refused stage
      | ok decodeBuff =>
        obtain ⟨enType, -, refused⟩ := bind_ok refused
        split_ifs at refused
        · cases refused
          exact failure
        · cases refused
          exact failure
        · cases refused

/-! ## The secret -/

/-- A secret that is found is not found where its copy cannot be allocated. -/
theorem getJsonPsk_unallocated {decodeBuff : List UInt8} {psk : CStr}
    (found : getJsonPsk decodeBuff true = .ok (some psk)) :
    getJsonPsk decodeBuff false = .ok none := by
  obtain ⟨value, looked, found⟩ := bind_ok found
  cases value with
  | none => cases found
  | some value =>
    rw [getJsonPsk, liteJsonValueAt_unallocated looked]
    rfl

/-- What is returned once the document has been decrypted. -/
theorem parseDevinfo_decoded {ciphers : Ciphers} {jdoc : List UInt8} {pDevInfo : Memory} {env : Env}
    {decodeBuff : List UInt8} {secret : Option CStr}
    (decoded : decodeResponse ciphers jdoc pDevInfo.productSecret env = .ok (.ok decodeBuff))
    (found : getJsonPsk decodeBuff env.psk = .ok secret) :
    parseDevinfo ciphers jdoc pDevInfo env = .ok (qcloudRetSuccess,
      match secret with
      | none => pDevInfo
      | some psk =>
        pDevInfo.write deviceSecretStart
          (if psk.length > maxSizeOfDeviceSecret then psk.bytes ++ [0]
          else strncpy maxSizeOfDeviceSecret psk ++ [0])) := by
  rw [parseDevinfo, decoded]
  simp only [bind, Except.bind, found]
  cases secret with
  | none => rfl
  | some psk =>
    dsimp only
    split_ifs <;> rfl

theorem parseDevinfo_refused {ciphers : Ciphers} {jdoc : List UInt8} {pDevInfo : Memory} {env : Env}
    {ret : Int}
    (refused : decodeResponse ciphers jdoc pDevInfo.productSecret env = .ok (.error ret)) :
    parseDevinfo ciphers jdoc pDevInfo env = .ok (ret, pDevInfo) := by
  rw [parseDevinfo, refused]
  rfl

/-- A registration that ends well for a decrypted document has found a secret that fits. -/
theorem secretFits_of_registersRight {ciphers : Ciphers} {jdoc : List UInt8} {pDevInfo : Memory}
    {env : Env} (right : RegistersRight ciphers jdoc pDevInfo env) :
    SecretFits ciphers jdoc pDevInfo env := by
  obtain ⟨ret, after, parsed, success, -⟩ := right
  obtain ⟨stage, decoded, rest⟩ := bind_ok parsed
  cases stage with
  | error code => exact Or.inl ⟨code, decoded⟩
  | ok decodeBuff =>
    obtain ⟨secret, found, rest⟩ := bind_ok rest
    have outcome := parseDevinfo_decoded decoded found
    rw [parsed] at outcome
    cases outcome
    obtain ⟨other, psk, same, isPsk, fits, copied⟩ := success rfl
    rw [decoded] at same
    cases same
    refine Or.inr ⟨decodeBuff, psk, decoded, isPsk, fits, ?_⟩
    cases allocated : env.psk with
    | true => exact Or.inl rfl
    | false =>
      rw [allocated, getJsonPsk_unallocated isPsk] at found
      cases found
      exact Or.inr copied

/-- `{"Response":{"Payload":"AAAAAAAAAAAAAAAAAAAAAA=="}}` -/
def blankResponse : List UInt8 :=
  ascii ['{', '"', 'R', 'e', 's', 'p', 'o', 'n', 's', 'e', '"', ':', '{', '"', 'P', 'a', 'y', 'l',
    'o', 'a', 'd', '"', ':', '"', 'A', 'A', 'A', 'A', 'A', 'A', 'A', 'A', 'A', 'A', 'A', 'A', 'A',
    'A', 'A', 'A', 'A', 'A', 'A', 'A', 'A', 'A', '=', '=', '"', '}', '}'] ++ [0]

/-- `{"encryptionType":2}` -/
def blankDocument : List UInt8 :=
  ascii ['{', '"', 'e', 'n', 'c', 'r', 'y', 'p', 't', 'i', 'o', 'n', 'T', 'y', 'p', 'e', '"', ':',
    '2', '}']

/-- Sixteen zero bytes are decoded, for a key with which they stand for the document. -/
def blankCiphers : Ciphers where
  base64decode payload :=
    if payload = List.replicate 22 65 ++ [61, 61] then some (List.replicate 16 0) else none
  aesCbc data _ _ := (0, (blankDocument ++ List.replicate data.length 0).take data.length)
  decoded_le := by
    intro payload decoded found
    split_ifs at found
    cases found
    decide
  decrypted_length data key iv := by
    rw [List.length_take, List.length_append, List.length_replicate]
    omega

end QcloudIot.Dynreg
