import QcloudIot.Misc.Base64

/-!
# Base64 of the SDK

`utils_base64.c`. Lengths are of type `size_t`, whose width is that of the platform.
-/

namespace QcloudIot.Base64

abbrev qcloudErrFailure : Int := -1001

/-- The width of `size_t`. -/
structure SizeT where
  bits : Nat
  wide : 16 ≤ bits := by decide

/-- How many values a `size_t` has. -/
def SizeT.count (size : SizeT) : Nat := 2 ^ size.bits

/-- `BASE64_SIZE_T_MAX` -/
def SizeT.max (size : SizeT) : Nat := size.count - 1

/-- `base64_enc_map` -/
def base64EncMap : List UInt8 :=
  ['A', 'B', 'C', 'D', 'E', 'F', 'G', 'H', 'I', 'J', 'K', 'L', 'M', 'N', 'O', 'P', 'Q', 'R', 'S', 'T',
    'U', 'V', 'W', 'X', 'Y', 'Z', 'a', 'b', 'c', 'd', 'e', 'f', 'g', 'h', 'i', 'j', 'k', 'l', 'm',
    'n', 'o', 'p', 'q', 'r', 's', 't', 'u', 'v', 'w', 'x', 'y', 'z', '0', '1', '2', '3', '4', '5',
    '6', '7', '8', '9', '+', '/'].map fun c => UInt8.ofNat c.toNat

/-- `base64_dec_map` -/
def base64DecMap : List UInt8 :=
  [127, 127, 127, 127, 127, 127, 127, 127, 127, 127, 127, 127, 127, 127, 127, 127, 127, 127, 127,
    127, 127, 127, 127, 127, 127, 127, 127, 127, 127, 127, 127, 127, 127, 127, 127, 127, 127, 127,
    127, 127, 127, 127, 127, 62, 127, 127, 127, 63, 52, 53, 54, 55, 56, 57, 58, 59, 60, 61, 127,
    127, 127, 64, 127, 127, 127, 0, 1, 2, 3, 4, 5, 6, 7, 8, 9, 10, 11, 12, 13, 14, 15, 16, 17, 18,
    19, 20, 21, 22, 23, 24, 25, 127, 127, 127, 127, 127, 127, 26, 27, 28, 29, 30, 31, 32, 33, 34,
    35, 36, 37, 38, 39, 40, 41, 42, 43, 44, 45, 46, 47, 48, 49, 50, 51, 127, 127, 127, 127, 127]

/-- What a call leaves: its return code, `*olen` if it has been set, and the bytes written from
    `dst` on. -/
structure Coded where
  rc : Int
  olen : Option Nat
  written : List UInt8
  deriving DecidableEq, Repr

/-! ## Encoding -/

/-- `base64_enc_map[value & 0x3F]` -/
def encDigit (value : Nat) : UInt8 := base64EncMap.getD (value &&& 0x3F) 0

/-- The loop over whole groups of `qcloud_iot_utils_base64encode` and the group behind it. -/
def encodeGroups : List UInt8 → List UInt8
  | c1 :: c2 :: c3 :: src =>
    encDigit (c1.toNat >>> 2) :: encDigit (((c1.toNat &&& 3) <<< 4) + (c2.toNat >>> 4)) ::
      encDigit (((c2.toNat &&& 15) <<< 2) + (c3.toNat >>> 6)) :: encDigit c3.toNat ::
      encodeGroups src
  | [c1, c2] =>
    [encDigit (c1.toNat >>> 2), encDigit (((c1.toNat &&& 3) <<< 4) + (c2.toNat >>> 4)),
      encDigit ((c2.toNat &&& 15) <<< 2), 61]
  | [c1] => [encDigit (c1.toNat >>> 2), encDigit (((c1.toNat &&& 3) <<< 4) + (0 >>> 4)), 61, 61]
  | [] => []

/-- `qcloud_iot_utils_base64encode` (`utils_base64.c:40-97`); `dst` is a buffer of that many bytes,
    or `NULL`. -/
def qcloudIotUtilsBase64encode (size : SizeT) (dst : Option Nat) (src : List UInt8) : Coded :=
  let slen := src.length
  if slen = 0 then { rc := 0, olen := some 0, written := [] }
  else
    let n := slen / 3 + if slen % 3 ≠ 0 then 1 else 0
    if n > (size.max - 1) / 4 then { rc := qcloudErrFailure, olen := some size.max, written := [] }
    else
      let n := n * 4
      match dst with
      | none => { rc := qcloudErrFailure, olen := some (n + 1), written := [] }
      | some dlen =>
        if dlen < n + 1 then { rc := qcloudErrFailure, olen := some (n + 1), written := [] }
        else
          let text := encodeGroups src
          { rc := 0, olen := some text.length, written := text ++ [0] }

/-! ## Decoding -/

/-- `base64_dec_map[c]` -/
def decValue (c : UInt8) : UInt8 := base64DecMap.getD c.toNat 0

/-- The first pass of `qcloud_iot_utils_base64decode`, from a byte on in front of which `x` spaces
    have been skipped: the number of characters and how many of them are pads, or `none` where the
    text is rejected. -/
def firstPass : List UInt8 → Nat → Nat → Nat → Option (Nat × Nat)
  | [], _, n, j => some (n, j)
  | c :: src, x, n, j =>
    if c = 32 then firstPass src (x + 1) n j
    else if c = 13 ∧ src.head? = some 10 then firstPass src 0 n j
    else if c = 10 then firstPass src 0 n j
    -- space inside a line is an error
    else if x ≠ 0 then none
    else
      let j := if c = 61 then j + 1 else j
      if j > 2 then none
      else if c > 127 ∨ decValue c = 127 then none
      else if decValue c < 64 ∧ j ≠ 0 then none
      else firstPass src 0 (n + 1) j

/-- The variables of the second pass. -/
structure Group where
  j : Nat
  n : Nat
  x : UInt32
  deriving DecidableEq, Repr

/-- The bytes written for a group of four characters. -/
def groupBytes (j : Nat) (x : UInt32) : List UInt8 :=
  (if j > 0 then [(x >>> 16).toUInt8] else []) ++ (if j > 1 then [(x >>> 8).toUInt8] else []) ++
    (if j > 2 then [x.toUInt8] else [])

/-- The second pass: the bytes written. -/
def secondPass : List UInt8 → Group → List UInt8
  | [], _ => []
  | c :: src, g =>
    if c = 13 ∨ c = 10 ∨ c = 32 then secondPass src g
    else
      let j := g.j - if decValue c = 64 then 1 else 0
      let x := (g.x <<< 6) ||| ((decValue c).toUInt32 &&& 0x3F)
      if g.n + 1 = 4 then groupBytes j x ++ secondPass src { j, n := 0, x }
      else secondPass src { j, n := g.n + 1, x }

/-- The output length that the first pass leads to: `((n * 6) + 7) >> 3`, less the pads. -/
def SizeT.decodedLen (size : SizeT) (n j : Nat) : Nat :=
  let n := (n * 6 + 7) % size.count / 8
  (n + size.count - j) % size.count

/-- `qcloud_iot_utils_base64decode` (`utils_base64.c:99-174`). -/
def qcloudIotUtilsBase64decode (size : SizeT) (dst : Option Nat) (src : List UInt8) : Coded :=
  match firstPass src 0 0 0 with
  | none => { rc := qcloudErrFailure, olen := none, written := [] }
  | some (n, j) =>
    if n = 0 then { rc := 0, olen := some 0, written := [] }
    else
      let n := size.decodedLen n j
      match dst with
      | none => { rc := qcloudErrFailure, olen := some n, written := [] }
      | some dlen =>
        if dlen < n then { rc := qcloudErrFailure, olen := some n, written := [] }
        else
          let written := secondPass src { j := 3, n := 0, x := 0 }
          { rc := 0, olen := some written.length, written }

end QcloudIot.Base64
