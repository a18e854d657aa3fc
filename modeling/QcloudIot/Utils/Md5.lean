import QcloudIot.Misc.Blocks

/-!
# MD5

The incremental digest of `utils_md5.c`. The numbers of a context are those of the C code: a
byte counter of two 32-bit words, four state words, and a buffer for one block.
-/

namespace QcloudIot.Md5

/-- `state` of an `iot_md5_context`. -/
structure State where
  a : UInt32
  b : UInt32
  c : UInt32
  d : UInt32
  deriving DecidableEq, Repr

/-- `iot_md5_context`; `total[0]` is the low word. -/
structure Context where
  totalLow : UInt32
  totalHigh : UInt32
  state : State
  buffer : List UInt8
  deriving DecidableEq, Repr

/-- `IOT_MD5_GET_UINT32_LE`. -/
def getUint32Le (b : List UInt8) (i : Nat) : UInt32 :=
  (b.getD i 0).toUInt32 ||| ((b.getD (i + 1) 0).toUInt32 <<< (8 : UInt32)) |||
    ((b.getD (i + 2) 0).toUInt32 <<< (16 : UInt32)) |||
    ((b.getD (i + 3) 0).toUInt32 <<< (24 : UInt32))

/-- `IOT_MD5_PUT_UINT32_LE`. -/
def putUint32Le (n : UInt32) : List UInt8 :=
  [(n &&& 0xFF).toUInt8, ((n >>> (8 : UInt32)) &&& 0xFF).toUInt8,
    ((n >>> (16 : UInt32)) &&& 0xFF).toUInt8, ((n >>> (24 : UInt32)) &&& 0xFF).toUInt8]

/-- The context after `utils_md5_init` and `utils_md5_starts`. -/
def utilsMd5Starts : Context where
  totalLow := 0
  totalHigh := 0
  state := ⟨0x67452301, 0xEFCDAB89, 0x98BADCFE, 0x10325476⟩
  buffer := List.replicate 64 0

/-! ## Compression -/

/-- The macro `S`: rotation to the left. -/
def rotateLeft (x n : UInt32) : UInt32 :=
  (x <<< n) ||| ((x &&& 0xFFFFFFFF) >>> (32 - n))

/-- The macro `P`; the registers move on by one, as its arguments do from row to row. -/
def row (f : UInt32 → UInt32 → UInt32 → UInt32) (x : List UInt32) (s : State) :
    Nat × UInt32 × UInt32 → State
  | (k, shift, t) =>
    let a := s.a + (f s.b s.c s.d + x.getD k 0 + t)
    ⟨s.d, rotateLeft a shift + s.b, s.b, s.c⟩

def rowsFirst : List (Nat × UInt32 × UInt32) :=
  [(0, 7, 0xD76AA478), (1, 12, 0xE8C7B756),
   (2, 17, 0x242070DB), (3, 22, 0xC1BDCEEE),
   (4, 7, 0xF57C0FAF), (5, 12, 0x4787C62A),
   (6, 17, 0xA8304613), (7, 22, 0xFD469501),
   (8, 7, 0x698098D8), (9, 12, 0x8B44F7AF),
   (10, 17, 0xFFFF5BB1), (11, 22, 0x895CD7BE),
   (12, 7, 0x6B901122), (13, 12, 0xFD987193),
   (14, 17, 0xA679438E), (15, 22, 0x49B40821)]

def rowsSecond : List (Nat × UInt32 × UInt32) :=
  [(1, 5, 0xF61E2562), (6, 9, 0xC040B340),
   (11, 14, 0x265E5A51), (0, 20, 0xE9B6C7AA),
   (5, 5, 0xD62F105D), (10, 9, 0x02441453),
   (15, 14, 0xD8A1E681), (4, 20, 0xE7D3FBC8),
   (9, 5, 0x21E1CDE6), (14, 9, 0xC33707D6),
   (3, 14, 0xF4D50D87), (8, 20, 0x455A14ED),
   (13, 5, 0xA9E3E905), (2, 9, 0xFCEFA3F8),
   (7, 14, 0x676F02D9), (12, 20, 0x8D2A4C8A)]

def rowsThird : List (Nat × UInt32 × UInt32) :=
  [(5, 4, 0xFFFA3942), (8, 11, 0x8771F681),
   (11, 16, 0x6D9D6122), (14, 23, 0xFDE5380C),
   (1, 4, 0xA4BEEA44), (4, 11, 0x4BDECFA9),
   (7, 16, 0xF6BB4B60), (10, 23, 0xBEBFBC70),
   (13, 4, 0x289B7EC6), (0, 11, 0xEAA127FA),
   (3, 16, 0xD4EF3085), (6, 23, 0x04881D05),
   (9, 4, 0xD9D4D039), (12, 11, 0xE6DB99E5),
   (15, 16, 0x1FA27CF8), (2, 23, 0xC4AC5665)]

def rowsFourth : List (Nat × UInt32 × UInt32) :=
  [(0, 6, 0xF4292244), (7, 10, 0x432AFF97),
   (14, 15, 0xAB9423A7), (5, 21, 0xFC93A039),
   (12, 6, 0x655B59C3), (3, 10, 0x8F0CCC92),
   (10, 15, 0xFFEFF47D), (1, 21, 0x85845DD1),
   (8, 6, 0x6FA87E4F), (15, 10, 0xFE2CE6E0),
   (6, 15, 0xA3014314), (13, 21, 0x4E0811A1),
   (4, 6, 0xF7537E82), (11, 10, 0xBD3AF235),
   (2, 15, 0x2AD7D2BB), (9, 21, 0xEB86D391)]

/-- `utils_md5_process` (`utils_md5.c:91-213`). -/
def utilsMd5Process (state : State) (data : List UInt8) : State :=
  let x := (List.range 16).map fun i => getUint32Le data (4 * i)
  let s := rowsFirst.foldl (row (fun x y z => z ^^^ (x &&& (y ^^^ z))) x) state
  let s := rowsSecond.foldl (row (fun x y z => y ^^^ (z &&& (x ^^^ y))) x) s
  let s := rowsThird.foldl (row (fun x y z => x ^^^ y ^^^ z) x) s
  let s := rowsFourth.foldl (row (fun x y z => y ^^^ (x ||| ~~~z)) x) s
  ⟨state.a + s.a, state.b + s.b, state.c + s.c, state.d + s.d⟩

/-! ## Updating and finishing -/

/-- `utils_md5_update` (`utils_md5.c:218-254`). -/
def utilsMd5Update (ctx : Context) (input : List UInt8) : Context :=
  if input.length = 0 then ctx
  else
    let left := (ctx.totalLow &&& 0x3F).toNat
    let fill := 64 - left
    let ilen := UInt32.ofNat input.length
    let totalLow := ctx.totalLow + ilen
    let totalHigh := if totalLow < ilen then ctx.totalHigh + 1 else ctx.totalHigh
    let (state, buffer, left, input) :=
      if left ≠ 0 ∧ input.length ≥ fill then
        let buffer := overwrite ctx.buffer left (input.take fill)
        (utilsMd5Process ctx.state buffer, buffer, 0, input.drop fill)
      else (ctx.state, ctx.buffer, left, input)
    { totalLow
      totalHigh
      state := processBlocks utilsMd5Process 64 (input.length / 64) state input
      buffer := overwrite buffer left (input.drop (input.length / 64 * 64)) }

/-- `iot_md5_padding`. -/
def iotMd5Padding : List UInt8 := 0x80 :: List.replicate 63 0

/-- `utils_md5_finish` (`utils_md5.c:263-285`): the context afterwards and the digest. -/
def utilsMd5Finish (ctx : Context) : Context × List UInt8 :=
  let high := (ctx.totalLow >>> (29 : UInt32)) ||| (ctx.totalHigh <<< (3 : UInt32))
  let low := ctx.totalLow <<< (3 : UInt32)
  let last := (ctx.totalLow &&& 0x3F).toNat
  let padn := if last < 56 then 56 - last else 120 - last
  let ctx := utilsMd5Update ctx (iotMd5Padding.take padn)
  let ctx := utilsMd5Update ctx (putUint32Le low ++ putUint32Le high)
  (ctx, putUint32Le ctx.state.a ++ putUint32Le ctx.state.b ++ putUint32Le ctx.state.c ++
    putUint32Le ctx.state.d)

/-- `utils_hb2hex`. -/
def utilsHb2hex (hb : UInt8) : UInt8 :=
  let hb := hb &&& 0xF
  if hb < 10 then 48 + hb else hb - 10 + 97

/-- The loop that turns the bytes of a digest into hexadecimal digits. -/
def hexString (digest : List UInt8) : List UInt8 :=
  digest.flatMap fun b => [utilsHb2hex (b >>> (4 : UInt8)), utilsHb2hex b]

end QcloudIot.Md5
