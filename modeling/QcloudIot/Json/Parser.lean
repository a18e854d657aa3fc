import QcloudIot.Mqtt.Types

/-!
# The JSON scanner

`json_parser.c` and the loop macros of `json_parser.h`. A `char *` into a text is the offset
of the byte it points to; a loop that advances a pointer is a recursion on the bytes from
that pointer on, the terminating NUL included, and reading behind the memory of the text is
a `Fault`. The texts of the SDK are receive buffers: an `int` holds every length.
-/

namespace QcloudIot.Json

open Mqtt (CStr)

/-- Undefined behaviour of the scanner: a read or write behind the memory of the text, or a
    loop that does not end. -/
inductive Fault where
  | outOfBounds
  | endless
  deriving DecidableEq, Repr

/-- A computation that ends has come through its first part. -/
theorem bind_ok {ε α β : Type} {first : Except ε α} {next : α → Except ε β} {result : β}
    (ends : first >>= next = .ok result) : ∃ a, first = .ok a ∧ next a = .ok result := by
  cases first with
  | error fault => cases ends
  | ok a => exact ⟨a, rfl, ends⟩

/-- The memory a C string occupies. -/
def memory (s : CStr) : List UInt8 := s.bytes ++ [0]

/-- The string at `s + n`. -/
def suffix (s : CStr) (n : Nat) : CStr where
  bytes := s.bytes.drop n
  noNul := fun mem => s.noNul (List.mem_of_mem_drop mem)

/-! ## Constants (`json_parser.h`) -/

/-- `enum JSONTYPE`. -/
inductive JsonType where
  | none
  | string
  | object
  | array
  | number
  | boolean
  | null
  deriving DecidableEq, Repr

/-- The two values of the argument `type` of `json_get_object` and `json_get_next_object`. -/
inductive Container where
  | object
  | array
  deriving DecidableEq, Repr

abbrev jsonResultErr : Int := -1
abbrev jsonResultOk : Int := 0

abbrev quote : UInt8 := 34
abbrev backslash : UInt8 := 92
abbrev colon : UInt8 := 58
abbrev space : UInt8 := 32
abbrev dot : UInt8 := 46
abbrev minus : UInt8 := 45

/-- The bytes `0` to `9`. -/
def isDigit (b : UInt8) : Bool := 48 ≤ b && b ≤ 57

/-- `JsonMark[type][0]`. -/
def JsonType.opening : JsonType → UInt8
  | .string => quote
  | .object => 123
  | .array => 91
  | _ => 48

/-- `JsonMark[type][1]`. -/
def JsonType.closing : JsonType → UInt8
  | .string => quote
  | .object => 125
  | .array => 93
  | _ => space

/-! ## The scanner -/

/-- `strchr(p, c)`, on the bytes from `p` on. -/
def strchr (c : UInt8) : List UInt8 → Nat → Except Fault (Option Nat)
  | [], _ => .error .outOfBounds
  | b :: rest, p =>
    if b = c then .ok (some p) else if b = 0 then .ok none else strchr c rest (p + 1)

/-- `json_get_object` (`json_parser.c:36-49`), on the bytes from `str` on. -/
def jsonGetObject (type : Container) : List UInt8 → Nat → Except Fault (Option Nat)
  | [], _ => .error .outOfBounds
  | b :: rest, str =>
    let ch := match type with | .object => JsonType.object.opening | .array => JsonType.array.opening
    if b = 0 then .ok none
    else if b = space then jsonGetObject type rest (str + 1)
    else .ok (if b = ch then some str else none)

/-- The first `while` loop of `json_get_next_object`: `iValueType`, `p_cValue` and `p_cPos`. -/
def findValue : List UInt8 → Nat → Except Fault (JsonType × Option Nat × Nat)
  | [], _ => .error .outOfBounds
  | b :: rest, p =>
    if b = 0 then .ok (.none, none, p)
    else if b = quote then .ok (.string, some (p + 1), p + 1)
    else if b = JsonType.object.opening then .ok (.object, some p, p + 1)
    else if b = JsonType.array.opening then .ok (.array, some p, p + 1)
    else if b = minus ∨ isDigit b then .ok (.number, some p, p + 1)
    else if b = 116 ∨ b = 84 ∨ b = 102 ∨ b = 70 then .ok (.boolean, some p, p)
    else if b = 110 ∨ b = 78 then .ok (.null, some p, p)
    else findValue rest (p + 1)

/-- The test for `true`, `TRUE`, `false` and `FALSE` at `p_cValue`: the length found. -/
def booleanLen (value : List UInt8) : Option Nat :=
  if [116, 114, 117, 101].isPrefixOf value ∨ [84, 82, 85, 69].isPrefixOf value then some 4
  else if [102, 97, 108, 115, 101].isPrefixOf value ∨ [70, 65, 76, 83, 69].isPrefixOf value then
    some 5
  else none

/-- The test for `null` and `NULL` at `p_cValue`. -/
def nullLen (value : List UInt8) : Option Nat :=
  if [110, 117, 108, 108].isPrefixOf value ∨ [78, 85, 76, 76].isPrefixOf value then some 4
  else none

/-- The second `while` loop of `json_get_next_object` on the bytes from `p_cPos` on, where
    `n = p_cPos - p_cValue` and `value` are the bytes from `p_cValue` on: `iValueLen`. -/
def scanValue (type : JsonType) (value : List UInt8) :
    List UInt8 → Nat → Nat → UInt8 → Nat → Except Fault Nat
  | [], _, _, _, _ => .error .outOfBounds
  | b :: rest, n, iMarkDepth, lastchr, iValueLen =>
    if b = 0 then .ok iValueLen
    else match type with
    | .none => .ok iValueLen
    | .boolean =>
      match booleanLen value with
      | some len => .ok len
      | none => scanValue type value rest (n + 1) iMarkDepth b iValueLen
    | .null =>
      match nullLen value with
      | some len => .ok len
      | none => scanValue type value rest (n + 1) iMarkDepth b iValueLen
    | .number =>
      if ¬ isDigit b ∧ b ≠ dot then .ok n
      else scanValue type value rest (n + 1) iMarkDepth b iValueLen
    | _ =>
      if b = type.closing then
        if iMarkDepth = 0 then
          let iValueLen := n + if type = .string then 0 else 1
          if type = .string ∧ lastchr = backslash then
            -- the quote is taken to be escaped: the next character becomes `lastchr`
            match rest with
            | [] => .error .outOfBounds
            | next :: _ => scanValue type value rest (n + 1) iMarkDepth next iValueLen
          else .ok iValueLen
        else scanValue type value rest (n + 1) (iMarkDepth - 1) b iValueLen
      else if b = type.opening then
        scanValue type value rest (n + 1) (iMarkDepth + 1) b iValueLen
      else scanValue type value rest (n + 1) iMarkDepth b iValueLen

/-- What `json_get_next_object` found: the key with its length, the value with its length and
    type, and the pointer returned. -/
structure NextObject where
  key : Option (Nat × Nat)
  val : Option Nat
  valLen : Nat
  valType : JsonType
  next : Option Nat
  deriving DecidableEq, Repr

/-- The key of an object member from `str` on, and the colon behind it. -/
def findKey (mem : List UInt8) (str : Nat) : Except Fault (Option ((Nat × Nat) × Option Nat)) := do
  match ← strchr quote (mem.drop str) str with
  | none => return none
  | some opening =>
    let name := opening + 1
    match ← strchr quote (mem.drop name) name with
    | none => return none
    | some closing =>
      let pos ← strchr colon (mem.drop closing) closing
      return some ((name, closing - name), pos)

/-- The value from `p_cPos` on: its start, length and type. -/
def takeValue (mem : List UInt8) : Option Nat → Except Fault (Option Nat × Nat × JsonType)
  | none => return (none, 0, .none)
  | some pos => do
    let (valueType, value, pos) ← findValue (mem.drop pos) pos
    match value with
    | none => return (none, 0, valueType)
    | some value =>
      let len ← scanValue valueType (mem.drop value) (mem.drop pos) (pos - value) 0
        (if valueType = .string then quote else space) 0
      return (some value, len, valueType)

/-- `json_get_next_object` (`json_parser.c:51-166`): `none` when it returns before it assigns
    its results. The pointer it returns is `p_cValue + iValueLen`, one more for a string. -/
def jsonGetNextObject (type : Container) (mem : List UInt8) (str : Nat) :
    Except Fault (Option NextObject) := do
  let start : Option (Option (Nat × Nat) × Option Nat) ←
    match type with
    | .object => do
      match ← findKey mem str with
      | none => pure none
      | some (key, pos) => pure (some (some key, pos))
    | .array => pure (some (none, some str))
  match start with
  | none => return none
  | some (key, pos) =>
    let (val, valLen, valType) ← takeValue mem pos
    return some { key, val, valLen, valType,
                  next := val.map fun val => val + valLen + if valType = .string then 1 else 0 }

/-! ## The loops -/

/-- Where the next call of `json_get_next_object` starts: the array macro steps over the
    character at `pos` first. -/
def Container.resume : Container → Nat → Nat
  | .object, pos => pos
  | .array, pos => pos + 1

/-- The rounds of `json_object_for_each_kv` and `json_array_for_each_entry`
    (`json_parser.h:92-109`) from `pos` on. The body returns whether it breaks. -/
def forEachRound {σ : Type} (type : Container) (mem : List UInt8) (body : σ → NextObject → σ × Bool) :
    Nat → Option Nat → σ → Except Fault σ
  | 0, _, _ => .error .endless
  | _ + 1, none, st => .ok st
  | fuel + 1, some pos, st =>
    match mem[pos]? with
    | none => .error .outOfBounds
    | some b =>
      if b = 0 then .ok st
      else do
        match ← jsonGetNextObject type mem (type.resume pos) with
        | none => return st
        | some found =>
          match found.next with
          | none => return st
          | some next =>
            let (st, finished) := body st found
            if finished then return st else forEachRound type mem body fuel (some next) st

/-- The loop macros on the text that starts at `mem`. Every round moves the position on, so
    there are fewer rounds than bytes. -/
def forEach {σ : Type} (type : Container) (mem : List UInt8)
    (body : σ → NextObject → σ × Bool) (st : σ) : Except Fault σ := do
  let pos ← jsonGetObject type mem 0
  forEachRound type mem body (mem.length + 1) pos st

/-! ## Lookup by name -/

/-- The body of the loop in `json_parse_name_value`: the return code and the state of the
    callback, and whether the callback ends the loop. -/
def parseBody {σ : Type} (pfnCB : σ → NextObject → σ × Bool) :
    Int × σ → NextObject → (Int × σ) × Bool
  | (ret, st), found =>
    match found.key, found.val with
    | some (_, klen), some _ =>
      if klen ≠ 0 ∧ found.valLen ≠ 0 then
        let (st, finished) := pfnCB st found
        ((jsonResultOk, st), finished)
      else ((ret, st), false)
    | _, _ => ((ret, st), false)

/-- `json_parse_name_value` (`json_parser.c:168-199`): the return code, the state of the
    callback and the memory of the text afterwards. A text longer than `iStrLen` is cut there;
    the test that guards the restoring is made on the cut text and never true. -/
def jsonParseNameValue {σ : Type} (s : CStr) (iStrLen : Nat) (pfnCB : σ → NextObject → σ × Bool)
    (st : σ) : Except Fault (Int × σ × List UInt8) :=
  if iStrLen = 0 then .ok (jsonResultErr, st, memory s)
  else if s.length < iStrLen then .error .outOfBounds
  else do
    let mem := s.bytes.take iStrLen ++ 0 :: (memory s).drop (iStrLen + 1)
    let (ret, st) ← forEach .object mem (parseBody pfnCB) (jsonResultErr, st)
    return (ret, st, mem)

/-- `JSON_NV`: the value found, its length and its type. -/
structure JsonNv where
  pV : Option Nat
  vLen : Nat
  vType : JsonType
  deriving DecidableEq, Repr

/-- `json_get_value_by_name_cb` (`json_parser.c:201-232`). -/
def jsonGetValueByNameCb (s : CStr) (name : List UInt8) (nv : JsonNv) (found : NextObject) :
    JsonNv × Bool :=
  match found.key with
  | none => (nv, false)
  | some (key, klen) =>
    if klen = name.length ∧ (s.bytes.drop key).take klen = name then
      ({ pV := found.val, vLen := found.valLen, vType := found.valType }, true)
    else (nv, false)

/-- `json_get_value_by_name` (`json_parser.c:234-253`) with `iStrLen = strlen(s)`: the pointer
    returned and, unless the parse failed, `*p_iValueLen` and `*p_iValueType`. `wantsType` says
    whether `p_iValueType` is not `NULL`; the `memset` gives `vType` the value `JSSTRING`. -/
def jsonGetValueByName (s : CStr) (name : List UInt8) (wantsType : Bool) :
    Except Fault (Option Nat × Option (Nat × JsonType)) := do
  let (ret, nv, _) ← jsonParseNameValue s s.length (jsonGetValueByNameCb s name)
    { pV := none, vLen := 0, vType := .string }
  if ret = jsonResultOk then
    return (if wantsType ∧ nv.vType = .null then none else nv.pV, some (nv.vLen, nv.vType))
  else return (nv.pV, none)

end QcloudIot.Json
