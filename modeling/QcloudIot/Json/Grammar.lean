import QcloudIot.Json.Parser

/-!
# JSON texts

The grammar of RFC 8259 as the type of its derivations, each with the text it derives. White
space is kept, so every JSON text is the text of a derivation. The grammar is what the
scanner is measured against: it is not translated from the source.
-/

namespace QcloudIot.Json

abbrev comma : UInt8 := 44

/-! ## Tokens -/

/-- Insignificant white space. -/
structure Ws where
  bytes : List UInt8
  valid : ∀ b ∈ bytes, b = space ∨ b = 9 ∨ b = 10 ∨ b = 13
  deriving DecidableEq, Repr

/-- A hexadecimal digit. -/
structure HexDigit where
  byte : UInt8
  valid : isDigit byte = true ∨ 65 ≤ byte ∧ byte ≤ 70 ∨ 97 ≤ byte ∧ byte ≤ 102
  deriving DecidableEq, Repr

/-- The value of a hexadecimal digit. -/
def HexDigit.value (d : HexDigit) : Nat :=
  if isDigit d.byte then d.byte.toNat - 48
  else if d.byte ≤ 70 then d.byte.toNat - 55 else d.byte.toNat - 87

/-- A character of a string: one that stands for itself (bytes of a UTF-8 sequence one by
    one), a short escape, or a UTF-16 code unit. -/
inductive StrChar where
  | plain (b : UInt8) (valid : 32 ≤ b ∧ b ≠ quote ∧ b ≠ backslash)
  | escape (b : UInt8) (valid : b ∈ [quote, backslash, 47, 98, 102, 110, 114, 116])
  | unicode (h₁ h₂ h₃ h₄ : HexDigit)
  deriving DecidableEq, Repr

/-- The text of a character. -/
def StrChar.text : StrChar → List UInt8
  | .plain b _ => [b]
  | .escape b _ => [backslash, b]
  | .unicode h₁ h₂ h₃ h₄ => [backslash, 117, h₁.byte, h₂.byte, h₃.byte, h₄.byte]

/-- The text of a string without its quotes. -/
def charsText (chars : List StrChar) : List UInt8 := chars.flatMap StrChar.text

/-- The code unit of a `\u` escape. -/
def StrChar.unit (h₁ h₂ h₃ h₄ : HexDigit) : Nat :=
  4096 * h₁.value + 256 * h₂.value + 16 * h₃.value + h₄.value

/-- The UTF-8 encoding of a code point. -/
def utf8 (code : Nat) : List UInt8 :=
  if code < 128 then [UInt8.ofNat code]
  else if code < 2048 then [UInt8.ofNat (192 + code / 64), UInt8.ofNat (128 + code % 64)]
  else if code < 65536 then
    [UInt8.ofNat (224 + code / 4096), UInt8.ofNat (128 + code / 64 % 64),
      UInt8.ofNat (128 + code % 64)]
  else
    [UInt8.ofNat (240 + code / 262144), UInt8.ofNat (128 + code / 4096 % 64),
      UInt8.ofNat (128 + code / 64 % 64), UInt8.ofNat (128 + code % 64)]

/-- The character that a short escape stands for. -/
def escaped (b : UInt8) : UInt8 :=
  if b = 98 then 8 else if b = 102 then 12 else if b = 110 then 10 else if b = 114 then 13
  else if b = 116 then 9 else b

/-- The bytes a string stands for. Two code units that form a surrogate pair are one code
    point. -/
def decode : List StrChar → List UInt8
  | [] => []
  | .plain b _ :: chars => b :: decode chars
  | .escape b _ :: chars => escaped b :: decode chars
  | .unicode h₁ h₂ h₃ h₄ :: .unicode l₁ l₂ l₃ l₄ :: chars =>
    let high := StrChar.unit h₁ h₂ h₃ h₄
    let low := StrChar.unit l₁ l₂ l₃ l₄
    if 0xD800 ≤ high ∧ high < 0xDC00 ∧ 0xDC00 ≤ low ∧ low < 0xE000 then
      utf8 (0x10000 + 1024 * (high - 0xD800) + (low - 0xDC00)) ++ decode chars
    else utf8 high ++ decode (.unicode l₁ l₂ l₃ l₄ :: chars)
  | .unicode h₁ h₂ h₃ h₄ :: chars => utf8 (StrChar.unit h₁ h₂ h₃ h₄) ++ decode chars

/-- One or more decimal digits. -/
structure Digits where
  bytes : List UInt8
  nonempty : bytes ≠ []
  valid : ∀ b ∈ bytes, isDigit b = true
  deriving DecidableEq, Repr

/-- The exponent of a number. -/
structure Exponent where
  e : UInt8
  sign : List UInt8
  digits : Digits
  valid : (e = 101 ∨ e = 69) ∧ (sign = [] ∨ sign = [43] ∨ sign = [minus])
  deriving DecidableEq, Repr

/-- A number: no leading zero, an optional fraction and an optional exponent. -/
structure Number where
  negative : Bool
  int : Digits
  frac : Option Digits
  exp : Option Exponent
  noLeadingZero : int.bytes.head? = some 48 → int.bytes = [48]
  deriving DecidableEq, Repr

/-- The text of a number up to its exponent. -/
def Number.mantissa (n : Number) : List UInt8 :=
  (if n.negative then [minus] else []) ++ n.int.bytes ++
    match n.frac with
    | none => []
    | some digits => dot :: digits.bytes

/-- The text of the exponent. -/
def Number.exponent (n : Number) : List UInt8 :=
  match n.exp with
  | none => []
  | some exp => exp.e :: exp.sign ++ exp.digits.bytes

inductive Literal where
  | true
  | false
  | null
  deriving DecidableEq, Repr

def Literal.text : Literal → List UInt8
  | .true => [116, 114, 117, 101]
  | .false => [102, 97, 108, 115, 101]
  | .null => [110, 117, 108, 108]

/-! ## Values -/

/-- The nonterminals: a value, the members of an object, what follows a member, the elements of
    an array, what follows an element. -/
inductive Kind where
  | value
  | members
  | moreMembers
  | elements
  | moreElements

/-- A derivation. -/
inductive Derivation : Kind → Type where
  | string (chars : List StrChar) : Derivation .value
  | number (n : Number) : Derivation .value
  | literal (l : Literal) : Derivation .value
  | emptyObject (ws : Ws) : Derivation .value
  | object (members : Derivation .members) : Derivation .value
  | emptyArray (ws : Ws) : Derivation .value
  | array (elements : Derivation .elements) : Derivation .value
  | member (before : Ws) (name : List StrChar) (middle after : Ws) (value : Derivation .value)
      (behind : Ws) (more : Derivation .moreMembers) : Derivation .members
  | endMembers : Derivation .moreMembers
  | nextMember (members : Derivation .members) : Derivation .moreMembers
  | element (before : Ws) (value : Derivation .value) (behind : Ws)
      (more : Derivation .moreElements) : Derivation .elements
  | endElements : Derivation .moreElements
  | nextElement (elements : Derivation .elements) : Derivation .moreElements

abbrev Value := Derivation .value

/-- The text derived. -/
def Derivation.text : {kind : Kind} → Derivation kind → List UInt8
  | _, .string chars => quote :: (charsText chars ++ [quote])
  | _, .number n => n.mantissa ++ n.exponent
  | _, .literal l => l.text
  | _, .emptyObject ws => JsonType.object.opening :: (ws.bytes ++ [JsonType.object.closing])
  | _, .object members => JsonType.object.opening :: (members.text ++ [JsonType.object.closing])
  | _, .emptyArray ws => JsonType.array.opening :: (ws.bytes ++ [JsonType.array.closing])
  | _, .array elements => JsonType.array.opening :: (elements.text ++ [JsonType.array.closing])
  | _, .member before name middle after value behind more =>
    before.bytes ++ quote :: (charsText name ++ quote :: (middle.bytes ++
      colon :: (after.bytes ++ (value.text ++ (behind.bytes ++ more.text)))))
  | _, .endMembers => []
  | _, .nextMember members => comma :: members.text
  | _, .element before value behind more =>
    before.bytes ++ (value.text ++ (behind.bytes ++ more.text))
  | _, .endElements => []
  | _, .nextElement elements => comma :: elements.text

/-- The type of a value, as `json_get_next_object` numbers them. -/
def Derivation.type : Value → JsonType
  | .string _ => .string
  | .number _ => .number
  | .literal .null => .null
  | .literal _ => .boolean
  | .emptyObject _ => .object
  | .object _ => .object
  | .emptyArray _ => .array
  | .array _ => .array

/-- What a lookup is to deliver of a value: the text without the quotes of a string. -/
def Derivation.content : Value → List UInt8
  | .string chars => charsText chars
  | value => value.text

/-! ## Members -/

/-- A member of an object in its text: the bytes since the end of the previous value, the name,
    the white space on both sides of the colon, and the value. -/
structure Item where
  gap : List UInt8
  name : List StrChar
  middle : Ws
  after : Ws
  value : Value

/-- The text of an item up to its value. -/
def Item.front (item : Item) : List UInt8 :=
  item.gap ++ quote :: (charsText item.name ++ quote :: (item.middle.bytes ++
    colon :: item.after.bytes))

def Item.text (item : Item) : List UInt8 := item.front ++ item.value.text

/-- Members in a row and the bytes behind the last one. -/
structure Spread where
  items : List Item
  tail : List UInt8

def Spread.text (spread : Spread) : List UInt8 := spread.items.flatMap Item.text ++ spread.tail

/-- Bytes in front of a row of members. -/
def Spread.prepend (bytes : List UInt8) (spread : Spread) : Spread :=
  match spread.items with
  | [] => ⟨[], bytes ++ spread.tail⟩
  | item :: items => ⟨{ item with gap := bytes ++ item.gap } :: items, spread.tail⟩

/-- The members of an object, between the bytes `gap` in front of them and what `follows`. -/
def Derivation.spread : {kind : Kind} → Derivation kind → List UInt8 → Spread → Spread
  | .members, .member before name middle after value behind more, gap, follows =>
    let rest := more.spread behind.bytes follows
    ⟨⟨gap ++ before.bytes, name, middle, after, value⟩ :: rest.items, rest.tail⟩
  | .moreMembers, .nextMember members, gap, follows => members.spread (gap ++ [comma]) follows
  | _, _, gap, follows => follows.prepend gap

/-- The members of a value that is an object, and what `follows` it. -/
def Derivation.membersThen (value : Value) (follows : Spread) : Option Spread :=
  match value with
  | .emptyObject ws => some (follows.prepend
      (JsonType.object.opening :: (ws.bytes ++ [JsonType.object.closing])))
  | .object members => some (members.spread [JsonType.object.opening]
      (follows.prepend [JsonType.object.closing]))
  | _ => none

/-- A JSON text whose value is an object. -/
structure Document where
  before : Ws
  value : Value
  behind : Ws
  isObject : value.type = .object

def Document.text (d : Document) : List UInt8 := d.before.bytes ++ (d.value.text ++ d.behind.bytes)

/-- The top-level members in their text. -/
def Document.spread (d : Document) : Spread :=
  ((d.value.membersThen ⟨[], d.behind.bytes⟩).getD ⟨[], []⟩).prepend d.before.bytes

/-! ## Paths -/

abbrev Member := List StrChar × Value

/-- The members of a value that is an object. -/
def Derivation.members : {kind : Kind} → Derivation kind → List Member
  | _, .object members => members.members
  | _, .member _ name _ _ value _ more => (name, value) :: more.members
  | _, .nextMember members => members.members
  | _, _ => []

/-- The value of the first member of that name and the members behind it. -/
def findMember (key : List UInt8) : List Member → Option (Value × List Member)
  | [] => none
  | (name, value) :: row =>
    if decode name = key then some (value, row) else findMember key row

/-- The value to which a path leads. -/
def nested : List (List UInt8) → Value → Option Value
  | [], value => some value
  | key :: path, value =>
    (findMember key value.members).bind fun (value, _) => nested path value

/-- The value to which a path leads when the members that follow an object in the enclosing
    objects are taken for its own. -/
def onward : List (List UInt8) → Value → List Member → Option Value
  | [], value, _ => some value
  | key :: path, value, follows =>
    if value.type = .object then
      (findMember key (value.members ++ follows)).bind fun (value, rest) => onward path value rest
    else none

end QcloudIot.Json
