import QcloudIot.Json.Token
import QcloudIot.Json.Proofs.Lookup

/-!
# Dotted keys and nesting

Every step of `LITE_json_value_of` searches from the value found by the step before to the
end of the whole text: behind the object it goes on with the members that follow in the
enclosing objects.
-/

namespace QcloudIot.Json

open Mqtt (CStr)

/-! ## Texts with plain strings -/

/-- Quotes, backslashes, braces and brackets. -/
def marks : List UInt8 := [quote, backslash, 123, 125, 91, 93]

/-- A string that is not empty and contains none of them. -/
def PlainString (chars : List StrChar) : Prop :=
  chars ≠ [] ∧ ∀ b ∈ charsText chars, b ∉ marks

/-- All strings are plain. -/
def Derivation.Plain : {kind : Kind} → Derivation kind → Prop
  | _, .string chars => PlainString chars
  | _, .object members => members.Plain
  | _, .array elements => elements.Plain
  | _, .member _ name _ _ value _ more => PlainString name ∧ value.Plain ∧ more.Plain
  | _, .nextMember members => members.Plain
  | _, .element _ value _ more => value.Plain ∧ more.Plain
  | _, .nextElement elements => elements.Plain
  | _, _ => True

theorem PlainString.not_mem {chars : List StrChar} (plain : PlainString chars) {b : UInt8}
    (mark : b ∈ marks) : b ∉ charsText chars := fun mem => plain.2 b mem mark

theorem marks_other {b : UInt8} (mark : b ∈ marks) : isDigit b = false ∧ b ≠ minus ∧ b ≠ dot ∧
    b ≠ 101 ∧ b ≠ 69 ∧ b ≠ 43 := by
  have all : marks.all (fun b => !isDigit b && b != minus && b != dot && b != 101 && b != 69 &&
      b != 43) = true := by decide
  have here := List.all_eq_true.mp all b mark
  simpa [and_assoc] using here

/-- Numbers contain nothing but digits, signs, dots and exponents. -/
theorem Number.not_mem_other (n : Number) {b : UInt8}
    (other : isDigit b = false ∧ b ≠ minus ∧ b ≠ dot ∧ b ≠ 101 ∧ b ≠ 69 ∧ b ≠ 43) :
    b ∉ n.mantissa ++ n.exponent := by
  obtain ⟨noDigit, noMinus, noDot, noE, noE', noPlus⟩ := other
  have digits : ∀ digits : Digits, b ∉ digits.bytes := by
    intro digits mem
    rw [digits.valid b mem] at noDigit
    cases noDigit
  have negative : b ∉ (if n.negative then [minus] else []) := by
    split
    · exact fun mem => noMinus (List.mem_singleton.mp mem)
    · exact List.not_mem_nil
  have mantissa : b ∉ n.mantissa := by
    rw [Number.mantissa, List.append_assoc, List.mem_append, not_or]
    refine ⟨negative, fun mem => ?_⟩
    rcases n.digits_valid b mem with isDigit | isDot
    · rw [isDigit] at noDigit
      cases noDigit
    · exact noDot isDot
  have exponent : b ∉ n.exponent := by
    rw [Number.exponent]
    cases n.exp with
    | none => exact List.not_mem_nil
    | some exp =>
      have sign : b ∉ exp.sign := by
        rcases exp.valid.2 with sign | sign | sign
        all_goals
          rw [sign]
          simp [noPlus, noMinus]
      have isE : b ≠ exp.e := by
        rcases exp.valid.1 with e | e
        · exact e ▸ noE
        · exact e ▸ noE'
      simp only [List.cons_append, List.mem_cons, List.mem_append, not_or]
      exact ⟨isE, sign, digits _⟩
  rw [List.mem_append, not_or]
  exact ⟨mantissa, exponent⟩

/-- Numbers contain no marks. -/
theorem Number.not_mem (n : Number) {b : UInt8} (mark : b ∈ marks) :
    b ∉ n.mantissa ++ n.exponent :=
  n.not_mem_other (marks_other mark)

/-! ## Brackets -/

/-- The brackets of one kind, as opposed to those of the other. -/
structure Brackets where
  opening : UInt8
  closing : UInt8
  valid : (opening, closing) = (123, 125) ∨ (opening, closing) = (91, 93)

theorem Brackets.balanced_of_not_mem (brackets : Brackets) {text : List UInt8}
    (none : ∀ b ∈ marks, b ∉ text) : Balanced brackets.opening brackets.closing text := by
  rcases brackets with ⟨opening, closing, valid | valid⟩
  all_goals
    cases valid
    exact .of_not_mem (none _ (by decide)) (none _ (by decide))

theorem Brackets.balanced_token (brackets : Brackets) {b : UInt8} (other : b ∉ marks) :
    Balanced brackets.opening brackets.closing [b] :=
  brackets.balanced_of_not_mem fun _ mark mem => other (List.mem_singleton.mp mem ▸ mark)

/-- A balanced text in brackets of either kind. -/
theorem Brackets.balanced_bracketed (brackets : Brackets) {type : JsonType} {text : List UInt8}
    (isBracket : type = .object ∨ type = .array)
    (balanced : Balanced brackets.opening brackets.closing text) :
    Balanced brackets.opening brackets.closing (type.opening :: (text ++ [type.closing])) := by
  have inside : ∀ b c : UInt8, Balanced brackets.opening brackets.closing [b] →
      Balanced brackets.opening brackets.closing [c] →
      Balanced brackets.opening brackets.closing (b :: (text ++ [c])) := by
    intro b c first last
    exact first.append (balanced.append last)
  rcases brackets with ⟨opening, closing, valid | valid⟩
  all_goals
    cases valid
    rcases isBracket with rfl | rfl
  · exact balanced.bracket (by decide)
  · exact inside _ _ (by decide) (by decide)
  · exact inside _ _ (by decide) (by decide)
  · exact balanced.bracket (by decide)

theorem Brackets.balanced_ws (brackets : Brackets) (ws : Ws) :
    Balanced brackets.opening brackets.closing ws.bytes := by
  refine brackets.balanced_of_not_mem fun b mark => ws.not_mem ?_
  have all : marks.all (fun b => b != space && b != 9 && b != 10 && b != 13) = true := by decide
  have here := List.all_eq_true.mp all b mark
  simpa [and_assoc] using here

/-- Where all strings are plain, brackets of both kinds balance. -/
theorem Derivation.Plain.balanced (brackets : Brackets) {kind : Kind} {derivation : Derivation kind}
    (plain : derivation.Plain) : Balanced brackets.opening brackets.closing derivation.text := by
  have token : ∀ {b : UInt8}, b ∉ marks → Balanced brackets.opening brackets.closing [b] :=
    brackets.balanced_token
  have string : ∀ {chars : List StrChar}, PlainString chars →
      Balanced brackets.opening brackets.closing (charsText chars) :=
    fun plain => brackets.balanced_of_not_mem fun _ => plain.not_mem
  have quoteBalanced : Balanced brackets.opening brackets.closing [quote] := by
    rcases brackets with ⟨opening, closing, valid | valid⟩
    all_goals
      cases valid
      decide
  induction derivation with
  | string chars => exact quoteBalanced.append ((string plain).append quoteBalanced)
  | number n => exact brackets.balanced_of_not_mem fun _ mark => n.not_mem mark
  | literal l =>
    refine brackets.balanced_of_not_mem ?_
    cases l
    all_goals
      exact List.forall_mem_iff_forall_getElem.mpr (by decide)
  | emptyObject ws => exact brackets.balanced_bracketed (.inl rfl) (brackets.balanced_ws ws)
  | object members ih => exact brackets.balanced_bracketed (.inl rfl) (ih plain)
  | emptyArray ws => exact brackets.balanced_bracketed (.inr rfl) (brackets.balanced_ws ws)
  | array elements ih => exact brackets.balanced_bracketed (.inr rfl) (ih plain)
  | member before name middle after value behind more ihValue ihMore =>
    obtain ⟨namePlain, valuePlain, morePlain⟩ := plain
    have rest := (ihValue valuePlain).append ((brackets.balanced_ws behind).append (ihMore morePlain))
    have colonOn := (token (b := colon) (by decide)).append ((brackets.balanced_ws after).append rest)
    have nameOn := (string namePlain).append
      (quoteBalanced.append ((brackets.balanced_ws middle).append colonOn))
    exact (brackets.balanced_ws before).append (quoteBalanced.append nameOn)
  | endMembers => exact brackets.balanced_of_not_mem fun _ _ => List.not_mem_nil
  | nextMember members ih => exact (token (b := comma) (by decide)).append (ih plain)
  | element before value behind more ihValue ihMore =>
    obtain ⟨valuePlain, morePlain⟩ := plain
    exact (brackets.balanced_ws before).append
      ((ihValue valuePlain).append ((brackets.balanced_ws behind).append (ihMore morePlain)))
  | endElements => exact brackets.balanced_of_not_mem fun _ _ => List.not_mem_nil
  | nextElement elements ih => exact (token (b := comma) (by decide)).append (ih plain)

/-- The scanner stays in step with such a value. -/
theorem Derivation.Plain.inStep {value : Value} (plain : value.Plain) : value.InStep := by
  cases value with
  | string chars =>
    intro last
    exact plain.not_mem (b := backslash) (by decide) (List.mem_of_getLast? last)
  | object members => exact @Derivation.Plain.balanced ⟨123, 125, .inl rfl⟩ _ members plain
  | array elements => exact @Derivation.Plain.balanced ⟨91, 93, .inr rfl⟩ _ elements plain
  | _ => trivial

/-! ## Rows of members -/

def Item.member (item : Item) : Member := (item.name, item.value)

theorem Spread.map_prepend (bytes : List UInt8) (spread : Spread) :
    (spread.prepend bytes).items.map Item.member = spread.items.map Item.member := by
  rcases spread with ⟨items, tail⟩
  cases items <;> rfl

theorem Derivation.map_spread {kind : Kind} (derivation : Derivation kind) (gap : List UInt8)
    (follows : Spread) (isMembers : kind = .members ∨ kind = .moreMembers) :
    (derivation.spread gap follows).items.map Item.member =
      derivation.members ++ follows.items.map Item.member := by
  induction derivation generalizing gap with
  | member before name middle after value behind more _ ih =>
    have rest := ih behind.bytes (.inr rfl)
    rw [spread, List.map_cons, rest]
    rfl
  | endMembers => exact Spread.map_prepend gap follows
  | nextMember members ih => exact ih _ (.inl rfl)
  | _ => rcases isMembers with h | h <;> cases h

/-- The members of an object and those that follow it. -/
theorem Derivation.map_membersThen {value : Value} {follows spread : Spread}
    (isObject : value.membersThen follows = some spread) :
    spread.items.map Item.member = value.members ++ follows.items.map Item.member := by
  cases value with
  | emptyObject ws =>
    cases isObject
    exact Spread.map_prepend _ follows
  | object members =>
    cases isObject
    rw [members.map_spread _ _ (.inl rfl), Spread.map_prepend]
    rfl
  | _ => cases isObject

def PlainMember (member : Member) : Prop := PlainString member.1 ∧ member.2.Plain

theorem Derivation.Plain.members {kind : Kind} {derivation : Derivation kind}
    (plain : derivation.Plain) : ∀ member ∈ derivation.members, PlainMember member := by
  induction derivation with
  | object members ih => exact ih plain
  | member before name middle after value behind more _ ih =>
    obtain ⟨namePlain, valuePlain, morePlain⟩ := plain
    intro found mem
    rcases List.mem_cons.mp mem with rfl | mem
    · exact ⟨namePlain, valuePlain⟩
    · exact ih morePlain found mem
  | nextMember members ih => exact ih plain
  | _ =>
    intro found mem
    cases mem

/-- A plain name is compared as it is. -/
theorem PlainString.readsAs {name : List StrChar} (plain : PlainString name) (key : List UInt8) :
    ReadsAs key name := by
  have scanned := scannedName_eq (plain.not_mem (b := quote) (by decide))
  have decoded := decode_eq (plain.not_mem (b := backslash) (by decide))
  rw [ReadsAs, scanned, decoded]
  exact ⟨Iff.rfl, id⟩

theorem PlainString.nameInStep {name : List StrChar} (plain : PlainString name) :
    NameInStep name := by
  have noQuote : quote ∉ charsText name := plain.not_mem (by decide)
  have none : (charsText name).dropWhile (· ≠ quote) = [] := by
    rw [List.dropWhile_eq_nil_iff]
    intro b mem
    have : b ≠ quote := fun isQuote => noQuote (isQuote ▸ mem)
    simpa using this
  rw [NameInStep, none]
  exact List.not_mem_nil

theorem charsText_ne_nil {chars : List StrChar} (nonempty : chars ≠ []) : charsText chars ≠ [] := by
  cases chars with
  | nil => exact absurd rfl nonempty
  | cons char chars =>
    obtain ⟨b, rest, text, _⟩ := char.text_head
    rw [charsText, List.flatMap_cons, text]
    exact List.cons_ne_nil _ _

theorem Derivation.Plain.content_ne_nil {value : Value} (plain : value.Plain) :
    value.content ≠ [] := by
  cases value with
  | string chars => exact charsText_ne_nil plain.1
  | number n =>
    obtain ⟨first, digits, split, _⟩ := n.mantissa_cons
    change n.mantissa ++ n.exponent ≠ []
    rw [split]
    exact List.cons_ne_nil _ _
  | literal l => cases l <;> exact List.cons_ne_nil _ _
  | _ => exact List.cons_ne_nil _ _

/-- The scanner gets to every plain member. -/
theorem reaches_of_plain {key : List UInt8} {items : List Item}
    (plain : ∀ item ∈ items, PlainMember item.member) : Reaches key items := by
  induction items with
  | nil => trivial
  | cons item items ih =>
    have namePlain : PlainString item.name := (plain item List.mem_cons_self).1
    have valuePlain : item.value.Plain := (plain item List.mem_cons_self).2
    refine ⟨namePlain.nameInStep, ?_⟩
    split
    · next isKey =>
      rw [decode_eq (namePlain.not_mem (b := backslash) (by decide))] at isKey
      exact ⟨isKey, valuePlain.inStep, valuePlain.content_ne_nil⟩
    · exact ⟨valuePlain.inStep, ih fun item mem => plain item (List.mem_cons_of_mem _ mem)⟩

/-- Where the member found lies in its row. -/
theorem findItem_split {key : List UInt8} (items : List Item) (pos : Nat) :
    findItem key items pos = none ∧ findMember key (items.map Item.member) = none ∨
      ∃ before item after, items = before ++ item :: after ∧
        findItem key items pos =
          some (pos + (before.flatMap Item.text).length + item.front.length, item.value) ∧
        findMember key (items.map Item.member) = some (item.value, after.map Item.member) := by
  induction items generalizing pos with
  | nil => exact .inl ⟨rfl, rfl⟩
  | cons item items ih =>
    rw [findItem, List.map_cons, Item.member, findMember]
    by_cases isKey : decode item.name = key
    · rw [if_pos isKey, if_pos isKey]
      exact .inr ⟨[], item, items, rfl, rfl, rfl⟩
    · rw [if_neg isKey, if_neg isKey]
      rcases ih (pos + item.text.length) with none | ⟨before, found, after, split, foundAt, rest⟩
      · exact .inl none
      · refine .inr ⟨item :: before, found, after, by rw [split, List.cons_append], ?_, rest⟩
        rw [foundAt, List.flatMap_cons, List.length_append, ← Nat.add_assoc]

/-! ## One step -/

/-- The members behind one of a row. -/
theorem SoundItems.behind {before after : List Item} {tail : List UInt8}
    (sound : SoundItems (before ++ after) tail) : SoundItems after tail := by
  induction before with
  | nil => exact sound
  | cons item before ih => exact ih sound.2.2

/-- What `json_get_value_by_name` returns a pointer into, for a value that is followed by
    `follows`. -/
def Derivation.seen (value : Value) (follows : Spread) : List UInt8 :=
  value.text.drop value.type.extra ++ follows.text

/-- A text that begins, behind spaces, with something other than an object. -/
theorem jsonGetObject_refused {front : List UInt8} (rest : List UInt8) (p : Nat)
    (noBrace : JsonType.object.opening ∉ front) (other : ∃ b ∈ front, b ≠ space) :
    jsonGetObject .object (front ++ rest) p = .ok none := by
  induction front generalizing p with
  | nil =>
    obtain ⟨b, mem, _⟩ := other
    cases mem
  | cons b front ih =>
    rw [List.mem_cons, not_or] at noBrace
    rw [List.cons_append, jsonGetObject]
    by_cases nul : b = 0
    · exact if_pos nul
    · rw [if_neg nul]
      by_cases isSpace : b = space
      · rw [if_pos isSpace]
        refine ih (p + 1) noBrace.2 ?_
        obtain ⟨c, mem, noSpace⟩ := other
        rcases List.mem_cons.mp mem with rfl | mem
        · exact absurd isSpace noSpace
        · exact ⟨c, mem, noSpace⟩
      · rw [if_neg isSpace]
        exact congrArg _ (if_neg (Ne.symm noBrace.1))

theorem jsonGetValueByName_refused {s : CStr} (key : List UInt8)
    (noObject : jsonGetObject .object (memory s) 0 = .ok none) :
    jsonGetValueByName s key false = .ok (none, none) := by
  have none : ∃ mem, jsonParseNameValue s s.length (jsonGetValueByNameCb s key)
      { pV := none, vLen := 0, vType := .string } =
      .ok (jsonResultErr, { pV := none, vLen := 0, vType := .string }, mem) := by
    rw [jsonParseNameValue]
    by_cases empty : s.length = 0
    · exact ⟨_, if_pos empty⟩
    · refine ⟨memory s, ?_⟩
      rw [if_neg empty, if_neg (Nat.lt_irrefl _), cut_at_length]
      simp only [forEach, noObject, bind, Except.bind, forEachRound]
      rfl
  obtain ⟨mem, parsed⟩ := none
  rw [jsonGetValueByName]
  simp only [bind, Except.bind, parsed]
  rfl

/-- Only in an object is anything found. -/
theorem jsonGetValueByName_notObject {s : CStr} {value : Value} {follows : Spread}
    (key : List UInt8) (plain : value.Plain) (text : s.bytes = value.seen follows)
    (notObject : value.type ≠ .object) :
    jsonGetValueByName s key false = .ok (none, none) := by
  refine jsonGetValueByName_refused key ?_
  have refused : ∀ front rest : List UInt8, memory s = front ++ rest →
      JsonType.object.opening ∉ front → (∃ b ∈ front, b ≠ space) →
      jsonGetObject .object (memory s) 0 = .ok none := by
    intro front rest split noBrace other
    rw [split]
    exact jsonGetObject_refused rest 0 noBrace other
  have split : memory s = value.text.drop value.type.extra ++ (follows.text ++ [0]) := by
    rw [memory, text, Derivation.seen, List.append_assoc]
  cases value with
  | string chars =>
    have front : (Derivation.string chars).text.drop (Derivation.type (.string chars)).extra =
        charsText chars ++ [quote] := rfl
    rw [front] at split
    refine refused _ _ split ?_ ⟨quote, by simp, by decide⟩
    rw [List.mem_append, not_or]
    exact ⟨plain.not_mem (by decide), by decide⟩
  | number n =>
    have front : (Derivation.number n).text.drop (Derivation.type (.number n)).extra =
        n.mantissa ++ n.exponent := rfl
    rw [front] at split
    refine refused _ _ split (n.not_mem (by decide)) ?_
    obtain ⟨first, digits, mantissa, start, _⟩ := n.mantissa_cons
    refine ⟨first, by rw [mantissa]; exact List.mem_cons_self, ?_⟩
    rintro rfl
    rcases start with start | start
    all_goals exact absurd start (by decide)
  | literal l =>
    have front : (Derivation.literal l).text.drop (Derivation.type (.literal l)).extra = l.text := by
      cases l <;> rfl
    rw [front] at split
    refine refused _ _ split ?_ ?_
    all_goals cases l <;> decide
  | emptyObject ws => exact absurd rfl notObject
  | object members => exact absurd rfl notObject
  | emptyArray ws => exact refused [91] _ split (by decide) ⟨91, List.mem_cons_self, by decide⟩
  | array elements => exact refused [91] _ split (by decide) ⟨91, List.mem_cons_self, by decide⟩

/-- A search in a row of plain members: the pointer returned points to the value found, and
    what it points into goes on with the members behind it. -/
theorem jsonGetValueByName_spread {s : CStr} {spaces value key : List UInt8} {spread : Spread}
    (nonempty : key ≠ []) (text : s.bytes = spaces ++ spread.text)
    (opens : spread.text = JsonType.object.opening :: value) (all : ∀ b ∈ spaces, b = space)
    (sound : spread.Sound) (plain : ∀ item ∈ spread.items, PlainMember item.member) :
    (findMember key (spread.items.map Item.member) = none ∧
        ∃ out, jsonGetValueByName s key false = .ok (none, out)) ∨
      ∃ (found : Value) (after : List Item) (valueAt : Nat),
        findMember key (spread.items.map Item.member) = some (found, after.map Item.member) ∧
        jsonGetValueByName s key false =
          .ok (some valueAt, some (found.scanned.length, found.type)) ∧
        s.bytes.drop valueAt = found.seen ⟨after, spread.tail⟩ ∧
        Spread.Sound ⟨after, spread.tail⟩ ∧ found.Plain ∧
        ∀ item ∈ after, PlainMember item.member := by
  obtain ⟨ret, mem, parsed, success⟩ := jsonParseNameValue_spread nonempty text opens all sound
    (fun item mem => (plain item mem).1.readsAs key) (reaches_of_plain plain)
    { pV := none, vLen := 0, vType := .string }
  rcases @findItem_split key spread.items spaces.length with
    ⟨noItem, noMember⟩ | ⟨before, item, after, split, foundAt, member⟩
  · refine .inl ⟨noMember, ?_⟩
    rw [noItem] at parsed
    rw [jsonGetValueByName]
    simp only [bind, Except.bind, parsed]
    by_cases ok : ret = jsonResultOk
    · exact ⟨_, if_pos ok⟩
    · exact ⟨_, if_neg ok⟩
  · have mem_item : item ∈ spread.items := by
      rw [split]
      exact List.mem_append_right _ List.mem_cons_self
    have ok : ret = jsonResultOk := success (by rw [foundAt]; rfl)
    rw [foundAt] at parsed
    refine .inr ⟨item.value, after, spaces.length + (before.flatMap Item.text).length +
      item.front.length + item.value.type.extra, member, ?_, ?_, ?_, (plain item mem_item).2, ?_⟩
    · rw [jsonGetValueByName]
      simp only [bind, Except.bind, parsed, JsonNv.searched, if_pos ok]
      rfl
    · have here : s.bytes.drop spaces.length = before.flatMap Item.text ++
          (item.front ++ (item.value.text ++ Spread.text ⟨after, spread.tail⟩)) := by
        rw [text, List.drop_left, Spread.text, split]
        simp [Spread.text, Item.text]
      have atValue := drop_behind item.front (drop_behind _ here)
      have quotes : item.value.quotes.length ≤ item.value.text.length := by
        rw [item.value.text_split, List.length_append]
        exact Nat.le_add_right _ _
      rw [← List.drop_drop, atValue, Derivation.seen,
        List.drop_append_of_le_length (item.value.length_quotes ▸ quotes)]
    · have sound' : SoundItems (before ++ ([item] ++ after)) spread.tail := by
        rw [Spread.Sound, split] at sound
        exact sound
      exact sound'.behind.behind
    · intro other mem
      refine plain other ?_
      rw [split]
      exact List.mem_append_right _ (List.mem_cons_of_mem _ mem)

/-- The text of the value found. -/
theorem Derivation.take_seen (value : Value) (follows : Spread) :
    (value.seen follows).take value.scanned.length = value.scanned := by
  have split : value.text.drop value.type.extra =
      value.scanned ++ (value.quotes ++ value.leftover) := by
    rw [value.text_split, ← value.length_quotes, List.drop_left]
  rw [seen, split, List.append_assoc, List.take_left]

/-! ## The path -/

/-- A component of a dotted key. -/
structure Component where
  bytes : List UInt8
  nonempty : bytes ≠ []
  noDot : dot ∉ bytes

/-- The dotted key. -/
def joined (first : Component) : List Component → List UInt8
  | [] => first.bytes
  | second :: path => first.bytes ++ dot :: joined second path

/-- The string returned for the value to which the path leads. -/
def delivered (allocated : Bool) (value : Option Value) : Option (List UInt8) :=
  if allocated then value.map Derivation.scanned else none

/-- `keyNext` up to the next delimiter. -/
theorem valueOfFrom_component (allocated : Bool) (component rest : List UInt8) (src : CStr)
    (valueLen : Int) (noDot : dot ∉ component) (keyNext : List UInt8) :
    valueOfFrom allocated keyNext (component ++ rest) src valueLen =
      valueOfFrom allocated (keyNext ++ component) rest src valueLen := by
  induction component generalizing keyNext with
  | nil => rw [List.nil_append, List.append_nil]
  | cons b component ih =>
    rw [List.mem_cons, not_or] at noDot
    rw [List.cons_append, valueOfFrom, if_neg (Ne.symm noDot.1), ih noDot.2, List.append_assoc]
    rfl

/-- A step at a value: the search in it and in what follows it. -/
theorem jsonGetValueByName_seen {s : CStr} {spaces key : List UInt8} {value : Value}
    {follows : Spread} (nonempty : key ≠ []) (text : s.bytes = spaces ++ value.seen follows)
    (all : ∀ b ∈ spaces, b = space) (start : spaces = [] ∨ value.type = .object)
    (plain : value.Plain) (sound : follows.Sound)
    (plainFollows : ∀ item ∈ follows.items, PlainMember item.member) :
    (¬ (value.type = .object ∧ (findMember key
          (value.members ++ follows.items.map Item.member)).isSome) ∧
        ∃ out, jsonGetValueByName s key false = .ok (none, out)) ∨
      ∃ (found : Value) (after : Spread) (valueAt : Nat), value.type = .object ∧
        findMember key (value.members ++ follows.items.map Item.member) =
          some (found, after.items.map Item.member) ∧
        jsonGetValueByName s key false =
          .ok (some valueAt, some (found.scanned.length, found.type)) ∧
        s.bytes.drop valueAt = found.seen after ∧ after.Sound ∧ found.Plain ∧
        ∀ item ∈ after.items, PlainMember item.member := by
  by_cases isObject : value.type = .object
  · obtain ⟨spread, opened⟩ := Derivation.membersThen_of_object isObject follows
    obtain ⟨rest, opening⟩ := Derivation.text_of_object isObject
    have spread_text := Derivation.membersThen_text opened
    have members := Derivation.map_membersThen opened
    have seen : value.seen follows = spread.text := by
      rw [Derivation.seen, spread_text, isObject]
      rfl
    have plainSpread : ∀ item ∈ spread.items, PlainMember item.member := by
      intro item mem
      have inRow : item.member ∈ value.members ++ follows.items.map Item.member := by
        rw [← members]
        exact List.mem_map_of_mem mem
      rcases List.mem_append.mp inRow with own | follow
      · exact plain.members _ own
      · obtain ⟨other, mem, same⟩ := List.mem_map.mp follow
        exact same ▸ plainFollows other mem
    rw [seen] at text
    rw [← members]
    rcases jsonGetValueByName_spread nonempty text
      (by rw [spread_text, opening, List.cons_append]) all
      (Derivation.membersThen_sound opened sound) plainSpread with
      ⟨none, result⟩ | ⟨found, after, valueAt, member, result, here⟩
    · refine .inl ⟨fun some => ?_, result⟩
      rw [none] at some
      cases some.2
    · exact .inr ⟨found, ⟨after, spread.tail⟩, valueAt, isObject, member, result, here⟩
  · refine .inl ⟨fun some => isObject some.1, none, ?_⟩
    rcases start with rfl | start
    · exact jsonGetValueByName_notObject key plain text isObject
    · exact absurd start isObject

/-- What a step contributes to the path. -/
theorem onward_cons_none {key : List UInt8} {path : List (List UInt8)} {value : Value}
    {follows : List Member}
    (missing : ¬ (value.type = .object ∧ (findMember key (value.members ++ follows)).isSome)) :
    onward (key :: path) value follows = none := by
  rw [onward]
  by_cases isObject : value.type = .object
  · rw [if_pos isObject]
    cases found : findMember key (value.members ++ follows) with
    | none => rfl
    | some found' => exact absurd ⟨isObject, by rw [found]; rfl⟩ missing
  · rw [if_neg isObject]

/-- `LITE_json_value_of` follows the path through the members of the value it has come to and
    those behind it. -/
theorem valueOfFrom_joined (allocated : Bool) (path : List Component) :
    ∀ (first : Component) (s : CStr) (spaces : List UInt8) (value : Value) (follows : Spread)
      (valueLen : Int),
      s.bytes = spaces ++ value.seen follows → (∀ b ∈ spaces, b = space) →
      (spaces = [] ∨ value.type = .object) → value.Plain → follows.Sound →
      (∀ item ∈ follows.items, PlainMember item.member) →
      valueOfFrom allocated [] (joined first path) s valueLen = .ok (delivered allocated
        (onward ((first :: path).map Component.bytes) value
          (follows.items.map Item.member))) := by
  induction path with
  | nil =>
    intro first s spaces value follows valueLen text all start plain sound plainFollows
    have step := valueOfFrom_component allocated first.bytes [] s valueLen first.noDot []
    rw [List.append_nil, List.nil_append] at step
    rw [joined, step, valueOfFrom]
    rcases jsonGetValueByName_seen first.nonempty text all start plain sound plainFollows with
      ⟨none, out, result⟩ | ⟨found, after, valueAt, isObject, member, result, here, _⟩
    · rw [List.map_cons, onward_cons_none none, result]
      cases allocated <;> rfl
    · rw [List.map_cons, List.map_nil, onward, if_pos isObject, member, result]
      have taken := Derivation.take_seen found after
      rw [← here] at taken
      simp only [bind, Except.bind, pure, Except.pure, Option.map_some, Option.getD_some,
        Int.toNat_natCast, taken]
      cases allocated <;> rfl
  | cons second path ih =>
    intro first s spaces value follows valueLen text all start plain sound plainFollows
    have step := valueOfFrom_component allocated first.bytes (dot :: joined second path) s valueLen
      first.noDot []
    rw [List.nil_append] at step
    rw [joined, step, valueOfFrom, if_pos rfl]
    rcases jsonGetValueByName_seen first.nonempty text all start plain sound plainFollows with
      ⟨none, out, result⟩ | ⟨found, after, valueAt, isObject, member, result, here, sound', plain',
        plainAfter⟩
    · rw [List.map_cons, onward_cons_none none, result]
      cases allocated <;> rfl
    · rw [List.map_cons, onward, if_pos isObject, member, result]
      simp only [bind, Except.bind]
      exact ih second (suffix s valueAt) [] found after _ here (fun _ mem => by cases mem) (.inl rfl)
        plain' sound' plainAfter

/-! ## The result -/

/-- The members of a document. -/
def Document.nested (d : Document) (path : List (List UInt8)) : Option Value :=
  Json.nested path d.value

/-- The value to which the path leads when the members behind an object count as its own. -/
def Document.onward (d : Document) (path : List (List UInt8)) : Option Value :=
  Json.onward path d.value []

/-- A string is returned only if the path leads to a member, and it is the text of its value. -/
def DottedCorrect (key src : CStr) (d : Document) (path : List (List UInt8)) : Prop :=
  ∀ allocated, ∃ result, liteJsonValueOf key src allocated = .ok result ∧
    ∀ text, result = some text → ∃ value, d.nested path = some value ∧ text = value.content

theorem findMember_append {key : List UInt8} {row rest : List Member} {found : Value}
    {behind : List Member} (member : findMember key row = some (found, behind)) :
    findMember key (row ++ rest) = some (found, behind ++ rest) := by
  induction row with
  | nil => cases member
  | cons head row ih =>
    obtain ⟨name, value⟩ := head
    rw [findMember] at member
    rw [List.cons_append, findMember]
    by_cases isKey : decode name = key
    · rw [if_pos isKey] at member ⊢
      cases member
      rfl
    · rw [if_neg isKey] at member ⊢
      exact ih member

/-- Only an object has members. -/
theorem Derivation.isObject_of_member {key : List UInt8} {value : Value}
    (some : (findMember key value.members).isSome) : value.type = .object := by
  cases value with
  | object members => rfl
  | _ => cases some

/-- Where the path leads to a member, nothing behind an object is looked at. -/
theorem onward_of_nested {path : List (List UInt8)} {value found : Value} (follows : List Member)
    (member : nested path value = some found) : onward path value follows = some found := by
  induction path generalizing value follows with
  | nil => exact member
  | cons key path ih =>
    rw [nested] at member
    cases step : findMember key value.members with
    | none =>
      rw [step] at member
      cases member
    | some next =>
      obtain ⟨next, behind⟩ := next
      rw [step] at member
      have isObject : value.type = .object :=
        @Derivation.isObject_of_member key value (by rw [step]; rfl)
      rw [onward, if_pos isObject, findMember_append step]
      exact ih _ member

/-- Nothing is found in a text that does not begin with spaces and an object. -/
theorem valueOfFrom_refused (allocated : Bool) {s : CStr} (valueLen : Int)
    (noObject : jsonGetObject .object (memory s) 0 = .ok none) (keyIter keyNext : List UInt8) :
    valueOfFrom allocated keyNext keyIter s valueLen = .ok none := by
  induction keyIter generalizing keyNext with
  | nil =>
    rw [valueOfFrom, jsonGetValueByName_refused keyNext noObject]
    rfl
  | cons b keyIter ih =>
    rw [valueOfFrom]
    by_cases isDot : b = dot
    · rw [if_pos isDot, jsonGetValueByName_refused keyNext noObject]
      rfl
    · rw [if_neg isDot]
      exact ih _

/-- The result on a document whose leading white space is spaces. -/
theorem liteJsonValueOf_document {key src : CStr} {d : Document} {first : Component}
    {path : List Component} (isText : src.bytes = d.text) (isKey : key.bytes = joined first path)
    (plain : d.value.Plain) (spaces : ∀ b ∈ d.before.bytes, b = space) (allocated : Bool) :
    liteJsonValueOf key src allocated =
      .ok (delivered allocated (d.onward ((first :: path).map Component.bytes))) := by
  have text : src.bytes = d.before.bytes ++ d.value.seen ⟨[], d.behind.bytes⟩ := by
    rw [isText, Document.text, Derivation.seen, d.isObject]
    rfl
  have tail : (⟨[], d.behind.bytes⟩ : Spread).Sound := d.behind.not_mem (by decide)
  rw [liteJsonValueOf, isKey]
  exact valueOfFrom_joined allocated path first src d.before.bytes d.value ⟨[], d.behind.bytes⟩ _
    text spaces (.inr d.isObject) plain tail fun _ mem => by cases mem

/-- `LITE_json_value_of` respects the nesting of a document with plain strings exactly if the text
    begins with white space that it refuses, or every step of the path is found in its object and
    the value is no number with an exponent, or the path leads nowhere even when the members
    behind an object count as its own. -/
theorem dotted_correct_iff (key src : CStr) (d : Document) (first : Component)
    (path : List Component) (isText : src.bytes = d.text) (isKey : key.bytes = joined first path)
    (plain : d.value.Plain) :
    DottedCorrect key src d ((first :: path).map Component.bytes) ↔
      ((∀ b ∈ d.before.bytes, b = space) →
        match d.nested ((first :: path).map Component.bytes) with
        | none => d.onward ((first :: path).map Component.bytes) = none
        | some value => value.leftover = []) := by
  constructor
  · intro correct spaces
    have result := liteJsonValueOf_document isText isKey plain spaces true
    obtain ⟨_, result', correct⟩ := correct true
    rw [result] at result'
    obtain rfl := (Except.ok.inj result').symm
    cases found : d.nested ((first :: path).map Component.bytes) with
    | none =>
      cases strays : d.onward ((first :: path).map Component.bytes) with
      | none => rfl
      | some value =>
        rw [strays] at correct
        obtain ⟨value, member, _⟩ := correct _ rfl
        rw [found] at member
        cases member
    | some value =>
      have reached := onward_of_nested [] found
      rw [Document.onward, reached] at correct
      obtain ⟨value', member, text⟩ := correct _ rfl
      rw [found] at member
      cases member
      exact value.leftover_eq_nil text
  · intro condition allocated
    by_cases spaces : ∀ b ∈ d.before.bytes, b = space
    · refine ⟨_, liteJsonValueOf_document isText isKey plain spaces allocated, ?_⟩
      intro text returned
      have condition := condition spaces
      cases found : d.nested ((first :: path).map Component.bytes) with
      | none =>
        rw [found] at condition
        rw [condition] at returned
        cases allocated <;> cases returned
      | some value =>
        have reached := onward_of_nested [] found
        rw [found] at condition
        rw [Document.onward, reached] at returned
        refine ⟨value, rfl, ?_⟩
        cases allocated with
        | false => cases returned
        | true =>
          cases returned
          exact value.scanned_eq_content condition
    · refine ⟨none, ?_, fun text returned => by cases returned⟩
      have refused : jsonGetObject .object (memory src) 0 = .ok none := by
        push Not at spaces
        have split : memory src = d.before.bytes ++ (d.value.text ++ d.behind.bytes ++ [0]) := by
          rw [memory, isText, Document.text]
          simp
        rw [split]
        exact jsonGetObject_refused _ 0 (d.before.not_mem (by decide)) spaces
      exact valueOfFrom_refused allocated (-1) refused key.bytes []

/-- A number of one digit. -/
def digit (b : UInt8) (valid : isDigit b = true) (noZero : b ≠ 48) : Value :=
  .number ⟨false, ⟨[b], List.cons_ne_nil _ _, List.forall_mem_singleton.mpr valid⟩, none, none,
    fun zero => absurd (Option.some.inj zero) noZero⟩

theorem plain_a : (32 : UInt8) ≤ 97 ∧ (97 : UInt8) ≠ quote ∧ (97 : UInt8) ≠ backslash := by
  decide

/-- `{"a":{"b":1},"c":2}`. -/
def siblings : Document where
  before := .empty
  value := .object (.member .empty [.plain 97 plain_a] .empty .empty
    (.object (.member .empty [.plain 98 (by decide)] .empty .empty
      (digit 49 (by decide) (by decide)) .empty .endMembers)) .empty
    (.nextMember (.member .empty [.plain 99 (by decide)] .empty .empty
      (digit 50 (by decide) (by decide)) .empty .endMembers)))
  behind := .empty
  isObject := rfl

def siblingsText : CStr :=
  ⟨[123, 34, 97, 34, 58, 123, 34, 98, 34, 58, 49, 125, 44, 34, 99, 34, 58, 50, 125], by decide⟩

def componentA : Component := ⟨[97], keyA.nonempty, by decide⟩
def componentB : Component := ⟨[98], List.cons_ne_nil _ _, by decide⟩

theorem siblings_plain : siblings.value.Plain := by
  simp [siblings, Derivation.Plain, PlainString, charsText, StrChar.text, marks, digit]
  decide

/-- The key `a.b`. -/
theorem dotted_correct_siblings :
    DottedCorrect ⟨[97, 46, 98], by decide⟩ siblingsText siblings [[97], [98]] := by
  refine (dotted_correct_iff ⟨[97, 46, 98], by decide⟩ siblingsText siblings componentA [componentB]
    rfl rfl siblings_plain).mpr fun _ => ?_
  exact rfl

/-- The key `a.c`: `2` is returned, the value of the member `c` behind the object `a`. -/
theorem dotted_sibling_of_parent : siblingsText.bytes = siblings.text ∧ siblings.value.Plain ∧
    ¬ DottedCorrect ⟨[97, 46, 99], by decide⟩ siblingsText siblings [[97], [99]] := by
  refine ⟨rfl, siblings_plain, fun correct => ?_⟩
  obtain ⟨result, returned, correct⟩ := correct true
  have two : liteJsonValueOf ⟨[97, 46, 99], by decide⟩ siblingsText true = .ok (some [50]) := by
    decide +kernel
  rw [two] at returned
  cases returned
  obtain ⟨value, member, _⟩ := correct _ rfl
  have missing : siblings.nested [[97], [99]] = none := rfl
  rw [missing] at member
  cases member

end QcloudIot.Json
