import QcloudIot.Json.Proofs.Members

/-!
# Lookup by name

`json_get_value_by_name` on a JSON text delivers the first top-level member of that name, as
long as the scanner stays in step with the members up to it and the value is one that it
delimits: no empty string, no number with an exponent.
-/

namespace QcloudIot.Json

open Mqtt (CStr)

/-- A name to look for. -/
structure Key extends CStr where
  nonempty : bytes ≠ []
  noQuote : quote ∉ bytes
  noBackslash : backslash ∉ bytes

/-- The first member of that name: where the text of its value begins, when the row begins at
    `pos`, and the value. -/
def findItem (key : List UInt8) : List Item → Nat → Option (Nat × Value)
  | [], _ => none
  | item :: items, pos =>
    if decode item.name = key then some (pos + item.front.length, item.value)
    else findItem key items (pos + item.text.length)

/-- The scanner delivers exactly the value: it is in step, and the value is neither the empty
    string nor a number with an exponent. -/
def Derivation.Delimited (value : Value) : Prop :=
  value.InStep ∧ value.content ≠ [] ∧ value.leftover = []

/-- The scanner gets to the member looked for, or to the end, and delivers its value. -/
def Regular (key : List UInt8) : List Item → Prop
  | [] => True
  | item :: items =>
    NameInStep item.name ∧
      if decode item.name = key then charsText item.name = key ∧ item.value.Delimited
      else item.value.InStep ∧ Regular key items

/-- The scanner gets to the member looked for, or to the end, and reports what it takes of its
    value. -/
def Reaches (key : List UInt8) : List Item → Prop
  | [] => True
  | item :: items =>
    NameInStep item.name ∧
      if decode item.name = key then
        charsText item.name = key ∧ item.value.InStep ∧ item.value.content ≠ []
      else item.value.InStep ∧ Reaches key items

theorem Regular.reaches {key : List UInt8} {items : List Item} (regular : Regular key items) :
    Reaches key items := by
  induction items with
  | nil => trivial
  | cons item items ih =>
    obtain ⟨name, here⟩ := regular
    refine ⟨name, ?_⟩
    by_cases isKey : decode item.name = key
    · rw [if_pos isKey] at here ⊢
      exact ⟨here.1, here.2.1, here.2.2.1⟩
    · rw [if_neg isKey] at here ⊢
      exact ⟨here.1, ih here.2⟩

/-! ## Names -/

/-- Comparing a name with the key by their texts decides whether the name is the key. -/
def ReadsAs (key : List UInt8) (name : List StrChar) : Prop :=
  (scannedName name = key ↔ charsText name = key) ∧ (charsText name = key → decode name = key)

/-- A string without escapes stands for its own text. -/
theorem decode_eq {chars : List StrChar} (plain : backslash ∉ charsText chars) :
    decode chars = charsText chars := by
  induction chars with
  | nil => rfl
  | cons char chars ih =>
    have split : charsText (char :: chars) = char.text ++ charsText chars := rfl
    rw [split, List.mem_append, not_or] at plain
    cases char with
    | plain b valid =>
      rw [decode, ih plain.2]
      rfl
    | escape b valid => exact absurd List.mem_cons_self plain.1
    | unicode h₁ h₂ h₃ h₄ => exact absurd List.mem_cons_self plain.1

/-- The scanner takes a name for the key exactly if its text is the key. -/
theorem scannedName_eq_key (name : List StrChar) (key : Key) :
    scannedName name = key.bytes ↔ charsText name = key.bytes := by
  by_cases quoted : quote ∈ charsText name
  · constructor
    · intro eq
      exact absurd (eq ▸ backslash_mem_scannedName quoted) key.noBackslash
    · intro eq
      exact absurd (eq ▸ quoted) key.noQuote
  · rw [scannedName_eq quoted]

theorem Key.readsAs (key : Key) (name : List StrChar) : ReadsAs key.bytes name := by
  refine ⟨scannedName_eq_key name key, fun isKey => ?_⟩
  rw [decode_eq (by rw [isKey]; exact key.noBackslash), isKey]

/-- The callback compares what the scanner took for the name. -/
theorem jsonGetValueByNameCb_item {s : CStr} {rest key : List UInt8} {pos : Nat} (item : Item)
    (text : s.bytes.drop pos = item.text ++ rest) (readsAs : ReadsAs key item.name) (nv : JsonNv) :
    jsonGetValueByNameCb s key nv (item.found pos) =
      if charsText item.name = key then
        ({ pV := some (pos + item.front.length + item.value.type.extra),
           vLen := item.value.scanned.length, vType := item.value.type }, true)
      else (nv, false) := by
  have split : s.bytes.drop pos = item.gap ++ quote :: (charsText item.name ++
      (quote :: (item.middle.bytes ++ colon :: (item.after.bytes ++ item.value.text)) ++ rest)) := by
    rw [text, Item.text, Item.front]
    simp
  have name : s.bytes.drop (pos + item.gap.length + 1) = charsText item.name ++ _ :=
    drop_behind [quote] (drop_behind item.gap split)
  have slice : (s.bytes.drop (pos + item.gap.length + 1)).take (scannedName item.name).length =
      scannedName item.name := by
    obtain ⟨tail, tailEq⟩ : scannedName item.name <+: charsText item.name :=
      List.takeWhile_prefix _
    rw [name, ← tailEq, List.append_assoc, List.take_left]
  have same : ((scannedName item.name).length = key.length ∧
      (s.bytes.drop (pos + item.gap.length + 1)).take (scannedName item.name).length = key) ↔
      charsText item.name = key := by
    rw [slice, ← readsAs.1]
    exact ⟨fun h => h.2, fun h => ⟨congrArg List.length h, h⟩⟩
  simp only [jsonGetValueByNameCb, Item.found, NextObject.of]
  by_cases isKey : charsText item.name = key
  · rw [if_pos isKey, if_pos (same.mpr isKey)]
  · rw [if_neg isKey, if_neg (fun h => isKey (same.mp h))]

/-! ## The loop -/

/-- An exponent has no quotes. -/
theorem Derivation.quote_not_mem_leftover (value : Value) : quote ∉ value.leftover := by
  cases value with
  | number n =>
    rw [leftover, Number.exponent]
    cases n.exp with
    | none => exact List.not_mem_nil
    | some exp =>
      intro mem
      rcases List.mem_append.mp mem with mem | mem
      · rcases List.mem_cons.mp mem with isE | mem
        · rcases exp.valid.1 with e | e
          all_goals exact absurd (isE.trans e) (by decide)
        · rcases exp.valid.2 with sign | sign | sign
          all_goals
            rw [sign] at mem
            exact absurd mem (by decide)
      · exact absurd (exp.digits.valid quote mem) (by decide)
  | _ => exact List.not_mem_nil

/-- The state of the callback when a row of members has been searched. -/
def JsonNv.searched (nv : JsonNv) : Option (Nat × Value) → JsonNv
  | none => nv
  | some (pos, value) =>
    { pV := some (pos + value.type.extra), vLen := value.scanned.length, vType := value.type }

/-- A row without members ends the loop. -/
theorem forEachRound_tail {s : CStr} {pos fuel : Nat} {σ : Type}
    {body : σ → NextObject → σ × Bool} {st : σ} (inside : pos ≤ s.length)
    (noQuote : quote ∉ s.bytes.drop pos) :
    forEachRound .object (memory s) body (fuel + 1) (some pos) st = .ok st := by
  rcases Nat.lt_or_eq_of_le inside with before | atEnd
  · obtain ⟨b, byte, char⟩ := memory_getElem? s before
    have noKey : findKey (memory s) pos = .ok none := by
      rw [findKey, drop_memory s inside, strchr_absent [] pos noQuote (noNul_drop s pos) (by decide)]
      rfl
    rw [forEachRound, byte]
    simp only [if_neg char, Container.resume, jsonGetNextObject_noKey noKey]
    rfl
  · rw [forEachRound, atEnd, memory_getElem?_nul]
    rfl

/-- A round that finds a member. -/
theorem forEachRound_member {s : CStr} {pos fuel : Nat} {σ : Type}
    {body : σ → NextObject → σ × Bool} {st : σ} {rest : List UInt8} (item : Item)
    (inside : pos ≤ s.length) (text : s.bytes.drop pos = item.text ++ rest)
    (noQuote : quote ∉ item.gap) (name : NameInStep item.name) (value : item.value.InStep)
    (stops : Stops rest) :
    forEachRound .object (memory s) body (fuel + 1) (some pos) st =
      if (body st (item.found pos)).2 then .ok (body st (item.found pos)).1
      else forEachRound .object (memory s) body fuel (item.found pos).next
        (body st (item.found pos)).1 := by
  have noNul := noNul_drop s pos
  rw [text] at noNul
  have before : pos < s.length := by
    have length := congrArg List.length text
    rw [List.length_drop, List.length_append, Item.text, List.length_append,
      item.length_front] at length
    rw [CStr.length] at inside ⊢
    omega
  obtain ⟨b, byte, char⟩ := memory_getElem? s before
  obtain ⟨c, tail, restEq, stop⟩ := stops
  have call := @jsonGetNextObject_item (memory s) (rest ++ [0]) pos item
    (by rw [drop_memory s inside, text, List.append_assoc])
    (fun nul => noNul (List.mem_append_left _ nul)) noQuote name value
    ⟨c, tail ++ [0], by rw [restEq]; rfl, stop⟩
  rw [forEachRound, byte]
  simp only [if_neg char, Container.resume, call, bind, Except.bind]
  rfl

/-- What is taken of a value that has content is not empty. -/
theorem Derivation.scanned_ne_nil (value : Value) (content : value.content ≠ []) :
    value.scanned ≠ [] := by
  cases value with
  | number n =>
    obtain ⟨first, digits, split, _⟩ := n.mantissa_cons
    rw [scanned, split]
    exact List.cons_ne_nil _ _
  | _ => exact content

/-- The callback is called for a member whose name and value are not empty. -/
theorem parseBody_item {σ : Type} (pfnCB : σ → NextObject → σ × Bool) (ret : Int) (st : σ)
    (item : Item) (pos : Nat) : parseBody pfnCB (ret, st) (item.found pos) =
      if (scannedName item.name).length ≠ 0 ∧ item.value.scanned.length ≠ 0 then
        ((jsonResultOk, (pfnCB st (item.found pos)).1), (pfnCB st (item.found pos)).2)
      else ((ret, st), false) := rfl

/-- Searching a row of members, `lead` being what the previous round left of its value. -/
theorem forEachRound_search {s : CStr} {key : List UInt8} (nonempty : key ≠ []) (nv : JsonNv)
    (tail : List UInt8) :
    ∀ (items : List Item) (lead : List UInt8) (pos fuel : Nat) (ret : Int),
      pos ≤ s.length → s.bytes.drop pos = lead ++ Spread.text ⟨items, tail⟩ → quote ∉ lead →
      SoundItems items tail → (∀ item ∈ items, ReadsAs key item.name) → Reaches key items →
      items.length < fuel →
      ∃ ret', forEachRound .object (memory s) (parseBody (jsonGetValueByNameCb s key)) fuel
          (some pos) (ret, nv) =
          .ok (ret', nv.searched (findItem key items (pos + lead.length))) ∧
        ((findItem key items (pos + lead.length)).isSome → ret' = jsonResultOk) := by
  intro items
  induction items with
  | nil =>
    intro lead pos fuel ret inside text noQuote sound _ _ enough
    obtain ⟨fuel, rfl⟩ := Nat.exists_eq_succ_of_ne_zero (Nat.ne_of_gt enough)
    refine ⟨ret, forEachRound_tail inside ?_, fun found => by cases found⟩
    rw [text]
    intro mem
    exact (List.mem_append.mp mem).elim noQuote sound
  | cons item items ih =>
    intro lead pos fuel ret inside text noQuote sound readsAs reaches enough
    obtain ⟨fuel, rfl⟩ := Nat.exists_eq_succ_of_ne_zero (Nat.ne_of_gt (Nat.zero_lt_of_lt enough))
    rw [List.length_cons] at enough
    obtain ⟨gapQuote, stops, sound⟩ := sound
    obtain ⟨name, reaches⟩ := reaches
    have readsAs_item := readsAs item List.mem_cons_self
    -- what was left of the previous value is part of the bytes in front of the name
    let found : Item := { item with gap := lead ++ item.gap }
    have foundFront : found.front.length = lead.length + item.front.length := by
      have front : found.front = lead ++ item.front := by simp [found, Item.front]
      rw [front, List.length_append]
    have text' : s.bytes.drop pos = found.text ++ Spread.text ⟨items, tail⟩ := by
      rw [text]
      simp [found, Spread.text, Item.text, Item.front]
    have foundQuote : quote ∉ found.gap := by
      intro mem
      exact (List.mem_append.mp mem).elim noQuote gapQuote
    have compared := jsonGetValueByNameCb_item found text' readsAs_item nv
    by_cases isKey : decode item.name = key
    · rw [if_pos isKey] at reaches
      obtain ⟨spelled, inStep, content⟩ := reaches
      have round := @forEachRound_member s pos fuel _
        (parseBody (jsonGetValueByNameCb s key)) (ret, nv) _ found inside text' foundQuote name
        inStep stops
      rw [if_pos (show charsText found.name = key from spelled)] at compared
      have klen : (scannedName found.name).length ≠ 0 := by
        rw [readsAs_item.1.mpr spelled]
        exact fun none => nonempty (List.eq_nil_of_length_eq_zero none)
      have vlen : found.value.scanned.length ≠ 0 :=
        fun none => found.value.scanned_ne_nil content (List.eq_nil_of_length_eq_zero none)
      have body := parseBody_item (jsonGetValueByNameCb s key) ret nv found pos
      rw [if_pos ⟨klen, vlen⟩, compared] at body
      rw [body] at round
      have result : findItem key (item :: items) (pos + lead.length) =
          some (pos + found.front.length, item.value) := by
        rw [findItem, if_pos isKey, foundFront, Nat.add_assoc]
      rw [result]
      exact ⟨jsonResultOk, round, fun _ => rfl⟩
    · rw [if_neg isKey] at reaches
      obtain ⟨inStep, reaches⟩ := reaches
      have round := @forEachRound_member s pos fuel _
        (parseBody (jsonGetValueByNameCb s key)) (ret, nv) _ found inside text' foundQuote name
        inStep stops
      have other : ¬ charsText found.name = key := fun spelled => isKey (readsAs_item.2 spelled)
      rw [if_neg other] at compared
      obtain ⟨ret', body⟩ : ∃ ret', parseBody (jsonGetValueByNameCb s key) (ret, nv)
          (found.found pos) = ((ret', nv), false) := by
        rw [parseBody_item, compared]
        split
        · exact ⟨jsonResultOk, rfl⟩
        · exact ⟨ret, rfl⟩
      rw [body] at round
      have behind := found.drop_next text'
      have text_length : found.value.text.length = found.value.type.extra +
          (found.value.scanned.length + (found.value.type.extra + found.value.leftover.length)) := by
        rw [found.value.text_split]
        simp only [List.length_append, Derivation.length_quotes]
      have item_length : item.text.length = item.front.length + found.value.text.length := by
        rw [Item.text, List.length_append]
      have within : pos + found.front.length + found.value.type.extra +
          found.value.scanned.length + found.value.type.extra ≤ s.length := by
        obtain ⟨b, rest, restEq, _⟩ := stops
        have length := congrArg List.length behind
        rw [List.length_drop, restEq, List.length_append, List.length_cons] at length
        rw [CStr.length]
        omega
      obtain ⟨ret'', result, success⟩ := ih found.value.leftover _ fuel ret' within behind
        found.value.quote_not_mem_leftover sound
        (fun item mem => readsAs item (List.mem_cons_of_mem _ mem)) reaches (by omega)
      have position : pos + found.front.length + found.value.type.extra +
          found.value.scanned.length + found.value.type.extra + found.value.leftover.length =
          pos + lead.length + item.text.length := by
        rw [item_length, text_length, foundFront]
        omega
      rw [position] at result success
      have search : findItem key (item :: items) (pos + lead.length) =
          findItem key items (pos + lead.length + item.text.length) := by
        rw [findItem, if_neg isKey]
      rw [search]
      exact ⟨ret'', round.trans result, success⟩

/-! ## The text of a document -/

theorem Derivation.membersThen_of_object {value : Value} (isObject : value.type = .object)
    (follows : Spread) : ∃ spread, value.membersThen follows = some spread := by
  cases value with
  | emptyObject ws => exact ⟨_, rfl⟩
  | object members => exact ⟨_, rfl⟩
  | literal l => cases l <;> cases isObject
  | _ => cases isObject

theorem Derivation.text_of_object {value : Value} (isObject : value.type = .object) :
    ∃ rest, value.text = JsonType.object.opening :: rest := by
  cases value with
  | emptyObject ws => exact ⟨_, rfl⟩
  | object members => exact ⟨_, rfl⟩
  | literal l => cases l <;> cases isObject
  | _ => cases isObject

theorem Document.text_spread (d : Document) : d.spread.text = d.text := by
  obtain ⟨spread, isObject⟩ := Derivation.membersThen_of_object d.isObject ⟨[], d.behind.bytes⟩
  rw [Document.spread, isObject, Option.getD_some, Spread.text_prepend,
    Derivation.membersThen_text isObject]
  rfl

theorem Document.sound_spread (d : Document) : d.spread.Sound := by
  obtain ⟨spread, isObject⟩ := Derivation.membersThen_of_object d.isObject ⟨[], d.behind.bytes⟩
  have tail : (⟨[], d.behind.bytes⟩ : Spread).Sound := d.behind.not_mem (by decide)
  rw [Document.spread, isObject, Option.getD_some]
  exact (Derivation.membersThen_sound isObject tail).prepend (d.before.not_mem (by decide))

/-- `json_get_object` steps over spaces and no other white space. -/
theorem jsonGetObject_spaces {spaces rest : List UInt8} (p : Nat)
    (all : ∀ b ∈ spaces, b = space) :
    jsonGetObject .object (spaces ++ JsonType.object.opening :: rest) p =
      .ok (some (p + spaces.length)) := by
  induction spaces generalizing p with
  | nil => rfl
  | cons b spaces ih =>
    have isSpace : b = space := all b List.mem_cons_self
    rw [List.cons_append, isSpace]
    have step : jsonGetObject .object (space :: (spaces ++ JsonType.object.opening :: rest)) p =
        jsonGetObject .object (spaces ++ JsonType.object.opening :: rest) (p + 1) := rfl
    rw [step, ih (p + 1) fun c mem => all c (List.mem_cons_of_mem b mem), List.length_cons]
    congr 2
    omega

theorem findItem_prepend (key bytes : List UInt8) (spread : Spread) (pos : Nat) :
    findItem key (spread.prepend bytes).items pos =
      findItem key spread.items (pos + bytes.length) := by
  rcases spread with ⟨items, tail⟩
  cases items with
  | nil => rfl
  | cons item items =>
    simp only [Spread.prepend, findItem, Item.text, Item.front, List.length_append]
    split_ifs
    · congr 2
      omega
    · congr 1
      omega

theorem regular_prepend {key bytes : List UInt8} {spread : Spread} :
    Regular key (spread.prepend bytes).items ↔ Regular key spread.items := by
  rcases spread with ⟨items, tail⟩
  cases items <;> exact Iff.rfl

/-- Every member takes at least one byte. -/
theorem length_items_le (spread : Spread) : spread.items.length ≤ spread.text.length := by
  rcases spread with ⟨items, tail⟩
  rw [Spread.text, List.length_append]
  induction items with
  | nil => exact Nat.zero_le _
  | cons item items ih =>
    have item_length : 0 < item.text.length := by
      rw [Item.text, List.length_append, item.length_front]
      omega
    simp only [List.flatMap_cons, List.length_append, List.length_cons] at ih ⊢
    omega

/-- The pointer found is the start of the value, and its length delimits it. -/
theorem findItem_slice (key : List UInt8) (items : List Item) (tail : List UInt8) {text : List UInt8}
    {pos valueAt : Nat} {value : Value} (here : text.drop pos = Spread.text ⟨items, tail⟩)
    (found : findItem key items pos = some (valueAt, value)) :
    (text.drop (valueAt + value.type.extra)).take value.content.length = value.content := by
  induction items generalizing pos with
  | nil => cases found
  | cons item items ih =>
    have split : text.drop pos = item.front ++ (item.value.text ++ Spread.text ⟨items, tail⟩) := by
      rw [here]
      simp [Spread.text, Item.text]
    rw [findItem] at found
    split_ifs at found with isKey
    · cases found
      rw [← Derivation.length_quotes]
      have behind := drop_behind item.front split
      have content : item.value.text ++ Spread.text ⟨items, tail⟩ =
          item.value.quotes ++ (item.value.content ++ (item.value.quotes ++ Spread.text ⟨items,
              tail⟩)) := by
        cases item.value with
        | string chars => simp [Derivation.text, Derivation.quotes, Derivation.content,
            Derivation.type]
        | literal l => cases l <;> rfl
        | _ => rfl
      rw [content] at behind
      rw [drop_behind item.value.quotes behind, List.take_left]
    · refine ih ?_ found
      rw [Item.text, List.length_append, ← Nat.add_assoc]
      exact drop_behind _ (drop_behind _ split)

/-! ## The result -/

/-- The first top-level member of that name: where the text of its value begins, and the value. -/
def Document.find (d : Document) (key : List UInt8) : Option (Nat × Value) :=
  findItem key d.spread.items 0

/-- The pointer, length and type returned for a member, or `NULL` if there is none; for a
    `null` value the pointer is `NULL` as well. -/
def Delivers (result : Option Nat × Option (Nat × JsonType)) : Option (Nat × Value) → Prop
  | none => result.1 = none
  | some (pos, value) =>
    result = (if value.type = .null then none else some (pos + value.type.extra),
      some (value.content.length, value.type))

/-- `json_get_value_by_name` delivers the first top-level member of that name. -/
def LookupCorrect (s : CStr) (d : Document) (key : Key) : Prop :=
  ∃ result, jsonGetValueByName s key.bytes true = .ok result ∧ Delivers result (d.find key.bytes)

/-- Cutting a text at its length changes nothing. -/
theorem cut_at_length (s : CStr) :
    s.bytes.take s.length ++ 0 :: (memory s).drop (s.length + 1) = memory s := by
  rw [← length_memory, List.drop_length, CStr.length, List.take_length, memory]

/-- The search of a text that begins, behind spaces, with an object. -/
theorem jsonParseNameValue_spread {s : CStr} {spaces value key : List UInt8} {spread : Spread}
    (nonempty : key ≠ []) (text : s.bytes = spaces ++ spread.text)
    (opens : spread.text = JsonType.object.opening :: value) (all : ∀ b ∈ spaces, b = space)
    (sound : spread.Sound) (readsAs : ∀ item ∈ spread.items, ReadsAs key item.name)
    (reaches : Reaches key spread.items) (nv : JsonNv) :
    ∃ ret mem, jsonParseNameValue s s.length (jsonGetValueByNameCb s key) nv =
        .ok (ret, nv.searched (findItem key spread.items spaces.length), mem) ∧
      ((findItem key spread.items spaces.length).isSome → ret = jsonResultOk) := by
  have length : s.length = spaces.length + spread.text.length := by
    rw [CStr.length, text, List.length_append]
  have first : memory s = spaces ++ JsonType.object.opening :: (value ++ [0]) := by
    rw [memory, text, opens]
    simp
  have notEmpty : s.length ≠ 0 := by
    rw [length, opens, List.length_cons]
    omega
  have here : s.bytes.drop spaces.length = [] ++ Spread.text ⟨spread.items, spread.tail⟩ := by
    rw [text, List.drop_left]
    rfl
  have counted := length_items_le spread
  obtain ⟨ret, search, success⟩ := forEachRound_search nonempty nv spread.tail spread.items []
    spaces.length ((memory s).length + 1) jsonResultErr (by omega) here List.not_mem_nil sound
    readsAs reaches (by rw [length_memory]; omega)
  rw [List.length_nil, Nat.add_zero] at search success
  have start : jsonGetObject .object (memory s) 0 = .ok (some spaces.length) := by
    rw [first, jsonGetObject_spaces 0 all, Nat.zero_add]
  refine ⟨ret, memory s, ?_, success⟩
  rw [jsonParseNameValue, if_neg notEmpty, if_neg (Nat.lt_irrefl _), cut_at_length]
  simp only [forEach, start, bind, Except.bind, search]
  rfl

/-- The search of a document. -/
theorem jsonParseNameValue_document {s : CStr} {d : Document} (key : Key)
    (isText : s.bytes = d.text) (spaces : ∀ b ∈ d.before.bytes, b = space)
    (regular : Regular key.bytes d.spread.items) (nv : JsonNv) :
    ∃ ret mem, jsonParseNameValue s s.length (jsonGetValueByNameCb s key.bytes) nv =
        .ok (ret, nv.searched (d.find key.bytes), mem) ∧
      ((d.find key.bytes).isSome → ret = jsonResultOk) := by
  obtain ⟨spread, isObject⟩ := Derivation.membersThen_of_object d.isObject ⟨[], d.behind.bytes⟩
  obtain ⟨value, opening⟩ := Derivation.text_of_object d.isObject
  have spread_eq : d.spread = spread.prepend d.before.bytes := by
    rw [Document.spread, isObject, Option.getD_some]
  have spread_text := Derivation.membersThen_text isObject
  have text : s.bytes = d.before.bytes ++ spread.text := by
    rw [isText, Document.text, spread_text]
    rfl
  have tail : (⟨[], d.behind.bytes⟩ : Spread).Sound := d.behind.not_mem (by decide)
  have found : d.find key.bytes = findItem key.bytes spread.items d.before.bytes.length := by
    rw [Document.find, spread_eq, findItem_prepend, Nat.zero_add]
  rw [found]
  exact jsonParseNameValue_spread key.nonempty text
    (by rw [spread_text, opening, List.cons_append]) spaces
    (Derivation.membersThen_sound isObject tail) (fun item _ => key.readsAs item.name)
    (regular_prepend.mp (spread_eq ▸ regular)).reaches nv

/-- Where nothing is left of a value, the scanner took all of it. -/
theorem Derivation.scanned_eq_content (value : Value) (none : value.leftover = []) :
    value.scanned = value.content := by
  cases value with
  | number n =>
    have none : n.exponent = [] := none
    change n.mantissa = n.mantissa ++ n.exponent
    rw [none, List.append_nil]
  | _ => rfl

theorem Derivation.leftover_eq_nil (value : Value) (all : value.scanned = value.content) :
    value.leftover = [] := by
  cases value with
  | number n => exact List.self_eq_append_right.mp all
  | _ => rfl

/-- The member found is one that the scanner delimits. -/
theorem Regular.delimited {key : List UInt8} {items : List Item} (regular : Regular key items)
    {pos valueAt : Nat} {value : Value} (found : findItem key items pos = some (valueAt, value)) :
    value.Delimited := by
  induction items generalizing pos with
  | nil => cases found
  | cons item items ih =>
    have here := regular.2
    rw [findItem] at found
    by_cases isKey : decode item.name = key
    · rw [if_pos isKey] at found here
      cases found
      exact here.2
    · rw [if_neg isKey] at found here
      exact ih here.2 found

/-- As long as the scanner stays in step with the members up to the one looked for,
    `json_get_value_by_name` delivers it. -/
theorem lookup_correct (s : CStr) (d : Document) (key : Key) (isText : s.bytes = d.text)
    (spaces : ∀ b ∈ d.before.bytes, b = space) (regular : Regular key.bytes d.spread.items) :
    LookupCorrect s d key := by
  obtain ⟨ret, mem, parsed, success⟩ := jsonParseNameValue_document key isText spaces regular
    { pV := none, vLen := 0, vType := .string }
  cases search : d.find key.bytes with
  | none =>
    rw [search] at parsed
    rw [LookupCorrect, search]
    by_cases ok : ret = jsonResultOk
    · refine ⟨(none, some (0, .string)), ?_, rfl⟩
      rw [jsonGetValueByName]
      simp only [bind, Except.bind, parsed, JsonNv.searched, if_pos ok]
      rfl
    · refine ⟨(none, none), ?_, rfl⟩
      rw [jsonGetValueByName]
      simp only [bind, Except.bind, parsed, JsonNv.searched, if_neg ok]
      rfl
  | some found =>
    obtain ⟨pos, value⟩ := found
    have ok : ret = jsonResultOk := success (by rw [search]; rfl)
    have taken : value.scanned = value.content := value.scanned_eq_content (regular.delimited
        search).2.2
    rw [search] at parsed
    rw [LookupCorrect, search]
    refine ⟨_, ?_, rfl⟩
    rw [jsonGetValueByName]
    simp only [bind, Except.bind, parsed, JsonNv.searched, if_pos ok, true_and, taken]
    rfl

def Ws.empty : Ws := ⟨[], List.forall_mem_nil _⟩

/-- The key `a`. -/
def keyA : Key where
  bytes := [97]
  noNul := by decide
  nonempty := by decide
  noQuote := by decide
  noBackslash := by decide

/-- An object with one member `a`. -/
def memberA (value : Value) : Document where
  before := .empty
  value := .object (.member .empty [.plain 97 (by decide)] .empty .empty value .empty .endMembers)
  behind := .empty
  isObject := rfl

/-- `{"a":1}`. -/
theorem lookup_correct_number :
    LookupCorrect ⟨[123, 34, 97, 34, 58, 49, 125], by decide⟩
      (memberA (.number ⟨false, ⟨[49], List.cons_ne_nil _ _, List.forall_mem_singleton.mpr rfl⟩,
        none, none, fun zero => absurd zero (by decide)⟩)) keyA := by
  refine lookup_correct _ _ _ rfl (fun _ mem => by cases mem) ?_
  have name : NameInStep [StrChar.plain 97 (by decide)] := List.not_mem_nil
  exact ⟨name, rfl, trivial, List.cons_ne_nil _ _, rfl⟩

/-- The value of `a` in `{"a":{"x":"}"}}`. -/
def braceInString : Value :=
  .object (.member .empty [.plain 120 (by decide)] .empty .empty
    (.string [.plain 125 (by decide)]) .empty .endMembers)

/-- The brace in the string ends the value of `a`: `{"x":"}` is delivered. -/
theorem lookup_brace_in_string :
    (memberA braceInString).text =
        [123, 34, 97, 34, 58, 123, 34, 120, 34, 58, 34, 125, 34, 125, 125] ∧
      ¬ LookupCorrect
        ⟨[123, 34, 97, 34, 58, 123, 34, 120, 34, 58, 34, 125, 34, 125, 125], by decide⟩
        (memberA braceInString) keyA := by
  refine ⟨rfl, ?_⟩
  rintro ⟨result, lookup, delivers⟩
  have found : jsonGetValueByName
      ⟨[123, 34, 97, 34, 58, 123, 34, 120, 34, 58, 34, 125, 34, 125, 125], by decide⟩
      keyA.bytes true = .ok (some 5, some (7, .object)) := by
    decide +kernel
  have member : (memberA braceInString).find keyA.bytes = some (5, braceInString) := rfl
  rw [found] at lookup
  rw [member] at delivers
  cases lookup
  have length : some (7, JsonType.object) = some (braceInString.content.length, .object) :=
    congrArg Prod.snd delivers
  exact absurd length (by decide)

end QcloudIot.Json
