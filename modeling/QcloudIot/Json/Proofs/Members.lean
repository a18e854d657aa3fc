import QcloudIot.Json.Grammar
import QcloudIot.Json.Proofs.Scanner
import QcloudIot.Misc.Balanced

/-!
# The scanner on well-formed members

Where a text is derived by the grammar, the scanner finds a member as it is, as long as it
stays in step: brackets inside strings have to balance, a string must not end in an escaped
backslash, and a name must not have a colon behind an escaped quote. A number is taken up
to its exponent.
-/

namespace QcloudIot.Json

open Mqtt (CStr)

/-! ## Strings -/

/-- A byte other than a quote is passed over. -/
theorem scanValue_string_char {value rest : List UInt8} {b lastchr : UInt8}
    {n iMarkDepth iValueLen : Nat} (char : b ≠ 0) (other : b ≠ quote) :
    scanValue .string value (b :: rest) n iMarkDepth lastchr iValueLen =
      scanValue .string value rest (n + 1) iMarkDepth b iValueLen := by
  rw [scanValue.eq_def]
  simp only [if_neg char, JsonType.closing, JsonType.opening, other, if_false]

/-- A quote behind a backslash is passed over, and the byte behind it is the last one seen. -/
theorem scanValue_string_escaped {value rest : List UInt8} {next : UInt8} {n iValueLen : Nat} :
    scanValue .string value (quote :: next :: rest) n 0 backslash iValueLen =
      scanValue .string value (next :: rest) (n + 1) 0 next n := by
  rw [scanValue.eq_def]
  rfl

/-- Any other quote ends the string. -/
theorem scanValue_string_close {value rest : List UInt8} {lastchr : UInt8} {n iValueLen : Nat}
    (plain : lastchr ≠ backslash) :
    scanValue .string value (quote :: rest) n 0 lastchr iValueLen = .ok n := by
  rw [scanValue.eq_def]
  simp only [JsonType.closing, if_true, plain, and_false, if_false, Nat.add_zero]
  rfl

theorem HexDigit.ne (d : HexDigit) : d.byte ≠ 0 ∧ d.byte ≠ quote ∧ d.byte ≠ backslash := by
  refine ⟨?_, ?_, ?_⟩
  all_goals
    intro eq
    have valid := d.valid
    rw [eq] at valid
    exact absurd valid (by decide)

/-- The first byte of a character is not a quote. -/
theorem StrChar.text_head (char : StrChar) : ∃ b rest, char.text = b :: rest ∧ b ≠ quote := by
  cases char with
  | plain b valid => exact ⟨b, [], rfl, valid.2.1⟩
  | escape b valid => exact ⟨backslash, [b], rfl, by decide⟩
  | unicode h₁ h₂ h₃ h₄ => exact ⟨backslash, _, rfl, by decide⟩

/-- Bytes that stand for themselves are a string. -/
theorem exists_charsText {bytes : List UInt8}
    (plain : ∀ b ∈ bytes, 32 ≤ b ∧ b ≠ quote ∧ b ≠ backslash) :
    ∃ chars, charsText chars = bytes := by
  induction bytes with
  | nil => exact ⟨[], rfl⟩
  | cons b bytes ih =>
    obtain ⟨chars, text⟩ := ih fun c mem => plain c (List.mem_cons_of_mem _ mem)
    exact ⟨.plain b (plain b List.mem_cons_self) :: chars, congrArg (b :: ·) text⟩

/-- The scanner takes a quote for the closing one exactly if no backslash stands before it, so
    it finds the end of a string that does not end in a backslash. -/
theorem scanValue_string {value rest : List UInt8} (chars : List StrChar) :
    ∀ (n iValueLen : Nat) (lastchr : UInt8), (0 : UInt8) ∉ charsText chars →
      (chars = [] → lastchr ≠ backslash) → (charsText chars).getLast? ≠ some backslash →
      scanValue .string value (charsText chars ++ quote :: rest) n 0 lastchr iValueLen =
        .ok (n + (charsText chars).length) := by
  induction chars with
  | nil =>
    intro n iValueLen lastchr _ last _
    exact scanValue_string_close (last rfl)
  | cons char chars ih =>
    intro n iValueLen lastchr noNul _ ending
    have split : charsText (char :: chars) = char.text ++ charsText chars := rfl
    rw [split] at noNul ending ⊢
    rw [List.mem_append, not_or] at noNul
    -- the end of the whole text, seen from behind its first character
    have ending' : (charsText chars).getLast? ≠ some backslash := by
      intro bad
      rw [List.getLast?_append, bad] at ending
      exact ending rfl
    have lastOf : ∀ b, char.text.getLast? = some b → chars = [] → b ≠ backslash := by
      intro b last none bad
      rw [none] at ending
      simp only [charsText, List.flatMap_nil, List.append_nil] at ending
      exact ending (by rw [last, bad])
    have length : n + (char.text ++ charsText chars).length =
        n + char.text.length + (charsText chars).length := by
      rw [List.length_append, Nat.add_assoc]
    rw [length, List.append_assoc]
    cases char with
    | plain b valid =>
      have char : b ≠ 0 := fun nul => noNul.1 (List.mem_cons.mpr (.inl nul.symm))
      rw [StrChar.text, List.singleton_append, scanValue_string_char char valid.2.1]
      exact ih (n + 1) iValueLen b noNul.2 (lastOf b rfl) ending'
    | escape b valid =>
      rw [StrChar.text, List.cons_append, scanValue_string_char (by decide) (by decide),
        List.singleton_append]
      by_cases isQuote : b = quote
      · rw [isQuote]
        -- the quote is passed over, and the byte behind it is not a backslash if it is the last
        cases chars with
        | nil =>
          rw [charsText, List.flatMap_nil, List.nil_append, scanValue_string_escaped]
          exact scanValue_string_close (by decide)
        | cons next chars =>
          obtain ⟨c, tail, text, _⟩ := next.text_head
          have head : charsText (next :: chars) = c :: (tail ++ charsText chars) := by
            rw [charsText, List.flatMap_cons, text]
            rfl
          have rest' := ih (n + 2) (n + 1) c noNul.2 (fun none => by cases none) ending'
          rw [head, List.cons_append, scanValue_string_escaped]
          rw [head, List.cons_append] at rest'
          exact rest'
      · have char : b ≠ 0 := fun nul =>
          noNul.1 (List.mem_cons_of_mem _ (List.mem_cons.mpr (.inl nul.symm)))
        rw [scanValue_string_char char isQuote]
        exact ih (n + 2) iValueLen b noNul.2 (lastOf b rfl) ending'
    | unicode h₁ h₂ h₃ h₄ =>
      simp only [StrChar.text, List.cons_append, List.nil_append]
      rw [scanValue_string_char (by decide) (by decide),
        scanValue_string_char (by decide) (by decide), scanValue_string_char h₁.ne.1 h₁.ne.2.1,
        scanValue_string_char h₂.ne.1 h₂.ne.2.1, scanValue_string_char h₃.ne.1 h₃.ne.2.1,
        scanValue_string_char h₄.ne.1 h₄.ne.2.1]
      exact ih (n + 6) iValueLen h₄.byte noNul.2 (lastOf h₄.byte rfl) ending'

/-! ## Numbers, literals and brackets -/

/-- The scanner takes the digits and dots of a number. -/
theorem scanValue_number {value digits rest : List UInt8} {behind : UInt8}
    (valid : ∀ b ∈ digits, isDigit b = true ∨ b = dot)
    (stops : behind ≠ 0 ∧ isDigit behind = false ∧ behind ≠ dot) :
    ∀ (n iMarkDepth iValueLen : Nat) (lastchr : UInt8),
      scanValue .number value (digits ++ behind :: rest) n iMarkDepth lastchr iValueLen =
        .ok (n + digits.length) := by
  induction digits with
  | nil =>
    intro n iMarkDepth iValueLen lastchr
    have stop : ¬ isDigit behind = true ∧ behind ≠ dot := ⟨by simp [stops.2.1], stops.2.2⟩
    rw [List.nil_append, scanValue.eq_def]
    simp only [if_neg stops.1, if_pos stop]
    rfl
  | cons b digits ih =>
    intro n iMarkDepth iValueLen lastchr
    have digit := valid b List.mem_cons_self
    have char : b ≠ 0 := by
      rintro rfl
      exact absurd digit (by decide)
    have goesOn : ¬ (¬ isDigit b = true ∧ b ≠ dot) := by
      rintro ⟨noDigit, noDot⟩
      exact digit.elim noDigit noDot
    rw [List.cons_append, scanValue.eq_def]
    simp only [if_neg char, if_neg goesOn]
    rw [ih (fun c mem => valid c (List.mem_cons_of_mem b mem)), List.length_cons]
    congr 1
    omega

theorem scanValue_bracket_step {type : JsonType} {value : List UInt8}
    (brackets : type = .object ∨ type = .array) (b : UInt8) (rest : List UInt8)
    (n depth iValueLen : Nat) (lastchr : UInt8) (char : b ≠ 0) :
    scanValue type value (b :: rest) n depth lastchr iValueLen =
      if b = type.closing then
        match depth with
        | 0 => .ok (n + 1)
        | depth + 1 => scanValue type value rest (n + 1) depth b iValueLen
      else if b = type.opening then scanValue type value rest (n + 1) (depth + 1) b iValueLen
      else scanValue type value rest (n + 1) depth b iValueLen := by
  rw [scanValue.eq_def]
  simp only [if_neg char]
  rcases brackets with rfl | rfl
  all_goals cases depth <;> simp

/-- The scanner finds the bracket that closes a balanced text. -/
theorem scanValue_brackets {type : JsonType} {value body rest : List UInt8}
    (brackets : type = .object ∨ type = .array) (noNul : (0 : UInt8) ∉ body) :
    ∀ (depth n iValueLen : Nat) (lastchr : UInt8),
      nest type.opening type.closing depth body = some 0 →
      scanValue type value (body ++ type.closing :: rest) n depth lastchr iValueLen =
        .ok (n + body.length + 1) := by
  have closing : type.closing ≠ 0 := by
    rcases brackets with rfl | rfl <;> decide
  induction body with
  | nil =>
    intro depth n iValueLen lastchr balanced
    cases balanced
    rw [List.nil_append, scanValue_bracket_step brackets _ _ _ _ _ _ closing, if_pos rfl]
    rfl
  | cons b body ih =>
    intro depth n iValueLen lastchr balanced
    rw [List.mem_cons, not_or] at noNul
    have length : n + (b :: body).length + 1 = n + 1 + body.length + 1 := by
      rw [List.length_cons]
      omega
    rw [nest_cons] at balanced
    rw [List.cons_append, scanValue_bracket_step brackets _ _ _ _ _ _ (Ne.symm noNul.1), length]
    split_ifs at balanced ⊢ with close open_
    · cases depth with
      | zero => cases balanced
      | succ depth => exact ih noNul.2 depth (n + 1) iValueLen b balanced
    · exact ih noNul.2 (depth + 1) (n + 1) iValueLen b balanced
    · exact ih noNul.2 depth (n + 1) iValueLen b balanced

/-! ## Values -/

/-- The scanner finds the end of the value: a string does not end in an escaped backslash, the
    brackets of an object or an array balance when those inside strings are counted. -/
def Derivation.InStep : Value → Prop
  | .string chars => (charsText chars).getLast? ≠ some backslash
  | .object members => Balanced JsonType.object.opening JsonType.object.closing members.text
  | .array elements => Balanced JsonType.array.opening JsonType.array.closing elements.text
  | _ => True

/-- What the scanner takes of a value: a number ends at its exponent. -/
def Derivation.scanned : Value → List UInt8
  | .number n => n.mantissa
  | value => value.content

/-- What it leaves of the value. -/
def Derivation.leftover : Value → List UInt8
  | .number n => n.exponent
  | _ => []

/-- The quotes of a string. -/
def Derivation.quotes (value : Value) : List UInt8 := if value.type = .string then [quote] else []

/-- The text of a value, as the scanner divides it. -/
theorem Derivation.text_split (value : Value) :
    value.text = value.quotes ++ (value.scanned ++ (value.quotes ++ value.leftover)) := by
  cases value with
  | string chars => rfl
  | number n => rfl
  | literal l => cases l <;> rfl
  | emptyObject ws => simp [quotes, type, scanned, leftover, content]
  | object members => simp [quotes, type, scanned, leftover, content]
  | emptyArray ws => simp [quotes, type, scanned, leftover, content]
  | array elements => simp [quotes, type, scanned, leftover, content]

theorem Derivation.length_quotes (value : Value) : value.quotes.length = value.type.extra := by
  rw [quotes, JsonType.extra]
  split <;> rfl

/-- A number ends in front of `rest`. -/
def Stops (rest : List UInt8) : Prop :=
  ∃ b tail, rest = b :: tail ∧ b ≠ 0 ∧ isDigit b = false ∧ b ≠ dot

/-- A value found in front of the bytes by which its start is recognised. -/
theorem takeValue_found {mem skipped here rest : List UInt8} {pos p len : Nat} {type : JsonType}
    (text : mem.drop pos = skipped ++ here) (noNul : (0 : UInt8) ∉ skipped)
    (other : ∀ b ∈ skipped, startsValue b = false)
    (start : findValue here (pos + skipped.length) =
      .ok (type, some (pos + skipped.length + type.extra), p))
    (behind : mem.drop p = rest)
    (scanned : scanValue type (mem.drop (pos + skipped.length + type.extra)) rest
      (p - (pos + skipped.length + type.extra)) 0 (if type = .string then quote else space) 0 =
      .ok len) :
    takeValue mem (some pos) = .ok (some (pos + skipped.length + type.extra), len, type) := by
  rw [takeValue, text, findValue_skip _ pos other noNul, start]
  simp only [bind, Except.bind, pure, Except.pure]
  rw [behind, scanned]

/-- An object or an array whose brackets balance is found up to its closing bracket. -/
theorem takeValue_brackets {mem skipped body rest : List UInt8} {pos : Nat} {type : JsonType}
    (brackets : type = .object ∨ type = .array)
    (text : mem.drop pos = skipped ++ type.opening :: (body ++ type.closing :: rest))
    (noNul : (0 : UInt8) ∉ skipped) (body_noNul : (0 : UInt8) ∉ body)
    (other : ∀ b ∈ skipped, startsValue b = false)
    (balanced : Balanced type.opening type.closing body) :
    takeValue mem (some pos) =
      .ok (some (pos + skipped.length + type.extra), body.length + 2, type) := by
  have here := drop_behind _ text
  have behind : mem.drop (pos + skipped.length + 1) = body ++ type.closing :: rest :=
    drop_behind [type.opening] here
  have extra : type.extra = 0 := by
    rcases brackets with rfl | rfl <;> rfl
  have start : findValue (type.opening :: (body ++ type.closing :: rest)) (pos + skipped.length) =
      .ok (type, some (pos + skipped.length + type.extra), pos + skipped.length + 1) := by
    rcases brackets with rfl | rfl <;> rfl
  refine takeValue_found text noNul other start behind ?_
  rw [extra, Nat.add_zero, Nat.add_sub_cancel_left,
    scanValue_brackets brackets body_noNul 0 1 0 _ balanced]
  congr 1
  omega

theorem takeValue_bracketed {mem skipped body rest : List UInt8} {pos : Nat} (value : Value)
    (brackets : value.type = .object ∨ value.type = .array)
    (bracketed : value.text = value.type.opening :: (body ++ [value.type.closing]))
    (text : mem.drop pos = skipped ++ (value.text ++ rest))
    (noNul : (0 : UInt8) ∉ skipped ∧ (0 : UInt8) ∉ value.text)
    (other : ∀ b ∈ skipped, startsValue b = false)
    (balanced : Balanced value.type.opening value.type.closing body) :
    takeValue mem (some pos) = .ok (some (pos + skipped.length + value.type.extra),
      value.scanned.length, value.type) := by
  have split : mem.drop pos = skipped ++ value.type.opening :: (body ++ value.type.closing :: rest)
      := by
    rw [text, bracketed]
    simp
  have body_noNul : (0 : UInt8) ∉ body := fun nul =>
    noNul.2 (by
      rw [bracketed]
      exact List.mem_cons_of_mem _ (List.mem_append_left _ nul))
  have length : value.scanned.length = body.length + 2 := by
    have whole : value.scanned = value.text := by
      cases value with
      | string chars => rcases brackets with h | h <;> cases h
      | number n => rcases brackets with h | h <;> cases h
      | _ => rfl
    rw [whole, bracketed]
    simp
  rw [length]
  exact takeValue_brackets brackets split noNul.1 body_noNul other balanced

/-- White space contains nothing else. -/
theorem Ws.not_mem (ws : Ws) {b : UInt8} (other : ¬ (b = space ∨ b = 9 ∨ b = 10 ∨ b = 13)) :
    b ∉ ws.bytes := fun mem => other (ws.valid b mem)

theorem startsNumber {b : UInt8} (digit : isDigit b = true) :
    b ≠ 0 ∧ b ≠ quote ∧ b ≠ JsonType.object.opening ∧ b ≠ JsonType.array.opening ∧ b ≠ minus := by
  refine ⟨?_, ?_, ?_, ?_, ?_⟩
  all_goals
    rintro rfl
    exact absurd digit (by decide)

/-- The digits of a number in front of its exponent, and the dot among them. -/
theorem Number.digits_valid (n : Number) :
    ∀ b ∈ n.int.bytes ++ (match n.frac with | none => [] | some digits => dot :: digits.bytes),
      isDigit b = true ∨ b = dot := by
  intro b mem
  rcases List.mem_append.mp mem with mem | mem
  · exact .inl (n.int.valid b mem)
  · cases found : n.frac with
    | none =>
      rw [found] at mem
      cases mem
    | some digits =>
      rw [found] at mem
      rcases List.mem_cons.mp mem with isDot | mem
      · exact .inr isDot
      · exact .inl (digits.valid b mem)

/-- The text of a number up to its exponent: a first character and digits and dots. -/
theorem Number.mantissa_cons (n : Number) : ∃ first digits, n.mantissa = first :: digits ∧
    (first = minus ∨ isDigit first = true) ∧ ∀ b ∈ digits, isDigit b = true ∨ b = dot := by
  have all := n.digits_valid
  rw [mantissa]
  cases negative : n.negative with
  | true => exact ⟨minus, _, rfl, .inl rfl, all⟩
  | false =>
    cases split : n.int.bytes with
    | nil => exact absurd split n.int.nonempty
    | cons first rest =>
      refine ⟨first, _, rfl, .inr (n.int.valid first (by rw [split]; exact List.mem_cons_self)), ?_⟩
      intro b mem
      exact all b (by rw [split]; exact List.mem_cons_of_mem _ mem)

/-- An exponent does not begin with a digit or a dot. -/
theorem Number.exponent_stops (n : Number) {rest : List UInt8} (stops : Stops rest) :
    Stops (n.exponent ++ rest) := by
  rw [exponent]
  cases found : n.exp with
  | none => exact stops
  | some exp =>
    refine ⟨exp.e, _, rfl, ?_⟩
    rcases exp.valid.1 with e | e
    all_goals
      rw [e]
      decide

/-- A number is found up to its exponent. -/
theorem takeValue_number {mem skipped rest : List UInt8} {pos : Nat} (n : Number)
    (text : mem.drop pos = skipped ++ (n.mantissa ++ (n.exponent ++ rest)))
    (noNul : (0 : UInt8) ∉ skipped) (other : ∀ b ∈ skipped, startsValue b = false)
    (stops : Stops rest) :
    takeValue mem (some pos) =
      .ok (some (pos + skipped.length + JsonType.number.extra), n.mantissa.length, .number) := by
  obtain ⟨first, digits, split, start, valid⟩ := n.mantissa_cons
  obtain ⟨stop, tail, behindNumber, stops⟩ := n.exponent_stops stops
  rw [split, List.cons_append] at text
  have here := drop_behind _ text
  have behind : mem.drop (pos + skipped.length + 1) = digits ++ stop :: tail := by
    rw [← behindNumber]
    exact drop_behind [first] here
  have found : findValue (first :: (digits ++ (n.exponent ++ rest))) (pos + skipped.length) =
      .ok (.number, some (pos + skipped.length + JsonType.number.extra),
        pos + skipped.length + 1) := by
    rcases start with rfl | digit
    · rfl
    · obtain ⟨h₀, h₁, h₂, h₃, _⟩ := startsNumber digit
      rw [findValue, if_neg h₀, if_neg h₁, if_neg h₂, if_neg h₃, if_pos (.inr digit)]
      rfl
  refine takeValue_found text noNul other found behind ?_
  have extra : JsonType.number.extra = 0 := rfl
  rw [extra, Nat.add_zero, Nat.add_sub_cancel_left, scanValue_number valid stops, split,
    List.length_cons, Nat.add_comm]

/-- The scanner finds a value that it can stay in step with. -/
theorem takeValue_value {mem skipped rest : List UInt8} {pos : Nat} (value : Value)
    (text : mem.drop pos = skipped ++ (value.text ++ rest))
    (noNul : (0 : UInt8) ∉ skipped ++ value.text) (other : ∀ b ∈ skipped, startsValue b = false)
    (inStep : value.InStep) (stops : Stops rest) :
    takeValue mem (some pos) = .ok (some (pos + skipped.length + value.type.extra),
      value.scanned.length, value.type) := by
  rw [List.mem_append, not_or] at noNul
  have here := drop_behind _ text
  cases value with
  | string chars =>
    change takeValue mem (some pos) =
      .ok (some (pos + skipped.length + JsonType.string.extra), (charsText chars).length, .string)
    have behind : mem.drop (pos + skipped.length + 1) = charsText chars ++ quote :: rest :=
      drop_behind [quote] (by rw [here, Derivation.text]; simp)
    have chars_noNul : (0 : UInt8) ∉ charsText chars := fun nul =>
      noNul.2 (List.mem_cons_of_mem _ (List.mem_append_left _ nul))
    refine takeValue_found text noNul.1 other rfl behind ?_
    have scanned := @scanValue_string (mem.drop (pos + skipped.length + 1)) rest chars 0 0 quote
      chars_noNul (fun _ => by decide) inStep
    rw [Nat.zero_add] at scanned
    have extra : JsonType.string.extra = 1 := rfl
    rw [extra, Nat.sub_self]
    exact scanned
  | number n =>
    exact takeValue_number n (by rw [text, Derivation.text, List.append_assoc]) noNul.1 other stops
  | literal l =>
    change takeValue mem (some pos) = .ok (some (pos + skipped.length + (Derivation.type
      (.literal l)).extra), l.text.length, Derivation.type (.literal l))
    have value : mem.drop (pos + skipped.length + (Derivation.type (.literal l)).extra) =
        l.text ++ rest := by
      rw [← Derivation.length_quotes]
      cases l <;> exact here
    cases l with
    | true =>
      refine takeValue_found text noNul.1 other rfl here ?_
      rw [value]
      rfl
    | false =>
      refine takeValue_found text noNul.1 other rfl here ?_
      rw [value]
      rfl
    | null =>
      refine takeValue_found text noNul.1 other rfl here ?_
      rw [value]
      rfl
  | emptyObject ws =>
    have balanced : Balanced JsonType.object.opening JsonType.object.closing ws.bytes :=
      .of_not_mem (ws.not_mem (by decide)) (ws.not_mem (by decide))
    exact takeValue_bracketed (.emptyObject ws) (.inl rfl) rfl text noNul other balanced
  | object members =>
    exact takeValue_bracketed (.object members) (.inl rfl) rfl text noNul other inStep
  | emptyArray ws =>
    have balanced : Balanced JsonType.array.opening JsonType.array.closing ws.bytes :=
      .of_not_mem (ws.not_mem (by decide)) (ws.not_mem (by decide))
    exact takeValue_bracketed (.emptyArray ws) (.inr rfl) rfl text noNul other balanced
  | array elements =>
    exact takeValue_bracketed (.array elements) (.inr rfl) rfl text noNul other inStep

/-! ## Members -/

/-- The scanner finds the colon of a member: none stands behind an escaped quote of its name. -/
def NameInStep (name : List StrChar) : Prop := colon ∉ (charsText name).dropWhile (· ≠ quote)

/-- What the scanner takes for the name. -/
def scannedName (name : List StrChar) : List UInt8 := (charsText name).takeWhile (· ≠ quote)

theorem scannedName_eq {name : List StrChar} (plain : quote ∉ charsText name) :
    scannedName name = charsText name := by
  rw [scannedName, List.takeWhile_eq_self_iff]
  intro b mem
  have : b ≠ quote := fun isQuote => plain (isQuote ▸ mem)
  simpa using this

/-- A quote in a name is escaped. -/
theorem backslash_mem_scannedName {name : List StrChar} (quoted : quote ∈ charsText name) :
    backslash ∈ scannedName name := by
  induction name with
  | nil => cases quoted
  | cons char name ih =>
    have split : charsText (char :: name) = char.text ++ charsText name := rfl
    rw [scannedName, split]
    cases char with
    | plain b valid =>
      have other : b ≠ quote := valid.2.1
      have later : quote ∈ charsText name := by
        rw [split, StrChar.text, List.singleton_append] at quoted
        exact (List.mem_cons.mp quoted).resolve_left (Ne.symm other)
      rw [StrChar.text, List.singleton_append, List.takeWhile_cons_of_pos (by simpa using other)]
      exact List.mem_cons_of_mem _ (ih later)
    | escape b valid =>
      rw [StrChar.text, List.cons_append, List.takeWhile_cons_of_pos (by decide)]
      exact List.mem_cons_self
    | unicode h₁ h₂ h₃ h₄ =>
      rw [StrChar.text, List.cons_append, List.takeWhile_cons_of_pos (by decide)]
      exact List.mem_cons_self

/-- The key and the colon of a member whose name may have escaped quotes. -/
theorem findKey_name {mem gap middle rest : List UInt8} {str : Nat} {name : List StrChar}
    (text : mem.drop str = gap ++ quote :: (charsText name ++ quote :: (middle ++ colon :: rest)))
    (noNul : (0 : UInt8) ∉ gap ++ charsText name ++ middle) (gapOther : quote ∉ gap)
    (inStep : NameInStep name) (middleOther : colon ∉ middle) :
    findKey mem str = .ok (some ((str + gap.length + 1, (scannedName name).length),
      some (str + gap.length + 1 + (charsText name).length + 1 + middle.length))) := by
  by_cases quoted : quote ∈ charsText name
  · obtain ⟨first, behind, split, other⟩ := List.eq_append_cons_of_mem quoted
    have head : ∀ b ∈ first, decide (b ≠ quote) = true := by
      intro b mem
      have : b ≠ quote := fun isQuote => other (isQuote ▸ mem)
      simpa using this
    have scanned : scannedName name = first := by
      rw [scannedName, split, List.takeWhile_append_of_pos head, List.takeWhile_cons_of_neg (by simp),
        List.append_nil]
    have behindOther : colon ∉ behind := by
      intro mem
      refine inStep ?_
      rw [split, List.dropWhile_append_of_pos head, List.dropWhile_cons_of_neg (by simp)]
      exact List.mem_cons_of_mem _ mem
    rw [split] at text noNul ⊢
    simp only [List.mem_append, List.mem_cons, not_or] at noNul
    have found := @findKey_found mem gap first (behind ++ quote :: middle) rest str
      (by rw [text]; simp)
      (by
        simp only [List.mem_append, List.mem_cons, not_or]
        exact ⟨⟨noNul.1.1, noNul.1.2.1⟩, noNul.1.2.2.2, by decide, noNul.2⟩)
      gapOther other
      (by
        simp only [List.mem_append, List.mem_cons, not_or]
        exact ⟨behindOther, by decide, middleOther⟩)
    rw [found, scanned]
    simp only [List.length_append, List.length_cons]
    congr 4
    omega
  · rw [scannedName_eq quoted]
    exact findKey_found text noNul gapOther quoted middleOther

theorem Ws.startsValue (ws : Ws) : ∀ b ∈ ws.bytes, startsValue b = false := by
  intro b mem
  rcases ws.valid b mem with rfl | rfl | rfl | rfl <;> rfl

/-- What the scanner delivers of a member at `pos`. -/
def Item.found (item : Item) (pos : Nat) : NextObject :=
  .of (some (pos + item.gap.length + 1, (scannedName item.name).length))
    (some (pos + item.front.length + item.value.type.extra)) item.value.scanned.length
    item.value.type

theorem Item.length_front (item : Item) : item.front.length =
    item.gap.length + (charsText item.name).length + item.middle.bytes.length +
      item.after.bytes.length + 3 := by
  simp only [front, List.length_append, List.length_cons]
  omega

/-- One call of `json_get_next_object` delivers the next member. -/
theorem jsonGetNextObject_item {mem rest : List UInt8} {pos : Nat} (item : Item)
    (text : mem.drop pos = item.text ++ rest) (noNul : (0 : UInt8) ∉ item.text)
    (noQuote : quote ∉ item.gap) (name : NameInStep item.name) (value : item.value.InStep)
    (stops : Stops rest) :
    jsonGetNextObject .object mem pos = .ok (some (item.found pos)) := by
  have split : mem.drop pos = item.gap ++ quote :: (charsText item.name ++ quote ::
      (item.middle.bytes ++ colon :: (item.after.bytes ++ (item.value.text ++ rest)))) := by
    rw [text, Item.text, Item.front]
    simp
  simp only [Item.text, Item.front, List.mem_append, List.mem_cons, not_or] at noNul
  obtain ⟨⟨gap, _, nameNul, _, middle, _, after⟩, valueNul⟩ := noNul
  have key := findKey_name split
    (by
      simp only [List.mem_append, not_or]
      exact ⟨⟨gap, nameNul⟩, middle⟩) noQuote name (item.middle.not_mem (by decide))
  have here := drop_behind item.middle.bytes (drop_behind [quote]
    (drop_behind (charsText item.name) (drop_behind [quote] (drop_behind item.gap split))))
  have found := @takeValue_value mem (colon :: item.after.bytes) rest _ item.value here
    (by
      simp only [List.mem_append, List.mem_cons, not_or]
      exact ⟨⟨by decide, after⟩, valueNul⟩)
    (by
      intro b mem
      rcases List.mem_cons.mp mem with rfl | mem
      · rfl
      · exact item.after.startsValue b mem) value stops
  have start : pos + item.gap.length + [quote].length + (charsText item.name).length +
      [quote].length + item.middle.bytes.length + (colon :: item.after.bytes).length =
      pos + item.front.length := by
    rw [item.length_front]
    simp only [List.length_cons, List.length_nil]
    omega
  rw [start] at found
  exact jsonGetNextObject_object key found

/-- Where the scanner goes on: behind what it took of the value. -/
theorem Item.drop_next {mem rest : List UInt8} {pos : Nat} (item : Item)
    (text : mem.drop pos = item.text ++ rest) :
    mem.drop (pos + item.front.length + item.value.type.extra + item.value.scanned.length +
      item.value.type.extra) = item.value.leftover ++ rest := by
  rw [← item.value.length_quotes]
  refine drop_behind _ (drop_behind _ (drop_behind _ (drop_behind item.front ?_)))
  rw [text, Item.text, Derivation.text_split item.value]
  simp

/-! ## Rows of members -/

/-- Between the values of a row there are no quotes but those of the names, and each value is
    followed by a byte at which a number ends. -/
def SoundItems : List Item → List UInt8 → Prop
  | [], tail => quote ∉ tail
  | item :: items, tail =>
    quote ∉ item.gap ∧ Stops (Spread.text ⟨items, tail⟩) ∧ SoundItems items tail

def Spread.Sound (spread : Spread) : Prop := SoundItems spread.items spread.tail

theorem Spread.text_prepend (bytes : List UInt8) (spread : Spread) :
    (spread.prepend bytes).text = bytes ++ spread.text := by
  rcases spread with ⟨items, tail⟩
  cases items with
  | nil => rfl
  | cons item items => simp [prepend, text, Item.text, Item.front]

theorem Spread.Sound.prepend {bytes : List UInt8} {spread : Spread} (noQuote : quote ∉ bytes)
    (sound : spread.Sound) : (spread.prepend bytes).Sound := by
  rcases spread with ⟨items, tail⟩
  cases items with
  | nil =>
    intro mem
    exact (List.mem_append.mp mem).elim noQuote sound
  | cons item items =>
    refine ⟨fun mem => ?_, sound.2.1, sound.2.2⟩
    exact (List.mem_append.mp mem).elim noQuote sound.1

theorem Ws.stops_append (ws : Ws) {rest : List UInt8} (stops : Stops rest) :
    Stops (ws.bytes ++ rest) := by
  cases split : ws.bytes with
  | nil => exact stops
  | cons b bytes =>
    refine ⟨b, bytes ++ rest, rfl, ?_⟩
    have valid := ws.valid b (by rw [split]; exact List.mem_cons_self)
    rcases valid with rfl | rfl | rfl | rfl <;> decide

theorem Derivation.text_spread {kind : Kind} (derivation : Derivation kind) (gap : List UInt8)
    (follows : Spread) (isMembers : kind = .members ∨ kind = .moreMembers) :
    (derivation.spread gap follows).text = gap ++ (derivation.text ++ follows.text) := by
  induction derivation generalizing gap with
  | member before name middle after value behind more _ ih =>
    have rest := ih behind.bytes (.inr rfl)
    rw [spread, Spread.text, List.flatMap_cons, List.append_assoc]
    rw [Spread.text] at rest
    rw [rest]
    simp [Item.text, Item.front, text]
  | endMembers => exact Spread.text_prepend gap follows
  | nextMember members ih =>
    rw [spread, ih _ (.inl rfl)]
    simp [text]
  | _ => rcases isMembers with h | h <;> cases h

theorem Derivation.stops_more (more : Derivation .moreMembers) {rest : List UInt8}
    (stops : Stops rest) : Stops (more.text ++ rest) := by
  cases more with
  | endMembers => exact stops
  | nextMember members => exact ⟨comma, members.text ++ rest, rfl, by decide⟩

theorem Derivation.sound_spread {kind : Kind} (derivation : Derivation kind) {gap : List UInt8}
    {follows : Spread} (noQuote : quote ∉ gap) (stops : Stops follows.text)
    (sound : follows.Sound) : (derivation.spread gap follows).Sound := by
  induction derivation generalizing gap with
  | member before name middle after value behind more _ ih =>
    have rest := ih (behind.not_mem (by decide))
    refine ⟨fun mem => ?_, ?_, rest⟩
    · exact (List.mem_append.mp mem).elim noQuote (before.not_mem (by decide))
    · have text := more.text_spread behind.bytes follows (.inr rfl)
      change Stops (more.spread behind.bytes follows).text
      rw [text]
      exact behind.stops_append (more.stops_more stops)
  | nextMember members ih =>
    refine ih (fun mem => ?_)
    rcases List.mem_append.mp mem with mem | mem
    · exact noQuote mem
    · exact absurd (List.mem_singleton.mp mem) (by decide)
  | _ => exact sound.prepend noQuote

/-- The members of an object and what follows are its text and what follows. -/
theorem Derivation.membersThen_text {value : Value} {follows spread : Spread}
    (isObject : value.membersThen follows = some spread) :
    spread.text = value.text ++ follows.text := by
  cases value with
  | emptyObject ws =>
    cases isObject
    rw [Spread.text_prepend]
    rfl
  | object members =>
    cases isObject
    rw [members.text_spread _ _ (.inl rfl), Spread.text_prepend]
    simp [text]
  | _ => cases isObject

theorem Derivation.membersThen_sound {value : Value} {follows spread : Spread}
    (isObject : value.membersThen follows = some spread) (sound : follows.Sound) : spread.Sound := by
  cases value with
  | emptyObject ws =>
    cases isObject
    refine sound.prepend ?_
    simp only [List.mem_cons, List.mem_append, not_or]
    exact ⟨by decide, ws.not_mem (by decide), by decide, List.not_mem_nil⟩
  | object members =>
    cases isObject
    refine members.sound_spread (by decide) ?_ (sound.prepend (by decide))
    rw [Spread.text_prepend]
    exact ⟨_, _, rfl, by decide⟩
  | _ => cases isObject

end QcloudIot.Json
