import QcloudIot.Json.Proofs.Dotted

/-!
# Places in a text

Going through a JSON text byte by byte, it is known whether the next byte is inside a string and
whether a value has to follow. A text in which a string contains a control character, or in which
an object ends behind a colon, is not the text of a derivation.
-/

namespace QcloudIot.Json

/-- Where the next byte stands. -/
inductive Place where
  | outside
  | behindColon
  | inside
  | escaped
  deriving DecidableEq, Repr

/-- White space. -/
def isWs (b : UInt8) : Bool := b = space ∨ b = 9 ∨ b = 10 ∨ b = 13

/-- The place behind a byte. -/
def Place.next : Place → UInt8 → Option Place
  | .outside, b => some (if b = quote then .inside else if b = colon then .behindColon else .outside)
  | .behindColon, b =>
    if b = JsonType.object.closing then none
    else some (if b = quote then .inside else if isWs b then .behindColon else .outside)
  | .inside, b =>
    if b < 32 then none
    else some (if b = quote then .outside else if b = backslash then .escaped else .inside)
  | .escaped, _ => some .inside

/-- The place behind a text. -/
def Place.after (place : Place) (text : List UInt8) : Option Place := text.foldlM Place.next place

@[simp] theorem Place.after_nil (place : Place) : place.after [] = some place := rfl

theorem Place.after_cons (place : Place) (b : UInt8) (text : List UInt8) :
    place.after (b :: text) = (place.next b).bind fun place => place.after text := by
  rw [after, List.foldlM_cons]
  rfl

theorem Place.after_append (place : Place) (text rest : List UInt8) :
    place.after (text ++ rest) = (place.after text).bind fun place => place.after rest := by
  rw [after, List.foldlM_append]
  rfl

theorem Place.after_append_of {place middle : Place} {text : List UInt8} (rest : List UInt8)
    (first : place.after text = some middle) : place.after (text ++ rest) = middle.after rest := by
  rw [after_append, first]
  rfl

theorem Place.after_cons_of {place middle : Place} {b : UInt8} (text : List UInt8)
    (first : place.next b = some middle) : place.after (b :: text) = middle.after text := by
  rw [after_cons, first]
  rfl

/-! ## Tokens -/

/-- A value may begin here. -/
def Place.Free (place : Place) : Prop := place = .outside ∨ place = .behindColon

theorem after_ws (ws : Ws) {place : Place} (free : place.Free) :
    place.after ws.bytes = some place := by
  obtain ⟨bytes, valid⟩ := ws
  induction bytes with
  | nil => rfl
  | cons b bytes ih =>
    have first : place.next b = some place := by
      rcases valid b List.mem_cons_self with rfl | rfl | rfl | rfl
      all_goals rcases free with rfl | rfl <;> rfl
    rw [Place.after_cons_of _ first]
    exact ih fun b mem => valid b (List.mem_cons_of_mem _ mem)

theorem next_inside {b : UInt8} (printable : ¬ b < 32) (noQuote : b ≠ quote)
    (noEscape : b ≠ backslash) : Place.inside.next b = some .inside := by
  rw [Place.next, if_neg printable, if_neg noQuote, if_neg noEscape]

/-- A hexadecimal digit neither ends a string nor escapes. -/
theorem after_hexDigit (d : HexDigit) : Place.inside.next d.byte = some .inside := by
  have valid := d.valid
  simp only [isDigit, Bool.and_eq_true, decide_eq_true_eq, UInt8.le_iff_toNat_le] at valid
  have values : (48 : UInt8).toNat = 48 ∧ (57 : UInt8).toNat = 57 ∧ (65 : UInt8).toNat = 65 ∧
      (70 : UInt8).toNat = 70 ∧ (97 : UInt8).toNat = 97 ∧ (102 : UInt8).toNat = 102 ∧
      (32 : UInt8).toNat = 32 ∧ quote.toNat = 34 ∧ backslash.toNat = 92 := by decide
  apply next_inside
  · rw [UInt8.lt_iff_toNat_lt]
    omega
  · intro isQuote
    rw [isQuote] at valid
    omega
  · intro isBackslash
    rw [isBackslash] at valid
    omega

theorem after_strChar (char : StrChar) : Place.inside.after char.text = some .inside := by
  cases char with
  | plain b valid =>
    obtain ⟨printable, noQuote, noEscape⟩ := valid
    have step := next_inside (UInt8.not_lt.mpr printable) noQuote noEscape
    exact (Place.after_cons_of [] step).trans rfl
  | escape b valid => rfl
  | unicode h₁ h₂ h₃ h₄ =>
    change Place.inside.after [h₁.byte, h₂.byte, h₃.byte, h₄.byte] = _
    rw [Place.after_cons_of _ (after_hexDigit h₁), Place.after_cons_of _ (after_hexDigit h₂),
      Place.after_cons_of _ (after_hexDigit h₃), Place.after_cons_of _ (after_hexDigit h₄)]
    rfl

theorem after_charsText (chars : List StrChar) :
    Place.inside.after (charsText chars) = some .inside := by
  induction chars with
  | nil => rfl
  | cons char chars ih =>
    have split : charsText (char :: chars) = char.text ++ charsText chars := rfl
    rw [split, Place.after_append_of _ (after_strChar char), ih]

/-- The bytes of numbers and literals. -/
def Ordinary (b : UInt8) : Prop :=
  b ≠ quote ∧ b ≠ colon ∧ b ≠ JsonType.object.closing ∧ isWs b = false

theorem next_ordinary {place : Place} (free : place.Free) {b : UInt8} (ordinary : Ordinary b) :
    place.next b = some .outside := by
  obtain ⟨noQuote, noColon, noClosing, noWs⟩ := ordinary
  rcases free with rfl | rfl
  · rw [Place.next, if_neg noQuote, if_neg noColon]
  · rw [Place.next, if_neg noClosing, if_neg noQuote, noWs]
    rfl

theorem after_ordinary {text : List UInt8} (nonempty : text ≠ []) (all : ∀ b ∈ text, Ordinary b)
    {place : Place} (free : place.Free) : place.after text = some .outside := by
  induction text generalizing place with
  | nil => exact absurd rfl nonempty
  | cons b text ih =>
    rw [Place.after_cons_of _ (next_ordinary free (all b List.mem_cons_self))]
    cases text with
    | nil => rfl
    | cons c text =>
      exact ih (List.cons_ne_nil _ _) (fun b mem => all b (List.mem_cons_of_mem _ mem)) (.inl rfl)

theorem Number.ordinary (n : Number) : ∀ b ∈ n.mantissa ++ n.exponent, Ordinary b := by
  intro b mem
  have other : ∀ c : UInt8, (isDigit c = false ∧ c ≠ minus ∧ c ≠ dot ∧ c ≠ 101 ∧ c ≠ 69 ∧
      c ≠ 43) → b ≠ c := by
    rintro c isOther rfl
    exact n.not_mem_other isOther mem
  refine ⟨other _ (by decide), other _ (by decide), other _ (by decide), ?_⟩
  apply decide_eq_false
  rintro (isWs | isWs | isWs | isWs)
  all_goals exact other _ (by decide) isWs

instance (b : UInt8) : Decidable (Ordinary b) :=
  inferInstanceAs (Decidable (_ ∧ _ ∧ _ ∧ _))

theorem Literal.ordinary (l : Literal) : ∀ b ∈ l.text, Ordinary b := by
  cases l <;> decide +kernel

/-! ## Derivations -/

theorem next_open {place : Place} (free : place.Free) {type : JsonType}
    (isBracket : type = .object ∨ type = .array) :
    place.next type.opening = some .outside := by
  rcases isBracket with rfl | rfl
  all_goals rcases free with rfl | rfl <;> rfl

/-- Inside brackets everything is as outside. -/
theorem after_bracketed {place : Place} (free : place.Free) {type : JsonType} {text : List UInt8}
    (isBracket : type = .object ∨ type = .array)
    (between : Place.outside.after text = some .outside) :
    place.after (type.opening :: (text ++ [type.closing])) = some .outside := by
  rw [Place.after_cons_of _ (next_open free isBracket), Place.after_append_of _ between]
  rcases isBracket with rfl | rfl <;> rfl

/-- A value ends outside, wherever it may begin. -/
theorem Derivation.after {kind : Kind} (derivation : Derivation kind) {place : Place}
    (free : place.Free) (starts : kind = .value ∨ place = .outside) :
    place.after derivation.text = some .outside := by
  induction derivation generalizing place with
  | string chars =>
    have opens : place.next quote = some .inside := by
      rcases free with rfl | rfl <;> rfl
    rw [text, Place.after_cons_of _ opens, Place.after_append_of _ (after_charsText chars)]
    rfl
  | number n =>
    have nonempty : n.mantissa ++ n.exponent ≠ [] := by
      obtain ⟨first, digits, split, _⟩ := n.mantissa_cons
      rw [split]
      exact List.cons_ne_nil _ _
    exact after_ordinary nonempty n.ordinary free
  | literal l => exact after_ordinary (by cases l <;> exact List.cons_ne_nil _ _) l.ordinary free
  | emptyObject ws => exact after_bracketed free (.inl rfl) (after_ws ws (.inl rfl))
  | object members ih => exact after_bracketed free (.inl rfl) (ih (.inl rfl) (.inr rfl))
  | emptyArray ws => exact after_bracketed free (.inr rfl) (after_ws ws (.inl rfl))
  | array elements ih => exact after_bracketed free (.inr rfl) (ih (.inl rfl) (.inr rfl))
  | member before name middle after value behind more valueIh moreIh =>
    obtain rfl : place = .outside := starts.resolve_left fun same => by cases same
    have outside : Place.outside.Free := .inl rfl
    have opens : Place.outside.next quote = some .inside := rfl
    have closes : Place.inside.next quote = some .outside := rfl
    have leads : Place.outside.next colon = some .behindColon := rfl
    have behindColon : Place.behindColon.Free := .inr rfl
    rw [text, Place.after_append_of _ (after_ws before outside), Place.after_cons_of _ opens,
      Place.after_append_of _ (after_charsText name), Place.after_cons_of _ closes,
      Place.after_append_of _ (after_ws middle outside), Place.after_cons_of _ leads,
      Place.after_append_of _ (after_ws after behindColon),
      Place.after_append_of _ (valueIh behindColon (.inl rfl)),
      Place.after_append_of _ (after_ws behind outside)]
    exact moreIh outside (.inr rfl)
  | endMembers =>
    obtain rfl : place = .outside := starts.resolve_left fun same => by cases same
    rfl
  | nextMember members ih =>
    obtain rfl : place = .outside := starts.resolve_left fun same => by cases same
    have step : Place.outside.next comma = some .outside := rfl
    rw [text, Place.after_cons_of _ step]
    exact ih (.inl rfl) (.inr rfl)
  | element before value behind more valueIh moreIh =>
    obtain rfl : place = .outside := starts.resolve_left fun same => by cases same
    have outside : Place.outside.Free := .inl rfl
    rw [text, Place.after_append_of _ (after_ws before outside),
      Place.after_append_of _ (valueIh outside (.inl rfl)),
      Place.after_append_of _ (after_ws behind outside)]
    exact moreIh outside (.inr rfl)
  | endElements =>
    obtain rfl : place = .outside := starts.resolve_left fun same => by cases same
    rfl
  | nextElement elements ih =>
    obtain rfl : place = .outside := starts.resolve_left fun same => by cases same
    have step : Place.outside.next comma = some .outside := rfl
    rw [text, Place.after_cons_of _ step]
    exact ih (.inl rfl) (.inr rfl)

/-- The text of a document ends outside. -/
theorem Document.after (d : Document) : Place.outside.after d.text = some .outside := by
  have outside : Place.outside.Free := .inl rfl
  rw [text, Place.after_append_of _ (after_ws d.before outside),
    Place.after_append_of _ (d.value.after outside (.inl rfl)), after_ws d.behind outside]

/-! ## Strings without quotes and backslashes -/

/-- Control characters are not allowed inside a string. -/
theorem after_inside {text : List UInt8} (noQuote : quote ∉ text) (noEscape : backslash ∉ text) :
    Place.inside.after text = if ∀ b ∈ text, ¬ b < 32 then some .inside else none := by
  induction text with
  | nil => rw [if_pos (List.forall_mem_nil _), Place.after_nil]
  | cons b text ih =>
    rw [List.mem_cons, not_or] at noQuote noEscape
    by_cases control : b < 32
    · have stops : Place.inside.next b = none := if_pos control
      rw [Place.after_cons, stops, if_neg fun all => all b List.mem_cons_self control]
      rfl
    · rw [Place.after_cons_of _ (next_inside control (Ne.symm noQuote.1) (Ne.symm noEscape.1)),
        ih noQuote.2 noEscape.2]
      simp only [List.mem_cons, forall_eq_or_imp, control, not_false_eq_true, true_and]

end QcloudIot.Json
