import QcloudIot.Json.Proofs.Places

/-!
# Separators in a text

Going through a JSON text byte by byte, it is known how many brackets are open and whether a comma
or a closing bracket may follow. A text in which a comma has nothing in front of it or nothing
behind it, or which ends inside a bracket, is not the text of a derivation.
-/

namespace QcloudIot.Json

/-- What the next byte follows, apart from white space: an opening bracket or the beginning, a
    comma, something else outside of strings, or a part of a string. -/
inductive Spot where
  | opened
  | separated
  | filled
  | inside
  | escaped
  deriving DecidableEq, Repr

/-- A byte that opens a bracket. -/
def opens (b : UInt8) : Bool := b = JsonType.object.opening ∨ b = JsonType.array.opening

/-- A byte that closes a bracket. -/
def closes (b : UInt8) : Bool := b = JsonType.object.closing ∨ b = JsonType.array.closing

/-- A spot, and how many brackets are open there. -/
abbrev Standing := Spot × Nat

/-- What comes behind a byte outside of strings. -/
def Spot.outside (spot : Spot) (open_ : Nat) (b : UInt8) : Option Standing :=
  if isWs b then some (spot, open_)
  else if b = quote then some (.inside, open_)
  else if b = comma then if spot = .filled then some (.separated, open_) else none
  else if opens b then some (.opened, open_ + 1)
  else if closes b then if spot = .separated then none else some (.filled, open_ - 1)
  else some (.filled, open_)

/-- What comes behind a byte. -/
def Standing.next : Standing → UInt8 → Option Standing
  | (.inside, open_), b =>
    some (if b = quote then .filled else if b = backslash then .escaped else .inside, open_)
  | (.escaped, open_), _ => some (.inside, open_)
  | (spot, open_), b => spot.outside open_ b

/-- What comes behind a text. -/
def Standing.after (standing : Standing) (text : List UInt8) : Option Standing :=
  text.foldlM Standing.next standing

variable {start middle last : Standing} {spot : Spot} {open_ : Nat} {text rest : List UInt8}
  {b : UInt8}

theorem Standing.after_cons (standing : Standing) (b : UInt8) (text : List UInt8) :
    standing.after (b :: text) = (standing.next b).bind fun behind => behind.after text := by
  rw [after, List.foldlM_cons]
  rfl

theorem Standing.after_append (standing : Standing) (text rest : List UInt8) :
    standing.after (text ++ rest) = (standing.after text).bind fun behind => behind.after rest := by
  rw [after, List.foldlM_append]
  rfl

theorem Standing.after_cons_of (first : start.next b = some middle)
    (second : middle.after text = some last) : start.after (b :: text) = some last := by
  rw [after_cons, first]
  exact second

theorem Standing.after_append_of (first : start.after text = some middle)
    (second : middle.after rest = some last) : start.after (text ++ rest) = some last := by
  rw [after_append, first]
  exact second

/-! ## Tokens -/

/-- Outside of strings. -/
def Spot.Out (spot : Spot) : Prop := spot = .opened ∨ spot = .separated ∨ spot = .filled

theorem Spot.out_filled : Spot.filled.Out := .inr (.inr rfl)

theorem Spot.Out.next_eq (out : spot.Out) (open_ : Nat) (b : UInt8) :
    Standing.next (spot, open_) b = spot.outside open_ b := by
  rcases out with rfl | rfl | rfl <;> rfl

theorem Standing.after_ws (ws : Ws) (out : spot.Out) :
    Standing.after (spot, open_) ws.bytes = some (spot, open_) := by
  obtain ⟨bytes, valid⟩ := ws
  induction bytes with
  | nil => rfl
  | cons b bytes ih =>
    have white : isWs b = true := decide_eq_true (valid b List.mem_cons_self)
    have first : Standing.next (spot, open_) b = some (spot, open_) := by
      rw [out.next_eq, Spot.outside, if_pos white]
    exact after_cons_of first (ih fun b mem => valid b (List.mem_cons_of_mem _ mem))

theorem Standing.next_plain (noQuote : b ≠ quote) (noEscape : b ≠ backslash) :
    Standing.next (.inside, open_) b = some (.inside, open_) := by
  rw [next, if_neg noQuote, if_neg noEscape]

theorem Standing.next_hexDigit (d : HexDigit) :
    Standing.next (.inside, open_) d.byte = some (.inside, open_) :=
  next_plain d.ne.2.1 d.ne.2.2

theorem Standing.after_strChar (char : StrChar) :
    Standing.after (.inside, open_) char.text = some (.inside, open_) := by
  cases char with
  | plain b valid => exact after_cons_of (next_plain valid.2.1 valid.2.2) rfl
  | escape b valid => rfl
  | unicode h₁ h₂ h₃ h₄ =>
    show Standing.after (.inside, open_) [h₁.byte, h₂.byte, h₃.byte, h₄.byte] = _
    exact after_cons_of (next_hexDigit h₁) (after_cons_of (next_hexDigit h₂)
      (after_cons_of (next_hexDigit h₃) (after_cons_of (next_hexDigit h₄) rfl)))

theorem Standing.after_charsText (chars : List StrChar) :
    Standing.after (.inside, open_) (charsText chars) = some (.inside, open_) := by
  induction chars with
  | nil => rfl
  | cons char chars ih =>
    have split : charsText (char :: chars) = char.text ++ charsText chars := rfl
    rw [split]
    exact after_append_of (after_strChar char) ih

/-- A string with its quotes, and what follows it. -/
theorem Standing.after_string (chars : List StrChar) (out : spot.Out)
    (behind : Standing.after (.filled, open_) rest = some last) :
    Standing.after (spot, open_) (quote :: (charsText chars ++ quote :: rest)) = some last := by
  have starts : Standing.next (spot, open_) quote = some (.inside, open_) := by
    rw [out.next_eq]
    rfl
  have ends : Standing.next (.inside, open_) quote = some (.filled, open_) := rfl
  exact after_cons_of starts (after_append_of (after_charsText chars) (after_cons_of ends behind))

/-- The bytes of numbers and literals, and the colon. -/
def Filling (b : UInt8) : Prop :=
  isWs b = false ∧ b ≠ quote ∧ b ≠ comma ∧ opens b = false ∧ closes b = false

instance (b : UInt8) : Decidable (Filling b) := inferInstanceAs (Decidable (_ ∧ _ ∧ _ ∧ _ ∧ _))

theorem Standing.next_filling (out : spot.Out) (filling : Filling b) :
    Standing.next (spot, open_) b = some (.filled, open_) := by
  obtain ⟨noWs, noQuote, noComma, noOpening, noClosing⟩ := filling
  rw [out.next_eq, Spot.outside, noWs, noOpening, noClosing, if_neg Bool.false_ne_true,
    if_neg noQuote, if_neg noComma, if_neg Bool.false_ne_true, if_neg Bool.false_ne_true]

theorem Standing.after_filling (nonempty : text ≠ []) (all : ∀ b ∈ text, Filling b)
    (out : spot.Out) : Standing.after (spot, open_) text = some (.filled, open_) := by
  induction text generalizing spot with
  | nil => exact absurd rfl nonempty
  | cons b text ih =>
    refine after_cons_of (next_filling out (all b List.mem_cons_self)) ?_
    cases text with
    | nil => rfl
    | cons c text =>
      exact ih (List.cons_ne_nil _ _) (fun b mem => all b (List.mem_cons_of_mem _ mem))
        Spot.out_filled

theorem Number.filling (n : Number) : ∀ b ∈ n.mantissa ++ n.exponent, Filling b := by
  intro b mem
  have other : ∀ c : UInt8, (isDigit c = false ∧ c ≠ minus ∧ c ≠ dot ∧ c ≠ 101 ∧ c ≠ 69 ∧
      c ≠ 43) → b ≠ c := by
    rintro c isOther rfl
    exact n.not_mem_other isOther mem
  refine ⟨(n.ordinary b mem).2.2.2, other _ (by decide), other _ (by decide), ?_, ?_⟩
  · apply decide_eq_false
    rintro (isOpening | isOpening)
    all_goals exact other _ (by decide) isOpening
  · apply decide_eq_false
    rintro (isClosing | isClosing)
    all_goals exact other _ (by decide) isClosing

theorem Number.nonempty (n : Number) : n.mantissa ++ n.exponent ≠ [] := by
  obtain ⟨first, digits, split, _⟩ := n.mantissa_cons
  rw [split]
  exact List.cons_ne_nil _ _

theorem Literal.filling (l : Literal) : ∀ b ∈ l.text, Filling b := by
  cases l <;> decide +kernel

/-! ## Derivations -/

/-- A value, members and elements may begin behind an opening bracket or a comma; what follows them
    may not. -/
def Kind.Begins : Kind → Spot → Prop
  | .value, spot => spot.Out
  | .members, spot => spot.Out
  | .elements, spot => spot.Out
  | .moreMembers, spot => spot = .filled
  | .moreElements, spot => spot = .filled

/-- What is between brackets closes those that it opens. -/
theorem Standing.after_bracketed (out : spot.Out) {type : JsonType}
    (isBracket : type = .object ∨ type = .array) {between : Spot}
    (inner : Standing.after (.opened, open_ + 1) text = some (between, open_ + 1))
    (ends : between = .opened ∨ between = .filled) :
    Standing.after (spot, open_) (type.opening :: (text ++ [type.closing])) =
      some (.filled, open_) := by
  have starts : Standing.next (spot, open_) type.opening = some (.opened, open_ + 1) := by
    rw [out.next_eq]
    rcases isBracket with rfl | rfl <;> rfl
  have closing : Standing.after (between, open_ + 1) [type.closing] = some (.filled, open_) := by
    rcases isBracket with rfl | rfl
    all_goals rcases ends with rfl | rfl <;> rfl
  exact after_cons_of starts (after_append_of inner closing)

/-- Behind a derivation as many brackets are open as in front of it, and a comma may follow. -/
theorem Derivation.standing {kind : Kind} (derivation : Derivation kind)
    (begins : kind.Begins spot) :
    Standing.after (spot, open_) derivation.text = some (.filled, open_) := by
  have filled : Spot.filled.Out := Spot.out_filled
  have commaNext {open_ : Nat} : Standing.next (.filled, open_) comma = some (.separated, open_) :=
    rfl
  induction derivation generalizing spot open_ with
  | string chars => exact Standing.after_string chars begins rfl
  | number n => exact Standing.after_filling n.nonempty n.filling begins
  | literal l =>
    exact Standing.after_filling (by cases l <;> exact List.cons_ne_nil _ _) l.filling begins
  | emptyObject ws =>
    exact Standing.after_bracketed begins (.inl rfl) (Standing.after_ws ws (.inl rfl)) (.inl rfl)
  | object members ih =>
    exact Standing.after_bracketed begins (.inl rfl) (ih (.inl rfl)) (.inr rfl)
  | emptyArray ws =>
    exact Standing.after_bracketed begins (.inr rfl) (Standing.after_ws ws (.inl rfl)) (.inl rfl)
  | array elements ih =>
    exact Standing.after_bracketed begins (.inr rfl) (ih (.inl rfl)) (.inr rfl)
  | member before name middle after value behind more valueIh moreIh =>
    have leads : Standing.next (.filled, open_) colon = some (.filled, open_) := rfl
    have valueOn := Standing.after_append_of (Standing.after_ws after filled)
      (Standing.after_append_of (@valueIh _ open_ filled)
        (Standing.after_append_of (Standing.after_ws behind filled) (moreIh rfl)))
    have nameOn := Standing.after_append_of (Standing.after_ws middle filled)
      (Standing.after_cons_of leads valueOn)
    exact Standing.after_append_of (Standing.after_ws before begins)
      (Standing.after_string name begins nameOn)
  | endMembers =>
    obtain rfl : spot = .filled := begins
    rfl
  | nextMember members ih =>
    obtain rfl : spot = .filled := begins
    exact Standing.after_cons_of commaNext (ih (.inr (.inl rfl)))
  | element before value behind more valueIh moreIh =>
    exact Standing.after_append_of (Standing.after_ws before begins)
      (Standing.after_append_of (valueIh begins)
        (Standing.after_append_of (Standing.after_ws behind filled) (moreIh rfl)))
  | endElements =>
    obtain rfl : spot = .filled := begins
    rfl
  | nextElement elements ih =>
    obtain rfl : spot = .filled := begins
    exact Standing.after_cons_of commaNext (ih (.inr (.inl rfl)))

/-- At the end of a document no bracket is open. -/
theorem Document.standing (d : Document) :
    Standing.after (.opened, 0) d.text = some (.filled, 0) := by
  have opened : Spot.opened.Out := .inl rfl
  exact Standing.after_append_of (Standing.after_ws d.before opened)
    (Standing.after_append_of (d.value.standing opened)
      (Standing.after_ws d.behind Spot.out_filled))

end QcloudIot.Json
