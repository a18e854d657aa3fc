import QcloudIot.Coap.Proofs.RoundTrip

/-!
# Arbitrary CoAP datagrams

What the deserializer does with the bytes of any datagram. An option is what stands in the
datagram: the halves of its first byte with their extensions, and its value. The code reads an
extension byte of 128 and above as a negative number, and the options loop looks at the byte
behind the datagram when the options reach up to its end.
-/

namespace QcloudIot.Coap

/-! ## Options in a datagram -/

/-- A delta or a length as it stands in a datagram. -/
inductive Extension where
  | half (n : Fin 13)
  | byte (b : UInt8)
  | word (b₀ b₁ : UInt8)
  deriving DecidableEq, Repr

namespace Extension

/-- Its half of the first byte. -/
def nibble : Extension → Nat
  | half n => n
  | byte _ => 13
  | word _ _ => 14

/-- The bytes behind the first one. -/
def text : Extension → List UInt8
  | half _ => []
  | byte b => [b]
  | word b₀ b₁ => [b₀, b₁]

/-- The number that it stands for. -/
def value : Extension → Nat
  | half n => n
  | byte b => 13 + b.toNat
  | word b₀ b₁ => 269 + (b₀.toNat * 256 + b₁.toNat)

/-- The number that is read for it. -/
def read : Extension → Nat
  | half n => n
  | byte b => (13 + charToUnsigned b) % 2 ^ 32
  | word b₀ b₁ => 269 + (b₀.toNat * 256 + b₁.toNat)

/-- A byte that is read as a negative number. -/
def Negative : Extension → Prop
  | byte b => 128 ≤ b.toNat
  | _ => False

theorem read_of_not_negative {e : Extension} (positive : ¬ e.Negative) : e.read = e.value := by
  cases e with
  | half n => rfl
  | word b₀ b₁ => rfl
  | byte b =>
    have small : b.toNat < 128 := Nat.not_le.mp positive
    rw [read, value, charToUnsigned, if_pos small]
    omega

theorem read_of_negative {e : Extension} (negative : e.Negative) :
    (e.read + 256) % 2 ^ 32 = e.value := by
  cases e with
  | half n => exact absurd negative id
  | word b₀ b₁ => exact absurd negative id
  | byte b =>
    have large : 128 ≤ b.toNat := negative
    have byte := b.toNat_lt
    rw [read, value, charToUnsigned, if_neg (Nat.not_lt.mpr large)]
    omega

theorem nibble_lt (e : Extension) : e.nibble < 15 := by
  cases e with
  | half n =>
    have small := n.isLt
    show n.val < 15
    omega
  | byte b => exact Nat.lt_of_sub_eq_succ rfl
  | word b₀ b₁ => exact Nat.lt_of_sub_eq_succ rfl

/-- The half and the bytes behind it determine the extension. -/
theorem text_unique {e e' : Extension} {rest rest' : List UInt8} (nibble : e.nibble = e'.nibble)
    (text : e.text ++ rest = e'.text ++ rest') : e = e' ∧ rest = rest' := by
  cases e with
  | half n =>
    have small := n.isLt
    cases e' with
    | half n' => exact ⟨congrArg half (Fin.ext nibble), text⟩
    | byte b =>
      have medium : n.val = 13 := nibble
      omega
    | word b₀ b₁ =>
      have large : n.val = 14 := nibble
      omega
  | byte b =>
    cases e' with
    | half n' =>
      have small := n'.isLt
      have medium : 13 = n'.val := nibble
      omega
    | byte b' =>
      obtain ⟨rfl, same⟩ := List.cons.inj text
      exact ⟨rfl, same⟩
    | word b₀ b₁ => exact absurd (show 13 = 14 from nibble) (by decide)
  | word b₀ b₁ =>
    cases e' with
    | half n' =>
      have small := n'.isLt
      have large : 14 = n'.val := nibble
      omega
    | byte b' => exact absurd (show 14 = 13 from nibble) (by decide)
    | word b₀' b₁' =>
      obtain ⟨rfl, behind⟩ := List.cons.inj text
      obtain ⟨rfl, same⟩ := List.cons.inj (show b₁ :: rest = b₁' :: rest' from behind)
      exact ⟨rfl, same⟩

end Extension

/-- An option as it stands in a datagram. -/
structure RawOption where
  delta : Extension
  length : Extension
  val : List UInt8
  deriving DecidableEq, Repr

namespace RawOption

def first (raw : RawOption) : UInt8 := UInt8.ofNat (raw.delta.nibble <<< 4 ||| raw.length.nibble)

/-- The bytes of the option. -/
def text (raw : RawOption) : List UInt8 :=
  raw.first :: (raw.delta.text ++ (raw.length.text ++ raw.val))

/-- The value is as long as the code reads its length. -/
def Taken (raw : RawOption) : Prop := raw.val.length = raw.length.read

theorem first_halves (raw : RawOption) :
    (raw.first.toNat >>> 4) &&& 15 = raw.delta.nibble ∧
      raw.first.toNat &&& 15 = raw.length.nibble ∧ raw.first ≠ 0xFF :=
  halves_of_byte _ raw.delta.nibble_lt _ raw.length.nibble_lt

/-- An option is determined by its bytes up to the end of its value. -/
theorem text_unique {raw raw' : RawOption} {rest rest' : List UInt8}
    (same : raw.text ++ rest = raw'.text ++ rest') :
    raw.delta = raw'.delta ∧ raw.length = raw'.length ∧ raw.val ++ rest = raw'.val ++ rest' := by
  simp only [text, List.cons_append, List.append_assoc] at same
  obtain ⟨first, behind⟩ := List.cons.inj same
  obtain ⟨high, low, _⟩ := raw.first_halves
  obtain ⟨high', low', _⟩ := raw'.first_halves
  rw [first] at high low
  obtain ⟨delta, behind⟩ := Extension.text_unique (high.symm.trans high') behind
  obtain ⟨length, behind⟩ := Extension.text_unique (low.symm.trans low') behind
  exact ⟨delta, length, behind⟩

/-- The bytes of a row of options. -/
def texts (raws : List RawOption) : List UInt8 := raws.flatMap text

theorem texts_cons (raw : RawOption) (raws : List RawOption) :
    texts (raw :: raws) = raw.text ++ texts raws := List.flatMap_cons

/-- The true sums of the deltas. -/
def sums : Nat → List RawOption → List Nat
  | _, [] => []
  | prevNum, raw :: raws => (prevNum + raw.delta.value) :: sums (prevNum + raw.delta.value) raws

/-- The option that is read behind one of number `prevNum`. -/
def option (prevNum : Nat) (raw : RawOption) : CoapMsgOption where
  optionNum := (prevNum + raw.delta.read) % 2 ^ 16
  val := raw.val

def options : Nat → List RawOption → List CoapMsgOption
  | _, [] => []
  | prevNum, raw :: raws =>
    raw.option prevNum :: options (raw.option prevNum).optionNum raws

theorem length_options (prevNum : Nat) (raws : List RawOption) :
    (options prevNum raws).length = raws.length := by
  induction raws generalizing prevNum with
  | nil => rfl
  | cons raw raws ih =>
    rw [options, List.length_cons, List.length_cons, ih]

theorem sums_sorted (prevNum : Nat) (raws : List RawOption) :
    (sums prevNum raws).Pairwise (· ≤ ·) ∧ ∀ num ∈ sums prevNum raws, prevNum ≤ num := by
  induction raws generalizing prevNum with
  | nil => exact ⟨List.Pairwise.nil, List.forall_mem_nil _⟩
  | cons raw raws ih =>
    obtain ⟨sorted, above⟩ := ih (prevNum + raw.delta.value)
    refine ⟨List.Pairwise.cons above sorted, fun num mem => ?_⟩
    rcases List.mem_cons.mp mem with rfl | mem
    · exact Nat.le_add_right _ _
    · exact (Nat.le_add_right _ _).trans (above num mem)

end RawOption

/-! ## One option -/

/-- An extension is read as it stands in a datagram. -/
theorem readExtended_text (e : Extension) (rest : List UInt8) :
    readExtended e.nibble (e.text ++ rest) (e.text ++ rest).length =
      .ok (.ok (e.read, rest, rest.length)) := by
  cases e with
  | half n => exact readExtended_half rest rest.length n.isLt
  | byte b => exact readExtended_byte b rest rest.length
  | word b₀ b₁ => exact readExtended_bytes b₀ b₁ rest rest.length

/-- What is read stands there, or the bytes are too few. -/
theorem readExtended_cases {n : Nat} (p : List UInt8) (half : n < 15) :
    (∃ (e : Extension) (rest : List UInt8), e.nibble = n ∧ p = e.text ++ rest) ∨
      readExtended n p p.length = .ok (.error qcloudErrCoapDataSize) := by
  by_cases small : n < 13
  · exact .inl ⟨.half ⟨n, small⟩, p, rfl, rfl⟩
  by_cases isByte : n = 13
  · subst isByte
    cases p with
    | nil => exact .inr rfl
    | cons b rest => exact .inl ⟨.byte b, rest, rfl, rfl⟩
  · have isWord : n = 14 := by omega
    subst isWord
    match p with
    | [] => exact .inr rfl
    | [b₀] => exact .inr rfl
    | b₀ :: b₁ :: rest => exact .inl ⟨.word b₀ b₁, rest, rfl, rfl⟩

theorem byte_of_halves (b : UInt8) :
    UInt8.ofNat (((b.toNat >>> 4) &&& 15) <<< 4 ||| (b.toNat &&& 15)) = b := by
  have low : b.toNat &&& 15 = b.toNat % 16 := Nat.and_two_pow_sub_one_eq_mod b.toNat 4
  have high : (b.toNat >>> 4) &&& 15 = b.toNat / 16 % 16 := by
    rw [Nat.shiftRight_eq_div_pow]
    exact Nat.and_two_pow_sub_one_eq_mod _ 4
  have join : (b.toNat / 16 % 16) <<< 4 ||| b.toNat % 16 = b.toNat := by
    have byte := b.toNat_lt
    rw [← Nat.shiftLeft_add_eq_or_of_lt (Nat.mod_lt _ (by decide)), Nat.shiftLeft_eq]
    omega
  rw [low, high, join, UInt8.ofNat_toNat]

theorem half_lt {n : Nat} (notReserved : n &&& 15 ≠ 15) : n &&& 15 < 15 := by
  have most : n &&& 15 ≤ 15 := Nat.and_le_right
  omega

theorem numBehind_mod (ops : List CoapMsgOption) (delta : Nat) :
    numBehind ops delta % 2 ^ 16 = (lastNum ops + delta) % 2 ^ 16 := by
  rw [numBehind, lastNum]
  cases ops.getLast? with
  | none => rw [Nat.zero_add]
  | some prev =>
    show (prev.optionNum + delta) % 2 ^ 32 % 2 ^ 16 = (prev.optionNum + delta) % 2 ^ 16
    omega

/-- An option whose value is as long as its length is read. -/
theorem coapMessageDeserializeOption_raw {alloc : Nat → Bool} {k : Nat} {msg : CoapMessage}
    {raw : RawOption} {rest : List UInt8} (taken : raw.Taken) :
    coapMessageDeserializeOption alloc k msg (raw.text ++ rest) (raw.text ++ rest).length =
      .ok (if OptionAllocated alloc k then
          .ok ({ msg with opList := msg.opList ++ [raw.option (lastNum msg.opList)] }, rest,
            rest.length)
        else .error qcloudErrFailure) := by
  obtain ⟨high, low, _⟩ := raw.first_halves
  have noReserved : ¬ (raw.delta.nibble = 15 ∨ raw.length.nibble = 15) := by
    have first := raw.delta.nibble_lt
    have second := raw.length.nibble_lt
    omega
  have bytes : raw.text ++ rest =
      raw.first :: (raw.delta.text ++ (raw.length.text ++ (raw.val ++ rest))) := by
    simp only [RawOption.text, List.cons_append, List.append_assoc]
  have enough : raw.length.read ≤ (raw.val ++ rest).length := by
    rw [List.length_append, taken]
    exact Nat.le_add_right _ _
  have init : qcloudIotCoapOptionInit alloc k (numBehind msg.opList raw.delta.read) raw.val =
      if OptionAllocated alloc k then some (raw.option (lastNum msg.opList)) else none := by
    rw [qcloudIotCoapOptionInit, numBehind_mod]
    rfl
  rw [bytes, coapMessageDeserializeOption.eq_def, List.length_cons, if_neg (by omega)]
  simp only [high, low, if_neg noReserved, Nat.add_sub_cancel, readExtended_text, bind,
    Except.bind, pure, Except.pure]
  rw [if_neg (Nat.not_lt.mpr enough), if_neg (Nat.not_lt.mpr enough), ← taken, List.take_left,
    List.drop_left, List.length_append, Nat.add_sub_cancel_left, init]
  by_cases allocated : OptionAllocated alloc k
  · rw [if_pos allocated, if_pos allocated]
  · rw [if_neg allocated, if_neg allocated]

/-- Otherwise there is an error. -/
theorem coapMessageDeserializeOption_other {alloc : Nat → Bool} {k : Nat} {msg : CoapMessage}
    {p : List UInt8} (other : ∀ (raw : RawOption) (rest : List UInt8), raw.Taken →
      p ≠ raw.text ++ rest) :
    ∃ rc, coapMessageDeserializeOption alloc k msg p p.length = .ok (.error rc) := by
  cases p with
  | nil => exact ⟨_, rfl⟩
  | cons b p =>
    rw [coapMessageDeserializeOption.eq_def, List.length_cons, if_neg (by omega)]
    simp only [Nat.add_sub_cancel]
    by_cases reserved : (b.toNat >>> 4) &&& 15 = 15 ∨ b.toNat &&& 15 = 15
    · exact ⟨_, if_pos reserved⟩
    · rw [if_neg reserved]
      rw [not_or] at reserved
      rcases readExtended_cases p (half_lt reserved.1) with ⟨delta, behind, high, rfl⟩ | short
      · rcases readExtended_cases behind (half_lt reserved.2) with ⟨length, rest, low, rfl⟩ | short
        · rw [← high, ← low]
          simp only [readExtended_text, bind, Except.bind]
          by_cases cut : rest.length < length.read
          · exact ⟨_, if_pos cut⟩
          · have taken : RawOption.Taken ⟨delta, length, rest.take length.read⟩ := by
              rw [RawOption.Taken, List.length_take]
              exact Nat.min_eq_left (Nat.not_lt.mp cut)
            have first : RawOption.first ⟨delta, length, rest.take length.read⟩ = b := by
              rw [RawOption.first, high, low]
              exact byte_of_halves b
            have text := other _ (rest.drop length.read) taken
            rw [RawOption.text, first] at text
            simp only [List.cons_append, List.append_assoc, List.take_append_drop] at text
            exact absurd rfl text
        · rw [← high]
          simp only [readExtended_text, bind, Except.bind, short]
          exact ⟨_, rfl⟩
      · simp only [short, bind, Except.bind]
        exact ⟨_, rfl⟩

/-! ## The options -/

/-- What the message holds when `raws` have been read behind its options. -/
def CoapMessage.withRaws (msg : CoapMessage) (raws : List RawOption) : CoapMessage :=
  { msg with opList := msg.opList ++ RawOption.options (lastNum msg.opList) raws }

theorem CoapMessage.withRaws_nil (msg : CoapMessage) : msg.withRaws [] = msg := by
  rw [withRaws, RawOption.options, List.append_nil]

theorem CoapMessage.withRaws_cons (msg : CoapMessage) (raw : RawOption) (raws : List RawOption) :
    ({ msg with opList := msg.opList ++ [raw.option (lastNum msg.opList)] } : CoapMessage).withRaws
      raws = msg.withRaws (raw :: raws) := by
  rw [withRaws, withRaws, lastNum_append, RawOption.options, List.append_assoc]
  rfl

/-- One round of the loop. -/
theorem coapMessageDeserializeOptions_raw {alloc : Nat → Bool} {fuel k : Nat} {msg : CoapMessage}
    {raw : RawOption} {rest : List UInt8} (taken : raw.Taken) :
    coapMessageDeserializeOptions alloc (fuel + 1) k msg (raw.text ++ rest)
        (raw.text ++ rest).length =
      if OptionAllocated alloc k then
        coapMessageDeserializeOptions alloc fuel (k + 1)
          { msg with opList := msg.opList ++ [raw.option (lastNum msg.opList)] } rest rest.length
      else .ok (.error qcloudErrFailure) := by
  have option := @coapMessageDeserializeOption_raw alloc k msg raw rest taken
  obtain ⟨_, _, noMarker⟩ := raw.first_halves
  have some : (raw.text ++ rest).length ≠ 0 := Nat.succ_ne_zero _
  generalize (raw.text ++ rest).length = len at some option
  rw [RawOption.text, List.cons_append] at option ⊢
  rw [coapMessageDeserializeOptions.eq_def]
  simp only [noMarker, some, or_self, if_false, option, bind, Except.bind]
  by_cases allocated : OptionAllocated alloc k
  · rw [if_pos allocated, if_pos allocated]
  · rw [if_neg allocated, if_neg allocated]
    rfl

/-- The loop reads a row of options and goes on behind them. -/
theorem coapMessageDeserializeOptions_raws {alloc : Nat → Bool} {raws : List RawOption}
    {fuel k : Nat} {msg : CoapMessage} {rest : List UInt8} (taken : ∀ raw ∈ raws, raw.Taken)
    (allocated : OptionsAllocated alloc k raws.length) :
    coapMessageDeserializeOptions alloc (fuel + raws.length) k msg (RawOption.texts raws ++ rest)
        (RawOption.texts raws ++ rest).length =
      coapMessageDeserializeOptions alloc fuel (k + raws.length) (msg.withRaws raws) rest
        rest.length := by
  induction raws generalizing k msg with
  | nil =>
    rw [CoapMessage.withRaws_nil]
    rfl
  | cons raw raws ih =>
    have first : OptionAllocated alloc k := allocated 0 (Nat.succ_pos _)
    rw [RawOption.texts_cons, List.append_assoc, List.length_cons, ← Nat.add_assoc,
      coapMessageDeserializeOptions_raw (taken raw List.mem_cons_self), if_pos first,
      ih (fun raw mem => taken raw (List.mem_cons_of_mem _ mem)) allocated.tail,
      CoapMessage.withRaws_cons, Nat.add_assoc k 1, Nat.add_comm 1]

/-- The loop on a datagram: it fails, or it reads a row of options up to the marker, or one up to
    the end, and looks at the byte behind it. -/
theorem coapMessageDeserializeOptions_cases {alloc : Nat → Bool} {fuel k : Nat}
    {msg : CoapMessage} {p : List UInt8} (enough : p.length ≤ fuel) :
    (∃ rc, coapMessageDeserializeOptions alloc fuel k msg p p.length = .ok (.error rc)) ∨
      ∃ raws : List RawOption, (∀ raw ∈ raws, raw.Taken) ∧
        (p = RawOption.texts raws ∧
            coapMessageDeserializeOptions alloc fuel k msg p p.length = .error .outOfBounds ∨
          ∃ rest, p = RawOption.texts raws ++ 0xFF :: rest ∧
            coapMessageDeserializeOptions alloc fuel k msg p p.length =
              .ok (.ok (msg.withRaws raws, 0xFF :: rest, rest.length + 1))) := by
  induction fuel generalizing k msg p with
  | zero =>
    have nothing : p = [] := List.eq_nil_of_length_eq_zero (Nat.le_zero.mp enough)
    subst nothing
    exact .inr ⟨[], List.forall_mem_nil _, .inl ⟨rfl, coapMessageDeserializeOptions_nil⟩⟩
  | succ fuel ih =>
    by_cases first : ∃ (raw : RawOption) (rest : List UInt8), raw.Taken ∧ p = raw.text ++ rest
    · obtain ⟨raw, rest, taken, rfl⟩ := first
      rw [coapMessageDeserializeOptions_raw taken]
      by_cases allocated : OptionAllocated alloc k
      · have shorter : rest.length ≤ fuel := by
          rw [List.length_append, RawOption.text, List.length_cons] at enough
          omega
        rw [if_pos allocated]
        rcases @ih (k + 1) { msg with opList := msg.opList ++
          [raw.option (lastNum msg.opList)] } _ shorter with failed | ⟨raws, allTaken, behind⟩
        · exact .inl failed
        · refine .inr ⟨raw :: raws, List.forall_mem_cons.mpr ⟨taken, allTaken⟩, ?_⟩
          rw [RawOption.texts_cons]
          rcases behind with ⟨rfl, fault⟩ | ⟨rest, rfl, stopped⟩
          · exact .inl ⟨rfl, fault⟩
          · refine .inr ⟨rest, (List.append_assoc _ _ _).symm, ?_⟩
            rw [stopped, CoapMessage.withRaws_cons]
      · exact .inl ⟨_, if_neg allocated⟩
    · cases p with
      | nil => exact .inr ⟨[], List.forall_mem_nil _, .inl ⟨rfl, coapMessageDeserializeOptions_nil⟩⟩
      | cons b p =>
        by_cases marker : b = 0xFF
        · subst marker
          refine .inr ⟨[], List.forall_mem_nil _, .inr ⟨p, rfl, ?_⟩⟩
          rw [CoapMessage.withRaws_nil]
          exact coapMessageDeserializeOptions_stop (.inl rfl)
        · obtain ⟨rc, failed⟩ := @coapMessageDeserializeOption_other alloc k msg (b :: p)
            fun raw rest taken text => first ⟨raw, rest, taken, text⟩
          have some : (b :: p).length ≠ 0 := Nat.succ_ne_zero _
          refine .inl ⟨rc, ?_⟩
          rw [coapMessageDeserializeOptions.eq_def]
          simp only [marker, some, or_self, if_false, failed, bind, Except.bind]
          rfl

/-- The loop ends by its own test: rounds beyond the length of the datagram change nothing. -/
theorem coapMessageDeserializeOptions_rounds {alloc : Nat → Bool} {fuel fuel' k : Nat}
    {msg : CoapMessage} {p : List UInt8} (enough : p.length ≤ fuel) (enough' : p.length ≤ fuel') :
    coapMessageDeserializeOptions alloc fuel k msg p p.length =
      coapMessageDeserializeOptions alloc fuel' k msg p p.length := by
  induction fuel generalizing fuel' k msg p with
  | zero =>
    have nothing : p = [] := List.eq_nil_of_length_eq_zero (Nat.le_zero.mp enough)
    subst nothing
    rw [coapMessageDeserializeOptions_nil, coapMessageDeserializeOptions_nil]
  | succ fuel ih =>
    cases fuel' with
    | zero =>
      have nothing : p = [] := List.eq_nil_of_length_eq_zero (Nat.le_zero.mp enough')
      subst nothing
      rw [coapMessageDeserializeOptions_nil, coapMessageDeserializeOptions_nil]
    | succ fuel' =>
      by_cases first : ∃ (raw : RawOption) (rest : List UInt8), raw.Taken ∧ p = raw.text ++ rest
      · obtain ⟨raw, rest, taken, rfl⟩ := first
        have shorter : (raw.text ++ rest).length = rest.length +
            (raw.delta.text ++ (raw.length.text ++ raw.val)).length + 1 := by
          rw [List.length_append, RawOption.text, List.length_cons]
          omega
        have later := @ih fuel' (k + 1)
          { msg with opList := msg.opList ++ [raw.option (lastNum msg.opList)] } rest (by omega)
          (by omega)
        rw [coapMessageDeserializeOptions_raw taken, coapMessageDeserializeOptions_raw taken, later]
      · cases p with
        | nil => rw [coapMessageDeserializeOptions_nil, coapMessageDeserializeOptions_nil]
        | cons b p =>
          obtain ⟨rc, failed⟩ := @coapMessageDeserializeOption_other alloc k msg (b :: p)
            fun raw rest taken text => first ⟨raw, rest, taken, text⟩
          rw [coapMessageDeserializeOptions.eq_def, coapMessageDeserializeOptions.eq_def]
          simp only [failed, bind, Except.bind]

/-! ## The datagram -/

/-- Header and token. -/
structure Front where
  b₀ : UInt8
  b₁ : UInt8
  b₂ : UInt8
  b₃ : UInt8
  token : List UInt8
  deriving DecidableEq, Repr

namespace Front

def bytes (front : Front) : List UInt8 :=
  front.b₀ :: front.b₁ :: front.b₂ :: front.b₃ :: front.token

def codeClass (front : Front) : Nat := (front.b₁.toNat >>> 5) &&& 7

/-- What is read. -/
def message (front : Front) : CoapMessage :=
  { CoapMessage.zero with
    version := (front.b₀.toNat >>> 6) &&& 3
    type := .ofBits ((front.b₀.toNat >>> 4) &&& 3)
    codeClass := front.codeClass
    codeDetail := front.b₁.toNat &&& 31
    msgId := front.b₂.toNat * 256 + front.b₃.toNat
    token := front.token }

/-- A header that is accepted, and the token that it announces. -/
structure Accepted (front : Front) : Prop where
  version : (front.b₀.toNat >>> 6) &&& 3 = coapMsgVer
  tokenLen : front.token.length = front.b₀.toNat &&& 15
  shortToken : front.token.length ≤ coapMsgMaxTokenLen
  codeClass : front.codeClass = coapMsgReq ∨ front.codeClass = coapMsgSuccess ∨
    front.codeClass = coapMsgClientErr ∨ front.codeClass = coapMsgServerErr

end Front

/-- The stages behind the token. -/
def deserializeBehind (alloc : Nat → Bool) (message : CoapMessage) (p : List UInt8) :
    Except Fault (Int × CoapMessage) := do
  match ← coapMessageDeserializeOptions alloc p.length 0 message p p.length with
  | .error _ => return (qcloudErrCoapInternal, .zero)
  | .ok (message, p, len) =>
    match ← coapMessageDeserializePayload alloc message.opList.length message p len with
    | .error _ => return (qcloudErrCoapInternal, .zero)
    | .ok (message, _, _) => return (coapMsgCheck message, message)

theorem deserializeCoapMessage_front {alloc : Nat → Bool} {front : Front} {rest : List UInt8}
    (accepted : front.Accepted) :
    deserializeCoapMessage alloc .zero (front.bytes ++ rest) (front.bytes ++ rest).length =
      deserializeBehind alloc front.message rest := by
  obtain ⟨version, tokenLen, shortToken, codeClass⟩ := accepted
  have known : ¬ ((front.b₁.toNat >>> 5) &&& 7 ≠ coapMsgReq ∧
      (front.b₁.toNat >>> 5) &&& 7 ≠ coapMsgSuccess ∧
      (front.b₁.toNat >>> 5) &&& 7 ≠ coapMsgClientErr ∧
      (front.b₁.toNat >>> 5) &&& 7 ≠ coapMsgServerErr) := by
    intro ⟨notReq, notSuccess, notClientErr, notServerErr⟩
    rcases codeClass with known | known | known | known
    · exact notReq known
    · exact notSuccess known
    · exact notClientErr known
    · exact notServerErr known
  have header : coapMessageDeserializeHeader .zero (front.bytes ++ rest)
      (front.bytes ++ rest).length = .ok (.ok (front.token.length,
        { front.message with token := [] }, front.token ++ rest, (front.token ++ rest).length)) := by
    simp only [Front.bytes, List.cons_append, List.length_cons]
    rw [coapMessageDeserializeHeader.eq_def, if_neg (by omega)]
    simp only [version, ne_eq, not_true_eq_false, if_false, ← tokenLen,
      if_neg (Nat.not_lt.mpr shortToken), if_neg known]
    rw [Front.message, version]
    rfl
  have token : coapMessageDeserializeToken front.token.length { front.message with token := [] }
      (front.token ++ rest) (front.token ++ rest).length =
        .ok (.ok (front.message, rest, rest.length)) := by
    have long : ¬ (front.token ++ rest).length < front.token.length := by
      rw [List.length_append]
      omega
    rw [coapMessageDeserializeToken, if_neg long, if_neg long, List.take_left, List.drop_left,
      List.length_append, Nat.add_sub_cancel_left]
    rfl
  simp only [deserializeCoapMessage, header, token, bind, Except.bind]
  rfl

theorem deserializeCoapMessage_refused {alloc : Nat → Bool} {buf : List UInt8}
    (other : ∀ (front : Front) (rest : List UInt8), front.Accepted → buf ≠ front.bytes ++ rest) :
    deserializeCoapMessage alloc .zero buf buf.length = .ok (qcloudErrCoapInternal, .zero) := by
  rw [deserializeCoapMessage]
  by_cases tooShort : buf.length < 4
  · have header : coapMessageDeserializeHeader .zero buf buf.length =
        .ok (.error qcloudErrCoapDataSize) := by
      rw [coapMessageDeserializeHeader.eq_def, if_pos tooShort]
    simp only [header, bind, Except.bind]
    rfl
  rcases buf with _ | ⟨b₀, _ | ⟨b₁, _ | ⟨b₂, _ | ⟨b₃, rest⟩⟩⟩⟩
  · exact absurd (show 0 < 4 by decide) tooShort
  · exact absurd (show 1 < 4 by decide) tooShort
  · exact absurd (show 2 < 4 by decide) tooShort
  · exact absurd (show 3 < 4 by decide) tooShort
  · rw [coapMessageDeserializeHeader.eq_def, if_neg tooShort]
    simp only
    split_ifs with version longToken unknown
    · rfl
    · rfl
    · rfl
    · have length : (b₀ :: b₁ :: b₂ :: b₃ :: rest).length - 4 = rest.length := by
        simp only [List.length_cons]
        omega
      simp only [bind, Except.bind, length, coapMessageDeserializeToken]
      by_cases cut : rest.length < b₀.toNat &&& 15
      · rw [if_pos cut]
        rfl
      · have taken : (rest.take (b₀.toNat &&& 15)).length = b₀.toNat &&& 15 := by
          rw [List.length_take]
          exact Nat.min_eq_left (Nat.not_lt.mp cut)
        have text := other ⟨b₀, b₁, b₂, b₃, rest.take (b₀.toNat &&& 15)⟩
          (rest.drop (b₀.toNat &&& 15))
          { version := not_not.mp version
            tokenLen := taken
            shortToken := by
              rw [taken]
              exact Nat.not_lt.mp longToken
            codeClass := by
              by_contra none
              simp only [not_or] at none
              exact unknown none }
        simp only [Front.bytes, List.cons_append, List.take_append_drop] at text
        exact absurd rfl text

/-! ## Behind the token -/

/-- The options reach up to the end. -/
theorem deserializeBehind_end {alloc : Nat → Bool} {msg : CoapMessage} {raws : List RawOption}
    (taken : ∀ raw ∈ raws, raw.Taken) (allocated : OptionsAllocated alloc 0 raws.length)
    (enough : raws.length ≤ (RawOption.texts raws).length) :
    deserializeBehind alloc msg (RawOption.texts raws) = .error .outOfBounds := by
  have loop := @coapMessageDeserializeOptions_raws alloc raws
    ((RawOption.texts raws).length - raws.length) 0 msg [] taken allocated
  rw [List.append_nil, Nat.sub_add_cancel enough, coapMessageDeserializeOptions_nil] at loop
  rw [deserializeBehind, loop]
  rfl

theorem length_le_texts (raws : List RawOption) : raws.length ≤ (RawOption.texts raws).length := by
  induction raws with
  | nil => exact Nat.le_refl _
  | cons raw raws ih =>
    rw [RawOption.texts_cons, List.length_append, RawOption.text, List.length_cons,
      List.length_cons]
    omega

/-- A payload up to the end of the datagram. -/
theorem coapMessageDeserializePayload_whole {alloc : Nat → Bool} {k : Nat} {msg : CoapMessage}
    {payload : List UInt8} (some : payload ≠ []) :
    coapMessageDeserializePayload alloc k msg (0xFF :: payload) (payload.length + 1) =
      .ok (if alloc (2 * k) then .ok ({ msg with payload }, [], 0) else .error (-enomem)) := by
  have stage := @coapMessageDeserializePayload_marker alloc k msg payload [] some
  rwa [List.append_nil] at stage

/-- The message that is read from options and payload. -/
def CoapMessage.complete (msg : CoapMessage) (raws : List RawOption) (payload : List UInt8) :
    CoapMessage :=
  { msg.withRaws raws with payload }

theorem deserializeBehind_payload {alloc : Nat → Bool} {msg : CoapMessage} {raws : List RawOption}
    {payload : List UInt8} (taken : ∀ raw ∈ raws, raw.Taken) (some : payload ≠ [])
    (allocated : ∀ k, alloc k = true) :
    deserializeBehind alloc msg (RawOption.texts raws ++ 0xFF :: payload) =
      .ok (coapMsgCheck (msg.complete raws payload), msg.complete raws payload) := by
  have rounds : raws.length ≤ (RawOption.texts raws ++ 0xFF :: payload).length := by
    rw [List.length_append]
    exact (length_le_texts raws).trans (Nat.le_add_right _ _)
  have loop := @coapMessageDeserializeOptions_raws alloc raws
    ((RawOption.texts raws ++ 0xFF :: payload).length - raws.length) 0 msg (0xFF :: payload) taken
    fun i _ => ⟨allocated _, allocated _⟩
  rw [Nat.sub_add_cancel rounds, coapMessageDeserializeOptions_stop (.inl rfl), List.length_cons]
    at loop
  rw [deserializeBehind, loop]
  simp only [bind, Except.bind, coapMessageDeserializePayload_whole some, if_pos (allocated _)]
  rfl

theorem deserializeBehind_cases (alloc : Nat → Bool) (msg : CoapMessage) (p : List UInt8) :
    deserializeBehind alloc msg p = .ok (qcloudErrCoapInternal, .zero) ∨
      ∃ raws : List RawOption, (∀ raw ∈ raws, raw.Taken) ∧
        (p = RawOption.texts raws ∨ ∃ payload, payload ≠ [] ∧
          p = RawOption.texts raws ++ 0xFF :: payload ∧
          deserializeBehind alloc msg p =
            .ok (coapMsgCheck (msg.complete raws payload), msg.complete raws payload)) := by
  rcases @coapMessageDeserializeOptions_cases alloc p.length 0 msg p (Nat.le_refl _) with
    ⟨rc, failed⟩ | ⟨raws, taken, ⟨isEnd, _⟩ | ⟨payload, isText, stopped⟩⟩
  · refine .inl ?_
    rw [deserializeBehind, failed]
    rfl
  · exact .inr ⟨raws, taken, .inl isEnd⟩
  · by_cases none : payload = []
    · refine .inl ?_
      rw [deserializeBehind, stopped, none]
      rfl
    · by_cases allocated : alloc (2 * (msg.withRaws raws).opList.length) = true
      · refine .inr ⟨raws, taken, .inr ⟨payload, none, isText, ?_⟩⟩
        rw [deserializeBehind, stopped]
        simp only [bind, Except.bind, coapMessageDeserializePayload_whole none, if_pos allocated]
        rfl
      · refine .inl ?_
        rw [deserializeBehind, stopped]
        simp only [bind, Except.bind, coapMessageDeserializePayload_whole none,
          if_neg allocated]
        rfl

/-! ## What a datagram says -/

/-- A datagram in its parts; `tail` is the payload with its marker. -/
structure Datagram where
  front : Front
  raws : List RawOption
  tail : List UInt8
  deriving DecidableEq, Repr

namespace Datagram

def bytes (d : Datagram) : List UInt8 := d.front.bytes ++ (RawOption.texts d.raws ++ d.tail)

/-- The message is what the datagram says: every value has the length that is encoded for it, the
    option numbers are the sums of the deltas, and the parts are those of the message. -/
structure Announces (d : Datagram) (m : CoapMessage) : Prop where
  tokenLen : d.front.token.length = d.front.b₀.toNat &&& 15
  token : m.token = d.front.token
  lengths : ∀ raw ∈ d.raws, raw.val.length = raw.length.value
  vals : m.opList.map CoapMsgOption.val = d.raws.map RawOption.val
  nums : m.opList.map CoapMsgOption.optionNum = RawOption.sums 0 d.raws
  short : ∀ num ∈ RawOption.sums 0 d.raws, num ≤ 65535
  tail : d.tail = [] ∧ m.payload = [] ∨ d.tail = 0xFF :: m.payload ∧ m.payload ≠ []

/-- Header and token are accepted, and every value is as long as its length is read. -/
structure Reached (d : Datagram) : Prop where
  front : d.front.Accepted
  taken : ∀ raw ∈ d.raws, raw.Taken

/-- Not an empty message and not a reset, which the check at the end refuses with a payload. -/
def PassesCheck (d : Datagram) : Prop :=
  ¬ (d.front.codeClass = 0 ∧ d.front.b₁.toNat &&& 31 = 0) ∧ d.front.message.type ≠ .rst

/-- No extension byte is read as a negative number, and no option number is truncated. -/
structure Faithful (d : Datagram) : Prop where
  extensions : ∀ raw ∈ d.raws, ¬ raw.delta.Negative ∧ ¬ raw.length.Negative
  short : ∀ num ∈ RawOption.sums 0 d.raws, num ≤ 65535

end Datagram

/-- The deserializer stays inside the datagram, and a message that it accepts is the one that the
    datagram announces. -/
def ParsedSafely (buf : List UInt8) : Prop :=
  ∀ alloc : Nat → Bool, ∃ rc m,
    deserializeCoapMessage alloc .zero buf buf.length = .ok (rc, m) ∧
      (0 ≤ rc → (m.opList.map CoapMsgOption.optionNum).Pairwise (· ≤ ·) ∧
        ∃ d : Datagram, d.bytes = buf ∧ d.Announces m)

theorem coapMsgCheck_payload {front : Front} {raws : List RawOption} {payload : List UInt8}
    (some : payload ≠ []) (tail : List UInt8) :
    0 ≤ coapMsgCheck (front.message.complete raws payload) ↔
      Datagram.PassesCheck { front, raws, tail } := by
  have length : payload.length ≠ 0 := fun none => some (List.eq_nil_of_length_eq_zero none)
  have refused : coapMsgCheck (front.message.complete raws payload) =
      if front.codeClass = 0 ∧ front.b₁.toNat &&& 31 = 0 then
        if front.message.type = .non ∨ front.token.length ≠ 0 ∨
          (front.message.withRaws raws).opList ≠ [] ∨ payload.length ≠ 0 then qcloudErrCoapDataSize
        else qcloudRetSuccess
      else if front.message.type = .rst then qcloudErrCoapDataSize else qcloudRetSuccess := rfl
  rw [refused, Datagram.PassesCheck]
  by_cases empty : front.codeClass = 0 ∧ front.b₁.toNat &&& 31 = 0
  · rw [if_pos empty, if_pos (.inr (.inr (.inr length)))]
    exact ⟨fun accepted => absurd accepted (by decide), fun passes => absurd empty passes.1⟩
  · rw [if_neg empty]
    by_cases reset : front.message.type = .rst
    · rw [if_pos reset]
      exact ⟨fun accepted => absurd accepted (by decide), fun passes => absurd reset passes.2⟩
    · rw [if_neg reset]
      exact ⟨fun _ => ⟨empty, reset⟩, fun _ => Int.le_refl _⟩

/-- Without negative extension bytes and truncated numbers, the options are what they say. -/
theorem RawOption.options_faithful {prevNum : Nat} {raws : List RawOption}
    (extensions : ∀ raw ∈ raws, ¬ raw.delta.Negative)
    (short : ∀ num ∈ sums prevNum raws, num ≤ 65535) :
    (options prevNum raws).map CoapMsgOption.optionNum = sums prevNum raws := by
  induction raws generalizing prevNum with
  | nil => rfl
  | cons raw raws ih =>
    obtain ⟨here, later⟩ := List.forall_mem_cons.mp extensions
    obtain ⟨fits, laterShort⟩ := List.forall_mem_cons.mp short
    have num : (raw.option prevNum).optionNum = prevNum + raw.delta.value := by
      show (prevNum + raw.delta.read) % 2 ^ 16 = _
      rw [Extension.read_of_not_negative here]
      exact Nat.mod_eq_of_lt (Nat.lt_succ_of_le fits)
    rw [options, sums, List.map_cons, num, ih later laterShort]

/-- Conversely, options that are what they say have no negative delta. -/
theorem RawOption.faithful_of_options {prevNum : Nat} {raws : List RawOption}
    (same : (options prevNum raws).map CoapMsgOption.optionNum = sums prevNum raws) :
    ∀ raw ∈ raws, ¬ raw.delta.Negative := by
  induction raws generalizing prevNum with
  | nil => exact List.forall_mem_nil _
  | cons raw raws ih =>
    rw [options, sums, List.map_cons] at same
    obtain ⟨num, later⟩ := List.cons.inj same
    rw [num] at later
    refine List.forall_mem_cons.mpr ⟨fun negative => ?_, ih later⟩
    have wrong := Extension.read_of_negative negative
    have sum : (prevNum + raw.delta.read) % 2 ^ 16 = prevNum + raw.delta.value := num
    omega

theorem RawOption.vals_options (prevNum : Nat) (raws : List RawOption) :
    (options prevNum raws).map CoapMsgOption.val = raws.map RawOption.val := by
  induction raws generalizing prevNum with
  | nil => rfl
  | cons raw raws ih =>
    rw [options, List.map_cons, List.map_cons, ih]
    rfl

/-- Rows of options with the same bytes and the same values are the same. -/
theorem RawOption.texts_unique {raws raws' : List RawOption} (text : texts raws = texts raws')
    (vals : raws.map RawOption.val = raws'.map RawOption.val) : raws = raws' := by
  induction raws generalizing raws' with
  | nil =>
    cases raws' with
    | nil => rfl
    | cons raw' raws' => cases vals
  | cons raw raws ih =>
    cases raws' with
    | nil => cases vals
    | cons raw' raws' =>
      rw [texts_cons, texts_cons] at text
      obtain ⟨delta, length, behind⟩ := text_unique text
      obtain ⟨val, later⟩ := List.cons.inj vals
      rw [val] at behind
      rw [ih (List.append_cancel_left behind) later]
      cases raw
      cases raw'
      cases delta
      cases length
      cases val
      rfl

/-! ## The deserializer -/

/-- Header and token are determined by the bytes of the datagram. -/
theorem Front.bytes_unique {front front' : Front} {rest rest' : List UInt8}
    (tokenLen : front.token.length = front.b₀.toNat &&& 15)
    (tokenLen' : front'.token.length = front'.b₀.toNat &&& 15)
    (text : front.bytes ++ rest = front'.bytes ++ rest') : front = front' ∧ rest = rest' := by
  obtain ⟨b₀, b₁, b₂, b₃, token⟩ := front
  obtain ⟨b₀', b₁', b₂', b₃', token'⟩ := front'
  simp only [bytes, List.cons_append, List.cons.injEq] at text
  obtain ⟨rfl, rfl, rfl, rfl, behind⟩ := text
  obtain ⟨rfl, same⟩ := List.append_inj behind (tokenLen.trans tokenLen'.symm)
  exact ⟨rfl, same⟩

/-- The message of a datagram that is read faithfully. -/
theorem Datagram.announces_complete {front : Front} {raws : List RawOption} {payload : List UInt8}
    (reached : Reached { front, raws, tail := 0xFF :: payload }) (some : payload ≠ [])
    (faithful : Faithful { front, raws, tail := 0xFF :: payload }) :
    Announces { front, raws, tail := 0xFF :: payload } (front.message.complete raws payload) where
  tokenLen := reached.front.tokenLen
  token := rfl
  lengths := by
    intro raw mem
    rw [reached.taken raw mem]
    exact Extension.read_of_not_negative (faithful.extensions raw mem).2
  vals := RawOption.vals_options _ _
  nums := RawOption.options_faithful (fun raw mem => (faithful.extensions raw mem).1) faithful.short
  short := faithful.short
  tail := .inr ⟨rfl, some⟩

/-- A message that is what the datagram announces was read faithfully. -/
theorem Datagram.faithful_of_announces {front : Front} {raws : List RawOption}
    {payload : List UInt8} {d : Datagram}
    (reached : Reached { front, raws, tail := 0xFF :: payload }) (some : payload ≠ [])
    (bytes : d.bytes = bytes { front, raws, tail := 0xFF :: payload })
    (announces : d.Announces (front.message.complete raws payload)) :
    Faithful { front, raws, tail := 0xFF :: payload } := by
  obtain ⟨_, sameTail⟩ := Front.bytes_unique announces.tokenLen reached.front.tokenLen bytes
  have tail : d.tail = 0xFF :: payload := by
    rcases announces.tail with ⟨_, none⟩ | ⟨tail, _⟩
    · exact absurd none some
    · exact tail
  rw [tail] at sameTail
  have vals : d.raws.map RawOption.val = raws.map RawOption.val := by
    rw [← announces.vals]
    exact RawOption.vals_options _ _
  have same : d.raws = raws := RawOption.texts_unique (List.append_cancel_right sameTail) vals
  have nums := announces.nums
  have lengths := announces.lengths
  have short := announces.short
  rw [same] at nums lengths short
  refine ⟨fun raw mem => ⟨RawOption.faithful_of_options nums raw mem, fun negative => ?_⟩, short⟩
  have wrong := Extension.read_of_negative negative
  have length := lengths raw mem
  have taken : raw.val.length = raw.length.read := reached.taken raw mem
  omega

/-- The options loop ends by its own test. The deserializer stays inside a datagram and takes it
    for what it says exactly if no header and token with options up to the very end make up the
    datagram, and if options and payload that are accepted are read faithfully. -/
theorem parsedSafely_iff (buf : List UInt8) :
    (∀ (alloc : Nat → Bool) (rounds k : Nat) (msg : CoapMessage) (p : List UInt8),
        p.length ≤ rounds → coapMessageDeserializeOptions alloc rounds k msg p p.length =
          coapMessageDeserializeOptions alloc p.length k msg p p.length) ∧
      (ParsedSafely buf ↔
        ∀ d : Datagram, d.bytes = buf → d.Reached → d.tail ≠ [] ∧
          ∀ payload, payload ≠ [] → d.tail = 0xFF :: payload → d.PassesCheck → d.Faithful) := by
  refine ⟨fun alloc rounds k msg p enough =>
    coapMessageDeserializeOptions_rounds enough (Nat.le_refl _), ?_, ?_⟩
  · intro safe d bytes reached
    obtain ⟨front, raws, tail⟩ := d
    obtain ⟨rc, m, run, announced⟩ := safe fun _ => true
    rw [← bytes, Datagram.bytes, deserializeCoapMessage_front reached.front] at run
    refine ⟨fun isEnd => ?_, fun payload some isPayload passes => ?_⟩
    · have nothing : tail = [] := isEnd
      rw [nothing, List.append_nil, deserializeBehind_end reached.taken
        (fun _ _ => ⟨rfl, rfl⟩) (length_le_texts raws)] at run
      cases run
    · have marker : tail = 0xFF :: payload := isPayload
      subst marker
      rw [deserializeBehind_payload reached.taken some fun _ => rfl] at run
      cases run
      obtain ⟨_, d', bytes', announces⟩ := announced ((coapMsgCheck_payload some _).mpr passes)
      exact Datagram.faithful_of_announces reached some (bytes'.trans bytes.symm) announces
  · intro condition alloc
    by_cases known : ∃ (front : Front) (rest : List UInt8), front.Accepted ∧
        buf = front.bytes ++ rest
    · obtain ⟨front, rest, accepted, rfl⟩ := known
      rw [deserializeCoapMessage_front accepted]
      rcases deserializeBehind_cases alloc front.message rest with
        failed | ⟨raws, taken, isEnd | ⟨payload, some, isText, run⟩⟩
      · exact ⟨_, _, failed, fun accepted => absurd accepted (by decide)⟩
      · have notEnd := (condition ⟨front, raws, []⟩ (by
          rw [Datagram.bytes, List.append_nil, isEnd]) ⟨accepted, taken⟩).1
        exact absurd rfl notEnd
      · refine ⟨_, _, run, fun success => ?_⟩
        have passes := (coapMsgCheck_payload some (0xFF :: payload)).mp success
        have bytes : Datagram.bytes ⟨front, raws, 0xFF :: payload⟩ = front.bytes ++ rest := by
          rw [Datagram.bytes, isText]
        have reached : Datagram.Reached ⟨front, raws, 0xFF :: payload⟩ := ⟨accepted, taken⟩
        have faithful := (condition _ bytes reached).2 payload some rfl passes
        have announces := Datagram.announces_complete reached some faithful
        refine ⟨?_, _, bytes, announces⟩
        rw [announces.nums]
        exact (RawOption.sums_sorted 0 raws).1
    · refine ⟨_, _, deserializeCoapMessage_refused ?_, fun accepted => absurd accepted (by decide)⟩
      intro front rest accepted text
      exact known ⟨front, rest, accepted, text⟩

/-- An empty acknowledgement: the options loop reads the byte behind its four bytes. -/
theorem emptyAck_readBehind :
    deserializeCoapMessage (fun _ => true) .zero [0x60, 0, 0x12, 0x34] 4 = .error .outOfBounds ∧
      ¬ ParsedSafely [0x60, 0, 0x12, 0x34] := by
  have behind : deserializeCoapMessage (fun _ => true) .zero [0x60, 0, 0x12, 0x34] 4 =
      .error .outOfBounds := by
    decide
  refine ⟨behind, fun safe => ?_⟩
  obtain ⟨rc, m, run, _⟩ := safe fun _ => true
  cases behind.symm.trans run

end QcloudIot.Coap
