import QcloudIot.Coap.Message

/-!
# The round trip of a CoAP message

What the serializer writes is read back as it was, except that an extension byte of 128 and
above is read as a negative number: deltas and lengths from 141 to 268 are lost.
-/

namespace QcloudIot.Coap

/-! ## What the serializer writes -/

/-- The bytes of an option behind one of number `prevNum`. -/
def encodeOption (prevNum : Nat) (op : CoapMsgOption) : List UInt8 :=
  UInt8.ofNat (nibble (shortSub op.optionNum prevNum) <<< 4 ||| nibble op.val.length) ::
    (extended (shortSub op.optionNum prevNum) ++ extended op.val.length ++ op.val)

def encodeOptions : Nat → List CoapMsgOption → List UInt8
  | _, [] => []
  | prevNum, op :: ops => encodeOption prevNum op ++ encodeOptions op.optionNum ops

def encodePayload (payload : List UInt8) : List UInt8 :=
  if payload.length = 0 then [] else 0xFF :: payload

/-- The bytes of the header. -/
def encodeHeader (m : CoapMessage) : List UInt8 :=
  [UInt8.ofNat (coapMsgVer <<< 6 ||| (m.type.toNat &&& 3) <<< 4 ||| (m.token.length &&& 15)),
    UInt8.ofNat ((m.codeClass &&& 7) <<< 5 ||| (m.codeDetail &&& 31)),
    UInt8.ofNat ((m.msgId &&& 0xFF00) >>> 8), UInt8.ofNat (m.msgId &&& 0xFF)]

def encode (m : CoapMessage) : List UInt8 :=
  encodeHeader m ++ m.token ++ encodeOptions 0 m.opList ++ encodePayload m.payload

theorem coapMsgFormatOp_eq {op : CoapMsgOption} {prevNum len : Nat} {bytes : List UInt8}
    (written : coapMsgFormatOp op prevNum len = .ok bytes) : bytes = encodeOption prevNum op := by
  rw [coapMsgFormatOp] at written
  split_ifs at written
  cases written
  rfl

theorem coapMessageSerializeOptions_eq {ops : List CoapMsgOption} {prevNum len : Nat}
    {bytes : List UInt8} (written : coapMessageSerializeOptions ops prevNum len = .ok bytes) :
    bytes = encodeOptions prevNum ops := by
  induction ops generalizing prevNum len bytes with
  | nil =>
    cases written
    rfl
  | cons op ops ih =>
    simp only [coapMessageSerializeOptions, bind, Except.bind] at written
    cases first : coapMsgFormatOp op prevNum len with
    | error rc =>
      rw [first] at written
      cases written
    | ok here =>
      simp only [first] at written
      cases later : coapMessageSerializeOptions ops op.optionNum (sizeSub len here.length) with
      | error rc =>
        rw [later] at written
        cases written
      | ok rest =>
        rw [later] at written
        cases written
        rw [encodeOptions, ← coapMsgFormatOp_eq first, ← ih later]

/-- Whenever the serializer succeeds, it has written these bytes, whatever the room. -/
theorem serializeCoapMessage_eq {m : CoapMessage} {len : Nat} {bytes : List UInt8}
    (written : serializeCoapMessage m len = .ok bytes) : bytes = encode m := by
  simp only [serializeCoapMessage, bind, Except.bind] at written
  cases header : coapMessageSerializeHeader m len with
  | error rc =>
    simp only [header] at written
    cases written
  | ok first =>
    have isHeader : first = encodeHeader m := by
      rw [coapMessageSerializeHeader] at header
      split_ifs at header
      cases header
      rfl
    simp only [header] at written
    cases token : coapMessageSerializeToken m (sizeSub len first.length) with
    | error rc =>
      simp only [token] at written
      cases written
    | ok second =>
      have isToken : second = m.token := by
        rw [coapMessageSerializeToken] at token
        split_ifs at token
        cases token
        rfl
      simp only [token] at written
      cases options : coapMessageSerializeOptions m.opList 0
          (sizeSub (sizeSub len first.length) second.length) with
      | error rc =>
        simp only [options] at written
        cases written
      | ok third =>
        have isOptions := coapMessageSerializeOptions_eq options
        simp only [options] at written
        cases payload : coapMessageSerializePayload m
            (sizeSub (sizeSub (sizeSub len first.length) second.length) third.length) with
        | error rc =>
          simp only [payload] at written
          cases written
        | ok fourth =>
          have isPayload : fourth = encodePayload m.payload := by
            rw [coapMessageSerializePayload] at payload
            rw [encodePayload]
            split_ifs at payload ⊢
            · cases payload
              rfl
            · cases payload
              rfl
          simp only [payload] at written
          cases written
          rw [encode, isHeader, isToken, isOptions, isPayload]

/-! ## Bytes -/

theorem halves_of_byte : ∀ high < 15, ∀ low < 15,
    ((UInt8.ofNat (high <<< 4 ||| low)).toNat >>> 4) &&& 15 = high ∧
      (UInt8.ofNat (high <<< 4 ||| low)).toNat &&& 15 = low ∧
      UInt8.ofNat (high <<< 4 ||| low) ≠ 0xFF := by
  decide

theorem nibble_lt (n : Nat) : nibble n < 15 := by
  rw [nibble]
  split_ifs <;> omega

/-- The two halves of the first byte of an option, and that it is not the payload marker. -/
theorem firstByte (delta len : Nat) :
    ((UInt8.ofNat (nibble delta <<< 4 ||| nibble len)).toNat >>> 4) &&& 15 = nibble delta ∧
      (UInt8.ofNat (nibble delta <<< 4 ||| nibble len)).toNat &&& 15 = nibble len ∧
      UInt8.ofNat (nibble delta <<< 4 ||| nibble len) ≠ 0xFF :=
  halves_of_byte _ (nibble_lt delta) _ (nibble_lt len)

/-- The two bytes of a number below 2¹⁶. -/
theorem twoBytes {n : Nat} (fits : n < 2 ^ 16) :
    (UInt8.ofNat ((n &&& 0xFF00) >>> 8)).toNat * 256 + (UInt8.ofNat (n &&& 0xFF)).toNat = n := by
  have low : n &&& 0xFF = n % 256 := Nat.and_two_pow_sub_one_eq_mod n 8
  have high : (n &&& 0xFF00) >>> 8 = n / 256 := by
    rw [Nat.shiftRight_and_distrib, Nat.shiftRight_eq_div_pow]
    have mask : n / 2 ^ 8 &&& 0xFF00 >>> 8 = n / 2 ^ 8 % 256 :=
      Nat.and_two_pow_sub_one_eq_mod (n / 2 ^ 8) 8
    rw [mask]
    omega
  rw [low, high, UInt8.toNat_ofNat', UInt8.toNat_ofNat']
  omega

/-- A delta or a length that is not read back: its extension is a byte of 128 and above. -/
def Lost (n : Nat) : Prop := 141 ≤ n ∧ n ≤ 268

theorem readExtended_byte (b : UInt8) (rest : List UInt8) (m : Nat) :
    readExtended 13 (b :: rest) (m + 1) = .ok (.ok ((13 + charToUnsigned b) % 2 ^ 32, rest, m)) := by
  rw [readExtended.eq_def, if_pos rfl, if_neg (by omega)]
  rfl

theorem readExtended_bytes (b₀ b₁ : UInt8) (rest : List UInt8) (m : Nat) :
    readExtended 14 (b₀ :: b₁ :: rest) (m + 2) =
      .ok (.ok (269 + (b₀.toNat * 256 + b₁.toNat), rest, m)) := by
  rw [readExtended.eq_def, if_neg (by decide), if_pos rfl, if_neg (by omega)]
  rfl

theorem readExtended_half {half : Nat} (p : List UInt8) (len : Nat) (small : half < 13) :
    readExtended half p len = .ok (.ok (half, p, len)) := by
  rw [readExtended.eq_def, if_neg (by omega), if_neg (by omega)]

theorem byte_of_medium {n : Nat} (most : n ≤ 268) (least : 13 ≤ n) :
    (UInt8.ofNat (n - 13)).toNat = n - 13 := by
  rw [UInt8.toNat_ofNat']
  omega

/-- A delta or a length is read back unless it is lost. -/
theorem readExtended_extended {n : Nat} (rest : List UInt8) (m : Nat) (fits : n ≤ 65804)
    (kept : ¬ Lost n) :
    readExtended (nibble n) (extended n ++ rest) (m + (extended n).length) =
      .ok (.ok (n, rest, m)) := by
  rw [Lost] at kept
  rw [nibble, extended]
  split_ifs with long medium
  · have bytes := twoBytes (n := n - 269) (by omega)
    have read := readExtended_bytes (UInt8.ofNat (((n - 269) &&& 0xFF00) >>> 8))
      (UInt8.ofNat ((n - 269) &&& 0xFF)) rest m
    rw [bytes, Nat.add_sub_cancel' long] at read
    exact read
  · have byte := byte_of_medium (n := n) (by omega) medium
    have value : (13 + charToUnsigned (UInt8.ofNat (n - 13))) % 2 ^ 32 = n := by
      rw [charToUnsigned, byte, if_pos (by omega)]
      omega
    have read := readExtended_byte (UInt8.ofNat (n - 13)) rest m
    rw [value] at read
    exact read
  · exact readExtended_half rest m (by omega)

/-- What is read for a lost delta or length is too small by 256. -/
theorem readExtended_lost {n : Nat} (lost : Lost n) :
    ∃ wrong, (wrong + 256) % 2 ^ 32 = n ∧ ∀ rest m,
      readExtended (nibble n) (extended n ++ rest) (m + (extended n).length) =
        .ok (.ok (wrong, rest, m)) := by
  obtain ⟨least, most⟩ := lost
  have byte := byte_of_medium most (by omega)
  have half : nibble n = 13 := by
    rw [nibble, if_neg (by omega), if_pos (by omega)]
  have extension : extended n = [UInt8.ofNat (n - 13)] := by
    rw [extended, if_neg (by omega), if_pos (by omega)]
  rw [half, extension]
  refine ⟨_, ?_, fun rest m => readExtended_byte _ rest m⟩
  rw [charToUnsigned, byte, if_neg (by omega)]
  omega

/-! ## One option -/

/-- The number of the last option, 0 if there is none. -/
def lastNum (ops : List CoapMsgOption) : Nat :=
  match ops.getLast? with
  | none => 0
  | some op => op.optionNum

/-- An option that a message can hold behind one of number `prevNum`. -/
structure CoapMsgOption.Follows (prevNum : Nat) (op : CoapMsgOption) : Prop where
  sorted : prevNum ≤ op.optionNum
  short : op.optionNum ≤ 65535
  length : op.val.length ≤ 65804

theorem CoapMsgOption.Follows.delta {prevNum : Nat} {op : CoapMsgOption}
    (follows : op.Follows prevNum) :
    shortSub op.optionNum prevNum = op.optionNum - prevNum := if_pos follows.sorted

/-- Both allocations for the `k`-th option succeed. -/
def OptionAllocated (alloc : Nat → Bool) (k : Nat) : Prop :=
  alloc (2 * k) = true ∧ alloc (2 * k + 1) = true

instance (alloc : Nat → Bool) (k : Nat) : Decidable (OptionAllocated alloc k) :=
  inferInstanceAs (Decidable (_ ∧ _))

/-- The number of an option is an `unsigned short`. -/
theorem qcloudIotCoapOptionInit_mod (alloc : Nat → Bool) (k num : Nat) (val : List UInt8) :
    qcloudIotCoapOptionInit alloc k (num % 2 ^ 32) val = qcloudIotCoapOptionInit alloc k num val := by
  have short : num % 2 ^ 32 % 2 ^ 16 = num % 2 ^ 16 := by omega
  rw [qcloudIotCoapOptionInit, short]
  rfl

/-- The `k`-th option read, with the delta and the length that were read for it. -/
theorem coapMessageDeserializeOption_read {alloc : Nat → Bool} {k : Nat} {msg : CoapMessage}
    {prevNum : Nat} {op : CoapMsgOption} {rest : List UInt8} {m delta len : Nat}
    (last : lastNum msg.opList = prevNum)
    (readDelta : ∀ rest m, readExtended (nibble (shortSub op.optionNum prevNum))
      (extended (shortSub op.optionNum prevNum) ++ rest)
      (m + (extended (shortSub op.optionNum prevNum)).length) = .ok (.ok (delta, rest, m)))
    (readLength : ∀ rest m, readExtended (nibble op.val.length)
      (extended op.val.length ++ rest) (m + (extended op.val.length).length) =
        .ok (.ok (len, rest, m))) :
    coapMessageDeserializeOption alloc k msg (encodeOption prevNum op ++ rest)
        ((encodeOption prevNum op).length + m) =
      if op.val.length + m < len then .ok (.error qcloudErrCoapDataSize)
      else if (op.val ++ rest).length < len then .error .outOfBounds
      else match qcloudIotCoapOptionInit alloc k (prevNum + delta) ((op.val ++ rest).take len) with
        | none => .ok (.error qcloudErrFailure)
        | some option => .ok (.ok ({ msg with opList := msg.opList ++ [option] },
            (op.val ++ rest).drop len, op.val.length + m - len)) := by
  generalize deltaEq : shortSub op.optionNum prevNum = diff at readDelta
  obtain ⟨high, low, _⟩ := firstByte diff op.val.length
  have length : (encodeOption prevNum op).length + m = op.val.length + m +
      (extended op.val.length).length + (extended diff).length + 1 := by
    rw [encodeOption, deltaEq]
    simp only [List.length_cons, List.length_append]
    omega
  have bytes : encodeOption prevNum op ++ rest =
      UInt8.ofNat (nibble diff <<< 4 ||| nibble op.val.length) ::
        (extended diff ++ (extended op.val.length ++ (op.val ++ rest))) := by
    rw [encodeOption, deltaEq]
    simp
  have noReserved : ¬ (nibble diff = 15 ∨ nibble op.val.length = 15) := by
    have first := nibble_lt diff
    have second := nibble_lt op.val.length
    omega
  have number : numBehind msg.opList delta % 2 ^ 32 = (prevNum + delta) % 2 ^ 32 := by
    rw [← last, lastNum, numBehind]
    cases msg.opList.getLast? with
    | none => rw [Nat.zero_add]
    | some prev => exact Nat.mod_mod _ _
  rw [length, bytes, coapMessageDeserializeOption.eq_def, if_neg (by omega)]
  simp only [high, low, if_neg noReserved, Nat.add_sub_cancel, readDelta, readLength, bind,
      Except.bind,
    pure, Except.pure]
  split_ifs
  · rfl
  · rfl
  · rw [← qcloudIotCoapOptionInit_mod, number, qcloudIotCoapOptionInit_mod]
    all_goals rfl

/-- An option is read back unless its delta or its length is lost. -/
theorem coapMessageDeserializeOption_kept {alloc : Nat → Bool} {k : Nat} {msg : CoapMessage}
    {prevNum : Nat} {op : CoapMsgOption} {rest : List UInt8} {m : Nat}
    (last : lastNum msg.opList = prevNum) (follows : op.Follows prevNum)
    (delta : ¬ Lost (op.optionNum - prevNum)) (length : ¬ Lost op.val.length) :
    coapMessageDeserializeOption alloc k msg (encodeOption prevNum op ++ rest)
        ((encodeOption prevNum op).length + m) =
      .ok (if OptionAllocated alloc k then
          .ok ({ msg with opList := msg.opList ++ [op] }, rest, m)
        else .error qcloudErrFailure) := by
  have short := follows.short
  have readDelta : ∀ rest m, readExtended (nibble (shortSub op.optionNum prevNum))
      (extended (shortSub op.optionNum prevNum) ++ rest)
      (m + (extended (shortSub op.optionNum prevNum)).length) =
        .ok (.ok (op.optionNum - prevNum, rest, m)) := by
    intro rest m
    rw [follows.delta]
    exact readExtended_extended rest m (by omega) delta
  rw [coapMessageDeserializeOption_read last readDelta fun rest m =>
    readExtended_extended rest m follows.length length]
  have num : (prevNum + (op.optionNum - prevNum)) % 2 ^ 16 = op.optionNum := by
    have sorted := follows.sorted
    omega
  have init : qcloudIotCoapOptionInit alloc k (prevNum + (op.optionNum - prevNum)) op.val =
      if OptionAllocated alloc k then some op else none := by
    rw [qcloudIotCoapOptionInit, num]
    rfl
  rw [if_neg (by omega), if_neg (by rw [List.length_append]; omega), List.take_left, List.drop_left,
    Nat.add_sub_cancel_left, init]
  by_cases allocated : OptionAllocated alloc k
  · rw [if_pos allocated, if_pos allocated]
  · rw [if_neg allocated, if_neg allocated]

/-- Otherwise, if an option is read at all, it is another one. -/
theorem coapMessageDeserializeOption_lost {alloc : Nat → Bool} {k : Nat} {msg msg' : CoapMessage}
    {prevNum : Nat} {op : CoapMsgOption} {rest p' : List UInt8} {m len' : Nat}
    (last : lastNum msg.opList = prevNum) (follows : op.Follows prevNum)
    (lost : Lost (op.optionNum - prevNum) ∨ Lost op.val.length)
    (read : coapMessageDeserializeOption alloc k msg (encodeOption prevNum op ++ rest)
        ((encodeOption prevNum op).length + m) = .ok (.ok (msg', p', len'))) :
    ∃ option, msg'.opList = msg.opList ++ [option] ∧ option ≠ op := by
  have short := follows.short
  have sorted := follows.sorted
  -- what is read for the delta and for the length, lost or not
  obtain ⟨delta, readDelta, isDelta⟩ : ∃ delta, (∀ rest m,
      readExtended (nibble (shortSub op.optionNum prevNum))
        (extended (shortSub op.optionNum prevNum) ++ rest)
        (m + (extended (shortSub op.optionNum prevNum)).length) = .ok (.ok (delta, rest, m))) ∧
      (Lost (op.optionNum - prevNum) → (delta + 256) % 2 ^ 32 = op.optionNum - prevNum) := by
    rw [follows.delta]
    by_cases lostDelta : Lost (op.optionNum - prevNum)
    · obtain ⟨wrong, value, read⟩ := readExtended_lost lostDelta
      exact ⟨wrong, read, fun _ => value⟩
    · exact ⟨_, fun rest m => readExtended_extended rest m (by omega) lostDelta,
        fun lost => absurd lost lostDelta⟩
  obtain ⟨len, readLength, isLength⟩ : ∃ len, (∀ rest m, readExtended (nibble op.val.length)
      (extended op.val.length ++ rest) (m + (extended op.val.length).length) =
        .ok (.ok (len, rest, m))) ∧
      (Lost op.val.length → (len + 256) % 2 ^ 32 = op.val.length) := by
    by_cases lostLength : Lost op.val.length
    · obtain ⟨wrong, value, read⟩ := readExtended_lost lostLength
      exact ⟨wrong, read, fun _ => value⟩
    · exact ⟨_, fun rest m => readExtended_extended rest m follows.length lostLength,
        fun lost => absurd lost lostLength⟩
  rw [coapMessageDeserializeOption_read last readDelta readLength] at read
  split_ifs at read
  · cases read
  · cases init : qcloudIotCoapOptionInit alloc k (prevNum + delta) ((op.val ++ rest).take len) with
    | none =>
      rw [init] at read
      cases read
    | some option =>
      rw [init] at read
      cases read
      refine ⟨option, rfl, fun same => ?_⟩
      rw [qcloudIotCoapOptionInit, same] at init
      split_ifs at init
      have num : (prevNum + delta) % 2 ^ 16 = op.optionNum :=
        congrArg CoapMsgOption.optionNum (Option.some.inj init)
      have val : ((op.val ++ rest).take len).length = op.val.length :=
        congrArg List.length (congrArg CoapMsgOption.val (Option.some.inj init))
      rw [List.length_take] at val
      rcases lost with lost | lost
      · have value := isDelta lost
        rw [Lost] at lost
        omega
      · have value := isLength lost
        rw [Lost] at lost
        omega

/-! ## The options -/

/-- Options that a message can hold behind one of number `prevNum`. -/
def OptionsFollow : Nat → List CoapMsgOption → Prop
  | _, [] => True
  | prevNum, op :: ops => op.Follows prevNum ∧ OptionsFollow op.optionNum ops

/-- No delta and no length is lost. -/
def OptionsKept : Nat → List CoapMsgOption → Prop
  | _, [] => True
  | prevNum, op :: ops =>
    ¬ Lost (op.optionNum - prevNum) ∧ ¬ Lost op.val.length ∧ OptionsKept op.optionNum ops

/-- The options from the `k`-th one on are allocated. -/
def OptionsAllocated (alloc : Nat → Bool) (k n : Nat) : Prop :=
  ∀ i < n, OptionAllocated alloc (k + i)

theorem OptionsAllocated.of_cons {alloc : Nat → Bool} {k n : Nat}
    (first : OptionAllocated alloc k) (later : OptionsAllocated alloc (k + 1) n) :
    OptionsAllocated alloc k (n + 1) := by
  intro i below
  cases i with
  | zero => exact first
  | succ i =>
    have here := later i (by omega)
    rwa [Nat.add_right_comm, Nat.add_assoc] at here

theorem OptionsAllocated.tail {alloc : Nat → Bool} {k n : Nat}
    (allocated : OptionsAllocated alloc k (n + 1)) : OptionsAllocated alloc (k + 1) n := by
  intro i below
  have here := allocated (i + 1) (by omega)
  rwa [Nat.add_right_comm, Nat.add_assoc]

theorem lastNum_append (ops : List CoapMsgOption) (op : CoapMsgOption) :
    lastNum (ops ++ [op]) = op.optionNum := by
  rw [lastNum, List.getLast?_append]
  rfl

theorem coapMessageDeserializeOptions_step {alloc : Nat → Bool} {fuel k : Nat} {msg : CoapMessage}
    {prevNum : Nat} {op : CoapMsgOption} {rest : List UInt8} {m : Nat} :
    coapMessageDeserializeOptions alloc (fuel + 1) k msg (encodeOption prevNum op ++ rest)
        ((encodeOption prevNum op).length + m) = (do
      match ← coapMessageDeserializeOption alloc k msg (encodeOption prevNum op ++ rest)
          ((encodeOption prevNum op).length + m) with
      | .error rc => return .error rc
      | .ok (msg, p, len) => coapMessageDeserializeOptions alloc fuel (k + 1) msg p len) := by
  obtain ⟨_, _, noMarker⟩ := firstByte (shortSub op.optionNum prevNum) op.val.length
  have some : (encodeOption prevNum op).length + m ≠ 0 := by
    rw [encodeOption, List.length_cons]
    omega
  generalize (encodeOption prevNum op).length + m = len at some
  rw [encodeOption, List.cons_append, coapMessageDeserializeOptions.eq_def]
  simp only [noMarker, some, or_self, if_false]
  all_goals
    cases coapMessageDeserializeOption alloc k msg _ len with
    | error fault => rfl
    | ok stage =>
      cases stage with
      | error rc => rfl
      | ok next => rfl

/-- Behind the options, at the payload marker or the end, the loop stops. -/
theorem coapMessageDeserializeOptions_stop {alloc : Nat → Bool} {fuel k : Nat} {msg : CoapMessage}
    {b : UInt8} {p : List UInt8} {len : Nat} (stop : b = 0xFF ∨ len = 0) :
    coapMessageDeserializeOptions alloc fuel k msg (b :: p) len = .ok (.ok (msg, b :: p, len)) := by
  rw [coapMessageDeserializeOptions.eq_def]
  exact if_pos stop

/-- It reads the byte at `p` even at the end. -/
theorem coapMessageDeserializeOptions_nil {alloc : Nat → Bool} {fuel k : Nat} {msg : CoapMessage}
    {len : Nat} :
    coapMessageDeserializeOptions alloc fuel k msg [] len = .error .outOfBounds := by
  rw [coapMessageDeserializeOptions.eq_def]

/-- The loop reads the options back unless one of them is lost, and goes on behind them. -/
theorem coapMessageDeserializeOptions_kept {alloc : Nat → Bool} {ops : List CoapMsgOption}
    {fuel k : Nat} {msg : CoapMessage} {prevNum : Nat} {rest : List UInt8} {m : Nat}
    (last : lastNum msg.opList = prevNum) (follow : OptionsFollow prevNum ops)
    (kept : OptionsKept prevNum ops) (allocated : OptionsAllocated alloc k ops.length) :
    coapMessageDeserializeOptions alloc (fuel + ops.length) k msg
        (encodeOptions prevNum ops ++ rest) ((encodeOptions prevNum ops).length + m) =
      coapMessageDeserializeOptions alloc fuel (k + ops.length)
        { msg with opList := msg.opList ++ ops } rest m := by
  induction ops generalizing k msg prevNum with
  | nil =>
    rw [encodeOptions, List.nil_append, List.length_nil, List.length_nil, Nat.zero_add,
      Nat.add_zero, Nat.add_zero, List.append_nil]
  | cons op ops ih =>
    obtain ⟨here, later⟩ := follow
    obtain ⟨delta, length, keptLater⟩ := kept
    have first : OptionAllocated alloc k := allocated 0 (Nat.succ_pos _)
    rw [encodeOptions, List.append_assoc, List.length_append, Nat.add_assoc, List.length_cons,
      ← Nat.add_assoc fuel, coapMessageDeserializeOptions_step,
      coapMessageDeserializeOption_kept last here delta length, if_pos first]
    have rest := @ih (k + 1) { msg with opList := msg.opList ++ [op] } _
      (lastNum_append msg.opList op) later keptLater allocated.tail
    simp only [List.append_assoc, List.singleton_append, Nat.add_assoc, Nat.add_comm 1] at rest
    exact rest

/-- Reading options only appends to the list. -/
theorem coapMessageDeserializeOption_appends {alloc : Nat → Bool} {k : Nat}
    {msg msg' : CoapMessage} {p p' : List UInt8} {len len' : Nat}
    (read : coapMessageDeserializeOption alloc k msg p len = .ok (.ok (msg', p', len'))) :
    ∃ more, msg'.opList = msg.opList ++ more := by
  rw [coapMessageDeserializeOption.eq_def] at read
  simp only [bind, Except.bind, pure, Except.pure] at read
  repeat' split at read
  all_goals cases read
  exact ⟨[_], rfl⟩

theorem coapMessageDeserializeOptions_appends {alloc : Nat → Bool} {fuel k : Nat}
    {msg msg' : CoapMessage} {p p' : List UInt8} {len len' : Nat}
    (read : coapMessageDeserializeOptions alloc fuel k msg p len = .ok (.ok (msg', p', len'))) :
    ∃ more, msg'.opList = msg.opList ++ more := by
  induction fuel generalizing k msg p len with
  | zero =>
    rw [coapMessageDeserializeOptions.eq_def] at read
    split at read
    · cases read
    · simp only [ite_self] at read
      cases read
      exact ⟨[], (List.append_nil _).symm⟩
  | succ fuel ih =>
    cases p with
    | nil => cases read
    | cons b p =>
      by_cases stop : b = 0xFF ∨ len = 0
      · rw [coapMessageDeserializeOptions_stop stop] at read
        cases read
        exact ⟨[], (List.append_nil _).symm⟩
      · rw [coapMessageDeserializeOptions.eq_def] at read
        simp only [if_neg stop, bind, Except.bind, pure, Except.pure] at read
        cases first : coapMessageDeserializeOption alloc k msg (b :: p) len with
        | error fault =>
          simp only [first] at read
          cases read
        | ok stage =>
          cases stage with
          | error rc =>
            simp only [first] at read
            cases read
          | ok next =>
            obtain ⟨between, q, left⟩ := next
            simp only [first] at read
            obtain ⟨here, isHere⟩ := coapMessageDeserializeOption_appends first
            obtain ⟨later, isLater⟩ := ih read
            exact ⟨here ++ later, by rw [isLater, isHere, List.append_assoc]⟩

/-- Conversely, if the options are read back then none is lost. -/
theorem coapMessageDeserializeOptions_keeps {alloc : Nat → Bool} {ops : List CoapMsgOption}
    {fuel k : Nat} {msg msg' : CoapMessage} {prevNum : Nat} {rest p' : List UInt8} {m len' : Nat}
    (last : lastNum msg.opList = prevNum) (follow : OptionsFollow prevNum ops)
    (enough : ops.length ≤ fuel)
    (read : coapMessageDeserializeOptions alloc fuel k msg (encodeOptions prevNum ops ++ rest)
        ((encodeOptions prevNum ops).length + m) = .ok (.ok (msg', p', len')))
    (same : msg'.opList = msg.opList ++ ops) :
    OptionsKept prevNum ops ∧ OptionsAllocated alloc k ops.length := by
  induction ops generalizing fuel k msg prevNum with
  | nil => exact ⟨trivial, fun i below => absurd below (Nat.not_lt_zero i)⟩
  | cons op ops ih =>
    obtain ⟨here, later⟩ := follow
    obtain ⟨fuel, rfl⟩ : ∃ f, fuel = f + 1 := ⟨fuel - 1, by rw [List.length_cons] at enough; omega⟩
    rw [encodeOptions, List.append_assoc, List.length_append, Nat.add_assoc,
      coapMessageDeserializeOptions_step] at read
    simp only [bind, Except.bind, pure, Except.pure] at read
    cases first : coapMessageDeserializeOption alloc k msg
        (encodeOption prevNum op ++ (encodeOptions op.optionNum ops ++ rest))
        ((encodeOption prevNum op).length + ((encodeOptions op.optionNum ops).length + m)) with
    | error fault =>
      simp only [first] at read
      cases read
    | ok stage =>
      cases stage with
      | error rc =>
        simp only [first] at read
        cases read
      | ok next =>
        obtain ⟨between, q, left⟩ := next
        simp only [first] at read
        have keptHere : ¬ Lost (op.optionNum - prevNum) ∧ ¬ Lost op.val.length := by
          rw [← not_or]
          intro lost
          -- another option is read in its place, and stays in the list
          obtain ⟨option, isOption, other⟩ :=
            coapMessageDeserializeOption_lost last here lost first
          obtain ⟨more, isMore⟩ := coapMessageDeserializeOptions_appends read
          rw [isMore, isOption, List.append_assoc, List.append_cancel_left_eq] at same
          exact other (List.cons.inj same).1
        obtain ⟨delta, length⟩ := keptHere
        rw [coapMessageDeserializeOption_kept last here delta length] at first
        by_cases allocated : OptionAllocated alloc k
        · rw [if_pos allocated] at first
          cases first
          obtain ⟨keptLater, allocatedLater⟩ := ih (lastNum_append msg.opList op) later
            (Nat.le_of_succ_le_succ enough) read (by rw [same, List.append_assoc]; rfl)
          exact ⟨⟨delta, length, keptLater⟩, .of_cons allocated allocatedLater⟩
        · rw [if_neg allocated] at first
          cases first

/-! ## The message -/

/-- A message that the codec is made for. -/
structure CoapMessage.Valid (m : CoapMessage) : Prop where
  codeClass : m.codeClass = 0 ∨ m.codeClass = 2 ∨ m.codeClass = 4 ∨ m.codeClass = 5
  token : m.token.length ≤ 8
  check : coapMsgCheck m = qcloudRetSuccess
  options : OptionsFollow 0 m.opList
  msgId : m.msgId < 2 ^ 16

/-- The fields that go over the network. -/
structure CoapMessage.SameAs (m' m : CoapMessage) : Prop where
  type : m'.type = m.type
  codeClass : m'.codeClass = m.codeClass
  codeDetail : m'.codeDetail = m.codeDetail
  msgId : m'.msgId = m.msgId
  token : m'.token = m.token
  opList : m'.opList = m.opList
  payload : m'.payload = m.payload

/-- What is read back of `m`. -/
def readBack (m : CoapMessage) : CoapMessage :=
  { m with version := coapMsgVer, codeDetail := m.codeDetail % 32, handler := none, userContext := 0 }

/-- What header and token say of `m`. -/
def headOf (m : CoapMessage) : CoapMessage := { readBack m with payload := [], opList := [] }

theorem parts_of_first_byte : ∀ type < 4, ∀ len < 9,
    (UInt8.ofNat (coapMsgVer <<< 6 ||| (type &&& 3) <<< 4 ||| (len &&& 15))).toNat >>> 6 &&& 3 =
        coapMsgVer ∧
      (UInt8.ofNat (coapMsgVer <<< 6 ||| (type &&& 3) <<< 4 ||| (len &&& 15))).toNat >>> 4 &&& 3 =
        type ∧
      (UInt8.ofNat (coapMsgVer <<< 6 ||| (type &&& 3) <<< 4 ||| (len &&& 15))).toNat &&& 15 =
        len := by
  decide

theorem parts_of_code : ∀ codeClass < 8, ∀ detail < 32,
    (UInt8.ofNat ((codeClass &&& 7) <<< 5 ||| detail)).toNat >>> 5 &&& 7 = codeClass ∧
      (UInt8.ofNat ((codeClass &&& 7) <<< 5 ||| detail)).toNat &&& 31 = detail := by
  with_unfolding_all decide

theorem CoapMsgType.ofBits_toNat (type : CoapMsgType) : ofBits type.toNat = type := by
  cases type <;> rfl

theorem CoapMsgType.toNat_lt (type : CoapMsgType) : type.toNat < 4 := by
  cases type <;> decide

theorem coapMessageDeserializeHeader_encode {m : CoapMessage} (valid : m.Valid) (msg : CoapMessage)
    (p : List UInt8) (len : Nat) :
    coapMessageDeserializeHeader msg (encodeHeader m ++ p) (4 + len) =
      .ok (.ok (m.token.length,
        { msg with
          version := coapMsgVer, type := m.type, codeDetail := m.codeDetail % 32
          codeClass := m.codeClass, msgId := m.msgId },
        p, len)) := by
  have token := valid.token
  have codeClass := valid.codeClass
  obtain ⟨version, type, tokenLen⟩ :=
    parts_of_first_byte m.type.toNat m.type.toNat_lt m.token.length (by omega)
  have low : m.codeDetail &&& 31 = m.codeDetail % 32 :=
    Nat.and_two_pow_sub_one_eq_mod m.codeDetail 5
  obtain ⟨isClass, detail⟩ :=
    parts_of_code m.codeClass (by omega) (m.codeDetail % 32) (Nat.mod_lt _ (by omega))
  have known : ¬ (m.codeClass ≠ coapMsgReq ∧ m.codeClass ≠ coapMsgSuccess ∧
      m.codeClass ≠ coapMsgClientErr ∧ m.codeClass ≠ coapMsgServerErr) := by
    intro ⟨notReq, notSuccess, notClientErr, notServerErr⟩
    rcases codeClass with req | success | clientErr | serverErr
    · exact notReq req
    · exact notSuccess success
    · exact notClientErr clientErr
    · exact notServerErr serverErr
  have short : ¬ m.token.length > coapMsgMaxTokenLen := Nat.not_lt.mpr token
  have id := twoBytes valid.msgId
  rw [encodeHeader, low, coapMessageDeserializeHeader.eq_def, if_neg (by omega)]
  simp only [List.cons_append, List.nil_append, version, type, tokenLen, isClass, detail, id,
    CoapMsgType.ofBits_toNat, if_neg known, if_neg short, ne_eq, not_true_eq_false, if_false,
    Nat.add_sub_cancel_left]

theorem coapMessageDeserializeToken_append {m msg : CoapMessage} (p : List UInt8) (len : Nat) :
    coapMessageDeserializeToken m.token.length msg (m.token ++ p) (m.token.length + len) =
      .ok (.ok ({ msg with token := m.token }, p, len)) := by
  rw [coapMessageDeserializeToken, if_neg (by omega), if_neg (by rw [List.length_append]; omega),
    List.take_left, List.drop_left, Nat.add_sub_cancel_left]

theorem coapMessageDeserializePayload_opList {alloc : Nat → Bool} {k : Nat} {msg msg' : CoapMessage}
    {p p' : List UInt8} {len len' : Nat}
    (read : coapMessageDeserializePayload alloc k msg p len = .ok (.ok (msg', p', len'))) :
    msg'.opList = msg.opList := by
  rw [coapMessageDeserializePayload.eq_def] at read
  repeat' split at read
  all_goals cases read
  · rfl
  · rfl

/-- Header and token are always read back. -/
theorem deserializeCoapMessage_encode {alloc : Nat → Bool} {m : CoapMessage} (valid : m.Valid)
    (behind : List UInt8) :
    deserializeCoapMessage alloc .zero (encode m ++ behind) (encode m).length = (do
      let len := (encodeOptions 0 m.opList).length + (encodePayload m.payload).length
      match ← coapMessageDeserializeOptions alloc len 0 (headOf m)
          (encodeOptions 0 m.opList ++ (encodePayload m.payload ++ behind)) len with
      | .error _ => return (qcloudErrCoapInternal, .zero)
      | .ok (message, p, len) =>
        match ← coapMessageDeserializePayload alloc message.opList.length message p len with
        | .error _ => return (qcloudErrCoapInternal, .zero)
        | .ok (message, _, _) => return (coapMsgCheck message, message)) := by
  have length : (encode m).length = 4 + (m.token.length +
      ((encodeOptions 0 m.opList).length + (encodePayload m.payload).length)) := by
    rw [encode]
    simp only [List.length_append, encodeHeader, List.length_cons, List.length_nil]
    omega
  have bytes : encode m ++ behind = encodeHeader m ++ (m.token ++
      (encodeOptions 0 m.opList ++ (encodePayload m.payload ++ behind))) := by
    simp only [encode, List.append_assoc]
  rw [length, bytes, deserializeCoapMessage, coapMessageDeserializeHeader_encode valid]
  simp only [bind, Except.bind, coapMessageDeserializeToken_append]
  rfl

theorem length_le_encodeOptions (prevNum : Nat) (ops : List CoapMsgOption) :
    ops.length ≤ (encodeOptions prevNum ops).length := by
  induction ops generalizing prevNum with
  | nil => exact Nat.zero_le _
  | cons op ops ih =>
    have later := ih op.optionNum
    rw [encodeOptions, encodeOption, List.length_append, List.length_cons, List.length_cons]
    omega

/-- The payload is read back if it can be allocated. -/
theorem coapMessageDeserializePayload_marker {alloc : Nat → Bool} {k : Nat} {msg : CoapMessage}
    {payload : List UInt8} (behind : List UInt8) (some : payload ≠ []) :
    coapMessageDeserializePayload alloc k msg (0xFF :: payload ++ behind) (payload.length + 1) =
      .ok (if alloc (2 * k) then .ok ({ msg with payload := payload }, behind, 0)
        else .error (-enomem)) := by
  have nonempty : payload.length ≠ 0 := fun none => some (List.length_eq_zero_iff.mp none)
  rw [List.cons_append, coapMessageDeserializePayload.eq_def, if_neg (Nat.succ_ne_zero _)]
  simp only [ne_eq, not_true_eq_false, if_false, Nat.add_sub_cancel, nonempty, List.length_append,
    List.take_left, List.drop_left]
  by_cases allocated : alloc (2 * k) = true
  · rw [if_neg (by simpa using allocated), if_neg (by omega), if_pos allocated]
  · rw [if_pos allocated, if_neg allocated]

/-- When the options are read back, what remains is the payload. -/
theorem deserializeCoapMessage_kept {alloc : Nat → Bool} {m : CoapMessage} (valid : m.Valid)
    (kept : OptionsKept 0 m.opList) (allocated : OptionsAllocated alloc 0 m.opList.length)
    (behind : List UInt8) :
    deserializeCoapMessage alloc .zero (encode m ++ behind) (encode m).length =
      if m.payload = [] then
        if behind = [] then .error .outOfBounds
        else .ok (coapMsgCheck (readBack m), readBack m)
      else if alloc (2 * m.opList.length) then .ok (coapMsgCheck (readBack m), readBack m)
      else .ok (qcloudErrCoapInternal, .zero) := by
  obtain ⟨fuel, isFuel⟩ : ∃ fuel, (encodeOptions 0 m.opList).length +
      (encodePayload m.payload).length = fuel + m.opList.length := by
    have enough := length_le_encodeOptions 0 m.opList
    exact ⟨(encodeOptions 0 m.opList).length + (encodePayload m.payload).length - m.opList.length,
      by omega⟩
  have options : coapMessageDeserializeOptions alloc (fuel + m.opList.length) 0 (headOf m)
      (encodeOptions 0 m.opList ++ (encodePayload m.payload ++ behind))
      (fuel + m.opList.length) =
      coapMessageDeserializeOptions alloc fuel m.opList.length { readBack m with payload := [] }
        (encodePayload m.payload ++ behind) (encodePayload m.payload).length := by
    have loop := @coapMessageDeserializeOptions_kept alloc m.opList fuel 0 (headOf m) 0
      (encodePayload m.payload ++ behind) (encodePayload m.payload).length rfl valid.options kept
          allocated
    rw [Nat.zero_add, isFuel] at loop
    exact loop
  rw [deserializeCoapMessage_encode valid]
  simp only [isFuel, options, bind, Except.bind, pure, Except.pure]
  clear options isFuel
  by_cases none : m.payload = []
  · rw [if_pos none, encodePayload, if_pos (by rw [none]; rfl), List.nil_append, List.length_nil]
    cases behind with
    | nil => rw [coapMessageDeserializeOptions_nil, if_pos rfl]
    | cons b p =>
      rw [coapMessageDeserializeOptions_stop (.inr rfl), if_neg (List.cons_ne_nil b p)]
      have same : { readBack m with payload := [] } = readBack m := by
        rw [readBack, none]
      simp only [coapMessageDeserializePayload, if_true]
      exact congrArg (fun r => Except.ok (coapMsgCheck r, r)) same
  · have nonempty : m.payload.length ≠ 0 := fun zero => none (List.length_eq_zero_iff.mp zero)
    rw [if_neg none, encodePayload, if_neg nonempty, List.length_cons, List.cons_append,
      coapMessageDeserializeOptions_stop (.inl rfl), ← List.cons_append]
    simp only [coapMessageDeserializePayload_marker behind none]
    have opList : (readBack m).opList = m.opList := rfl
    rw [opList]
    by_cases payload : alloc (2 * m.opList.length) = true
    · rw [if_pos payload, if_pos payload]
      rfl
    · rw [if_neg payload, if_neg payload]

/-- The condition under which a message is read back. -/
structure Survives (alloc : Nat → Bool) (m : CoapMessage) (behind : List UInt8) : Prop where
  codeDetail : m.codeDetail ≤ 31
  options : OptionsKept 0 m.opList
  allocated : OptionsAllocated alloc 0 m.opList.length
  payload : m.payload ≠ [] → alloc (2 * m.opList.length) = true
  readable : m.payload = [] → behind ≠ []

/-- What the serializer writes of a valid message is read back exactly if no delta and no length
    of an option is from 141 to 268, the detail of the code has five bits, everything can be
    allocated, and there is memory behind the bytes of a message without payload. -/
theorem roundTrip_iff {alloc : Nat → Bool} {m : CoapMessage} {len : Nat}
    {bytes behind : List UInt8} (valid : m.Valid)
    (written : serializeCoapMessage m len = .ok bytes) :
    (∃ m', deserializeCoapMessage alloc .zero (bytes ++ behind) bytes.length =
        .ok (qcloudRetSuccess, m') ∧ m'.SameAs m) ↔ Survives alloc m behind := by
  rw [serializeCoapMessage_eq written]
  constructor
  · intro ⟨m', read, same⟩
    obtain ⟨kept, allocated⟩ : OptionsKept 0 m.opList ∧
        OptionsAllocated alloc 0 m.opList.length := by
      have stages := read
      rw [deserializeCoapMessage_encode valid] at stages
      simp only [bind, Except.bind, pure, Except.pure] at stages
      cases options : coapMessageDeserializeOptions alloc
          ((encodeOptions 0 m.opList).length + (encodePayload m.payload).length) 0
          (headOf m) (encodeOptions 0 m.opList ++ (encodePayload m.payload ++ behind))
          ((encodeOptions 0 m.opList).length + (encodePayload m.payload).length) with
      | error fault =>
        simp only [options] at stages
        cases stages
      | ok stage =>
        cases stage with
        | error rc =>
          simp only [options] at stages
          cases stages
        | ok next =>
          obtain ⟨between, p, left⟩ := next
          simp only [options] at stages
          cases payload : coapMessageDeserializePayload alloc between.opList.length between p
              left with
          | error fault =>
            simp only [payload] at stages
            cases stages
          | ok stage =>
            cases stage with
            | error rc =>
              simp only [payload] at stages
              cases stages
            | ok next =>
              obtain ⟨last, q, none⟩ := next
              simp only [payload, Except.ok.injEq, Prod.mk.injEq] at stages
              have opList : between.opList = [] ++ m.opList := by
                rw [← coapMessageDeserializePayload_opList payload, stages.2, same.opList]
                rfl
              have enough := length_le_encodeOptions 0 m.opList
              exact coapMessageDeserializeOptions_keeps rfl valid.options (by omega) options opList
    rw [deserializeCoapMessage_kept valid kept allocated] at read
    have back : m' = readBack m ∧ (m.payload ≠ [] → alloc (2 * m.opList.length) = true) ∧
        (m.payload = [] → behind ≠ []) := by
      split_ifs at read with none nothing some
      · simp only [Except.ok.injEq, Prod.mk.injEq] at read
        exact ⟨read.2.symm, fun some => absurd none some, fun _ => nothing⟩
      · simp only [Except.ok.injEq, Prod.mk.injEq] at read
        exact ⟨read.2.symm, fun _ => some, fun empty => absurd empty none⟩
      · cases read
    obtain ⟨rfl, payload, readable⟩ := back
    have detail : m.codeDetail % 32 = m.codeDetail := same.codeDetail
    exact ⟨by omega, kept, allocated, payload, readable⟩
  · intro survives
    have detail : m.codeDetail % 32 = m.codeDetail := by
      have small := survives.codeDetail
      omega
    have check : coapMsgCheck (readBack m) = qcloudRetSuccess := by
      rw [← valid.check, readBack, detail]
      rfl
    refine ⟨readBack m, ?_, ⟨rfl, rfl, detail, rfl, rfl, rfl, rfl⟩⟩
    rw [deserializeCoapMessage_kept valid survives.options survives.allocated, check]
    by_cases none : m.payload = []
    · rw [if_pos none, if_neg (survives.readable none)]
    · rw [if_neg none, if_pos (survives.payload none)]

/-- A request with a token, one option and a payload. -/
def putRequest (optionNum : Nat) : CoapMessage where
  version := coapMsgVer
  type := .con
  codeClass := coapMsgReq
  codeDetail := 3
  msgId := 0x1234
  payload := [0xFF, 0]
  token := [1, 2, 3, 4]
  opList := [{ optionNum, val := [0x61, 0x62] }]
  handler := none
  userContext := 0

theorem putRequest_valid {optionNum : Nat} (short : optionNum ≤ 65535) :
    (putRequest optionNum).Valid where
  codeClass := .inl rfl
  token := show 4 ≤ 8 by decide
  check := rfl
  options := ⟨⟨Nat.zero_le _, short, show 2 ≤ 65804 by decide⟩, trivial⟩
  msgId := show 0x1234 < 2 ^ 16 by decide

/-- The option number 61 is read back. -/
theorem roundTrip_iff_auth_token :
    ∃ m', deserializeCoapMessage (fun _ => true) .zero
      ([0x44, 3, 0x12, 0x34, 1, 2, 3, 4, 0xD2, 48, 0x61, 0x62, 0xFF, 0xFF, 0] ++ []) 15 =
        .ok (qcloudRetSuccess, m') ∧ m'.SameAs (putRequest 61) :=
  (@roundTrip_iff _ _ 512 _ _ (putRequest_valid (by decide)) rfl).mpr
    { codeDetail := by decide
      options := by
        refine ⟨?_, ?_, trivial⟩
        · rw [Lost]
          decide
        · rw [Lost]
          decide
      allocated := fun _ _ => ⟨rfl, rfl⟩
      payload := fun _ => rfl
      readable := fun none => by cases none }

/-- The option number 200 is read back as 65480. -/
theorem roundTrip_number_200 :
    ¬ ∀ (m : CoapMessage) (len : Nat) (bytes behind : List UInt8), m.Valid → m.codeDetail ≤ 31 →
      serializeCoapMessage m len = .ok bytes → bytes.length + behind.length = len → behind ≠ [] →
      ∃ m', deserializeCoapMessage (fun _ => true) .zero (bytes ++ behind) bytes.length =
        .ok (qcloudRetSuccess, m') ∧ m'.SameAs m := by
  intro all
  obtain ⟨m', read, same⟩ := all (putRequest 200) 16
    [0x44, 3, 0x12, 0x34, 1, 2, 3, 4, 0xD2, 187, 0x61, 0x62, 0xFF, 0xFF, 0] [0]
    (putRequest_valid (by decide)) (by decide) rfl rfl (List.cons_ne_nil _ _)
  have other : deserializeCoapMessage (fun _ => true) .zero
      ([0x44, 3, 0x12, 0x34, 1, 2, 3, 4, 0xD2, 187, 0x61, 0x62, 0xFF, 0xFF, 0] ++ [0]) 15 =
        .ok (qcloudRetSuccess, readBack (putRequest 65480)) := by
    decide
  have equal : m' = readBack (putRequest 65480) := by
    rw [show List.length _ = 15 from rfl, other] at read
    cases read
    rfl
  have opList := same.opList
  rw [equal] at opList
  cases opList

end QcloudIot.Coap
