import QcloudIot.Coap.Proofs.RoundTrip

/-!
# The room for a CoAP message

Every stage of the serializer is given the number of bytes that are left in the buffer, which
is reduced by what the stage has written. An option of a number below 13 with a value of 13 to
268 bytes is counted one byte too short, so that it can end one byte behind the buffer; the
counter then wraps.
-/

namespace QcloudIot.Coap

/-- What a stage writes, with the counter `len` that it is given. -/
abbrev Write := Nat × List UInt8

/-- The writes of `_coap_message_serialize_options` until it returns. -/
def optionWrites : List CoapMsgOption → Nat → Nat → List Write
  | [], _, _ => []
  | op :: ops, prevNum, len =>
    match coapMsgFormatOp op prevNum len with
    | .error _ => []
    | .ok bytes => (len, bytes) :: optionWrites ops op.optionNum (sizeSub len bytes.length)

/-- The writes of the payload stage, and of `serialize_coap_message` behind the options. -/
def payloadWrites (message : CoapMessage) (len : Nat) : Except Int (List UInt8) → List Write
  | .error _ => []
  | .ok options =>
    match coapMessageSerializePayload message (sizeSub len options.length) with
    | .error _ => []
    | .ok payload => [(sizeSub len options.length, payload)]

/-- The writes of `serialize_coap_message` until it returns, one behind the other from the start
    of the buffer. A stage that fails writes nothing, and none follows. -/
def serializeWrites (message : CoapMessage) (len : Nat) : List Write :=
  match coapMessageSerializeHeader message len with
  | .error _ => []
  | .ok header =>
    (len, header) ::
      match coapMessageSerializeToken message (sizeSub len header.length) with
      | .error _ => []
      | .ok token =>
        let left := sizeSub (sizeSub len header.length) token.length
        (sizeSub len header.length, token) :: (optionWrites message.opList 0 left ++
          payloadWrites message left (coapMessageSerializeOptions message.opList 0 left))

/-- The bytes written. -/
def written (writes : List Write) : List UInt8 := writes.flatMap Prod.snd

theorem length_written_cons (write : Write) (writes : List Write) :
    (written (write :: writes)).length = write.2.length + (written writes).length := by
  rw [written, List.flatMap_cons, List.length_append]
  rfl

theorem written_append (first second : List Write) :
    written (first ++ second) = written first ++ written second := List.flatMap_append

/-- No write is longer than the counter it is given, the counter never wraps below zero, all
    bytes lie in the buffer, and what is returned is the number of those written. -/
structure StaysInside (message : CoapMessage) (len : Nat) : Prop where
  inside : (written (serializeWrites message len)).length ≤ len
  noWrap : ∀ write ∈ serializeWrites message len, write.2.length ≤ write.1
  result : ∀ bytes, serializeCoapMessage message len = .ok bytes →
    bytes.length = (written (serializeWrites message len)).length

/-! ## What is counted -/

/-- The bytes of an option as `_coap_msg_format_op` counts them, before the sum is truncated. -/
def counted (op : CoapMsgOption) (opDelta : Nat) : Nat :=
  1 + (if opDelta ≥ 269 then 2 else if opDelta ≥ 13 then 1 else 0) +
    (if op.val.length ≥ 269 then 2 else if op.optionNum ≥ 13 then 1 else 0) + op.val.length

/-- The option is counted too short: the extension of its length is forgotten, or the sum does not
    fit into an `unsigned`. -/
def Miscounted (op : CoapMsgOption) (opDelta : Nat) : Prop :=
  op.optionNum < 13 ∧ 13 ≤ op.val.length ∧ op.val.length ≤ 268 ∨ 2 ^ 32 ≤ counted op opDelta

/-- An option that is counted too short passes the check but ends behind the `room` that is left;
    the options before it are accepted. -/
def Overruns : Nat → List CoapMsgOption → Nat → Prop
  | _, [], _ => False
  | prevNum, op :: ops, room =>
    counted op (shortSub op.optionNum prevNum) % 2 ^ 32 ≤ room ∧
      (Miscounted op (shortSub op.optionNum prevNum) ∧ room < (encodeOption prevNum op).length ∨
        Overruns op.optionNum ops (room - (encodeOption prevNum op).length))

theorem length_extended (n : Nat) :
    (extended n).length = if n ≥ 269 then 2 else if n ≥ 13 then 1 else 0 := by
  rw [extended]
  split_ifs <;> rfl

theorem length_encodeOption (prevNum : Nat) (op : CoapMsgOption) :
    (encodeOption prevNum op).length = 1 + (extended (shortSub op.optionNum prevNum)).length +
      (extended op.val.length).length + op.val.length := by
  rw [encodeOption]
  simp only [List.length_cons, List.length_append]
  omega

/-- Any other option is counted long enough. -/
theorem length_le_counted {prevNum : Nat} {op : CoapMsgOption}
    (right : ¬ Miscounted op (shortSub op.optionNum prevNum)) :
    (encodeOption prevNum op).length ≤ counted op (shortSub op.optionNum prevNum) % 2 ^ 32 := by
  rw [Miscounted, not_or] at right
  obtain ⟨extension, noWrap⟩ := right
  rw [Nat.mod_eq_of_lt (Nat.not_le.mp noWrap), length_encodeOption, counted, length_extended,
    length_extended]
  split_ifs <;> omega

theorem coapMsgFormatOp_cases (op : CoapMsgOption) (prevNum len : Nat) :
    coapMsgFormatOp op prevNum len =
      if counted op (shortSub op.optionNum prevNum) % 2 ^ 32 ≤ len then
        .ok (encodeOption prevNum op)
      else .error qcloudErrCoapDataSize := by
  have checked : roomChecked op (shortSub op.optionNum prevNum) =
      counted op (shortSub op.optionNum prevNum) % 2 ^ 32 := rfl
  rw [coapMsgFormatOp, checked]
  by_cases fits : counted op (shortSub op.optionNum prevNum) % 2 ^ 32 ≤ len
  · rw [if_pos fits, if_neg (Nat.not_lt.mpr fits)]
    rfl
  · rw [if_neg fits]
    exact if_pos (Nat.not_le.mp fits)

/-! ## The options -/

theorem optionWrites_accepted {op : CoapMsgOption} {ops : List CoapMsgOption} {prevNum len : Nat}
    (fits : counted op (shortSub op.optionNum prevNum) % 2 ^ 32 ≤ len) :
    optionWrites (op :: ops) prevNum len = (len, encodeOption prevNum op) ::
      optionWrites ops op.optionNum (sizeSub len (encodeOption prevNum op).length) := by
  rw [optionWrites, coapMsgFormatOp_cases, if_pos fits]

theorem optionWrites_refused {op : CoapMsgOption} {ops : List CoapMsgOption} {prevNum len : Nat}
    (refused : ¬ counted op (shortSub op.optionNum prevNum) % 2 ^ 32 ≤ len) :
    optionWrites (op :: ops) prevNum len = [] := by
  rw [optionWrites, coapMsgFormatOp_cases, if_neg refused]

/-- What the options write when none overruns the room. -/
theorem optionWrites_inside {ops : List CoapMsgOption} {prevNum room : Nat}
    (inside : ¬ Overruns prevNum ops room) :
    (∀ write ∈ optionWrites ops prevNum room, write.2.length ≤ write.1) ∧
      (written (optionWrites ops prevNum room)).length ≤ room ∧
      ∀ bytes, coapMessageSerializeOptions ops prevNum room = .ok bytes →
        bytes = written (optionWrites ops prevNum room) := by
  induction ops generalizing prevNum room with
  | nil =>
    refine ⟨List.forall_mem_nil _, Nat.zero_le _, fun bytes result => ?_⟩
    cases result
    rfl
  | cons op ops ih =>
    by_cases fits : counted op (shortSub op.optionNum prevNum) % 2 ^ 32 ≤ room
    · rw [Overruns, not_and, not_or, not_and] at inside
      obtain ⟨notBehind, later⟩ := inside fits
      have here : (encodeOption prevNum op).length ≤ room := by
        by_cases short : Miscounted op (shortSub op.optionNum prevNum)
        · exact Nat.not_lt.mp (notBehind short)
        · exact (length_le_counted short).trans fits
      obtain ⟨noWrap, total, result⟩ := ih later
      rw [optionWrites_accepted fits, sizeSub_of_le here]
      refine ⟨?_, ?_, ?_⟩
      · intro write mem
        rcases List.mem_cons.mp mem with rfl | mem
        · exact here
        · exact noWrap write mem
      · rw [length_written_cons]
        show (encodeOption prevNum op).length + _ ≤ room
        omega
      · intro bytes serialized
        rw [coapMessageSerializeOptions, coapMsgFormatOp_cases, if_pos fits] at serialized
        simp only [bind, Except.bind, sizeSub_of_le here] at serialized
        cases rest : coapMessageSerializeOptions ops op.optionNum
            (room - (encodeOption prevNum op).length) with
        | error rc =>
          rw [rest] at serialized
          cases serialized
        | ok more =>
          rw [rest] at serialized
          cases serialized
          rw [result more rest]
          rfl
    · rw [optionWrites_refused fits]
      refine ⟨List.forall_mem_nil _, Nat.zero_le _, fun bytes serialized => ?_⟩
      rw [coapMessageSerializeOptions, coapMsgFormatOp_cases, if_neg fits] at serialized
      cases serialized

/-- An overrun is a write that is longer than its counter. -/
theorem optionWrites_overrun {ops : List CoapMsgOption} {prevNum room : Nat}
    (overruns : Overruns prevNum ops room) :
    ∃ write ∈ optionWrites ops prevNum room, write.1 < write.2.length := by
  induction ops generalizing prevNum room with
  | nil => exact absurd overruns id
  | cons op ops ih =>
    obtain ⟨fits, behind⟩ := overruns
    rw [optionWrites_accepted fits]
    by_cases here : (encodeOption prevNum op).length ≤ room
    · rcases behind with ⟨_, behind⟩ | later
      · omega
      · obtain ⟨write, mem, longer⟩ := ih later
        rw [sizeSub_of_le here]
        exact ⟨write, List.mem_cons_of_mem _ mem, longer⟩
    · exact ⟨_, List.mem_cons_self, Nat.not_le.mp here⟩

/-! ## The message -/

theorem length_encodeHeader (m : CoapMessage) : (encodeHeader m).length = 4 := rfl

theorem serializeWrites_eq (m : CoapMessage) (len : Nat) :
    serializeWrites m len =
      if len < 4 then []
      else if len < 4 + m.token.length then [(len, encodeHeader m)]
      else (len, encodeHeader m) :: (len - 4, m.token) ::
        (optionWrites m.opList 0 (len - (4 + m.token.length)) ++
          payloadWrites m (len - (4 + m.token.length))
            (coapMessageSerializeOptions m.opList 0 (len - (4 + m.token.length)))) := by
  have header : coapMessageSerializeHeader m len =
      if len < 4 then .error (-enospc) else .ok (encodeHeader m) := rfl
  rw [serializeWrites, header]
  by_cases noHeader : len < 4
  · rw [if_pos noHeader, if_pos noHeader]
  · have left : sizeSub len (encodeHeader m).length = len - 4 := sizeSub_of_le (Nat.not_lt.mp noHeader)
    rw [if_neg noHeader, if_neg noHeader]
    simp only [left, coapMessageSerializeToken]
    by_cases noToken : len < 4 + m.token.length
    · rw [if_pos (by omega), if_pos noToken]
    · rw [if_neg (by omega), if_neg noToken]
      simp only [sizeSub_of_le (show m.token.length ≤ len - 4 by omega), Nat.sub_sub]

/-- The payload has room if the options had. -/
theorem payloadWrites_inside {m : CoapMessage} {room : Nat} {result : Except Int (List UInt8)}
    (fits : ∀ options, result = .ok options → options.length ≤ room) :
    (∀ write ∈ payloadWrites m room result, write.2.length ≤ write.1) ∧
      ∀ options, result = .ok options →
        options.length + (written (payloadWrites m room result)).length ≤ room := by
  cases result with
  | error rc =>
    refine ⟨List.forall_mem_nil _, fun options result => ?_⟩
    cases result
  | ok options =>
    have short := fits options rfl
    rw [payloadWrites, coapMessageSerializePayload, sizeSub_of_le short]
    split_ifs with none tooLong
    · refine ⟨?_, fun _ result => ?_⟩
      · intro write mem
        rw [List.mem_singleton.mp mem]
        exact Nat.zero_le _
      · cases result
        exact short
    · refine ⟨List.forall_mem_nil _, fun _ result => ?_⟩
      cases result
      exact short
    · refine ⟨?_, fun _ result => ?_⟩
      · intro write mem
        rw [List.mem_singleton.mp mem]
        exact Nat.not_lt.mp tooLong
      · cases result
        rw [length_written_cons]
        show options.length + ((0xFF :: m.payload).length + 0) ≤ room
        rw [List.length_cons]
        omega

/-- The result is what the stages have written. -/
theorem serializeCoapMessage_written {m : CoapMessage} {len : Nat} {bytes : List UInt8}
    (room : 4 + m.token.length ≤ len)
    (options : ∀ options, coapMessageSerializeOptions m.opList 0 (len - (4 + m.token.length)) =
      .ok options → options = written (optionWrites m.opList 0 (len - (4 + m.token.length))))
    (result : serializeCoapMessage m len = .ok bytes) : bytes = written (serializeWrites m len) := by
  have header : coapMessageSerializeHeader m len = .ok (encodeHeader m) := by
    rw [coapMessageSerializeHeader, if_neg (by omega)]
    rfl
  have token : coapMessageSerializeToken m (len - 4) = .ok m.token := by
    rw [coapMessageSerializeToken, if_neg (by omega)]
  rw [serializeWrites_eq, if_neg (by omega), if_neg (by omega)]
  simp only [serializeCoapMessage, bind, Except.bind, header, length_encodeHeader,
    sizeSub_of_le (show 4 ≤ len by omega), token,
    sizeSub_of_le (show m.token.length ≤ len - 4 by omega), Nat.sub_sub] at result
  cases isOptions : coapMessageSerializeOptions m.opList 0 (len - (4 + m.token.length)) with
  | error rc =>
    simp only [isOptions] at result
    cases result
  | ok third =>
    simp only [isOptions] at result
    cases isPayload : coapMessageSerializePayload m
        (sizeSub (len - (4 + m.token.length)) third.length) with
    | error rc =>
      simp only [isPayload] at result
      cases result
    | ok fourth =>
      simp only [isPayload, pure, Except.pure] at result
      cases result
      rw [payloadWrites, isPayload, options third isOptions]
      simp only [written, List.flatMap_cons, List.flatMap_append, List.flatMap_nil, List.append_nil,
        List.append_assoc]

/-- The serializer stays inside the buffer exactly if no option that is counted too short ends
    behind it. -/
theorem staysInside_iff (m : CoapMessage) (len : Nat) :
    StaysInside m len ↔
      (4 + m.token.length ≤ len → ¬ Overruns 0 m.opList (len - (4 + m.token.length))) := by
  constructor
  · intro stays room overruns
    obtain ⟨write, mem, longer⟩ := optionWrites_overrun overruns
    have noWrap := stays.noWrap write (by
      rw [serializeWrites_eq, if_neg (by omega), if_neg (by omega)]
      exact List.mem_cons_of_mem _ (List.mem_cons_of_mem _ (List.mem_append_left _ mem)))
    omega
  · intro within
    by_cases noHeader : len < 4
    · have nothing : serializeWrites m len = [] := by rw [serializeWrites_eq, if_pos noHeader]
      refine ⟨?_, ?_, fun bytes result => ?_⟩
      · rw [nothing]
        exact Nat.zero_le _
      · rw [nothing]
        exact List.forall_mem_nil _
      · simp only [serializeCoapMessage, bind, Except.bind, coapMessageSerializeHeader,
          if_pos noHeader] at result
        cases result
    · by_cases noToken : len < 4 + m.token.length
      · have only : serializeWrites m len = [(len, encodeHeader m)] := by
          rw [serializeWrites_eq, if_neg noHeader, if_pos noToken]
        refine ⟨?_, ?_, fun bytes result => ?_⟩
        · rw [only]
          exact Nat.not_lt.mp noHeader
        · intro write mem
          rw [only] at mem
          rw [List.mem_singleton.mp mem]
          exact Nat.not_lt.mp noHeader
        · have header : coapMessageSerializeHeader m len = .ok (encodeHeader m) := if_neg noHeader
          have token : coapMessageSerializeToken m (len - 4) = .error (-enospc) := by
            rw [coapMessageSerializeToken, if_pos (by omega)]
          simp only [serializeCoapMessage, bind, Except.bind, header, length_encodeHeader,
            sizeSub_of_le (Nat.not_lt.mp noHeader), token] at result
          cases result
      · have room := Nat.not_lt.mp noToken
        obtain ⟨noWrap, total, result⟩ := optionWrites_inside (within room)
        have fits : ∀ options, coapMessageSerializeOptions m.opList 0 (len - (4 + m.token.length)) =
            .ok options → options.length ≤ len - (4 + m.token.length) := by
          intro options serialized
          rw [result options serialized]
          exact total
        obtain ⟨payloadNoWrap, payloadTotal⟩ := @payloadWrites_inside m _ _ fits
        refine ⟨?_, ?_, fun bytes serialized => ?_⟩
        · rw [serializeWrites_eq, if_neg noHeader, if_neg noToken, length_written_cons,
            length_written_cons, written_append, List.length_append]
          show 4 + (m.token.length + _) ≤ len
          cases isOptions : coapMessageSerializeOptions m.opList 0
              (len - (4 + m.token.length)) with
          | error rc =>
            rw [payloadWrites]
            show 4 + (m.token.length + (_ + 0)) ≤ len
            omega
          | ok options =>
            have all := payloadTotal options isOptions
            rw [isOptions, result options isOptions] at all
            rw [result options isOptions]
            omega
        · intro write mem
          rw [serializeWrites_eq, if_neg noHeader, if_neg noToken] at mem
          rcases List.mem_cons.mp mem with rfl | mem
          · exact Nat.not_lt.mp noHeader
          · rcases List.mem_cons.mp mem with rfl | mem
            · show m.token.length ≤ len - 4
              omega
            · rcases List.mem_append.mp mem with mem | mem
              · exact noWrap write mem
              · exact payloadNoWrap write mem
        · rw [serializeCoapMessage_written room result serialized]

/-! ## A message of the client -/

theorem insertBehind_sorted {option : CoapMsgOption} {list : List CoapMsgOption}
    (sorted : (list.map CoapMsgOption.optionNum).Pairwise (· ≤ ·))
    (behindFirst : ∀ first ∈ list.head?, first.optionNum ≤ option.optionNum) :
    ((insertBehind option list).map CoapMsgOption.optionNum).Pairwise (· ≤ ·) ∧
      (insertBehind option list).Perm (option :: list) := by
  induction list with
  | nil => exact ⟨List.pairwise_singleton _ _, List.Perm.refl _⟩
  | cons prev rest ih =>
    have prevBelow : prev.optionNum ≤ option.optionNum := behindFirst prev rfl
    rw [List.map_cons, List.pairwise_cons] at sorted
    obtain ⟨prevFirst, restSorted⟩ := sorted
    cases rest with
    | nil =>
      refine ⟨?_, List.Perm.swap option prev []⟩
      show List.Pairwise (· ≤ ·) [prev.optionNum, option.optionNum]
      exact List.pairwise_pair.mpr prevBelow
    | cons next rest =>
      rw [insertBehind]
      by_cases here : prev.optionNum ≤ option.optionNum ∧ option.optionNum < next.optionNum
      · rw [if_pos here]
        refine ⟨?_, List.Perm.swap option prev _⟩
        have nextFirst := (List.pairwise_cons.mp restSorted).1
        refine List.pairwise_cons.mpr ⟨?_, List.pairwise_cons.mpr ⟨?_, restSorted⟩⟩
        · intro num mem
          rcases List.mem_cons.mp mem with rfl | mem
          · exact prevBelow
          · exact prevFirst num mem
        · intro num mem
          rcases List.mem_cons.mp mem with rfl | mem
          · exact here.2.le
          · exact here.2.le.trans (nextFirst num mem)
      · rw [if_neg here]
        have nextBelow : next.optionNum ≤ option.optionNum := by
          by_contra above
          exact here ⟨prevBelow, Nat.not_le.mp above⟩
        obtain ⟨insertedSorted, perm⟩ := ih restSorted (by
          intro first isFirst
          cases isFirst
          exact nextBelow)
        refine ⟨?_, (perm.cons prev).trans (List.Perm.swap option prev _)⟩
        rw [List.map_cons, List.pairwise_cons]
        refine ⟨fun num mem => ?_, insertedSorted⟩
        have among := (perm.map CoapMsgOption.optionNum).mem_iff.mp mem
        rcases List.mem_cons.mp among with rfl | old
        · exact prevBelow
        · exact prevFirst num old

/-- `coap_message_option_add` keeps the options in the order of their numbers. -/
theorem coapMessageOptionAdd_sorted {alloc : Nat → Bool} {k num : Nat} {val : List UInt8}
    {m : CoapMessage} (sorted : (m.opList.map CoapMsgOption.optionNum).Pairwise (· ≤ ·)) :
    ((coapMessageOptionAdd alloc k m num val).2.opList.map CoapMsgOption.optionNum).Pairwise
      (· ≤ ·) := by
  rw [coapMessageOptionAdd]
  cases qcloudIotCoapOptionInit alloc k num val with
  | none => exact sorted
  | some option =>
    cases list : m.opList with
    | nil => exact List.pairwise_singleton _ _
    | cons first rest =>
      rw [list] at sorted
      by_cases start : option.optionNum < first.optionNum
      · simp only [if_pos start, List.map_cons, List.pairwise_cons, List.mem_cons,
          forall_eq_or_imp]
        simp only [List.map_cons, List.pairwise_cons] at sorted
        exact ⟨⟨start.le, fun num mem => start.le.trans (sorted.1 num mem)⟩, sorted⟩
      · simp only [if_neg start]
        refine (insertBehind_sorted sorted ?_).1
        intro other isFirst
        cases isFirst
        exact Nat.not_lt.mp start

/-- A request with the one path segment `/abcdefghijkl`, built by `coap_message_option_add`. -/
def segmentRequest : CoapMessage :=
  (coapMessageOptionAdd (fun _ => true) 0 { CoapMessage.zero with version := coapMsgVer } 11
    [0x2F, 0x61, 0x62, 0x63, 0x64, 0x65, 0x66, 0x67, 0x68, 0x69, 0x6A, 0x6B, 0x6C]).2

/-- Its 19 bytes are written into a buffer of 18 bytes. -/
theorem segmentRequest_overruns :
    serializeCoapMessage segmentRequest 18 = .ok (written (serializeWrites segmentRequest 18)) ∧
      (written (serializeWrites segmentRequest 18)).length = 19 ∧
      ¬ StaysInside segmentRequest 18 := by
  have length : (written (serializeWrites segmentRequest 18)).length = 19 := by decide
  refine ⟨by decide, length, fun stays => ?_⟩
  have inside := stays.inside
  rw [length] at inside
  omega

end QcloudIot.Coap
