import QcloudIot.Shadow.Document

/-!
# Where the builders write

A text is printed inside the buffer as long as the size that is handed over with it is the one
that remains. The builders hand over an older one, from which the length of the string is
subtracted once more.
-/

namespace QcloudIot.Shadow

open Mqtt (CStr qcloudRetSuccess qcloudErrInval)
open Ota (utf8 decimal)

/-! ## Sizes and codes -/

theorem snprintfSize_small {size : Nat} (small : size < 2 ^ 31) : snprintfSize size = size := by
  unfold snprintfSize
  rw [Int.bmod_eq_of_le (by omega) (by omega)]
  omega

/-- A size that has wrapped is no bound. -/
theorem snprintfSize_wrapped {short : Nat} (small : short ≤ 2 ^ 31) :
    snprintfSize (2 ^ 64 - short) = if short = 0 then 0 else 2 ^ 64 - short := by
  have rest : Int.bmod ((2 ^ 64 - short : Nat) : Int) (2 ^ 32) = -(short : Int) := by
    rw [Int.bmod_def]
    split <;> omega
  unfold snprintfSize
  rw [rest]
  split <;> omega

theorem sizeSub_wrapped {a b : Nat} (less : a < b) (small : b ≤ 2 ^ 64) :
    sizeSub a b = 2 ^ 64 - (b - a) := by
  rw [sizeSub, if_neg (by omega)]
  omega

/-- The code that `vsnprintf` returns. -/
def printedCode (str : List UInt8) : Int := if str.length < 2 ^ 31 then str.length else -1

theorem checkSnprintfReturn_fits {str : List UInt8} {size : Nat} (fits : str.length < size)
    (short : str.length < 2 ^ 31) :
    checkSnprintfReturn (printedCode str) size = qcloudRetSuccess := by
  have code : printedCode str = str.length := if_pos short
  have inside : ¬ (str.length : Int) % 2 ^ 64 ≥ size := by omega
  have positive : ¬ (str.length : Int) < 0 := by omega
  rw [code, checkSnprintfReturn, if_neg inside, if_neg positive]

theorem checkSnprintfReturn_truncated {str : List UInt8} {size : Nat} (full : size ≤ str.length)
    (small : size < 2 ^ 31) :
    checkSnprintfReturn (printedCode str) size = qcloudErrJsonBufferTruncated := by
  have above : printedCode str % 2 ^ 64 ≥ size := by
    unfold printedCode
    split <;> omega
  rw [checkSnprintfReturn, if_pos above]

namespace JsonBuffer

variable {b : JsonBuffer} {sizeOfBuffer back : Nat} {str : List UInt8}

/-! ## One text -/

/-- A text printed whole, `back` bytes before the end of the string. -/
def append (b : JsonBuffer) (back : Nat) (str : List UInt8) : JsonBuffer :=
  { b with
    text := b.text.take (b.text.length - back) ++ str
    written := max b.written (b.text.length - back + str.length + 1) }

theorem snprintf_whole {offset size : Nat} (fits : str.length < snprintfSize size) :
    b.snprintf offset size str =
      (printedCode str,
        { b with
          text := b.text.take offset ++ str
          written := max b.written (offset + str.length + 1) }) := by
  have some : ¬ snprintfSize size = 0 := by omega
  have whole : str.take (snprintfSize size - 1) = str := by
    apply List.take_of_length_le
    omega
  have length : min str.length (snprintfSize size - 1) = str.length := by omega
  unfold snprintf
  dsimp only
  rw [if_neg some, whole, length]
  rfl

/-- The text fits the room that is left. -/
theorem printText_fits (small : sizeOfBuffer < 2 ^ 31) (room : b.text.length + 1 < sizeOfBuffer)
    (fits : b.text.length + str.length < sizeOfBuffer) :
    b.printText sizeOfBuffer back str = (qcloudRetSuccess, b.append back str) := by
  have remain : sizeSub sizeOfBuffer b.text.length = sizeOfBuffer - b.text.length :=
    sizeSub_of_le (by omega)
  have size : snprintfSize (sizeOfBuffer - b.text.length) = sizeOfBuffer - b.text.length :=
    snprintfSize_small (by omega)
  have enough : ¬ sizeOfBuffer - b.text.length ≤ 1 := by omega
  unfold printText
  dsimp only
  rw [remain, if_neg enough, snprintf_whole (by omega),
    checkSnprintfReturn_fits (by omega) (by omega)]
  rfl

/-- The text does not fit: the call fails, and has written no further than to the end. -/
theorem printText_full (small : sizeOfBuffer < 2 ^ 31) (inside : b.text.length ≤ sizeOfBuffer)
    (full : sizeOfBuffer ≤ b.text.length + max str.length 1) :
    (b.printText sizeOfBuffer back str).1 ≠ qcloudRetSuccess ∧
      (b.printText sizeOfBuffer back str).2.written ≤ max b.written sizeOfBuffer ∧
      (b.printText sizeOfBuffer back str).2.reads = b.reads := by
  have remain : sizeSub sizeOfBuffer b.text.length = sizeOfBuffer - b.text.length :=
    sizeSub_of_le inside
  have size : snprintfSize (sizeOfBuffer - b.text.length) = sizeOfBuffer - b.text.length :=
    snprintfSize_small (by omega)
  unfold printText
  dsimp only
  rw [remain]
  by_cases none : sizeOfBuffer - b.text.length ≤ 1
  · rw [if_pos none]
    exact ⟨(by decide : qcloudErrJsonBufferTooSmall ≠ qcloudRetSuccess), le_max_left _ _, rfl⟩
  · have some : ¬ sizeOfBuffer - b.text.length = 0 := by omega
    rw [if_neg none]
    unfold snprintf
    dsimp only
    rw [size, if_neg some]
    refine ⟨?_, ?_, rfl⟩
    · have truncated := @checkSnprintfReturn_truncated str (sizeOfBuffer - b.text.length) (by
          omega) (by omega)
      rw [printedCode] at truncated
      rw [truncated]
      decide
    · dsimp only
      omega

/-- The remaining size has wrapped: the text is printed whole. -/
theorem printText_wrapped (wraps : sizeOfBuffer < b.text.length)
    (small : b.text.length ≤ 2 ^ 31) (short : str.length < 2 ^ 31) :
    b.printText sizeOfBuffer back str = (qcloudRetSuccess, b.append back str) := by
  have remain : sizeSub sizeOfBuffer b.text.length = 2 ^ 64 - (b.text.length - sizeOfBuffer) :=
    sizeSub_wrapped wraps (by omega)
  have size := @snprintfSize_wrapped (b.text.length - sizeOfBuffer) (by omega)
  rw [if_neg (by omega)] at size
  have enough : ¬ 2 ^ 64 - (b.text.length - sizeOfBuffer) ≤ 1 := by omega
  unfold printText
  dsimp only
  rw [remain, if_neg enough, snprintf_whole (by omega),
    checkSnprintfReturn_fits (by omega) short]
  rfl

/-- However long it is, a text printed with a size that has wrapped is written on and on. -/
theorem printText_wrapped_written (wraps : sizeOfBuffer < b.text.length)
    (small : b.text.length ≤ 2 ^ 31) :
    b.text.length - back + min str.length (2 ^ 31) + 1 ≤
      (b.printText sizeOfBuffer back str).2.written := by
  have remain : sizeSub sizeOfBuffer b.text.length = 2 ^ 64 - (b.text.length - sizeOfBuffer) :=
    sizeSub_wrapped wraps (by omega)
  have size := @snprintfSize_wrapped (b.text.length - sizeOfBuffer) (by omega)
  rw [if_neg (by omega)] at size
  have enough : ¬ 2 ^ 64 - (b.text.length - sizeOfBuffer) ≤ 1 := by omega
  have some : ¬ 2 ^ 64 - (b.text.length - sizeOfBuffer) = 0 := by omega
  unfold printText
  dsimp only
  rw [remain, if_neg enough]
  unfold snprintf
  dsimp only
  rw [size, if_neg some]
  dsimp only
  omega

/-- Printing never takes back what has been written or read. -/
theorem snprintf_mono (b : JsonBuffer) (offset size : Nat) (str : List UInt8) :
    b.written ≤ (b.snprintf offset size str).2.written ∧
      (b.snprintf offset size str).2.reads = b.reads := by
  unfold snprintf
  dsimp only
  by_cases none : snprintfSize size = 0
  · rw [if_pos none]
    exact ⟨le_refl _, rfl⟩
  · rw [if_neg none]
    exact ⟨le_max_left _ _, rfl⟩

theorem printText_mono (b : JsonBuffer) (sizeOfBuffer back : Nat) (str : List UInt8) :
    b.written ≤ (b.printText sizeOfBuffer back str).2.written ∧
      (b.printText sizeOfBuffer back str).2.reads = b.reads := by
  unfold printText
  dsimp only
  by_cases none : sizeSub sizeOfBuffer b.text.length ≤ 1
  · rw [if_pos none]
    exact ⟨le_refl _, rfl⟩
  · rw [if_neg none]
    exact snprintf_mono _ _ _ _

theorem andThen_mono {rc : Int × JsonBuffer} {next : JsonBuffer → Int × JsonBuffer}
    (before : b.written ≤ rc.2.written ∧ rc.2.reads = b.reads)
    (behind : ∀ b' : JsonBuffer, b'.written ≤ (next b').2.written ∧ (next b').2.reads = b'.reads) :
    b.written ≤ (andThen rc next).2.written ∧ (andThen rc next).2.reads = b.reads := by
  unfold andThen
  split
  · exact before
  · obtain ⟨written, reads⟩ := behind rc.2
    exact ⟨before.1.trans written, reads.trans before.2⟩

theorem printToken_mono (b : JsonBuffer) (sizeOfBuffer : Nat) (productId : CStr) :
    b.written ≤ (b.printToken sizeOfBuffer productId).2.written ∧
      (b.printToken sizeOfBuffer productId).2.reads = b.reads := by
  unfold printToken
  dsimp only
  by_cases none : sizeSub sizeOfBuffer b.text.length ≤ 1
  · rw [if_pos none]
    exact ⟨le_refl _, rfl⟩
  · rw [if_neg none]
    exact snprintf_mono { b with tokenNum := b.tokenNum + 1 } _ _ _

theorem jsonFinalize_mono (b : JsonBuffer) (sizeOfBuffer : Nat) (productId : CStr) :
    b.written ≤ (b.jsonFinalize sizeOfBuffer productId).2.written ∧
      (b.jsonFinalize sizeOfBuffer productId).2.reads = b.reads := by
  apply andThen_mono (printText_mono _ _ _ _)
  intro b
  apply andThen_mono (printToken_mono _ _ _)
  intro b
  exact printText_mono _ _ _ _

/-! ## One property -/

/-- The text of a property in the document. -/
def node (key : CStr) (data : Option JsonData) : List UInt8 :=
  utf8 "\"" ++ key.bytes ++ utf8 "\":" ++ (JsonData.text data ++ utf8 ",")

/-- A property printed whole. -/
def extend (b : JsonBuffer) (key : CStr) (data : Option JsonData) : JsonBuffer :=
  (b.append 0 (utf8 "\"" ++ key.bytes ++ utf8 "\":")).append 0 (JsonData.text data ++ utf8 ",")

variable {key : CStr} {data : Option JsonData}

theorem text_append_zero : (b.append 0 str).text = b.text ++ str := by
  rw [append, Nat.sub_zero, List.take_length]

theorem text_extend : (b.extend key data).text = b.text ++ node key data := by
  rw [extend, text_append_zero, text_append_zero, List.append_assoc]
  rfl

theorem reads_extend : (b.extend key data).reads = b.reads := rfl

theorem length_node :
    (node key data).length = key.bytes.length + (JsonData.text data).length + 4 := by
  have quote : (utf8 "\"").length = 1 := by with_unfolding_all decide
  have colon : (utf8 "\":").length = 2 := by with_unfolding_all decide
  have comma : (utf8 ",").length = 1 := by with_unfolding_all decide
  simp only [node, List.length_append, quote, colon, comma]
  omega

theorem written_extend :
    (b.extend key data).written = max b.written (b.text.length + (node key data).length + 1) := by
  have quote : (utf8 "\"").length = 1 := by with_unfolding_all decide
  have colon : (utf8 "\":").length = 2 := by with_unfolding_all decide
  have comma : (utf8 ",").length = 1 := by with_unfolding_all decide
  rw [length_node]
  simp only [extend, append, Nat.sub_zero, List.take_length, List.length_append, quote, colon,
    comma]
  omega

theorem andThen_success {rc : Int × JsonBuffer} {next : JsonBuffer → Int × JsonBuffer}
    (success : rc = (qcloudRetSuccess, b)) : andThen rc next = next b := by
  rw [success]
  exact if_neg (not_not.mpr rfl)

theorem andThen_failure {rc : Int × JsonBuffer} {next : JsonBuffer → Int × JsonBuffer}
    (failure : rc.1 ≠ qcloudRetSuccess) : andThen rc next = rc :=
  if_pos failure

theorem length_keyText :
    (utf8 "\"" ++ key.bytes ++ utf8 "\":").length = key.bytes.length + 3 := by
  have quote : (utf8 "\"").length = 1 := by with_unfolding_all decide
  have colon : (utf8 "\":").length = 2 := by with_unfolding_all decide
  rw [List.length_append, List.length_append, quote, colon]
  omega

theorem length_dataText :
    (JsonData.text data ++ utf8 ",").length = (JsonData.text data).length + 1 := by
  have comma : (utf8 ",").length = 1 := by with_unfolding_all decide
  rw [List.length_append, comma]

theorem length_append_zero : (b.append 0 str).text.length = b.text.length + str.length := by
  rw [text_append_zero, List.length_append]

theorem putJsonNode_fits (small : sizeOfBuffer < 2 ^ 31)
    (fits : b.text.length + (node key data).length < sizeOfBuffer) :
    b.putJsonNode sizeOfBuffer key data = (qcloudRetSuccess, b.extend key data) := by
  rw [length_node] at fits
  unfold putJsonNode
  rw [andThen_success (@printText_fits _ _ 0 _ small (by omega) ?_)]
  · apply printText_fits small
    · rw [length_append_zero, length_keyText]
      omega
    · rw [length_append_zero, length_keyText, length_dataText]
      omega
  · rw [length_keyText]
    omega

/-- The property does not fit: the call fails, and has written no further than to the end. -/
theorem putJsonNode_full (small : sizeOfBuffer < 2 ^ 31) (inside : b.text.length ≤ sizeOfBuffer)
    (full : sizeOfBuffer ≤ b.text.length + (node key data).length) :
    (b.putJsonNode sizeOfBuffer key data).1 ≠ qcloudRetSuccess ∧
      (b.putJsonNode sizeOfBuffer key data).2.written ≤ max b.written sizeOfBuffer ∧
      (b.putJsonNode sizeOfBuffer key data).2.reads = b.reads := by
  rw [length_node] at full
  unfold putJsonNode
  by_cases first : b.text.length + (key.bytes.length + 3) < sizeOfBuffer
  · rw [andThen_success (@printText_fits _ _ 0 _ small (by omega) ?_)]
    · obtain ⟨code, written, reads⟩ := @printText_full (b.append 0 (utf8
          "\"" ++ key.bytes ++ utf8 "\":")) _ 0 (JsonData.text data ++ utf8 ",") small
        (by rw [length_append_zero, length_keyText]; omega)
        (by rw [length_append_zero, length_keyText, length_dataText]; omega)
      refine ⟨code, ?_, reads⟩
      have before : (b.append 0 (utf8 "\"" ++ key.bytes ++ utf8 "\":")).written =
          max b.written (b.text.length + (key.bytes.length + 3) + 1) := by
        rw [append, Nat.sub_zero, length_keyText]
      rw [before] at written
      omega
    · rw [length_keyText]
      exact first
  · have stopped := @printText_full b _ 0 (utf8 "\"" ++ key.bytes ++ utf8 "\":") small inside
      (by rw [length_keyText]; omega)
    rw [andThen_failure stopped.1]
    exact stopped

theorem putJsonNode_wrapped (wraps : sizeOfBuffer < b.text.length)
    (small : b.text.length + (node key data).length < 2 ^ 31) :
    b.putJsonNode sizeOfBuffer key data = (qcloudRetSuccess, b.extend key data) := by
  rw [length_node] at small
  unfold putJsonNode
  rw [andThen_success (@printText_wrapped _ _ 0 _ wraps (by omega) ?_)]
  · apply printText_wrapped
    · rw [length_append_zero]
      omega
    · rw [length_append_zero, length_keyText]
      omega
    · rw [length_dataText]
      omega
  · rw [length_keyText]
    omega

theorem putJsonNode_mono (b : JsonBuffer) (sizeOfBuffer : Nat) (key : CStr)
    (data : Option JsonData) :
    b.written ≤ (b.putJsonNode sizeOfBuffer key data).2.written ∧
      (b.putJsonNode sizeOfBuffer key data).2.reads = b.reads := by
  apply andThen_mono (printText_mono _ _ _ _)
  intro b
  exact printText_mono _ _ _ _

/-- Whether it succeeds or not, a property put with a size that has wrapped is written whole. -/
theorem putJsonNode_wrapped_written (wraps : sizeOfBuffer < b.text.length)
    (small : b.text.length < 2 ^ 31) :
    min (b.text.length + (node key data).length + 1) (2 ^ 31) ≤
      (b.putJsonNode sizeOfBuffer key data).2.written := by
  rw [length_node]
  by_cases short : b.text.length + (key.bytes.length + 3) < 2 ^ 31
  · unfold putJsonNode
    rw [andThen_success (@printText_wrapped _ _ 0 _ wraps (by omega) ?_)]
    · have written := @printText_wrapped_written (b.append 0 (utf8
          "\"" ++ key.bytes ++ utf8 "\":")) sizeOfBuffer 0 (JsonData.text data ++ utf8 ",")
        (by rw [length_append_zero]; omega)
        (by rw [length_append_zero, length_keyText]; omega)
      rw [length_append_zero, length_keyText, length_dataText] at written
      omega
    · rw [length_keyText]
      omega
  · have written := @printText_wrapped_written b sizeOfBuffer 0 (utf8
        "\"" ++ key.bytes ++ utf8 "\":") wraps (by omega)
    rw [length_keyText] at written
    have after := @andThen_mono ((b.printText sizeOfBuffer 0 (utf8
        "\"" ++ key.bytes ++ utf8 "\":")).2) (b.printText sizeOfBuffer 0 (utf8
            "\"" ++ key.bytes ++ utf8 "\":")) _
      ⟨le_refl _, rfl⟩
      (fun b => printText_mono b sizeOfBuffer 0 (JsonData.text data ++ utf8 ","))
    have far := written.trans after.1
    unfold putJsonNode
    omega

/-- A property put with a size that has wrapped is written beyond any end that it passes. -/
theorem putJsonNode_wrapped_beyond {limit : Nat} (wraps : sizeOfBuffer < b.text.length)
    (inside : b.text.length < limit) (small : limit < 2 ^ 31)
    (beyond : limit ≤ b.text.length + (node key data).length) :
    limit < (b.putJsonNode sizeOfBuffer key data).2.written := by
  have written := @putJsonNode_wrapped_written _ _ key data wraps (by omega)
  omega

/-! ## The end of the document -/

/-- The string ends inside the buffer, and nothing has been written behind it. -/
def Inside (b : JsonBuffer) (sizeOfBuffer : Nat) : Prop :=
  b.text.length < sizeOfBuffer ∧ b.written ≤ sizeOfBuffer

/-- What a call may leave: it fails, or the string still ends inside the buffer. -/
def StaysInside (rc : Int × JsonBuffer) (b : JsonBuffer) (sizeOfBuffer : Nat) : Prop :=
  rc.2.written ≤ sizeOfBuffer ∧ rc.2.reads = b.reads ∧
    (rc.1 = qcloudRetSuccess → rc.2.text.length < sizeOfBuffer)

theorem Inside.printText (inside : b.Inside sizeOfBuffer) (small : sizeOfBuffer < 2 ^ 31) :
    StaysInside (b.printText sizeOfBuffer back str) b sizeOfBuffer := by
  obtain ⟨ends, written⟩ := inside
  by_cases fits : b.text.length + 1 < sizeOfBuffer ∧ b.text.length + str.length < sizeOfBuffer
  · have shorter : (b.text.take (b.text.length - back)).length ≤ b.text.length := by
      rw [List.length_take]
      exact min_le_right _ _
    rw [printText_fits small fits.1 fits.2]
    refine ⟨?_, rfl, fun _ => ?_⟩
    · dsimp only [append]
      omega
    · dsimp only [append]
      rw [List.length_append]
      omega
  · obtain ⟨code, bound, reads⟩ := @printText_full b _ back str small
      (by omega) (by omega)
    refine ⟨by omega, reads, fun success => absurd success code⟩

theorem StaysInside.andThen {rc : Int × JsonBuffer} {next : JsonBuffer → Int × JsonBuffer}
    (first : StaysInside rc b sizeOfBuffer)
    (second : ∀ b' : JsonBuffer, b'.Inside sizeOfBuffer → StaysInside (next b') b' sizeOfBuffer) :
    StaysInside (andThen rc next) b sizeOfBuffer := by
  obtain ⟨written, reads, ends⟩ := first
  by_cases success : rc.1 = qcloudRetSuccess
  · obtain ⟨written', reads', ends'⟩ := second rc.2 ⟨ends success, written⟩
    rw [andThen_success (Prod.ext success rfl)]
    exact ⟨written', reads'.trans reads, ends'⟩
  · rw [andThen_failure success]
    exact ⟨written, reads, ends⟩

/-- The token is printed like any other text; it counts up once there is room for it. -/
theorem printToken_eq (b : JsonBuffer) (sizeOfBuffer : Nat) (productId : CStr) :
    b.printToken sizeOfBuffer productId =
      if sizeSub sizeOfBuffer b.text.length ≤ 1 then (qcloudErrJsonBufferTooSmall, b)
      else { b with tokenNum := b.tokenNum + 1 }.printText sizeOfBuffer 0
        (clientToken productId b.tokenNum) := by
  unfold printToken printText
  dsimp only
  by_cases none : sizeSub sizeOfBuffer b.text.length ≤ 1
  · rw [if_pos none, if_pos none]
  · rw [if_neg none, if_neg none, if_neg none, Nat.sub_zero]

theorem Inside.jsonFinalize (inside : b.Inside sizeOfBuffer) (small : sizeOfBuffer < 2 ^ 31)
    (productId : CStr) : StaysInside (b.jsonFinalize sizeOfBuffer productId) b sizeOfBuffer := by
  apply (inside.printText small).andThen
  intro b inside
  refine StaysInside.andThen ?_ fun b inside => inside.printText small
  rw [printToken_eq]
  split
  · exact ⟨inside.2, rfl, fun success => absurd success (by decide : qcloudErrJsonBufferTooSmall ≠
        qcloudRetSuccess)⟩
  · exact Inside.printText (b := { b with tokenNum := b.tokenNum + 1 }) inside small

/-! ## The loop -/

/-- A property that the loop accepts. -/
def complete : Option DeviceProperty → Bool
  | some ⟨some _, _⟩ => true
  | _ => false

/-- The text that is printed for a property. -/
def nodeOf : Option DeviceProperty → List UInt8
  | some ⟨some key, data⟩ => node key data
  | _ => []

/-- The texts of the first properties. -/
def nodes (properties : Int → Option DeviceProperty) (n : Nat) : List UInt8 :=
  (List.range n).flatMap fun i : Nat => nodeOf (properties i)

/-- The first properties have been printed whole. -/
def advanced (b : JsonBuffer) (properties : Int → Option DeviceProperty) (n : Nat) : JsonBuffer :=
  { b with
    text := b.text ++ nodes properties n
    written := b.text.length + (nodes properties n).length + 1
    reads := b.reads ++ (List.range n).map fun i : Nat => (i : Int) }

variable {index : Nat → Int} {properties : Int → Option DeviceProperty} {remainSize count : Nat}

theorem nodes_succ (properties : Int → Option DeviceProperty) (n : Nat) :
    nodes properties (n + 1) = nodes properties n ++ nodeOf (properties n) := by
  rw [nodes, List.range_succ, List.flatMap_append, List.flatMap_singleton]
  rfl

theorem length_nodes_mono {m n : Nat} (le : m ≤ n) :
    (nodes properties m).length ≤ (nodes properties n).length := by
  induction le with
  | refl => exact le_refl _
  | step _ ih =>
    rw [nodes_succ, List.length_append]
    omega

/-- Every accepted property takes room. -/
theorem le_length_nodes {n : Nat} (all : ∀ i < n, complete (properties (i : Nat))) :
    n ≤ (nodes properties n).length := by
  induction n with
  | zero => exact Nat.zero_le _
  | succ n ih =>
    have before := ih fun i below => all i (by omega)
    have last := all n (Nat.lt_succ_self n)
    rw [nodes_succ, List.length_append]
    match isProperty : properties (n : Int), last with
    | some ⟨some key, data⟩, _ =>
      have node : (nodeOf (some ⟨some key, data⟩)).length = (node key data).length := rfl
      rw [length_node] at node
      omega

/-- A round whose property is put. -/
theorem putProperties_put {fuel k : Nat} {key : CStr} {data : Option JsonData}
    (counts : counter k < count)
    (present : properties (index k) = some ⟨some key, data⟩)
    (success : ((b.reading (index k)).putJsonNode remainSize key data).1 =
      qcloudRetSuccess) :
    putProperties index properties remainSize count (fuel + 1) k b =
      putProperties index properties remainSize count fuel (k + 1)
        ((b.reading (index k)).putJsonNode remainSize key data).2 := by
  rw [putProperties, if_pos counts]
  dsimp only
  rw [present]
  dsimp only
  rw [if_neg (not_not.mpr success)]

/-- A round whose property cannot be put. -/
theorem putProperties_refused {fuel k : Nat} {key : CStr} {data : Option JsonData}
    (counts : counter k < count)
    (present : properties (index k) = some ⟨some key, data⟩)
    (failure : ((b.reading (index k)).putJsonNode remainSize key data).1 ≠
      qcloudRetSuccess) :
    putProperties index properties remainSize count (fuel + 1) k b =
      some ((b.reading (index k)).putJsonNode remainSize key data) := by
  rw [putProperties, if_pos counts]
  dsimp only
  rw [present]
  dsimp only
  rw [if_pos failure]

/-- A round whose property is missing. -/
theorem putProperties_missing {fuel k : Nat} (counts : counter k < count)
    (missing : complete (properties (index k)) = false) :
    putProperties index properties remainSize count (fuel + 1) k b =
      some (qcloudErrInval, b.reading (index k)) := by
  rw [putProperties, if_pos counts]
  dsimp only
  split
  · rename_i present
    rw [present] at missing
    cases missing
  · rfl

theorem putProperties_end {fuel k : Nat} (past : ¬ counter k < count) :
    putProperties index properties remainSize count (fuel + 1) k b =
      some (qcloudRetSuccess, b) := by
  rw [putProperties, if_neg past]

/-- What has been written or read stays so. -/
theorem putProperties_mono {fuel k : Nat} {rc : Int × JsonBuffer}
    (done : putProperties index properties remainSize count fuel k b = some rc) :
    b.written ≤ rc.2.written ∧ b.reads <+: rc.2.reads := by
  induction fuel generalizing k b with
  | zero => cases done
  | succ fuel ih =>
    by_cases counts : counter k < count
    · match isProperty : properties (index k) with
      | some ⟨some key, data⟩ =>
        have mono := putJsonNode_mono (b.reading (index k)) remainSize key data
        by_cases success : ((b.reading (index k)).putJsonNode remainSize key
            data).1 = qcloudRetSuccess
        · rw [putProperties_put counts isProperty success] at done
          obtain ⟨written, reads⟩ := ih done
          rw [mono.2] at reads
          exact ⟨mono.1.trans written, (List.prefix_append _ _).trans reads⟩
        · rw [putProperties_refused counts isProperty success, Option.some.injEq] at done
          rw [← done]
          refine ⟨mono.1, ?_⟩
          rw [mono.2]
          exact List.prefix_append _ _
      | some ⟨none, data⟩ =>
        have missing : complete (properties (index k)) = false := by rw [isProperty]; rfl
        rw [putProperties_missing counts missing, Option.some.injEq] at done
        rw [← done]
        exact ⟨le_refl _, List.prefix_append _ _⟩
      | none =>
        have missing : complete (properties (index k)) = false := by rw [isProperty]; rfl
        rw [putProperties_missing counts missing, Option.some.injEq] at done
        rw [← done]
        exact ⟨le_refl _, List.prefix_append _ _⟩
    · rw [putProperties_end counts, Option.some.injEq] at done
      rw [← done]
      exact ⟨le_refl _, List.prefix_refl _⟩

/-- What a round does with its property, whatever follows. -/
theorem putProperties_round {fuel k : Nat} {rc : Int × JsonBuffer} {key : CStr}
    {data : Option JsonData} (counts : counter k < count)
    (present : properties (index k) = some ⟨some key, data⟩)
    (done : putProperties index properties remainSize count (fuel + 1) k b = some rc) :
    ((b.reading (index k)).putJsonNode remainSize key data).2.written ≤
        rc.2.written ∧
      b.reads ++ [index k] <+: rc.2.reads := by
  have mono := putJsonNode_mono (b.reading (index k)) remainSize key data
  by_cases success : ((b.reading (index k)).putJsonNode remainSize key
      data).1 = qcloudRetSuccess
  · rw [putProperties_put counts present success] at done
    have after := putProperties_mono done
    rw [mono.2] at after
    exact after
  · rw [putProperties_refused counts present success, Option.some.injEq] at done
    rw [← done, mono.2]
    exact ⟨le_refl _, List.prefix_refl _⟩

theorem putProperties_reads {fuel k : Nat} {rc : Int × JsonBuffer} (counts : counter k < count)
    (done : putProperties index properties remainSize count (fuel + 1) k b = some rc) :
    index k ∈ rc.2.reads := by
  have last : index k ∈ b.reads ++ [index k] := List.mem_append_right _ (List.mem_singleton_self _)
  by_cases isComplete : complete (properties (index k)) = true
  · match present : properties (index k), isComplete with
    | some ⟨some key, data⟩, _ =>
      exact (putProperties_round counts present done).2.subset last
  · rw [putProperties_missing counts (eq_false_of_ne_true isComplete), Option.some.injEq] at done
    rw [← done]
    exact last

theorem advanced_zero (started : b.written = b.text.length + 1) :
    b.advanced properties 0 = b := by
  unfold advanced nodes
  simp only [List.range_zero, List.flatMap_nil, List.append_nil, List.length_nil, Nat.add_zero,
    List.map_nil]
  rw [← started]

/-- The next property follows those that are there. -/
theorem extend_advanced {m : Nat} (present : properties m = some ⟨some key, data⟩) :
    ((b.advanced properties m).reading m).extend key data =
      b.advanced properties (m + 1) := by
  have more : nodes properties (m + 1) = nodes properties m ++ node key data := by
    rw [nodes_succ, present]
    rfl
  apply JsonBuffer.ext
  · rw [text_extend, text_reading]
    simp only [advanced, more, List.append_assoc]
  · rw [written_extend, text_reading, written_reading]
    simp only [advanced, more, List.length_append]
    omega
  · rw [reads_extend, reads_reading]
    simp only [advanced, List.range_succ, List.map_append, List.map_singleton, List.append_assoc]
  · rfl

/-- A property is put in round `j` of a loop that has put those before it. -/
def Put (L R : Nat) (properties : Int → Option DeviceProperty) (j : Nat) : Prop :=
  R < L ∧ L + (nodes properties (j + 1)).length < 2 ^ 31 ∨
    L + (nodes properties (j + 1)).length < R

theorem put_success {m : Nat} (small : remainSize < 2 ^ 31)
    (present : properties m = some ⟨some key, data⟩)
    (put : Put b.text.length remainSize properties m) :
    ((b.advanced properties m).reading m).putJsonNode remainSize key data =
      (qcloudRetSuccess, b.advanced properties (m + 1)) := by
  have length : (nodes properties (m + 1)).length =
      (nodes properties m).length + (node key data).length := by
    rw [nodes_succ, List.length_append, present]
    rfl
  have text : (b.advanced properties m).text.length =
      b.text.length + (nodes properties m).length := by
    rw [advanced, List.length_append]
  rw [← extend_advanced present]
  rcases put with ⟨wraps, short⟩ | fits
  · apply putJsonNode_wrapped
    · rw [text_reading]
      omega
    · rw [text_reading]
      omega
  · apply putJsonNode_fits small
    rw [text_reading]
    omega

/-- The rounds that put a property, one after the other. -/
theorem putProperties_advance {m : Nat} (started : b.written = b.text.length + 1)
    (small : remainSize < 2 ^ 31)
    (rounds : ∀ j < m, counter j < count ∧ index j = j ∧ complete (properties j) ∧
      Put b.text.length remainSize properties j) (fuel : Nat) :
    putProperties index properties remainSize count (fuel + m) 0 b =
      putProperties index properties remainSize count fuel m (b.advanced properties m) := by
  induction m generalizing fuel with
  | zero => rw [advanced_zero started, Nat.add_zero]
  | succ m ih =>
    obtain ⟨counts, isIndex, isComplete, put⟩ := rounds m (Nat.lt_succ_self m)
    have before := ih (fun j below => rounds j (by omega)) (fuel + 1)
    have order : fuel + (m + 1) = fuel + 1 + m := by omega
    rw [order, before]
    match present : properties (m : Int), isComplete with
    | some ⟨some key, data⟩, _ =>
      have success := put_success small present put
      rw [← isIndex] at success
      rw [putProperties_put counts (isIndex ▸ present) (congrArg Prod.fst success), success]

/-- A loop that ends has gone through these rounds. -/
theorem putProperties_reaches {m fuel : Nat} {rc : Int × JsonBuffer}
    (started : b.written = b.text.length + 1) (small : remainSize < 2 ^ 31)
    (rounds : ∀ j < m, counter j < count ∧ index j = j ∧ complete (properties j) ∧
      Put b.text.length remainSize properties j)
    (done : putProperties index properties remainSize count fuel 0 b = some rc) :
    ∃ left, putProperties index properties remainSize count (left + 1) m
      (b.advanced properties m) = some rc := by
  by_cases enough : m < fuel
  · refine ⟨fuel - m - 1, ?_⟩
    rw [← putProperties_advance started small rounds]
    have order : fuel - m - 1 + 1 + m = fuel := by omega
    rw [order]
    exact done
  · have ended := putProperties_advance (m := fuel) started small
      (fun j below => rounds j (by omega)) 0
    rw [Nat.zero_add, done] at ended
    cases ended

/-! ## The field in front of the properties -/

variable {c : Construct} {overwrite : Bool} {field : List UInt8}
  {behind : Nat → JsonBuffer → Int × JsonBuffer}

/-- The length of the document in front of the properties. -/
def opening (overwrite : Bool) (field : List UInt8) : Nat :=
  (prefixText overwrite).length + field.length

/-- The buffer in front of the field. -/
def begun (b : JsonBuffer) (overwrite : Bool) : JsonBuffer :=
  { b with
    text := prefixText overwrite
    written := (prefixText overwrite).length + 1 }

/-- The buffer in front of the properties. -/
def start (b : JsonBuffer) (overwrite : Bool) (field : List UInt8) : JsonBuffer :=
  { b with
    text := prefixText overwrite ++ field
    written := opening overwrite field + 1 }

theorem length_start : (b.start overwrite field).text.length = opening overwrite field :=
  List.length_append

/-- What a builder prints behind the properties. -/
def finish (c : Construct) (behind : Nat → JsonBuffer → Int × JsonBuffer) (b : JsonBuffer) :
    Int × JsonBuffer :=
  andThen (b.printText c.sizeOfBuffer 1 (utf8 "\x7d,")) fun b' =>
    andThen (behind (sizeSub c.sizeOfBuffer b.text.length) b') fun b'' =>
      b''.jsonFinalize c.sizeOfBuffer c.productId

theorem length_prefixText_pos : 0 < (prefixText overwrite).length := by
  cases overwrite <;> with_unfolding_all decide

/-- The prefix is printed at the start of the buffer. -/
theorem jsonInit_fits (fresh : b.written = 0) (small : sizeOfBuffer < 2 ^ 31)
    (fits : (prefixText overwrite).length < sizeOfBuffer) :
    b.jsonInit sizeOfBuffer overwrite = (qcloudRetSuccess, b.begun overwrite) := by
  have size := snprintfSize_small small
  unfold jsonInit
  rw [snprintf_whole (by omega)]
  dsimp only
  rw [checkSnprintfReturn_fits fits (by omega), List.take_zero, List.nil_append, fresh,
    Nat.zero_max, Nat.zero_add]
  rfl

theorem jsonInit_full (fresh : b.written = 0) (small : sizeOfBuffer < 2 ^ 31)
    (full : sizeOfBuffer ≤ (prefixText overwrite).length) :
    (b.jsonInit sizeOfBuffer overwrite).1 ≠ qcloudRetSuccess ∧
      (b.jsonInit sizeOfBuffer overwrite).2.written ≤ sizeOfBuffer ∧
      (b.jsonInit sizeOfBuffer overwrite).2.reads = b.reads := by
  have truncated := checkSnprintfReturn_truncated full small
  have size := snprintfSize_small small
  refine ⟨?_, ?_, (snprintf_mono b 0 sizeOfBuffer (prefixText overwrite)).2⟩
  · change checkSnprintfReturn (printedCode (prefixText overwrite)) sizeOfBuffer ≠ _
    rw [truncated]
    decide
  · unfold jsonInit snprintf
    dsimp only
    rw [size]
    by_cases none : sizeOfBuffer = 0
    · rw [if_pos none, fresh]
      exact Nat.zero_le _
    · rw [if_neg none]
      dsimp only
      omega

/-- There is no room for the field. -/
theorem constructField_short (fresh : b.written = 0) (small : c.sizeOfBuffer < 2 ^ 31)
    (filled : 0 < field.length) (short : c.sizeOfBuffer ≤ opening overwrite field) (fuel : Nat) :
    ∃ rc, constructField c overwrite field index behind fuel b = some rc ∧
      rc.1 ≠ qcloudRetSuccess ∧ rc.2.written ≤ c.sizeOfBuffer ∧ rc.2.reads = b.reads := by
  unfold opening at short
  unfold constructField
  dsimp only
  by_cases fits : (prefixText overwrite).length < c.sizeOfBuffer
  · rw [jsonInit_fits fresh small fits]
    dsimp only
    rw [if_neg (not_not.mpr rfl)]
    have length : (b.begun overwrite).text.length = (prefixText overwrite).length := rfl
    have before : (b.begun overwrite).written = (prefixText overwrite).length + 1 := rfl
    obtain ⟨code, written, reads⟩ := @printText_full (b.begun overwrite) _ 0 field small (le_of_lt
        fits) (by omega)
    rw [if_pos code]
    exact ⟨_, rfl, code, by omega, reads⟩
  · obtain ⟨code, written, reads⟩ := @jsonInit_full _ _ overwrite fresh small
      (by omega)
    rw [if_pos code]
    exact ⟨_, rfl, code, written, reads⟩

/-- There is room for the field. -/
theorem constructField_started (fresh : b.written = 0) (small : c.sizeOfBuffer < 2 ^ 31)
    (filled : 0 < field.length) (room : opening overwrite field < c.sizeOfBuffer) (fuel : Nat) :
    constructField c overwrite field index behind fuel b =
      (putProperties index c.properties (c.sizeOfBuffer - (prefixText overwrite).length)
        c.count.toNat fuel 0 (b.start overwrite field)).map
        fun rc => andThen rc (finish c behind) := by
  unfold opening at room
  have remain : sizeSub c.sizeOfBuffer (prefixText overwrite).length =
      c.sizeOfBuffer - (prefixText overwrite).length := sizeSub_of_le (by omega)
  have length : (b.begun overwrite).text.length = (prefixText overwrite).length := rfl
  have opened : (b.begun overwrite).append 0 field = b.start overwrite field := by
    apply JsonBuffer.ext
    · exact text_append_zero
    · simp only [append, begun, start, opening]
      omega
    · rfl
    · rfl
  unfold constructField
  dsimp only
  rw [jsonInit_fits fresh small (by omega)]
  dsimp only
  rw [if_neg (not_not.mpr rfl), printText_fits small (by omega) (by omega), length, remain]
  dsimp only
  rw [if_neg (not_not.mpr rfl), opened]
  cases putProperties index c.properties (c.sizeOfBuffer - (prefixText overwrite).length)
    c.count.toNat fuel 0 (b.start overwrite field) <;> rfl

/-! ## Bounds -/

/-- The properties read are the first ones, all of them unless the call fails. -/
def ReadsFirst (count : Nat) (rc : Int × JsonBuffer) : Prop :=
  ∃ k ≤ count, rc.2.reads = (List.range k).map (fun i : Nat => (i : Int)) ∧
    (rc.1 = qcloudRetSuccess → k = count)

/-- A call ends, writes inside the buffer only, and reads the first properties. -/
def KeepsBounds (sizeOfBuffer count : Nat) (run : Nat → Option (Int × JsonBuffer)) : Prop :=
  ∃ fuel rc, run fuel = some rc ∧ rc.2.written ≤ sizeOfBuffer ∧ ReadsFirst count rc

/-- What a builder needs, with `reach` the number of properties after which its counter fails, and
    `again` if it uses the remaining size again behind the properties. -/
def FieldFits (c : Construct) (overwrite : Bool) (field : List UInt8) (reach : Nat) (again : Bool) :
    Prop :=
  c.sizeOfBuffer ≤ opening overwrite field ∨
    -- the size handed over does not wrap, or the properties fit all the same
    ((c.sizeOfBuffer < (prefixText overwrite).length + opening overwrite field →
        ∀ j < c.count.toNat, (∀ i ≤ j, complete (c.properties (i : Nat))) →
          opening overwrite field + (nodes c.properties (j + 1)).length < c.sizeOfBuffer) ∧
      -- the counter stays below the count
      (128 ≤ c.count.toNat → ¬ ((∀ i < reach, complete (c.properties (i : Nat))) ∧
        (prefixText overwrite).length + opening overwrite field +
          (nodes c.properties reach).length < c.sizeOfBuffer)) ∧
      -- the last field is not printed with a size that is one too large
      (again → ¬ ((∀ i < c.count.toNat, complete (c.properties (i : Nat))) ∧
        (c.count.toNat = 0 ∨
          c.sizeOfBuffer < (prefixText overwrite).length + opening overwrite field ∨
          (prefixText overwrite).length + opening overwrite field +
            (nodes c.properties c.count.toNat).length < c.sizeOfBuffer) ∧
        opening overwrite field + (nodes c.properties c.count.toNat).length + 3 ≤
          c.sizeOfBuffer ∧
        c.sizeOfBuffer ≤
          opening overwrite field + (nodes c.properties c.count.toNat).length + 17)))

instance (c : Construct) (overwrite : Bool) (field : List UInt8) (reach : Nat) (again : Bool) :
    Decidable (FieldFits c overwrite field reach again) :=
  inferInstanceAs (Decidable (_ ∨ (_ ∧ _ ∧ _)))

/-- The rounds in which the counter is the number of the round. -/
structure Reach (index : Nat → Int) (count reach : Nat) : Prop where
  le : reach ≤ count
  short : count < 128 → reach = count
  long : 128 ≤ count → 128 ≤ reach ∧ (index reach < 0 ∨ count ≤ index reach)
  first : ∀ k < reach, index k = k

theorem counter_eq {k : Nat} (small : k < 256) :
    counter k = if k < 128 then (k : Int) else k - 256 := by
  unfold counter
  rw [Int.bmod_def]
  split <;> split <;> omega

theorem arrayIndex_reach {count : Nat} (byte : count < 256) :
    Reach arrayIndex count (min count 128) where
  le := min_le_left _ _
  short := by omega
  long := by
    intro long
    have reach : min count 128 = 128 := by omega
    refine ⟨by omega, .inl ?_⟩
    rw [reach, arrayIndex, counter_eq (by omega)]
    decide
  first := by
    intro k below
    rw [arrayIndex, counter_eq (by omega), if_pos (by omega)]

theorem argIndex_reach (count : Nat) : Reach argIndex count count where
  le := le_refl _
  short := fun _ => rfl
  long := fun long => ⟨long, .inr (le_refl _)⟩
  first := fun _ _ => rfl

/-- The first failure among `n` cases. -/
theorem all_or_first (P : Nat → Prop) (n : Nat) :
    (∀ j < n, P j) ∨ ∃ m < n, (∀ j < m, P j) ∧ ¬ P m := by
  induction n with
  | zero => exact .inl fun j below => absurd below (Nat.not_lt_zero j)
  | succ n ih =>
    rcases ih with all | ⟨m, below, before, fails⟩
    · by_cases last : P n
      · left
        intro j below
        rcases Nat.lt_succ_iff_lt_or_eq.mp below with earlier | same
        · exact all j earlier
        · exact same ▸ last
      · exact .inr ⟨n, Nat.lt_succ_self n, all, last⟩
    · exact .inr ⟨m, Nat.lt_succ_of_lt below, before, fails⟩

/-- How a builder ends: `again` if it uses the remaining size again. -/
structure Finishes (c : Construct) (behind : Nat → JsonBuffer → Int × JsonBuffer) (again : Bool) :
    Prop where
  mono : ∀ b, b.written ≤ (finish c behind b).2.written ∧ (finish c behind b).2.reads = b.reads
  bound : ∀ b, 0 < b.text.length → b.text.length < c.sizeOfBuffer →
    b.written = b.text.length + 1 →
    ((finish c behind b).2.written ≤ c.sizeOfBuffer ↔
      ¬ (again = true ∧ b.text.length + 3 ≤ c.sizeOfBuffer ∧
        c.sizeOfBuffer ≤ b.text.length + 17))

/-- The property `j` is put, and ends inside the buffer, if those before it do. -/
def Fits (c : Construct) (overwrite : Bool) (field : List UInt8) (j : Nat) : Prop :=
  complete (c.properties j) = true ∧
    opening overwrite field + (nodes c.properties (j + 1)).length <
      if c.sizeOfBuffer < (prefixText overwrite).length + opening overwrite field then
        c.sizeOfBuffer
      else c.sizeOfBuffer - (prefixText overwrite).length

section Rounds

variable {reach m : Nat} {again : Bool} (fresh : b.written = 0) (unread : b.reads = [])
  (small : c.sizeOfBuffer < 2 ^ 31) (filled : 0 < field.length)
  (room : opening overwrite field < c.sizeOfBuffer) (reaches : Reach index c.count.toNat reach)
  (finishes : Finishes c behind again)

include room in
theorem fits_inside (fits : ∀ j < m, Fits c overwrite field j) :
    opening overwrite field + (nodes c.properties m).length < c.sizeOfBuffer := by
  cases m with
  | zero => exact room
  | succ m =>
    have last := (fits m (Nat.lt_succ_self m)).2
    split at last <;> omega

include reaches in
theorem counter_lt {j : Nat} (below : j < reach ∨ j = reach ∧ 128 ≤ c.count.toNat) :
    counter j < c.count.toNat := by
  have byte := c.count.toNat_lt
  have le := reaches.le
  rw [counter_eq (by omega)]
  split <;> omega

include small reaches in
/-- The rounds of the loop up to the first property that does not fit. -/
theorem fits_rounds (within : m ≤ reach) (fits : ∀ j < m, Fits c overwrite field j) :
    ∀ j < m, counter j < c.count.toNat ∧ index j = j ∧ complete (c.properties j) ∧
      Put (b.start overwrite field).text.length
        (c.sizeOfBuffer - (prefixText overwrite).length) c.properties j := by
  intro j below
  obtain ⟨isComplete, fit⟩ := fits j below
  have prefixed : (prefixText overwrite).length ≤ opening overwrite field :=
    Nat.le_add_right _ _
  refine ⟨counter_lt reaches (.inl (by omega)), reaches.first j (by omega), isComplete, ?_⟩
  rw [length_start]
  split at fit
  · exact .inl ⟨by omega, by omega⟩
  · exact .inr fit

theorem started_start : (b.start overwrite field).written =
    (b.start overwrite field).text.length + 1 := by
  rw [length_start]
  rfl

theorem length_advanced : ((b.start overwrite field).advanced properties m).text.length =
    opening overwrite field + (nodes properties m).length := by
  rw [advanced, List.length_append, length_start]

theorem written_advanced : ((b.start overwrite field).advanced properties m).written =
    opening overwrite field + (nodes properties m).length + 1 := by
  rw [advanced, length_start]

include unread in
theorem reads_advanced : ((b.start overwrite field).advanced properties m).reads =
    (List.range m).map fun i : Nat => (i : Int) := by
  have reads : (b.start overwrite field).reads = [] := unread
  rw [advanced, reads, List.nil_append]

include fresh small filled room reaches in
/-- The outcomes of a builder whose first properties fit are those of the loop from there on. -/
theorem outcome_iff (within : m ≤ reach) (fits : ∀ j < m, Fits c overwrite field j)
    (rc : Int × JsonBuffer) :
    (∃ fuel, constructField c overwrite field index behind fuel b = some rc) ↔
      ∃ fuel rc', putProperties index c.properties
          (c.sizeOfBuffer - (prefixText overwrite).length) c.count.toNat (fuel + 1) m
          ((b.start overwrite field).advanced c.properties m) = some rc' ∧
        andThen rc' (finish c behind) = rc := by
  have rounds := fits_rounds (b := b) small reaches within fits
  have smaller : c.sizeOfBuffer - (prefixText overwrite).length < 2 ^ 31 := by omega
  constructor
  · rintro ⟨fuel, done⟩
    rw [constructField_started fresh small filled room, Option.map_eq_some_iff] at done
    obtain ⟨rc', looped, finished⟩ := done
    obtain ⟨left, reached⟩ := putProperties_reaches started_start smaller rounds looped
    exact ⟨left, rc', reached, finished⟩
  · rintro ⟨fuel, rc', looped, finished⟩
    refine ⟨fuel + 1 + m, ?_⟩
    rw [constructField_started fresh small filled room,
      putProperties_advance started_start smaller rounds, looped, Option.map_some, finished]

include fresh unread small filled room reaches finishes in
/-- All properties fit: what counts is how the builder ends. -/
theorem keepsBounds_all (short : c.count.toNat < 128)
    (fits : ∀ j < c.count.toNat, Fits c overwrite field j) :
    KeepsBounds c.sizeOfBuffer c.count.toNat
        (fun fuel => constructField c overwrite field index behind fuel b) ↔
      ¬ (again = true ∧
        opening overwrite field + (nodes c.properties c.count.toNat).length + 3 ≤
          c.sizeOfBuffer ∧
        c.sizeOfBuffer ≤
          opening overwrite field + (nodes c.properties c.count.toNat).length + 17) := by
  have past : ¬ counter c.count.toNat < c.count.toNat := by
    rw [counter_eq (by omega), if_pos short]
    exact lt_irrefl _
  have within : c.count.toNat ≤ reach := le_of_eq (reaches.short short).symm
  have length := @length_advanced b c.properties overwrite field c.count.toNat
  have inside := fits_inside room fits
  have positive : 0 < opening overwrite field := by
    unfold opening
    omega
  have written : ((b.start overwrite field).advanced c.properties c.count.toNat).written =
      ((b.start overwrite field).advanced c.properties c.count.toNat).text.length + 1 := by
    rw [length, advanced, length_start]
  have bound := finishes.bound
    ((b.start overwrite field).advanced c.properties c.count.toNat) (by omega) (by omega) written
  rw [length] at bound
  rw [← bound]
  constructor
  · rintro ⟨fuel, rc, done, ends, _⟩
    obtain ⟨left, rc', looped, finished⟩ := (@outcome_iff _ _ _ _ _ behind _ _ fresh small filled room
      reaches within fits rc).mp ⟨fuel, done⟩
    rw [putProperties_end past, Option.some.injEq] at looped
    rw [← finished, ← looped] at ends
    exact ends
  · intro ends
    obtain ⟨fuel, done⟩ := (@outcome_iff _ _ _ _ _ behind _ _ fresh small filled room reaches within
      fits _).mpr ⟨0, _, putProperties_end past, rfl⟩
    refine ⟨fuel, _, done, ends, c.count.toNat, le_refl _, ?_, fun _ => rfl⟩
    exact (finishes.mono _).2.trans (reads_advanced unread)

include fresh small filled room reaches finishes in
/-- All properties fit that the counter reaches, and it does not reach the count. -/
theorem overruns_reach (long : 128 ≤ c.count.toNat)
    (fits : ∀ j < reach, Fits c overwrite field j) :
    ¬ KeepsBounds c.sizeOfBuffer c.count.toNat
      (fun fuel => constructField c overwrite field index behind fuel b) := by
  rintro ⟨fuel, rc, done, _, k, _, reads, _⟩
  obtain ⟨left, rc', looped, finished⟩ := (@outcome_iff _ _ _ _ _ behind _ _ fresh small filled room
    reaches (le_refl _) fits rc).mp ⟨fuel, done⟩
  have counts := counter_lt reaches (.inr ⟨rfl, long⟩)
  have read : index reach ∈ rc'.2.reads := putProperties_reads counts looped
  have kept : rc.2.reads = rc'.2.reads := by
    rw [← finished]
    unfold andThen
    split
    · rfl
    · exact (finishes.mono _).2
  rw [← kept, reads, List.mem_map] at read
  obtain ⟨i, below, same⟩ := read
  rw [List.mem_range] at below
  rcases (reaches.long long).2 with negative | beyond <;> omega

include fresh unread small filled room reaches in
/-- A property is missing. -/
theorem keepsBounds_missing (within : m < reach) (fits : ∀ j < m, Fits c overwrite field j)
    (missing : complete (c.properties m) = false) :
    KeepsBounds c.sizeOfBuffer c.count.toNat
      (fun fuel => constructField c overwrite field index behind fuel b) := by
  have le := reaches.le
  have inside := fits_inside room fits
  have isIndex := reaches.first m within
  have failure : qcloudErrInval ≠ qcloudRetSuccess := by decide
  obtain ⟨fuel, done⟩ := (@outcome_iff _ _ _ _ _ behind _ _ fresh small filled room reaches
    (le_of_lt within) fits _).mpr ⟨0, _, putProperties_missing
      (counter_lt reaches (.inl within)) (isIndex.symm ▸ missing), rfl⟩
  rw [andThen_failure failure] at done
  refine ⟨fuel, _, done, ?_, m + 1, by omega, ?_, fun success => absurd success failure⟩
  · rw [written_reading, written_advanced]
    omega
  · rw [reads_reading, reads_advanced unread, isIndex, List.range_succ, List.map_append,
        List.map_singleton]

include fresh unread small filled room reaches in
/-- A property does not fit, and is found not to. -/
theorem keepsBounds_full (within : m < reach) (fits : ∀ j < m, Fits c overwrite field j)
    (wide : (prefixText overwrite).length + opening overwrite field ≤ c.sizeOfBuffer)
    (present : complete (c.properties m) = true)
    (full : c.sizeOfBuffer - (prefixText overwrite).length ≤
      opening overwrite field + (nodes c.properties (m + 1)).length) :
    KeepsBounds c.sizeOfBuffer c.count.toNat
      (fun fuel => constructField c overwrite field index behind fuel b) := by
  have le := reaches.le
  have isIndex := reaches.first m within
  have length := @length_advanced b c.properties overwrite field m
  have prefixed : (prefixText overwrite).length ≤ opening overwrite field :=
    Nat.le_add_right _ _
  have before : opening overwrite field + (nodes c.properties m).length ≤
      c.sizeOfBuffer - (prefixText overwrite).length := by
    cases m with
    | zero =>
      have none : (nodes c.properties 0).length = 0 := rfl
      omega
    | succ m =>
      have last := (fits m (Nat.lt_succ_self m)).2
      rw [if_neg (by omega)] at last
      exact le_of_lt last
  match isProperty : c.properties (m : Int), present with
  | some ⟨some key, data⟩, _ =>
    have more : (nodes c.properties (m + 1)).length =
        (nodes c.properties m).length + (node key data).length := by
      rw [nodes_succ, List.length_append, isProperty]
      rfl
    obtain ⟨failure, written, reads⟩ := @putJsonNode_full (((b.start overwrite field).advanced
        c.properties m).reading (index m)) (c.sizeOfBuffer - (prefixText overwrite).length) key data
      (by omega) (by rw [text_reading]; omega) (by rw [text_reading]; omega)
    obtain ⟨fuel, done⟩ := (@outcome_iff _ _ _ _ _ behind _ _ fresh small filled room reaches
      (le_of_lt within) fits _).mpr ⟨0, _, putProperties_refused
        (counter_lt reaches (.inl within)) (isIndex.symm ▸ isProperty) failure, rfl⟩
    rw [andThen_failure failure] at done
    refine ⟨fuel, _, done, ?_, m + 1, by omega, ?_, fun success => absurd success failure⟩
    · have positive := @length_prefixText_pos overwrite
      rw [written_reading, written_advanced] at written
      omega
    · rw [reads, reads_reading, reads_advanced unread, isIndex, List.range_succ, List.map_append,
          List.map_singleton]

include fresh small filled room reaches finishes in
/-- A property does not fit, and the size that is handed over has wrapped. -/
theorem overruns_wrapped (within : m < reach) (fits : ∀ j < m, Fits c overwrite field j)
    (wraps : c.sizeOfBuffer < (prefixText overwrite).length + opening overwrite field)
    (present : complete (c.properties m) = true)
    (full : c.sizeOfBuffer ≤ opening overwrite field + (nodes c.properties (m + 1)).length) :
    ¬ KeepsBounds c.sizeOfBuffer c.count.toNat
      (fun fuel => constructField c overwrite field index behind fuel b) := by
  rintro ⟨fuel, rc, done, ends, _⟩
  obtain ⟨left, rc', looped, finished⟩ := (@outcome_iff _ _ _ _ _ behind _ _ fresh small filled room
    reaches (le_of_lt within) fits rc).mp ⟨fuel, done⟩
  have counts := counter_lt reaches (.inl within)
  have isIndex := reaches.first m within
  have inside := fits_inside room fits
  have prefixed : (prefixText overwrite).length ≤ opening overwrite field :=
    Nat.le_add_right _ _
  have length := @length_advanced b c.properties overwrite field m
  have kept : rc'.2.written ≤ rc.2.written := by
    rw [← finished]
    unfold andThen
    split
    · exact le_refl _
    · exact (finishes.mono _).1
  match isProperty : c.properties (m : Int), present with
  | some ⟨some key, data⟩, _ =>
    have more : (nodes c.properties (m + 1)).length =
        (nodes c.properties m).length + (node key data).length := by
      rw [nodes_succ, List.length_append, isProperty]
      rfl
    have round := (putProperties_round counts (isIndex.symm ▸ isProperty) looped).1
    have written := @putJsonNode_wrapped_beyond (((b.start overwrite field).advanced c.properties
        m).reading (index m)) (c.sizeOfBuffer - (prefixText overwrite).length) key data c.sizeOfBuffer
      (by rw [text_reading]; omega) (by rw [text_reading]; omega) small
      (by rw [text_reading]; omega)
    omega

end Rounds

theorem length_prefixText_le : (prefixText overwrite).length ≤ 34 := by
  cases overwrite <;> with_unfolding_all decide

/-- When every property fits, only the end of the document matters. -/
theorem fieldFits_all {again : Bool} (room : opening overwrite field < c.sizeOfBuffer)
    (short : c.count.toNat < 128) (fits : ∀ j < c.count.toNat, Fits c overwrite field j) :
    FieldFits c overwrite field c.count.toNat again ↔
      ¬ (again = true ∧
        opening overwrite field + (nodes c.properties c.count.toNat).length + 3 ≤
          c.sizeOfBuffer ∧
        c.sizeOfBuffer ≤
          opening overwrite field + (nodes c.properties c.count.toNat).length + 17) := by
  constructor
  · rintro (full | ⟨_, _, ending⟩) ⟨isAgain, least, most⟩
    · omega
    · refine ending isAgain ⟨fun i below => (fits i below).1, ?_, least, most⟩
      by_cases none : c.count.toNat = 0
      · exact .inl none
      by_cases wraps : c.sizeOfBuffer < (prefixText overwrite).length + opening overwrite field
      · exact .inr (.inl wraps)
      · have last := (fits (c.count.toNat - 1) (by omega)).2
        have order : c.count.toNat - 1 + 1 = c.count.toNat := by omega
        rw [if_neg wraps, order] at last
        exact .inr (.inr (by omega))
  · intro ending
    refine .inr ⟨?_, fun long => absurd long (by omega), ?_⟩
    · intro wraps j below _
      have fit := (fits j below).2
      rw [if_pos wraps] at fit
      exact fit
    · rintro isAgain ⟨_, _, least, most⟩
      exact ending ⟨isAgain, least, most⟩

/-- When the counter never reaches the count, nothing ends the loop. -/
theorem not_fieldFits_reach {reach : Nat} {again : Bool}
    (room : opening overwrite field < c.sizeOfBuffer) (long : 128 ≤ c.count.toNat)
    (enough : 128 ≤ reach) (fits : ∀ j < reach, Fits c overwrite field j) :
    ¬ FieldFits c overwrite field reach again := by
  rintro (full | ⟨_, counts, _⟩)
  · omega
  · refine counts long ⟨fun i below => (fits i below).1, ?_⟩
    have last := (fits (reach - 1) (by omega)).2
    have order : reach - 1 + 1 = reach := by omega
    have many := le_length_nodes fun i below => (fits i below).1
    have prefixed := @length_prefixText_le overwrite
    rw [order] at last
    split at last <;> omega

theorem fieldFits_missing {reach m : Nat} {again : Bool} (le : reach ≤ c.count.toNat)
    (within : m < reach) (fits : ∀ j < m, Fits c overwrite field j)
    (missing : complete (c.properties m) = false) : FieldFits c overwrite field reach again := by
  have lacks : ¬ complete (c.properties m) = true := by
    rw [missing]
    decide
  refine .inr ⟨?_, ?_, ?_⟩
  · intro wraps j _ all
    have before : j < m := by
      by_contra behind
      exact lacks (all m (by omega))
    have fit := (fits j before).2
    rw [if_pos wraps] at fit
    exact fit
  · rintro _ ⟨all, _⟩
    exact lacks (all m within)
  · rintro _ ⟨all, _⟩
    exact lacks (all m (by omega))

theorem fieldFits_full {reach m : Nat} {again : Bool} (le : reach ≤ c.count.toNat)
    (within : m < reach)
    (wide : (prefixText overwrite).length + opening overwrite field ≤ c.sizeOfBuffer)
    (full : c.sizeOfBuffer - (prefixText overwrite).length ≤
      opening overwrite field + (nodes c.properties (m + 1)).length) :
    FieldFits c overwrite field reach again := by
  have upTo : (nodes c.properties (m + 1)).length ≤ (nodes c.properties reach).length :=
    length_nodes_mono within
  have upToAll : (nodes c.properties reach).length ≤ (nodes c.properties c.count.toNat).length :=
    length_nodes_mono le
  refine .inr ⟨fun wraps => absurd wraps (by omega), ?_, ?_⟩
  · rintro _ ⟨_, below⟩
    omega
  · rintro _ ⟨_, none | wraps | below, _⟩ <;> omega

/-- A builder with a loop keeps the bounds if and only if its document fits. -/
theorem constructField_keepsBounds_iff {reach : Nat} {again : Bool} (fresh : b.written = 0)
    (unread : b.reads = []) (small : c.sizeOfBuffer < 2 ^ 31) (filled : 0 < field.length)
    (reaches : Reach index c.count.toNat reach) (finishes : Finishes c behind again) :
    KeepsBounds c.sizeOfBuffer c.count.toNat
        (fun fuel => constructField c overwrite field index behind fuel b) ↔
      FieldFits c overwrite field reach again := by
  by_cases room : opening overwrite field < c.sizeOfBuffer
  · rcases all_or_first (Fits c overwrite field) reach with fits | ⟨m, within, fits, fails⟩
    · by_cases short : c.count.toNat < 128
      · have reached := reaches.short short
        rw [reached] at fits ⊢
        rw [keepsBounds_all fresh unread small filled room reaches finishes short fits,
          fieldFits_all room short fits]
      · have long : 128 ≤ c.count.toNat := by omega
        exact iff_of_false
          (overruns_reach fresh small filled room reaches finishes long fits)
          (not_fieldFits_reach room long (reaches.long long).1 fits)
    · by_cases present : complete (c.properties m) = true
      · have full := Nat.not_lt.mp fun fit => fails ⟨present, fit⟩
        by_cases wraps : c.sizeOfBuffer <
            (prefixText overwrite).length + opening overwrite field
        · rw [if_pos wraps] at full
          refine iff_of_false (overruns_wrapped fresh small filled room reaches finishes within
            fits wraps present full) ?_
          rintro (none | ⟨inside, _⟩)
          · omega
          · have beyond := inside wraps m (within.trans_le reaches.le) fun i le => by
              rcases Nat.lt_or_eq_of_le le with before | same
              · exact (fits i before).1
              · exact same ▸ present
            omega
        · rw [if_neg wraps] at full
          exact iff_of_true
            (keepsBounds_full fresh unread small filled room reaches within fits (by omega)
              present full)
            (fieldFits_full reaches.le within (by omega) full)
      · have missing := eq_false_of_ne_true present
        exact iff_of_true
          (keepsBounds_missing fresh unread small filled room reaches within fits missing)
          (fieldFits_missing reaches.le within fits missing)
  · obtain ⟨rc, done, code, written, reads⟩ := @constructField_short _ index _ _ _ behind fresh
        small filled (Nat.not_lt.mp room) 0
    refine iff_of_true ⟨0, rc, done, written, 0, Nat.zero_le _, ?_, fun success =>
      absurd success code⟩ (.inl (Nat.not_lt.mp room))
    rw [reads, unread]
    rfl

/-! ## The builders -/

/-- The remaining size is computed in front of every text. -/
theorem finishes_once (small : c.sizeOfBuffer < 2 ^ 31) :
    Finishes c (fun _ b => (qcloudRetSuccess, b)) false where
  mono b := by
    apply andThen_mono (printText_mono _ _ _ _)
    intro b'
    apply andThen_mono (b := b') ⟨le_refl _, rfl⟩
    intro b''
    exact jsonFinalize_mono _ _ _
  bound b _ ends written := by
    have inside : b.Inside c.sizeOfBuffer := ⟨ends, by omega⟩
    have stays : StaysInside (finish c (fun _ b => (qcloudRetSuccess, b)) b) b
        c.sizeOfBuffer := by
      apply (inside.printText small).andThen
      intro b' inside'
      have kept : StaysInside (qcloudRetSuccess, b') b' c.sizeOfBuffer :=
        ⟨inside'.2, rfl, fun _ => inside'.1⟩
      exact kept.andThen fun b'' inside'' => inside''.jsonFinalize small _
    exact iff_of_true stays.1 fun stale => absurd stale.1 (by decide)

theorem length_desiredNull : desiredNull.length = 16 := by
  with_unfolding_all decide

theorem printDesiredNull_mono (remainSize : Nat) (b : JsonBuffer) :
    b.written ≤ (printDesiredNull remainSize b).2.written ∧
      (printDesiredNull remainSize b).2.reads = b.reads :=
  snprintf_mono b _ _ _

/-- With a size that is one too large the text stays inside, or passes the end by one byte. -/
theorem printDesiredNull_again (small : sizeOfBuffer < 2 ^ 31) (positive : 0 < b.text.length)
    (room : b.text.length + 1 < sizeOfBuffer) (written : b.written = b.text.length + 1) :
    if b.text.length + 17 ≤ sizeOfBuffer then
      StaysInside (printDesiredNull (sizeOfBuffer - (b.text.length - 1)) b) b sizeOfBuffer
    else
      sizeOfBuffer < (printDesiredNull (sizeOfBuffer - (b.text.length - 1)) b).2.written := by
  have size : snprintfSize (sizeOfBuffer - (b.text.length - 1)) =
      sizeOfBuffer - (b.text.length - 1) := snprintfSize_small (by omega)
  have length := length_desiredNull
  unfold printDesiredNull
  dsimp only
  split
  · rw [snprintf_whole (by omega), checkSnprintfReturn_fits (by omega) (by omega)]
    refine ⟨?_, rfl, fun _ => ?_⟩
    · dsimp only
      omega
    · dsimp only
      rw [List.take_length, List.length_append]
      omega
  · have some : ¬ sizeOfBuffer - (b.text.length - 1) = 0 := by omega
    unfold snprintf
    dsimp only
    rw [size, if_neg some, length]
    dsimp only
    omega

/-- The remaining size is that in front of the brace and the comma, which have taken one byte. -/
theorem finishes_again (small : c.sizeOfBuffer < 2 ^ 31) :
    Finishes c printDesiredNull true where
  mono b := by
    apply andThen_mono (printText_mono _ _ _ _)
    intro b'
    apply andThen_mono (printDesiredNull_mono _ b')
    intro b''
    exact jsonFinalize_mono _ _ _
  bound b positive ends written := by
    have brace : (utf8 "\x7d,").length = 2 := by with_unfolding_all decide
    by_cases fits : b.text.length + 2 < c.sizeOfBuffer
    · have closed : b.printText c.sizeOfBuffer 1 (utf8 "\x7d,") =
          (qcloudRetSuccess, b.append 1 (utf8 "\x7d,")) :=
        printText_fits small (by omega) (by omega)
      have text : (b.append 1 (utf8 "\x7d,")).text.length = b.text.length + 1 := by
        rw [append, List.length_append, List.length_take, brace]
        omega
      have last : (b.append 1 (utf8 "\x7d,")).written =
          (b.append 1 (utf8 "\x7d,")).text.length + 1 := by
        rw [text, append, brace, written]
        dsimp only
        omega
      have remain : sizeSub c.sizeOfBuffer b.text.length =
          c.sizeOfBuffer - ((b.append 1 (utf8 "\x7d,")).text.length - 1) := by
        rw [sizeSub_of_le (by omega), text]
        omega
      have again := printDesiredNull_again small (by omega) (by omega) last
      rw [finish, andThen_success closed, remain]
      by_cases room : (b.append 1 (utf8 "\x7d,")).text.length + 17 ≤ c.sizeOfBuffer
      · rw [if_pos room] at again
        have stays := again.andThen fun b' inside => inside.jsonFinalize small c.productId
        exact iff_of_true stays.1 fun stale => by omega
      · rw [if_neg room] at again
        have passed := (andThen_mono (b := (printDesiredNull (c.sizeOfBuffer -
            ((b.append 1 (utf8 "\x7d,")).text.length - 1)) (b.append 1 (utf8 "\x7d,"))).2)
          ⟨le_refl _, rfl⟩ fun b' => jsonFinalize_mono b' c.sizeOfBuffer c.productId).1
        refine iff_of_false (by omega) fun apart => apart ⟨rfl, by omega, by omega⟩
    · obtain ⟨failure, bound, _⟩ := @printText_full b _ 1 (utf8 "\x7d,") small (by omega) (by omega)
      rw [finish, andThen_failure failure]
      exact iff_of_true (by omega) fun stale => by omega

/-- The builder without a loop. -/
theorem constructDesireAllNull_keepsBounds (fresh : b.written = 0) (unread : b.reads = [])
    (small : c.sizeOfBuffer < 2 ^ 31) :
    KeepsBounds c.sizeOfBuffer 0 (fun _ => some (constructDesireAllNull c b)) := by
  by_cases room : (prefixText false).length < c.sizeOfBuffer
  · have inside : (b.begun false).Inside c.sizeOfBuffer := ⟨room, room⟩
    have stays := (@Inside.printText _ _ 0 desiredNull inside small).andThen
      fun b' inside' => inside'.jsonFinalize small c.productId
    refine ⟨0, _, rfl, ?_, 0, le_refl _, ?_, fun _ => rfl⟩
    · rw [constructDesireAllNull, andThen_success (jsonInit_fits fresh small room)]
      exact stays.1
    · rw [constructDesireAllNull, andThen_success (jsonInit_fits fresh small room)]
      exact stays.2.1.trans unread
  · obtain ⟨failure, written, reads⟩ := @jsonInit_full _ _ false fresh small
      (Nat.not_lt.mp room)
    refine ⟨0, _, rfl, ?_, 0, le_refl _, ?_, fun _ => rfl⟩
    · rw [constructDesireAllNull, andThen_failure failure]
      exact written
    · rw [constructDesireAllNull, andThen_failure failure]
      exact reads.trans unread

/-- The builders. -/
inductive Builder where
  | report
  | reportArray
  | overwriteReport
  | reportAndDesireAllNull
  | desireAllNull
  | desirePropNull
  deriving DecidableEq, Repr

/-- A call of a builder, with the number of rounds that its loop may take. -/
def Builder.run (c : Construct) : Builder → Nat → JsonBuffer → Option (Int × JsonBuffer)
  | .report => constructReport c
  | .reportArray => constructReportArray c
  | .overwriteReport => constructOverwriteReport c
  | .reportAndDesireAllNull => constructReportAndDesireAllNull c
  | .desireAllNull => fun _ b => some (constructDesireAllNull c b)
  | .desirePropNull => constructDesirePropNull c

/-- How many properties a builder is to read. -/
def Builder.expected (c : Construct) : Builder → Nat
  | .desireAllNull => 0
  | _ => c.count.toNat

/-- The condition under which a builder keeps to its buffer and its properties. -/
def Builder.Fits (c : Construct) : Builder → Prop
  | .report => FieldFits c false reportedField c.count.toNat false
  | .reportArray => FieldFits c false reportedField (min c.count.toNat 128) false
  | .overwriteReport => FieldFits c true reportedField c.count.toNat false
  | .reportAndDesireAllNull => FieldFits c false reportedField c.count.toNat true
  | .desireAllNull => True
  | .desirePropNull => FieldFits c false desiredField c.count.toNat false

/-- A builder ends, writes only inside its buffer and reads the first properties, if and only if
    its condition holds. -/
theorem builder_keepsBounds_iff (builder : Builder) (c : Construct)
    (small : c.sizeOfBuffer < 2 ^ 31) (text : List UInt8) (tokenNum : UInt32) :
    KeepsBounds c.sizeOfBuffer (builder.expected c)
        (fun fuel => builder.run c fuel ⟨text, 0, [], tokenNum⟩) ↔
      builder.Fits c := by
  have reported : 0 < reportedField.length := by decide +kernel
  have desired : 0 < desiredField.length := by decide +kernel
  have args := argIndex_reach c.count.toNat
  have array := arrayIndex_reach c.count.toNat_lt
  unfold Builder.Fits Builder.run Builder.expected
  cases builder with
  | report =>
    exact @constructField_keepsBounds_iff ⟨text, 0, [], tokenNum⟩ _ c false reportedField _ _ _ rfl
        rfl small reported args
      (finishes_once small)
  | reportArray =>
    exact @constructField_keepsBounds_iff ⟨text, 0, [], tokenNum⟩ _ c false reportedField _ _ _ rfl
        rfl small reported array
      (finishes_once small)
  | overwriteReport =>
    exact @constructField_keepsBounds_iff ⟨text, 0, [], tokenNum⟩ _ c true reportedField _ _ _ rfl
        rfl small reported args
      (finishes_once small)
  | reportAndDesireAllNull =>
    exact @constructField_keepsBounds_iff ⟨text, 0, [], tokenNum⟩ _ c false reportedField _ _ _ rfl
        rfl small reported args
      (finishes_again small)
  | desireAllNull =>
    exact iff_of_true (constructDesireAllNull_keepsBounds (b := ⟨text, 0, [], tokenNum⟩) rfl rfl
      small) trivial
  | desirePropNull =>
    exact @constructField_keepsBounds_iff ⟨text, 0, [], tokenNum⟩ _ c false desiredField _ _ _ rfl
        rfl small desired args
      (finishes_once small)

/-- Properties with the key `k` and the value 1. -/
def ones (sizeOfBuffer : Nat) (count : UInt8) : Construct where
  sizeOfBuffer := sizeOfBuffer
  count := count
  properties := fun _ => some ⟨some ⟨utf8 "k", by decide +kernel⟩, some (.jint32 1)⟩
  productId := ⟨utf8 "p", by decide +kernel⟩

theorem builder_keepsBounds_report :
    KeepsBounds 100 1 (fun fuel => Builder.run (ones 100 1) .report fuel ⟨[], 0, [], 0⟩) := by
  apply (builder_keepsBounds_iff .report (ones 100 1) (by decide) [] 0).mpr
  unfold Builder.Fits
  decide +kernel

/-- The key is printed behind the end of a buffer of 24 bytes; the last field ends behind a buffer
    of 40 bytes; and the counter passes 127. -/
theorem builders_overrun :
    ¬ KeepsBounds 24 1 (fun fuel => Builder.run (ones 24 1) .report fuel ⟨[], 0, [], 0⟩) ∧
      ¬ KeepsBounds 40 1
        (fun fuel => Builder.run (ones 40 1) .reportAndDesireAllNull fuel ⟨[], 0, [], 0⟩) ∧
      ¬ KeepsBounds 2000 128
        (fun fuel => Builder.run (ones 2000 128) .reportArray fuel ⟨[], 0, [], 0⟩) := by
  have reported : 0 < reportedField.length := by decide +kernel
  refine ⟨?_, ?_, ?_⟩
  · rw [show Builder.run (ones 24 1) .report = constructReport (ones 24 1) from rfl]
    apply (@constructField_keepsBounds_iff ⟨[], 0, [], 0⟩ _ (ones 24 1) false reportedField _ _ _
        rfl rfl (by decide) reported
      (argIndex_reach 1) (finishes_once (by decide))).not.mpr
    decide +kernel
  · rw [show Builder.run (ones 40 1) .reportAndDesireAllNull =
      constructReportAndDesireAllNull (ones 40 1) from rfl]
    apply (@constructField_keepsBounds_iff ⟨[], 0, [], 0⟩ _ (ones 40 1) false reportedField _ _ _
        rfl rfl (by decide) reported
      (argIndex_reach 1) (finishes_again (by decide))).not.mpr
    decide +kernel
  · rw [show Builder.run (ones 2000 128) .reportArray = constructReportArray (ones 2000 128)
      from rfl]
    apply (@constructField_keepsBounds_iff ⟨[], 0, [], 0⟩ _ (ones 2000 128) false reportedField _ _
        _ rfl rfl (by decide) reported
      (@arrayIndex_reach 128 (by decide)) (finishes_once (by decide))).not.mpr
    decide +kernel

end JsonBuffer

end QcloudIot.Shadow
