import QcloudIot.Json.Grammar
import QcloudIot.Log.Uploader

/-!
# Appending to the upload buffer

What `append_to_upload_buffer` writes, and when it reads no more than it is given, leaves a zero
byte at the end of the buffer, and appends a JSON string.
-/

namespace QcloudIot.Log

open Json (StrChar charsText decode quote backslash)

/-! ## Escaping -/

/-- The first bytes of `log_content`. -/
def logBytes (logContent : Nat → UInt8) (n : Nat) : List UInt8 := (List.range n).map logContent

/-- What is written for a byte. -/
def escapeByte (b : UInt8) : List UInt8 :=
  match jsonEscape b with
  | some letter => [backslash, letter]
  | none => [b]

/-- What is written for the bytes of a log. -/
def escapedText (bytes : List UInt8) : List UInt8 := bytes.flatMap escapeByte

/-- What is appended for a log: a quoted string, a comma and a blank. -/
def logEntry (bytes : List UInt8) : List UInt8 :=
  quote :: escapedText bytes ++ [quote, Json.comma, Json.space]

theorem logBytes_succ (logContent : Nat → UInt8) (n : Nat) :
    logBytes logContent (n + 1) = logBytes logContent n ++ [logContent n] := by
  rw [logBytes, List.range_succ, List.map_append, List.map_singleton, logBytes]

theorem mem_logBytes {logContent : Nat → UInt8} {n : Nat} {b : UInt8} :
    b ∈ logBytes logContent n ↔ ∃ j < n, logContent j = b := by
  rw [logBytes, List.mem_map]
  constructor
  · rintro ⟨j, mem, same⟩
    exact ⟨j, List.mem_range.mp mem, same⟩
  · rintro ⟨j, below, same⟩
    exact ⟨j, List.mem_range.mpr below, same⟩

theorem logBytes_le (logContent : Nat → UInt8) {m n : Nat} (le : m ≤ n) :
    logBytes logContent m <+: logBytes logContent n := by
  induction le with
  | refl => exact List.prefix_rfl
  | step le ih =>
    rw [logBytes_succ]
    exact ih.trans (List.prefix_append _ _)

theorem escapedText_append (front back : List UInt8) :
    escapedText (front ++ back) = escapedText front ++ escapedText back :=
  List.flatMap_append

theorem escapedText_singleton (b : UInt8) : escapedText [b] = escapeByte b := List.append_nil _

theorem escapedText_succ (logContent : Nat → UInt8) (n : Nat) :
    escapedText (logBytes logContent (n + 1)) =
      escapedText (logBytes logContent n) ++ escapeByte (logContent n) := by
  rw [logBytes_succ, escapedText_append, escapedText_singleton]

theorem length_escapeByte (b : UInt8) :
    (escapeByte b).length = if jsonEscape b = none then 1 else 2 := by
  unfold escapeByte
  cases jsonEscape b with
  | none => rfl
  | some letter => rfl

/-- The number of bytes written for the first bytes of a log. -/
def escapedSize (logContent : Nat → UInt8) (n : Nat) : Nat :=
  (escapedText (logBytes logContent n)).length

theorem escapedSize_succ (logContent : Nat → UInt8) (n : Nat) :
    escapedSize logContent (n + 1) =
      escapedSize logContent n + if jsonEscape (logContent n) = none then 1 else 2 := by
  rw [escapedSize, escapedText_succ, List.length_append, length_escapeByte, escapedSize]

theorem escapedSize_mono (logContent : Nat → UInt8) {m n : Nat} (le : m ≤ n) :
    escapedSize logContent m ≤ escapedSize logContent n := by
  induction le with
  | refl => exact Nat.le_refl _
  | step le ih =>
    rw [escapedSize_succ]
    omega

/-! ## Strings -/

/-- A byte that may stand in a string, or is replaced. -/
def Printable (b : UInt8) : Prop := 32 ≤ b ∨ jsonEscape b ≠ none

theorem jsonEscape_eq_none {b : UInt8} (kept : jsonEscape b = none) : b ≠ quote ∧ b ≠ backslash := by
  constructor
  · rintro rfl
    revert kept
    decide
  · rintro rfl
    revert kept
    decide

/-- A letter behind a backslash stands for the byte that has been replaced. -/
theorem jsonEscape_eq_some {b letter : UInt8} (replaced : jsonEscape b = some letter) :
    letter ∈ [quote, backslash, 47, 98, 102, 110, 114, 116] ∧ Json.escaped letter = b := by
  unfold jsonEscape at replaced
  repeat' split at replaced
  all_goals cases replaced
  all_goals subst b
  all_goals decide

/-- The bytes of a log that may all stand in a string or are replaced are a string. -/
theorem exists_chars {bytes : List UInt8} (printable : ∀ b ∈ bytes, Printable b) :
    ∃ chars, charsText chars = escapedText bytes ∧ decode chars = bytes := by
  induction bytes with
  | nil => exact ⟨[], rfl, rfl⟩
  | cons b bytes ih =>
    obtain ⟨chars, text, decoded⟩ := ih fun c mem => printable c (List.mem_cons_of_mem _ mem)
    cases replaced : jsonEscape b with
    | none =>
      have bare : 32 ≤ b := (printable b List.mem_cons_self).resolve_right fun some => some replaced
      refine ⟨.plain b ⟨bare, jsonEscape_eq_none replaced⟩ :: chars, ?_, ?_⟩
      · rw [escapedText, List.flatMap_cons, escapeByte, replaced]
        exact congrArg (b :: ·) text
      · exact congrArg (b :: ·) decoded
    | some letter =>
      obtain ⟨short, stands⟩ := jsonEscape_eq_some replaced
      refine ⟨.escape letter short :: chars, ?_, ?_⟩
      · rw [escapedText, List.flatMap_cons, escapeByte, replaced]
        exact congrArg (fun rest => backslash :: letter :: rest) text
      · rw [decode, stands, decoded]

/-- No byte of a string is a control character. -/
theorem charsText_printable {chars : List StrChar} {b : UInt8} (mem : b ∈ charsText chars) :
    32 ≤ b := by
  obtain ⟨char, _, mem⟩ := List.mem_flatMap.mp mem
  cases char with
  | plain c valid =>
    rw [List.mem_singleton.mp mem]
    exact valid.1
  | escape c valid =>
    have bare : ∀ letter ∈ [quote, backslash, 47, 98, 102, 110, 114, 116], (32 : UInt8) ≤ letter := by
      intro letter mem
      fin_cases mem <;> decide
    rcases List.mem_pair.mp mem with rfl | rfl
    · decide
    · exact bare b valid
  | unicode h₁ h₂ h₃ h₄ =>
    have digit : ∀ d : Json.HexDigit, 32 ≤ d.byte := by
      intro d
      rcases d.valid with decimal | ⟨upper, _⟩ | ⟨lower, _⟩
      · rw [Json.isDigit, Bool.and_eq_true, decide_eq_true_eq] at decimal
        exact UInt8.le_trans (by decide) decimal.1
      · exact UInt8.le_trans (by decide) upper
      · exact UInt8.le_trans (by decide) lower
    simp only [StrChar.text, List.mem_cons, List.not_mem_nil, or_false] at mem
    rcases mem with rfl | rfl | rfl | rfl | rfl | rfl
    · decide
    · decide
    · exact digit h₁
    · exact digit h₂
    · exact digit h₃
    · exact digit h₄

/-- Only such bytes of a log are a string. -/
theorem printable_of_chars {bytes : List UInt8} {chars : List StrChar}
    (text : charsText chars = escapedText bytes) {b : UInt8} (mem : b ∈ bytes) : Printable b := by
  by_cases replaced : jsonEscape b = none
  · refine .inl (@charsText_printable chars b ?_)
    rw [text]
    refine List.mem_flatMap.mpr ⟨b, mem, ?_⟩
    rw [escapeByte, replaced]
    exact List.mem_singleton_self b
  · exact .inr replaced

/-- The text of a string that is appended is the escaped log. -/
theorem charsText_of_logEntry {bytes : List UInt8} {chars : List StrChar}
    (same : logEntry bytes = quote :: charsText chars ++ [quote, Json.comma, Json.space]) :
    charsText chars = escapedText bytes := by
  have inner : escapedText bytes ++ [quote, Json.comma, Json.space] =
      charsText chars ++ [quote, Json.comma, Json.space] := List.tail_eq_of_cons_eq same
  exact (List.append_cancel_right inner).symm

theorem utf8_ne_nil (code : Nat) : Json.utf8 code ≠ [] := by
  unfold Json.utf8
  split
  · exact List.cons_ne_nil _ _
  · split
    · exact List.cons_ne_nil _ _
    · split
      · exact List.cons_ne_nil _ _
      · exact List.cons_ne_nil _ _

/-- A string with a character stands for some byte. -/
theorem decode_ne_nil {chars : List StrChar} (some : chars ≠ []) : decode chars ≠ [] := by
  fun_cases decode chars with
  | case1 => exact absurd rfl some
  | case2 b _ chars => exact List.cons_ne_nil _ _
  | case3 b _ chars => exact List.cons_ne_nil _ _
  | case4 h₁ h₂ h₃ h₄ l₁ l₂ l₃ l₄ chars high low pair =>
    exact List.append_ne_nil_of_left_ne_nil (utf8_ne_nil _) _
  | case5 h₁ h₂ h₃ h₄ l₁ l₂ l₃ l₄ chars high low pair =>
    exact List.append_ne_nil_of_left_ne_nil (utf8_ne_nil _) _
  | case6 h₁ h₂ h₃ h₄ chars => exact List.append_ne_nil_of_left_ne_nil (utf8_ne_nil _) _

/-! ## The buffer -/

/-- The buffer holds bytes that have been written, and zero bytes behind them. -/
structure Uploader.Holds (uploader : Uploader) (written : List UInt8) : Prop where
  inside : written.length ≤ logUploadBufferSize
  buffer : uploader.logBuffer =
    written ++ List.replicate (logUploadBufferSize - written.length) 0
  index : uploader.writeIndex = written.length

namespace Uploader

variable {uploader : Uploader} {written : List UInt8}

theorem Holds.put (holds : uploader.Holds written) (room : written.length < logUploadBufferSize)
    (b : UInt8) : (uploader.put b).Holds (written ++ [b]) := by
  have length : (written ++ [b]).length = written.length + 1 := List.length_append
  obtain ⟨left, isLeft⟩ : ∃ left, logUploadBufferSize - written.length = left + 1 :=
    ⟨logUploadBufferSize - written.length - 1, by omega⟩
  have less : logUploadBufferSize - (written.length + 1) = left := by omega
  refine ⟨?_, ?_, ?_⟩
  · rw [length]
    exact room
  · show uploader.logBuffer.set uploader.writeIndex b = _
    rw [holds.buffer, holds.index, length, less, isLeft, List.replicate_succ,
      List.set_append_right _ _ (Nat.le_refl _), Nat.sub_self, List.set_cons_zero,
      List.append_assoc, List.singleton_append]
  · rw [length, ← holds.index]
    rfl

theorem Holds.putEscaped (holds : uploader.Holds written)
    (room : written.length + 1 < logUploadBufferSize) (b : UInt8) :
    (uploader.putEscaped b).Holds (written ++ escapeByte b) := by
  unfold Uploader.putEscaped escapeByte
  cases jsonEscape b with
  | none => exact holds.put (by omega) b
  | some letter =>
    have first := holds.put (by omega) backslash
    have second := first.put (by
      rw [List.length_append]
      exact room) letter
    rw [List.append_assoc] at second
    exact second

theorem Holds.take (holds : uploader.Holds written) :
    uploader.logBuffer.take uploader.writeIndex = written := by
  rw [holds.buffer, holds.index, List.take_left]

theorem Holds.drop (holds : uploader.Holds written) :
    uploader.logBuffer.drop uploader.writeIndex =
      List.replicate (logUploadBufferSize - uploader.writeIndex) 0 := by
  rw [holds.buffer, holds.index, List.drop_left]

theorem Holds.length (holds : uploader.Holds written) :
    uploader.logBuffer.length = logUploadBufferSize := by
  have inside := holds.inside
  rw [holds.buffer, List.length_append, List.length_replicate]
  omega

end Uploader

/-! ## The loop -/

/-- The loop copies `n` bytes when `size` bytes are in the buffer: for each of them five bytes are
    left, and behind them the limit is reached or fewer are left. -/
structure Copied (logContent : Nat → UInt8) (size limit n : Nat) : Prop where
  room : ∀ j < n, j < limit ∧ size + escapedSize logContent j + 5 ≤ logUploadBufferSize
  stops : limit ≤ n ∨ logUploadBufferSize < size + escapedSize logContent n + 5

namespace Uploader

variable {uploader : Uploader} {base : List UInt8} {logContent : Nat → UInt8} {limit index : Nat}

/-- The loop appends what it copies. Induction on the rounds of the loop. -/
theorem copyLoop_holds
    (room : ∀ j < index, j < limit ∧
      base.length + escapedSize logContent j + 5 ≤ logUploadBufferSize)
    (holds : uploader.Holds (base ++ escapedText (logBytes logContent index))) :
    ∃ n, (uploader.copyLoop logContent limit index).2 = n ∧
      Copied logContent base.length limit n ∧
      (uploader.copyLoop logContent limit index).1.Holds
        (base ++ escapedText (logBytes logContent n)) := by
  have length : (base ++ escapedText (logBytes logContent index)).length =
      base.length + escapedSize logContent index := List.length_append
  have atIndex : uploader.writeIndex = base.length + escapedSize logContent index :=
    holds.index.trans length
  fun_induction Uploader.copyLoop logContent limit index uploader with
  | case1 index uploader more full =>
    rw [atIndex] at full
    exact ⟨index, rfl, ⟨room, .inr full⟩, holds⟩
  | case2 index uploader more roomy ih =>
    have fits : base.length + escapedSize logContent index + 5 ≤ logUploadBufferSize := by
      rw [← atIndex]
      exact Nat.not_lt.mp roomy
    have next := holds.putEscaped (by omega) (logContent index)
    rw [List.append_assoc, ← escapedText_succ] at next
    refine ih ?_ next List.length_append (next.index.trans List.length_append)
    intro j below
    rcases Nat.lt_succ_iff_lt_or_eq.mp below with below | rfl
    · exact room j below
    · exact ⟨more, fits⟩
  | case3 index uploader done =>
    exact ⟨index, rfl, ⟨room, .inl (Nat.not_lt.mp done)⟩, holds⟩

/-- The index only grows. -/
theorem writeIndex_le_copyLoop (logContent : Nat → UInt8) (limit index : Nat)
    (uploader : Uploader) :
    uploader.writeIndex ≤ (uploader.copyLoop logContent limit index).1.writeIndex := by
  fun_induction Uploader.copyLoop logContent limit index uploader with
  | case1 index uploader more full => exact Nat.le_refl _
  | case2 index uploader more roomy ih =>
    exact (uploader.writeIndex_putEscaped_lt (logContent index)).le.trans ih
  | case3 index uploader done => exact Nat.le_refl _

theorem putEscaped_frame (uploader : Uploader) (b : UInt8) :
    (uploader.putEscaped b).initDone = uploader.initDone ∧
      (uploader.putEscaped b).headLen = uploader.headLen := by
  unfold Uploader.putEscaped
  cases jsonEscape b with
  | none => exact ⟨rfl, rfl⟩
  | some letter => exact ⟨rfl, rfl⟩

theorem copyLoop_frame (logContent : Nat → UInt8) (limit index : Nat) (uploader : Uploader) :
    (uploader.copyLoop logContent limit index).1.initDone = uploader.initDone ∧
      (uploader.copyLoop logContent limit index).1.headLen = uploader.headLen := by
  fun_induction Uploader.copyLoop logContent limit index uploader with
  | case1 index uploader more full => exact ⟨rfl, rfl⟩
  | case2 index uploader more roomy ih =>
    have frame := uploader.putEscaped_frame (logContent index)
    exact ⟨ih.1.trans frame.1, ih.2.trans frame.2⟩
  | case3 index uploader done => exact ⟨rfl, rfl⟩

end Uploader

/-! ## A call -/

/-- An initialised uploader: the logs are written behind the head, and a zero byte is left. -/
structure Uploader.Sound (uploader : Uploader) (written : List UInt8) : Prop where
  initDone : uploader.initDone = true
  holds : uploader.Holds written
  below : written.length < logUploadBufferSize
  head : uploader.headLen ≤ written.length

/-- The uploader takes the log. -/
def AppendCall.Accepted (call : AppendCall) (uploader : Uploader) : Prop :=
  call.logContent ≠ none ∧ call.logSize ≠ 0 ∧ call.unlocked = true ∧
    (uploader.writeIndex + call.logSize + 5) % 2 ^ 64 ≤ logUploadBufferSize

namespace Uploader

variable {uploader : Uploader} {written : List UInt8} {call : AppendCall}
  {logContent : Nat → UInt8}

theorem append_refused (refused : ¬ call.Accepted uploader) :
    uploader.appendToUploadBuffer call = ⟨uploader, -1, 0⟩ := by
  unfold Uploader.appendToUploadBuffer
  by_cases done : uploader.initDone = true
  · rw [if_neg (not_not.mpr done)]
    cases content : call.logContent with
    | none => rfl
    | some logContent =>
      dsimp only
      by_cases empty : call.logSize = 0
      · rw [if_pos empty]
      · rw [if_neg empty]
        by_cases unlocked : call.unlocked = true
        · rw [if_neg (not_not.mpr unlocked)]
          by_cases room : (uploader.writeIndex + call.logSize + 5) % 2 ^ 64 ≤ logUploadBufferSize
          · have some_ : call.logContent ≠ none := by
              rw [content]
              exact Option.some_ne_none _
            exact absurd ⟨some_, empty, unlocked, room⟩ refused
          · rw [if_pos (Nat.not_le.mp room)]
        · rw [if_pos unlocked]
  · rw [if_pos done]

theorem append_accepted (done : uploader.initDone = true) (content : call.logContent = some logContent)
    (accepted : call.Accepted uploader) :
    let copied := (uploader.put quote).copyLoop logContent (sizeSub call.logSize 2) 0
    uploader.appendToUploadBuffer call =
      ⟨((copied.1.put quote).put Json.comma).put Json.space, 0, copied.2⟩ := by
  obtain ⟨_, some_, unlocked, room⟩ := accepted
  unfold Uploader.appendToUploadBuffer
  rw [if_neg (not_not.mpr done), content]
  dsimp only
  rw [if_neg some_, if_neg (not_not.mpr unlocked), if_neg (Nat.not_lt.mpr room)]

/-- A log that is taken while five bytes are left is appended as far as it fits. -/
theorem append_holds (sound : uploader.Sound written) (content : call.logContent = some logContent)
    (accepted : call.Accepted uploader) (roomy : written.length + 5 ≤ logUploadBufferSize) :
    ∃ n, (uploader.appendToUploadBuffer call).index = n ∧
      (uploader.appendToUploadBuffer call).rc = 0 ∧
      Copied logContent (written.length + 1) (sizeSub call.logSize 2) n ∧
      written.length + 1 + escapedSize logContent n + 3 ≤ logUploadBufferSize ∧
      (uploader.appendToUploadBuffer call).uploader.Holds
        (written ++ logEntry (logBytes logContent n)) := by
  have size : logUploadBufferSize = 5000 := rfl
  have opened := sound.holds.put (by omega) quote
  have length : (written ++ [quote]).length = written.length + 1 := List.length_append
  obtain ⟨n, index, copied, holds⟩ := @copyLoop_holds (uploader.put quote) (written ++ [quote])
    logContent (sizeSub call.logSize 2) 0 (fun j below => absurd below (Nat.not_lt_zero j))
    ((List.append_nil (written ++ [quote])).symm ▸ opened)
  rw [length] at copied
  have total : (written ++ [quote] ++ escapedText (logBytes logContent n)).length =
      written.length + 1 + escapedSize logContent n := by
    rw [List.length_append, length, escapedSize]
  -- The last byte that is copied is written where five bytes are left, and takes at most two.
  have closes : written.length + 1 + escapedSize logContent n + 3 ≤ logUploadBufferSize := by
    cases n with
    | zero =>
      have none : escapedSize logContent 0 = 0 := rfl
      omega
    | succ n =>
      have last := (copied.room n (Nat.lt_succ_self n)).2
      rw [escapedSize_succ]
      split
      · omega
      · omega
  have first := holds.put (by omega) quote
  have second := first.put (by rw [List.length_append, List.length_singleton]; omega) Json.comma
  have third := second.put
    (by rw [List.length_append, List.length_append, List.length_singleton, List.length_singleton]
        omega) Json.space
  refine ⟨n, ?_, ?_, copied, closes, ?_⟩
  · rw [append_accepted sound.initDone content accepted]
    exact index
  · rw [append_accepted sound.initDone content accepted]
  · rw [append_accepted sound.initDone content accepted]
    have entry : written ++ [quote] ++ escapedText (logBytes logContent n) ++ [quote] ++
        [Json.comma] ++ [Json.space] = written ++ logEntry (logBytes logContent n) := by
      simp only [logEntry, List.append_assoc, List.cons_append, List.nil_append]
    rw [← entry]
    exact third

end Uploader

/-! ## A call that is safe -/

/-- The buffer has a zero byte behind what has been written. -/
structure Uploader.Terminated (uploader : Uploader) : Prop where
  length : uploader.logBuffer.length = logUploadBufferSize
  below : uploader.writeIndex < logUploadBufferSize
  zeros : uploader.logBuffer.drop uploader.writeIndex =
    List.replicate (logUploadBufferSize - uploader.writeIndex) 0

/-- A call reads no more than it is given and leaves a zero byte; if it returns zero, it has appended
    a string, which stands for a part of the log without its last two bytes, a comma and a blank. -/
structure AppendSafe (uploader : Uploader) (call : AppendCall) : Prop where
  reads : (uploader.appendToUploadBuffer call).index ≤ call.logSize
  terminated : (uploader.appendToUploadBuffer call).uploader.Terminated
  entry : (uploader.appendToUploadBuffer call).rc = 0 → ∃ logContent chars,
    call.logContent = some logContent ∧
    (uploader.appendToUploadBuffer call).uploader.logBuffer.take
        (uploader.appendToUploadBuffer call).uploader.writeIndex =
      uploader.logBuffer.take uploader.writeIndex ++ quote :: charsText chars ++
        [quote, Json.comma, Json.space] ∧
    decode chars <+: logBytes logContent (call.logSize - 2)

/-- The log has two bytes at least, five bytes are left in front of it, no byte that is replaced is
    met when exactly five are left, and no byte that is met before is a control character that is not
    replaced. -/
structure AppendCall.Fits (call : AppendCall) (uploader : Uploader) (logContent : Nat → UInt8) :
    Prop where
  whole : 2 ≤ call.logSize
  room : uploader.writeIndex + 5 ≤ logUploadBufferSize
  corner : ∀ k < call.logSize - 2,
    uploader.writeIndex + 1 + escapedSize logContent k + 5 = logUploadBufferSize →
      jsonEscape (logContent k) = none
  printable : ∀ k < call.logSize - 2,
    uploader.writeIndex + 1 + escapedSize logContent k + 5 ≤ logUploadBufferSize →
      Printable (logContent k)

section Call

variable {uploader : Uploader} {written : List UInt8} {call : AppendCall}
  {logContent : Nat → UInt8} {size limit n k : Nat}

theorem Uploader.Sound.terminated (sound : uploader.Sound written) : uploader.Terminated := by
  refine ⟨sound.holds.length, ?_, sound.holds.drop⟩
  rw [sound.holds.index]
  exact sound.below

/-- A byte is copied exactly if five bytes are left for it. -/
theorem Copied.lt_iff (copied : Copied logContent size limit n) :
    k < n ↔ k < limit ∧ size + escapedSize logContent k + 5 ≤ logUploadBufferSize := by
  constructor
  · exact copied.room k
  · rintro ⟨more, room⟩
    by_contra past
    have size_le := escapedSize_mono logContent (Nat.not_lt.mp past)
    rcases copied.stops with limit_le | full
    · omega
    · omega

/-- What is copied fills the buffer exactly if its last byte is replaced where five bytes are left. -/
theorem Copied.full_iff (copied : Copied logContent size limit n)
    (roomy : size + 4 ≤ logUploadBufferSize) :
    size + escapedSize logContent n + 3 = logUploadBufferSize ↔
      ∃ k < limit, size + escapedSize logContent k + 5 = logUploadBufferSize ∧
        jsonEscape (logContent k) ≠ none := by
  constructor
  · intro full
    cases n with
    | zero =>
      have none : escapedSize logContent 0 = 0 := rfl
      omega
    | succ n =>
      obtain ⟨more, room⟩ := copied.room n (Nat.lt_succ_self n)
      rw [escapedSize_succ] at full
      split at full
      · omega
      · next replaced => exact ⟨n, more, by omega, replaced⟩
  · rintro ⟨k, more, five, replaced⟩
    have copiedIt := copied.lt_iff.mpr ⟨more, five.le⟩
    have next : escapedSize logContent (k + 1) = escapedSize logContent k + 2 := by
      rw [escapedSize_succ, if_neg replaced]
    have last : ¬ k + 1 < n := by
      intro below
      have room := (copied.lt_iff.mp below).2
      omega
    have same : n = k + 1 := by omega
    rw [same, next]
    omega

/-- A log that is taken while fewer than five bytes are left is written behind the buffer or up to its
    end. -/
theorem append_unroomy (sound : uploader.Sound written) (content : call.logContent = some logContent)
    (accepted : call.Accepted uploader) (unroomy : ¬ uploader.writeIndex + 5 ≤ logUploadBufferSize) :
    ¬ AppendSafe uploader call := by
  intro safe
  have below := safe.terminated.below
  rw [Uploader.append_accepted sound.initDone content accepted] at below
  have grows := Uploader.writeIndex_le_copyLoop logContent (sizeSub call.logSize 2) 0
    (uploader.put quote)
  change uploader.writeIndex + 1 ≤ _ at grows
  change ((uploader.put quote).copyLoop logContent (sizeSub call.logSize 2) 0).1.writeIndex + 1 + 1
    + 1 < _ at below
  omega

/-- A log of one byte that is taken is read past its end, or appended although nothing is in front of
    its last two bytes. -/
theorem append_single (sound : uploader.Sound written) (content : call.logContent = some logContent)
    (accepted : call.Accepted uploader) (single : call.logSize = 1) :
    ¬ AppendSafe uploader call := by
  intro safe
  have size : logUploadBufferSize = 5000 := rfl
  have below := sound.below
  have index := sound.holds.index
  have room := accepted.2.2.2
  rw [single, Nat.mod_eq_of_lt (by omega)] at room
  obtain ⟨n, isIndex, success, copied, _, holds⟩ := Uploader.append_holds sound content accepted
    (by omega)
  have first : 0 < n := by
    have none : escapedSize logContent 0 = 0 := rfl
    refine copied.lt_iff.mpr ⟨?_, by omega⟩
    rw [single]
    decide
  have reads := safe.reads
  rw [isIndex, single] at reads
  have one : n = 1 := by omega
  obtain ⟨logContent', chars, same, text, decoded⟩ := safe.entry success
  cases content.symm.trans same
  rw [single] at decoded
  rw [holds.take, sound.holds.take, List.append_assoc] at text
  have inner := charsText_of_logEntry (List.append_cancel_left text)
  have nonempty : chars ≠ [] := by
    rintro rfl
    have empty : 0 = escapedSize logContent n := congrArg List.length inner
    rw [one, escapedSize_succ] at empty
    split at empty
    · omega
    · omega
  exact decode_ne_nil nonempty (List.prefix_nil.mp decoded)

/-- A log that is taken is appended safely exactly if it fits. -/
theorem append_safe_iff (sound : uploader.Sound written)
    (content : call.logContent = some logContent) (accepted : call.Accepted uploader) :
    AppendSafe uploader call ↔ call.Fits uploader logContent := by
  have size : logUploadBufferSize = 5000 := rfl
  have index := sound.holds.index
  by_cases roomy : uploader.writeIndex + 5 ≤ logUploadBufferSize
  · by_cases whole : 2 ≤ call.logSize
    · obtain ⟨n, isIndex, success, copied, closes, holds⟩ :=
        Uploader.append_holds sound content accepted (index ▸ roomy)
      rw [sizeSub_of_le whole, ← index] at copied
      have full := copied.full_iff (by omega)
      have n_le : n ≤ call.logSize - 2 := by
        cases n with
        | zero => exact Nat.zero_le _
        | succ n => exact (copied.room n (Nat.lt_succ_self n)).1
      have length : (written ++ logEntry (logBytes logContent n)).length =
          uploader.writeIndex + 1 + escapedSize logContent n + 3 := by
        rw [List.length_append, ← index, logEntry, List.length_append, List.length_cons,
          escapedSize]
        show _ + (_ + 1 + 3) = _
        omega
      constructor
      · intro safe
        refine ⟨whole, roomy, ?_, ?_⟩
        · intro k more five
          by_contra replaced
          have below := safe.terminated.below
          rw [holds.index, length, full.mpr ⟨k, more, five, replaced⟩] at below
          exact Nat.lt_irrefl _ below
        · intro k more room
          obtain ⟨logContent', chars, same, text, _⟩ := safe.entry success
          cases content.symm.trans same
          rw [holds.take, sound.holds.take, List.append_assoc] at text
          exact printable_of_chars (charsText_of_logEntry (List.append_cancel_left text))
            (mem_logBytes.mpr ⟨k, copied.lt_iff.mpr ⟨more, room⟩, rfl⟩)
      · intro fits
        have below : uploader.writeIndex + 1 + escapedSize logContent n + 3 <
            logUploadBufferSize := by
          refine lt_of_le_of_ne (by omega) ?_
          intro same
          obtain ⟨k, more, five, replaced⟩ := full.mp same
          exact replaced (fits.corner k more five)
        refine ⟨?_, ⟨holds.length, ?_, holds.drop⟩, ?_⟩
        · rw [isIndex]
          omega
        · rw [holds.index, length]
          exact below
        · intro _
          obtain ⟨chars, text, decoded⟩ := @exists_chars (logBytes logContent n) (by
            intro b mem
            obtain ⟨k, copiedIt, rfl⟩ := mem_logBytes.mp mem
            obtain ⟨more, room⟩ := copied.lt_iff.mp copiedIt
            exact fits.printable k more room)
          refine ⟨logContent, chars, content, ?_, ?_⟩
          · rw [holds.take, sound.holds.take, text, List.append_assoc]
            rfl
          · rw [decoded]
            exact logBytes_le logContent n_le
    · have single : call.logSize = 1 := by
        have some_ := accepted.2.1
        omega
      constructor
      · intro safe
        exact absurd safe (append_single sound content accepted single)
      · intro fits
        exact absurd fits.whole whole
  · constructor
    · intro safe
      exact absurd safe (append_unroomy sound content accepted roomy)
    · intro fits
      exact absurd fits.room roomy

end Call

/-! ## Runs -/

/-- What a call has to keep. -/
def BufferCall.Safe (uploader : Uploader) : BufferCall → Prop
  | .append call => AppendSafe uploader call
  | .clear => uploader.clearUploadBuffer.Terminated

/-- A log that is taken fits. -/
def BufferCall.Fits (uploader : Uploader) : BufferCall → Prop
  | .append call => call.Accepted uploader →
    ∀ logContent, call.logContent = some logContent → call.Fits uploader logContent
  | .clear => True

section Runs

variable {uploader : Uploader} {written : List UInt8} {call : BufferCall}

/-- A reset leaves the head. -/
theorem resetLogBuffer_sound (done : uploader.initDone = true)
    (length : uploader.headLen ≤ uploader.logBuffer.length)
    (head : uploader.headLen < logUploadBufferSize) :
    uploader.resetLogBuffer.Sound (uploader.logBuffer.take uploader.headLen) := by
  have front : (uploader.logBuffer.take uploader.headLen).length = uploader.headLen := by
    rw [List.length_take]
    omega
  refine ⟨done, ⟨?_, ?_, front.symm⟩, ?_, front.ge⟩
  · rw [front]
    exact head.le
  · rw [front]
    rfl
  · rw [front]
    exact head

theorem length_cString_append (front behind : List UInt8) :
    (cString (front ++ 0 :: behind)).length ≤ front.length := by
  induction front with
  | nil => exact Nat.le_refl _
  | cons b front ih =>
    rw [cString, List.cons_append, List.takeWhile_cons]
    split
    · exact Nat.succ_le_succ ih
    · exact Nat.zero_le _

/-- An uploader that has been initialised is sound. -/
theorem initLogUploader_sound {initParams : Option LogUploadInitParams} {env : InitEnv}
    (initialised : initLogUploader initParams env = .ok uploader) :
    ∃ written, uploader.Sound written := by
  unfold initLogUploader at initialised
  split at initialised
  · next productId deviceName signKey =>
    split at initialised
    · cases initialised
    · split at initialised
      · cases initialised
      · next memory _ =>
        dsimp only at initialised
        split at initialised
        · cases initialised
        · cases initialised
          refine ⟨_, resetLogBuffer_sound rfl (List.takeWhile_prefix _).length_le ?_⟩
          have head := (length_cString_append
            ((logHead deviceName productId).take (logUploadBufferSize - 1))
            ((memory.takeD logUploadBufferSize 0).drop
              ((logHead deviceName productId).take (logUploadBufferSize - 1) ++ [0]).length)).trans
            (List.length_take_le _ _)
          rw [List.append_cons] at head
          exact Nat.lt_of_le_of_lt head (by decide)
  · cases initialised

theorem Uploader.append_frame (uploader : Uploader) (call : AppendCall) :
    (uploader.appendToUploadBuffer call).uploader.initDone = uploader.initDone ∧
      (uploader.appendToUploadBuffer call).uploader.headLen = uploader.headLen ∧
      uploader.writeIndex ≤ (uploader.appendToUploadBuffer call).uploader.writeIndex := by
  by_cases accepted : call.Accepted uploader ∧ uploader.initDone = true
  · obtain ⟨accepted, done⟩ := accepted
    obtain ⟨logContent, content⟩ := Option.ne_none_iff_exists'.mp accepted.1
    rw [Uploader.append_accepted done content accepted]
    have frame := Uploader.copyLoop_frame logContent (sizeSub call.logSize 2) 0 (uploader.put quote)
    have grows := Uploader.writeIndex_le_copyLoop logContent (sizeSub call.logSize 2) 0
      (uploader.put quote)
    change uploader.writeIndex + 1 ≤ _ at grows
    refine ⟨frame.1, frame.2, ?_⟩
    show _ ≤ _ + 1 + 1 + 1
    omega
  · have unchanged : (uploader.appendToUploadBuffer call).uploader = uploader := by
      by_cases taken : call.Accepted uploader
      · unfold Uploader.appendToUploadBuffer
        rw [if_pos fun done => accepted ⟨taken, done⟩]
      · rw [Uploader.append_refused taken]
    rw [unchanged]
    exact ⟨rfl, rfl, Nat.le_refl _⟩

theorem safe_iff_fits (sound : uploader.Sound written) :
    call.Safe uploader ↔ call.Fits uploader := by
  cases call with
  | append call =>
    by_cases accepted : call.Accepted uploader
    · obtain ⟨logContent, content⟩ := Option.ne_none_iff_exists'.mp accepted.1
      refine (append_safe_iff sound content accepted).trans ⟨?_, fun fits => fits accepted _ content⟩
      intro fits _ logContent' same
      cases content.symm.trans same
      exact fits
    · constructor
      · intro _ taken
        exact absurd taken accepted
      · intro _
        have refused := Uploader.append_refused accepted
        refine ⟨?_, ?_, ?_⟩
        · rw [refused]
          exact Nat.zero_le _
        · rw [refused]
          exact sound.terminated
        · rw [refused]
          intro success
          cases success
  | clear =>
    refine ⟨fun _ => trivial, fun _ => ?_⟩
    show uploader.clearUploadBuffer.Terminated
    unfold Uploader.clearUploadBuffer
    rw [if_neg (not_not.mpr sound.initDone)]
    have head := sound.head
    have below := sound.below
    refine (resetLogBuffer_sound sound.initDone ?_ (by omega)).terminated
    rw [sound.holds.length]
    omega

theorem step_sound (safe : call.Safe uploader) (sound : ∃ written, uploader.Sound written) :
    ∃ written, (uploaderMachine.step uploader call).Sound written := by
  obtain ⟨written, sound⟩ := sound
  have head := sound.head
  have below := sound.below
  cases call with
  | append call =>
    obtain ⟨done, headLen, grows⟩ := uploader.append_frame call
    have terminated := safe.terminated
    have length : ((uploader.appendToUploadBuffer call).uploader.logBuffer.take
        (uploader.appendToUploadBuffer call).uploader.writeIndex).length =
          (uploader.appendToUploadBuffer call).uploader.writeIndex := by
      have index := terminated.below
      rw [List.length_take, terminated.length]
      omega
    refine ⟨_, done.trans sound.initDone, ⟨?_, ?_, length.symm⟩, ?_, ?_⟩
    · rw [length]
      exact terminated.below.le
    · rw [length, ← terminated.zeros]
      exact (List.take_append_drop _ _).symm
    · rw [length]
      exact terminated.below
    · rw [length]
      refine headLen.le.trans (head.trans ?_)
      rw [← sound.holds.index]
      exact grows
  | clear =>
    refine ⟨uploader.logBuffer.take uploader.headLen, ?_⟩
    show uploader.clearUploadBuffer.Sound _
    unfold Uploader.clearUploadBuffer
    rw [if_neg (not_not.mpr sound.initDone)]
    refine resetLogBuffer_sound sound.initDone ?_ (by omega)
    rw [sound.holds.length]
    omega

/-- From an initialised uploader on every call is safe exactly if every log that is taken fits. -/
theorem appendRun_safe_iff {initParams : Option LogUploadInitParams} {env : InitEnv}
    (initialised : initLogUploader initParams env = .ok uploader) (calls : List BufferCall) :
    uploaderMachine.Guarded BufferCall.Safe uploader calls ↔
      uploaderMachine.Guarded BufferCall.Fits uploader calls := by
  refine Machine.guarded_congr (I := fun uploader => ∃ written, uploader.Sound written) ?_ ?_
    (initLogUploader_sound initialised) calls
  · rintro uploader call ⟨written, sound⟩
    exact safe_iff_fits sound
  · intro uploader call safe sound
    exact step_sound safe sound

end Runs

/-- The parameters of a device `d` of the product `p`. -/
def initParamsOne : LogUploadInitParams := ⟨some [112], some [100], some [107]⟩

/-- An uploader with the head of this device. -/
def uploaderOne : Uploader :=
  Uploader.resetLogBuffer ⟨true, printHead [] (logHead [100] [112]), 59, 59⟩

theorem initLogUploader_one :
    initLogUploader (some initParamsOne) ⟨some [], true⟩ = .ok uploaderOne := by
  have length : (cString (printHead [] (logHead [100] [112]))).length = 59 := by
    with_unfolding_all decide
  unfold initLogUploader initParamsOne uploaderOne
  dsimp only
  rw [length]
  rfl

/-- A short log fits. -/
theorem appendRun_safe_one :
    uploaderMachine.Guarded BufferCall.Safe uploaderOne
      [.append ⟨some fun i => [97, 10, 13, 10].getD i 0, 4, by decide, true⟩] := by
  refine (appendRun_safe_iff initLogUploader_one _).mpr ⟨?_, trivial⟩
  rintro _ _ ⟨⟩
  refine ⟨by decide, by decide, ?_, ?_⟩
  · intro k below
    change k < 2 at below
    interval_cases k <;> decide
  · intro k below
    change k < 2 at below
    interval_cases k
    · exact fun _ => .inl (by decide)
    · exact fun _ => .inr (by decide)

/-- One letter and then quotes only. -/
def quotesLog (i : Nat) : UInt8 := if i = 0 then 97 else 34

theorem escapedSize_quotesLog (n : Nat) : escapedSize quotesLog (n + 1) = 2 * n + 1 := by
  induction n with
  | zero => decide
  | succ n ih =>
    have replaced : jsonEscape (quotesLog (n + 1)) ≠ none := by
      rw [quotesLog, if_neg (Nat.succ_ne_zero n)]
      decide
    rw [escapedSize_succ, ih, if_neg replaced]
    omega

/-- The last quote that is copied takes the last two of five bytes: no zero byte is left. -/
theorem quotesLog_unsafe :
    ¬ uploaderMachine.Guarded BufferCall.Safe uploaderOne
      [.append ⟨some quotesLog, 2471, by decide, true⟩] := by
  rintro ⟨safe, _⟩
  obtain ⟨written, sound⟩ := initLogUploader_sound initLogUploader_one
  have index : uploaderOne.writeIndex = 59 := rfl
  have fits := (safe_iff_fits sound).mp safe ⟨Option.some_ne_none _, by decide, rfl, by decide⟩
    quotesLog rfl
  have kept := fits.corner 2468 (by decide) (by rw [index, escapedSize_quotesLog])
  revert kept
  decide

end QcloudIot.Log
