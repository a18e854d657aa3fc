import QcloudIot.Network.AtSession
import QcloudIot.Network.Proofs.Esp8266

/-!
# Answers and their commands

The parser counts the lines of an answer and the bytes of the response in variables that are reset
only when the answer ends. A command finds exactly the lines of its answer as long as no command gives
up in the middle of one.
-/

namespace QcloudIot.Network

/-! ## An answer -/

/-- A line as it is stored. -/
def storedLine (line : List UInt8) : List UInt8 := line.dropLast ++ [0]

/-- The line ends an answer of so many lines. -/
def Closes (lineNum count : Nat) (line : List UInt8) : Prop :=
  (atRespEndOk.isPrefixOf (storedLine line) ∧ lineNum = 0) ∨
    (strstr atRespEndError (cString (storedLine line))).isSome ∨
    atRespEndFail.isPrefixOf (storedLine line) ∨ (count = lineNum ∧ lineNum ≠ 0)

instance (lineNum count : Nat) (line : List UInt8) : Decidable (Closes lineNum count line) :=
  inferInstanceAs (Decidable (_ ∨ _ ∨ _ ∨ _))

/-- The lines up to the one that ends the answer, when so many have come before. -/
def answerOf (lineNum : Nat) : Nat → List (List UInt8) → Option (List (List UInt8))
  | _, [] => none
  | before, line :: lines =>
    if Closes lineNum (before + 1) line then some [line]
    else (answerOf lineNum (before + 1) lines).map (line :: ·)

/-- The response holds the lines: `at_resp_get_line` finds each of them, and no other one. -/
def FoundIn (resp : AtResponse) (lines : List (List UInt8)) : Prop :=
  resp.lineCounts = lines.length ∧
    ∀ i line, lines[i]? = some line → atRespGetLine resp (i + 1) = some line.dropLast

namespace AtSession

/-- What a step has to keep: a command that returns success finds its answer in its response, and what
    is written for a line fits into the response. -/
def Right (s : AtSession) : SessionStep → Prop
  | .wake => s.phase = .waiting → 0 < s.client.respSem → s.client.respStatus = .ok →
      ∃ answer, answerOf s.client.response.lineNum 0 s.since = some answer ∧
        FoundIn s.client.response answer
  | .line line allocated =>
    (s.client.takeLine line allocated).response.buf ≠ s.client.response.buf →
      s.client.respBufLen + line.length ≤ s.client.response.buf.length
  | _ => True

/-- No line gets between a command and its setting up or its giving up, a command gives up only when
    no line of its answer has come, and every line of an answer fits into the response and has no zero
    byte. -/
def Clean (s : AtSession) : SessionStep → Prop
  | .send => s.phase = .prepared → s.since = []
  | .line line _ => getUrcObj line = none → s.client.resp = true →
      s.phase ≠ .gaveUp ∧ 0 ∉ line.dropLast ∧
        s.client.respBufLen + line.length < s.client.response.buf.length
  | .timeOut => s.phase = .waiting → s.client.respSem = 0 → s.since = []
  | _ => True

instance : ∀ (s : AtSession) (step : SessionStep), Decidable (s.Clean step)
  | _, .prepare _ => .isTrue trivial
  | s, .send => inferInstanceAs (Decidable (s.phase = .prepared → s.since = []))
  | s, .line line _ => inferInstanceAs (Decidable (getUrcObj line = none → s.client.resp = true → _))
  | _, .wake => .isTrue trivial
  | s, .timeOut =>
    inferInstanceAs (Decidable (s.phase = .waiting → s.client.respSem = 0 → s.since = []))
  | _, .leave => .isTrue trivial

end AtSession

section Answers

variable {lineNum before : Nat} {lines answer : List (List UInt8)} {line : List UInt8}

/-- What follows the end of an answer is not part of it. -/
theorem answerOf_append (found : answerOf lineNum before lines = some answer)
    (later : List (List UInt8)) : answerOf lineNum before (lines ++ later) = some answer := by
  induction lines generalizing before answer with
  | nil => cases found
  | cons line lines ih =>
    rw [answerOf] at found
    rw [List.cons_append, answerOf]
    split at found
    · next closes =>
      rw [if_pos closes]
      exact found
    · next goes =>
      obtain ⟨rest, isRest, rfl⟩ := Option.map_eq_some_iff.mp found
      rw [if_neg goes, ih isRest, Option.map_some]

/-- A line behind lines that do not end the answer ends it or not. -/
theorem answerOf_concat (none_ : answerOf lineNum before lines = none) (line : List UInt8) :
    answerOf lineNum before (lines ++ [line]) =
      if Closes lineNum (before + lines.length + 1) line then some (lines ++ [line]) else none := by
  induction lines generalizing before with
  | nil =>
    rw [List.nil_append, answerOf, answerOf]
    rfl
  | cons first lines ih =>
    rw [answerOf] at none_
    split at none_
    · cases none_
    · next goes =>
      have count : before + 1 + lines.length + 1 = before + (first :: lines).length + 1 := by
        rw [List.length_cons]
        omega
      rw [List.cons_append, answerOf, if_neg goes, ih (Option.map_eq_none_iff.mp none_), count]
      split <;> rfl

/-- The texts of the lines, one behind the other. -/
def storedLines (lines : List (List UInt8)) : List UInt8 := (lines.map storedLine).flatten

theorem storedLines_concat (lines : List (List UInt8)) (line : List UInt8) :
    storedLines (lines ++ [line]) = storedLines lines ++ storedLine line := by
  rw [storedLines, List.map_append, List.flatten_append, storedLines, List.map_singleton,
    List.flatten_singleton]

theorem length_storedLine (some_ : line ≠ []) : (storedLine line).length = line.length := by
  have positive := List.length_pos_iff.mpr some_
  rw [storedLine, List.length_append, List.length_dropLast, List.length_singleton]
  omega

/-- Behind the first texts the next one is found. -/
theorem cString_skipLines {rest : List UInt8} {i : Nat} (noNul : ∀ line ∈ lines, 0 ∉ line.dropLast)
    (isLine : lines[i]? = some line) :
    cString (skipLines i (storedLines lines ++ rest)) = line.dropLast := by
  induction lines generalizing i with
  | nil => cases isLine
  | cons first lines ih =>
    have shape : storedLines (first :: lines) ++ rest =
        first.dropLast ++ 0 :: (storedLines lines ++ rest) := by
      rw [storedLines, List.map_cons, List.flatten_cons, storedLine, List.append_assoc,
        List.append_assoc, storedLines]
      rfl
    have text := cString_nul (noNul first List.mem_cons_self) (storedLines lines ++ rest)
    rw [shape]
    cases i with
    | zero =>
      cases isLine
      exact text
    | succ i =>
      rw [skipLines, text, ← List.drop_drop, List.drop_left]
      exact ih (fun line mem => noNul line (List.mem_cons_of_mem _ mem)) isLine

/-- A response whose buffer begins with the texts holds the lines. -/
theorem foundIn_of_stored {resp : AtResponse} {rest : List UInt8}
    (noNul : ∀ line ∈ lines, 0 ∉ line.dropLast) (buf : resp.buf = storedLines lines ++ rest)
    (counts : resp.lineCounts = lines.length) : FoundIn resp lines := by
  refine ⟨counts, ?_⟩
  intro i line isLine
  have inside := (List.getElem?_eq_some_iff.mp isLine).1
  rw [atRespGetLine, if_neg (by omega), buf, Nat.add_sub_cancel,
    cString_skipLines noNul isLine]

end Answers

/-! ## What the parser has -/

/-- Nothing is expected, and nothing is left of an answer. -/
structure Rests (c : AtClient) : Prop where
  resp : c.resp = false
  respSem : c.respSem = 0
  respBufLen : c.respBufLen = 0
  lineCounts : c.lineCounts = 0

/-- The lines of an answer that goes on are in the response. -/
structure Collects (c : AtClient) (since : List (List UInt8)) : Prop where
  resp : c.resp = true
  respSem : c.respSem = 0
  respStatus : c.respStatus = .ok
  lineCounts : c.lineCounts = since.length
  respBufLen : c.respBufLen = (storedLines since).length
  stored : ∃ rest, c.response.buf = storedLines since ++ rest
  noNul : ∀ line ∈ since, 0 ∉ line.dropLast
  goes : answerOf c.response.lineNum 0 since = none

/-- An answer has ended, and the semaphore is posted for it. -/
structure Answered (c : AtClient) (since : List (List UInt8)) : Prop where
  resp : c.resp = false
  respSem : c.respSem = 1
  respBufLen : c.respBufLen = 0
  lineCounts : c.lineCounts = 0
  answer : ∃ answer, answerOf c.response.lineNum 0 since = some answer ∧ FoundIn c.response answer

section Parser

variable {c : AtClient} {since : List (List UInt8)} {line : List UInt8} {response : AtResponse}

theorem beginCmd_collects (rests : Rests c) (response : AtResponse) :
    Collects (c.beginCmd response) [] where
  resp := rfl
  respSem := rests.respSem
  respStatus := rfl
  lineCounts := rests.lineCounts
  respBufLen := rests.respBufLen
  stored := ⟨response.buf, rfl⟩
  noNul := fun _ mem => absurd mem List.not_mem_nil
  goes := rfl

/-- A line that fits is stored behind the others. -/
theorem copyLine_stored {rest : List UInt8} (len : c.respBufLen = (storedLines since).length)
    (buf : c.response.buf = storedLines since ++ rest) (some_ : line ≠ [])
    (fits : c.respBufLen + line.length < c.response.buf.length) :
    c.copyLine (storedLine line) =
      { c with
        response := { c.response with
          buf := storedLines (since ++ [line]) ++ rest.drop line.length }
        respBufLen := (storedLines (since ++ [line])).length
        lineCounts := c.lineCounts + 1 } := by
  have size := length_storedLine some_
  rw [buf, List.length_append, len] at fits
  have room : line.length ≤ rest.length := by omega
  have written := overwrite_append (storedLines since) (rest.take line.length)
    (rest.drop line.length) (show (storedLine line).length = (rest.take line.length).length by
      rw [size, List.length_take]
      omega)
  rw [List.take_append_drop] at written
  have short : (storedLines since).length + line.length <
      (storedLines since).length + rest.length := by omega
  rw [AtClient.copyLine, size, buf, len, List.length_append, if_pos short, written,
    storedLines_concat, List.length_append, size, List.append_assoc]

/-- A line of an answer is copied, and the answer goes on or ends. -/
theorem respond_cases (mode : c.endSign = 0) (line : List UInt8) :
    (¬ Closes (c.copyLine (storedLine line)).response.lineNum
          (c.copyLine (storedLine line)).lineCounts line ∧
        c.respond line = c.copyLine (storedLine line)) ∨
      (Closes (c.copyLine (storedLine line)).response.lineNum
          (c.copyLine (storedLine line)).lineCounts line ∧
        ∃ status, c.respond line =
          AtClient.finish { c.copyLine (storedLine line) with respStatus := status }) := by
  rw [AtClient.respond, if_neg (not_not.mpr mode), Closes, storedLine]
  dsimp only
  split
  · next ok => exact .inr ⟨.inl ok, _, rfl⟩
  · next notOk =>
    split
    · next error => exact .inr ⟨.inr (or_assoc.mp (.inl error)), _, rfl⟩
    · next notError =>
      split
      · next counted => exact .inr ⟨.inr (.inr (.inr counted)), _, rfl⟩
      · next goes =>
        refine .inl ⟨?_, rfl⟩
        rintro (ok | error | fail | counted)
        · exact notOk ok
        · exact notError (.inl error)
        · exact notError (.inr fail)
        · exact goes counted

/-- A line that is no URC is taken into the answer, which goes on or ends with it. -/
theorem takeLine_collects (collects : Collects c since) (mode : c.endSign = 0) (some_ : line ≠ [])
    (noUrc : getUrcObj line = none) (noNul : 0 ∉ line.dropLast)
    (fits : c.respBufLen + line.length < c.response.buf.length) (allocated : Bool) :
    Collects (c.takeLine line allocated) (since ++ [line]) ∨
      Answered (c.takeLine line allocated) (since ++ [line]) := by
  obtain ⟨rest, buf⟩ := collects.stored
  have copied := copyLine_stored collects.respBufLen buf some_ fits
  have noNuls : ∀ l ∈ since ++ [line], 0 ∉ l.dropLast := by
    intro l mem
    rcases List.mem_append.mp mem with before | last
    · exact collects.noNul l before
    · rw [List.mem_singleton.mp last]
      exact noNul
  have ends := answerOf_concat collects.goes line
  rw [Nat.zero_add] at ends
  have counts : c.lineCounts + 1 = (since ++ [line]).length := by
    rw [collects.lineCounts, List.length_append]
    rfl
  have found : FoundIn ⟨storedLines (since ++ [line]) ++ rest.drop line.length, c.response.lineNum,
      c.lineCounts + 1⟩ (since ++ [line]) := foundIn_of_stored noNuls rfl counts
  have taken : c.takeLine line allocated = c.respond line := by
    rw [AtClient.takeLine, noUrc]
    exact if_pos collects.resp
  have lineNum : (c.copyLine (storedLine line)).response.lineNum = c.response.lineNum := by
    rw [copied]
  have lineCounts : (c.copyLine (storedLine line)).lineCounts = since.length + 1 := by
    rw [copied, ← collects.lineCounts]
  have cases_ := respond_cases mode line
  rw [lineNum, lineCounts, ← taken] at cases_
  rcases cases_ with ⟨goes, same⟩ | ⟨closes, status, same⟩
  · rw [if_neg goes] at ends
    rw [same, copied]
    exact .inl ⟨collects.resp, collects.respSem, collects.respStatus, counts, rfl, ⟨_, rfl⟩, noNuls,
      ends⟩
  · rw [if_pos closes] at ends
    rw [same, copied]
    exact .inr ⟨rfl, congrArg (· + 1) collects.respSem, rfl, rfl, _, ends, found⟩

/-- A URC only raises a flag, or leaves bytes to be received. -/
theorem takeLine_urc {urc : AtUrc} (isUrc : getUrcObj line = some urc) (allocated : Bool) :
    ∃ flags receives, c.takeLine line allocated =
      { c with flags := flags, receives := receives } := by
  rw [AtClient.takeLine, isUrc]
  dsimp only
  unfold AtClient.callUrc
  cases urc.func with
  | send => exact ⟨_, _, rfl⟩
  | recv => exact ⟨_, _, rfl⟩
  | other => exact ⟨_, _, rfl⟩

/-- A line that nobody waits for is dropped. -/
theorem takeLine_unexpected (noUrc : getUrcObj line = none) (alone : c.resp = false)
    (allocated : Bool) : c.takeLine line allocated = c := by
  rw [AtClient.takeLine, noUrc]
  dsimp only
  rw [alone]
  exact if_neg Bool.false_ne_true

/-- What is written for a line fits into the response. -/
theorem takeLine_fits {allocated : Bool}
    (written : (c.takeLine line allocated).response.buf ≠ c.response.buf) :
    c.respBufLen + line.length ≤ c.response.buf.length := by
  by_contra long
  refine written ?_
  have size : line.length ≤ (storedLine line).length := by
    rw [storedLine, List.length_append, List.length_dropLast, List.length_singleton]
    omega
  have copied : (c.copyLine (storedLine line)).response.buf = c.response.buf := by
    rw [AtClient.copyLine, if_neg (by omega)]
  cases isUrc : getUrcObj line with
  | some urc =>
    obtain ⟨flags, receives, same⟩ := @takeLine_urc c line urc isUrc allocated
    rw [same]
  | none =>
    cases expected : c.resp with
    | false => rw [takeLine_unexpected isUrc expected]
    | true =>
      have taken : c.takeLine line allocated = c.respond line := by
        rw [AtClient.takeLine, isUrc]
        exact if_pos expected
      rw [taken]
      by_cases mode : c.endSign = 0
      · rcases respond_cases mode line with ⟨_, same⟩ | ⟨_, status, same⟩
        · rw [same, copied]
        · rw [same]
          exact copied
      · rw [AtClient.respond, if_pos mode]
        split <;> rfl

end Parser

/-! ## Runs -/

/-- Between its commands the client has nothing of an answer; a command that waits has the lines of its
    answer so far, or the answer has ended. -/
structure AtSession.Kept (s : AtSession) : Prop where
  endSign : s.client.endSign = 0
  idle : s.phase = .idle → Rests s.client
  prepared : s.phase = .prepared → s.since = [] → Collects s.client []
  waiting : s.phase = .waiting → Collects s.client s.since ∨ Answered s.client s.since
  gaveUp : s.phase = .gaveUp → s.since = [] ∧ Collects s.client []

namespace AtSession

variable {s : AtSession} {step : SessionStep}

theorem kept_initial : initial.Kept where
  endSign := rfl
  idle := fun _ => ⟨rfl, rfl, rfl, rfl⟩
  prepared := nofun
  waiting := nofun
  gaveUp := nofun

/-- Lines keep the invariant. -/
theorem Kept.line (kept : s.Kept) {line : List UInt8} {allocated : Bool}
    (clean : s.Clean (.line line allocated)) : (s.after (.line line allocated)).Kept := by
  unfold AtSession.after
  dsimp only
  by_cases empty : line = []
  · rw [if_pos empty]
    exact kept
  rw [if_neg empty]
  have endSign := (s.client.takeLine_endSign line allocated).trans kept.endSign
  cases isUrc : getUrcObj line with
  | some urc =>
    obtain ⟨flags, receives, same⟩ := @takeLine_urc s.client line urc isUrc allocated
    rw [if_neg (Option.some_ne_none urc), same]
    refine ⟨kept.endSign, ?_, ?_, ?_, ?_⟩
    · intro idle
      have rests := kept.idle idle
      exact ⟨rests.resp, rests.respSem, rests.respBufLen, rests.lineCounts⟩
    · intro prepared none_
      have collects := kept.prepared prepared none_
      exact ⟨collects.resp, collects.respSem, collects.respStatus, collects.lineCounts,
        collects.respBufLen, collects.stored, collects.noNul, collects.goes⟩
    · intro waiting
      rcases kept.waiting waiting with collects | answered
      · exact .inl ⟨collects.resp, collects.respSem, collects.respStatus, collects.lineCounts,
          collects.respBufLen, collects.stored, collects.noNul, collects.goes⟩
      · exact .inr ⟨answered.resp, answered.respSem, answered.respBufLen, answered.lineCounts,
          answered.answer⟩
    · intro gaveUp
      obtain ⟨none_, collects⟩ := kept.gaveUp gaveUp
      exact ⟨none_, collects.resp, collects.respSem, collects.respStatus, collects.lineCounts,
        collects.respBufLen, collects.stored, collects.noNul, collects.goes⟩
  | none =>
    rw [if_pos rfl]
    have grows : s.since ++ [line] ≠ [] := List.append_ne_nil_of_right_ne_nil _ (List.cons_ne_nil _ _)
    refine ⟨endSign, ?_, ?_, ?_, ?_⟩
    · intro idle
      have rests := kept.idle idle
      show Rests (s.client.takeLine line allocated)
      rw [takeLine_unexpected isUrc rests.resp]
      exact rests
    · intro _ none_
      exact absurd none_ grows
    · intro waiting
      show Collects (s.client.takeLine line allocated) _ ∨ Answered (s.client.takeLine line
          allocated) _
      rcases kept.waiting waiting with collects | answered
      · obtain ⟨_, noNul, fits⟩ := clean isUrc collects.resp
        exact takeLine_collects collects kept.endSign empty isUrc noNul fits allocated
      · rw [takeLine_unexpected isUrc answered.resp]
        obtain ⟨answer, isAnswer, found⟩ := answered.answer
        exact .inr ⟨answered.resp, answered.respSem, answered.respBufLen, answered.lineCounts,
          answer, answerOf_append isAnswer [line], found⟩
    · intro gaveUp
      exact absurd gaveUp (clean isUrc (kept.gaveUp gaveUp).2.resp).1

theorem Kept.after (kept : s.Kept) (clean : s.Clean step) : (s.after step).Kept := by
  cases step with
  | line line allocated => exact kept.line clean
  | prepare response =>
    unfold AtSession.after
    dsimp only
    split
    · next idle =>
      exact ⟨kept.endSign, nofun, fun _ _ => beginCmd_collects (kept.idle idle) response, nofun,
        nofun⟩
    · exact kept
  | send =>
    unfold AtSession.after
    dsimp only
    split
    · next prepared =>
      exact ⟨kept.endSign, nofun, nofun, fun _ => .inl (kept.prepared prepared (clean prepared)),
        nofun⟩
    · exact kept
  | wake =>
    unfold AtSession.after
    dsimp only
    split
    · next woken =>
      refine ⟨kept.endSign, fun _ => ?_, nofun, nofun, nofun⟩
      rcases kept.waiting woken.1 with collects | answered
      · exact absurd collects.respSem (Nat.ne_of_gt woken.2)
      · exact ⟨rfl, congrArg (· - 1) answered.respSem, answered.respBufLen, answered.lineCounts⟩
    · exact kept
  | timeOut =>
    unfold AtSession.after
    dsimp only
    split
    · next late =>
      have none_ := clean late.1 late.2
      refine ⟨kept.endSign, nofun, nofun, nofun, fun _ => ⟨none_, ?_⟩⟩
      rcases kept.waiting late.1 with collects | answered
      · rw [none_] at collects
        exact collects
      · rw [answered.respSem] at late
        cases late.2
    · exact kept
  | leave =>
    unfold AtSession.after
    dsimp only
    split
    · next gaveUp =>
      have collects := (kept.gaveUp gaveUp).2
      exact ⟨kept.endSign, fun _ => ⟨rfl, collects.respSem, collects.respBufLen,
        collects.lineCounts⟩, nofun, nofun, nofun⟩
    · exact kept

/-- Where the invariant holds a step is right. -/
theorem Kept.right (kept : s.Kept) : s.Right step := by
  cases step with
  | wake =>
    intro waiting posted _
    rcases kept.waiting waiting with collects | answered
    · exact absurd collects.respSem (Nat.ne_of_gt posted)
    · exact answered.answer
  | line line allocated => exact takeLine_fits
  | prepare response => trivial
  | send => trivial
  | timeOut => trivial
  | leave => trivial

/-- A clean run gives every command its own answer. -/
theorem guarded_right {steps : List SessionStep} (clean : atSession.Guarded Clean initial steps) :
    atSession.Guarded Right initial steps := by
  rw [Machine.guarded_iff_at]
  intro n step _
  exact (clean.invariant_take kept_initial (fun s step clean kept => kept.after clean) n).right

end AtSession

/-- **Where every step is clean, a command that succeeds finds exactly the lines of its answer, and
    nothing is written behind a response.** -/
theorem atRun_answers (steps : List SessionStep)
    (clean : atSession.Guarded AtSession.Clean .initial steps) :
    atSession.Guarded AtSession.Right .initial steps :=
  AtSession.guarded_right clean

/-- A response of so many lines with a buffer of 32 bytes. -/
def responseOf (lineNum : Nat) : AtResponse := ⟨List.replicate 32 0, lineNum, 0⟩

/-- `1` and `2` with their line ends. -/
def lineOne : List UInt8 := [49, 13, 10]
def lineTwo : List UInt8 := [50, 13, 10]

theorem atRun_answers_one : atSession.Guarded AtSession.Right .initial
    [.prepare (responseOf 1), .send, .line lineOne true, .wake] :=
  atRun_answers _ (by decide)

/-- A command gives up after the first of two lines, and the next one is answered with one line. -/
def lateLines : List SessionStep :=
  [.prepare (responseOf 2), .send, .line lineOne true, .timeOut, .leave,
    .prepare (responseOf 2), .send, .line lineTwo true]

/-- The next command succeeds with two lines, of which only one came after it. -/
theorem lateLines_mixed : ¬ atSession.Guarded AtSession.Right .initial (lateLines ++ [.wake]) := by
  intro right
  have woken := (Machine.guarded_concat.mp right).2
  obtain ⟨answer, isAnswer, _⟩ := woken (by decide) (by decide) (by decide)
  have none_ : answerOf (atSession.exec .initial lateLines).client.response.lineNum 0
      (atSession.exec .initial lateLines).since = none := by decide
  cases none_.symm.trans isAnswer

end QcloudIot.Network
