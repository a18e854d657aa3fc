import QcloudIot.Log.Posting
import QcloudIot.Log.Proofs.Append
import QcloudIot.Misc.Delimited

/-!
# What a posting leaves

A fragment ends behind the last delimiter below the limit, and there is none where no delimiter
reaches the limit: so something is always left, and the loop never returns success. The buffer holds
the head and what has not been sent as long as every post succeeds; a failed one leaves the end
characters at its cut.
-/

namespace QcloudIot.Log

open QcloudIot.Mqtt (qcloudErrInval qcloudErrFailure)
open QcloudIot.Ota (utf8)

/-! ## Where a fragment ends -/

/-- The end of the next fragment: the last delimiter below the limit, if another one reaches it. -/
def cutOf (text : List UInt8) : Option Nat :=
  cutBelow maxHttpLogPostSize 0 (delimiterEnds logDelimiter 0 (cString text))

section Cut

variable {text front behind mem : List UInt8} {c headLen : Nat}

theorem delimiterEnds_logDelimiter {start distance : Nat}
    (found : strstr logDelimiter text = some distance) :
    delimiterEnds logDelimiter start text = (start + distance + 3) ::
      delimiterEnds logDelimiter (start + distance + 3) (text.drop (distance + 3)) :=
  delimiterEnds_of_strstr (by decide) found

/-- The loop computes the cut: the test for the end of the log is made only inside the head. -/
theorem locateDelimiter_eq (solid : ∀ i < headLen, mem[i]? ≠ some 0) (possibleSize uploadSize : Nat)
    (inside : possibleSize ≤ (cString mem).length) :
    locateDelimiter mem headLen possibleSize uploadSize =
      if possibleSize < maxHttpLogPostSize then
        match cutBelow maxHttpLogPostSize possibleSize
          (delimiterEnds logDelimiter possibleSize ((cString mem).drop possibleSize)) with
        | none => .error qcloudErrInval
        | some cut => .ok cut
      else .ok uploadSize := by
  fun_induction locateDelimiter mem headLen possibleSize uploadSize with
  | case1 possibleSize uploadSize below missing =>
    rw [cString_drop inside] at missing
    rw [if_pos below, delimiterEnds_of_strstr_none missing]
    rfl
  | case2 possibleSize uploadSize below distance found next ends =>
    exact absurd ends.1 (solid next ends.2)
  | case3 possibleSize uploadSize below distance found next more ih =>
    rw [cString_drop inside] at found
    have within : distance + 3 ≤ ((cString mem).drop possibleSize).length :=
      strstr_within (List.cons_ne_nil _ _) found
    rw [List.length_drop] at within
    have isNext : possibleSize + distance + 3 = next := rfl
    have drop : possibleSize + (distance + 3) = next := by omega
    rw [if_pos below, delimiterEnds_logDelimiter found, List.drop_drop, isNext, drop, cutBelow]
    rw [ih (by omega)]
    split <;> rfl
  | case4 possibleSize uploadSize reached => rw [if_neg reached]

/-- A cut lies behind a delimiter, and another one that reaches the limit follows it. -/
theorem cutOf_spec (found : cutOf text = some c) :
    (c = 0 ∨ 3 ≤ c ∧ logDelimiter <+: (cString text).drop (c - 3)) ∧
      c + 3 ≤ (cString text).length := by
  have spread := @delimiterEnds_pairwise _ _ (34 : UInt8) [44, 32] (by decide) 0 (cString text)
  obtain ⟨isEnd, e, mem, _, room⟩ := cutBelow_spec spread found
  have inside : ∀ e ∈ delimiterEnds logDelimiter 0 (cString text),
      3 ≤ e ∧ e ≤ (cString text).length ∧ logDelimiter <+: (cString text).drop (e - 3) := by
    intro e mem
    obtain ⟨i, isPlace, occurs⟩ := exists_of_mem_delimiterEnds mem
    have width : logDelimiter.length = 3 := rfl
    have fits := occurs.length_le
    rw [List.length_drop] at fits
    have place : e - 3 = i := by omega
    refine ⟨by omega, by omega, ?_⟩
    rw [place]
    exact occurs
  change c + 3 ≤ e at room
  refine ⟨?_, room.trans (inside e mem).2.1⟩
  rcases isEnd with rfl | isEnd
  · exact .inl rfl
  · exact .inr ⟨(inside c isEnd).1, (inside c isEnd).2.2⟩

/-- What follows a text changes nothing if a zero byte comes first, or the text reaches the limit with
    a delimiter. -/
theorem cutOf_append (closed : (∃ later, behind = 0 :: later) ∨
    maxHttpLogPostSize ≤ text.length ∧ ∃ front, text = front ++ logDelimiter) :
    cutOf (text ++ behind) = cutOf text := by
  by_cases nul : 0 ∈ text
  · rw [cutOf, cString_append_of_mem nul, cutOf]
  · rcases closed with ⟨later, rfl⟩ | ⟨long, front, isText⟩
    · rw [cutOf, cString_append_nul, cutOf]
    · obtain ⟨later, ends⟩ := delimiterEnds_append logDelimiter text (cString behind) 0
      have whole : cString text = text := by
        have alone := cString_append nul []
        rw [List.append_nil] at alone
        exact alone.trans (List.append_nil text)
      have mem := @length_mem_delimiterEnds _ _ _ 0 (List.cons_ne_nil (34 : UInt8) [44, 32]) front
      rw [← isText, Nat.zero_add] at mem
      obtain ⟨cut, found⟩ := @exists_cutBelow _ _ 0 _ mem long
      rw [cutOf, cString_append nul, ends, cutBelow_append found, cutOf, whole, found]

end Cut

/-! ## One turn -/

section Endchars

variable {buf : List UInt8} {size n i : Nat} {b : UInt8}

theorem length_appendEndchar (buf : List UInt8) (size : Nat) :
    (appendEndcharToUploadBuffer buf size).length = buf.length := by
  rw [appendEndcharToUploadBuffer, List.length_set, List.length_set]

theorem drop_appendEndchar (positive : 0 < size) (behind : size ≤ n) :
    (appendEndcharToUploadBuffer buf size).drop n = buf.drop n := by
  rw [appendEndcharToUploadBuffer, List.drop_set_of_lt (by omega), List.drop_set_of_lt (by omega)]

theorem take_appendEndchar (before : n + 2 ≤ size) :
    (appendEndcharToUploadBuffer buf size).take n = buf.take n := by
  rw [appendEndcharToUploadBuffer, List.take_set_of_le (by omega), List.take_set_of_le (by omega)]

theorem getElem?_appendEndchar_ge (positive : 0 < size) (behind : size ≤ i) :
    (appendEndcharToUploadBuffer buf size)[i]? = buf[i]? := by
  rw [appendEndcharToUploadBuffer, List.getElem?_set_ne (by omega), List.getElem?_set_ne (by omega)]

/-- Every byte but the end characters was there before. -/
theorem getElem?_of_appendEndchar (not93 : b ≠ 93) (not125 : b ≠ 125)
    (found : (appendEndcharToUploadBuffer buf size)[i]? = some b) : buf[i]? = some b := by
  rw [appendEndcharToUploadBuffer, List.getElem?_set, List.getElem?_set] at found
  split at found
  · split at found
    · exact absurd (Option.some.inj found).symm not125
    · cases found
  · split at found
    · split at found
      · exact absurd (Option.some.inj found).symm not93
      · cases found
    · exact found

theorem set_of_getElem? (found : buf[i]? = some b) : buf.set i b = buf := by
  obtain ⟨inside, rfl⟩ := List.getElem?_eq_some_iff.mp found
  exact List.set_getElem_self inside

/-- A comma and a blank that are there already. -/
theorem removeEndchar_of_there (comma : buf[size - 2]? = some 44) (blank : buf[size - 1]? = some 32) :
    removeEndcharFromUploadBuffer buf size = buf := by
  rw [removeEndcharFromUploadBuffer, set_of_getElem? comma, set_of_getElem? blank]

end Endchars

/-- The bytes that are left take the place behind the head, and zero bytes follow up to the first
    size. -/
theorem moved_eq {buf left : List UInt8} {headLen orig : Nat} (room : headLen + left.length ≤ orig)
    (inside : orig ≤ buf.length) :
    overwrite (overwrite buf headLen left) (headLen + left.length)
        (List.replicate (orig - (headLen + left.length)) 0) =
      buf.take headLen ++ (left ++ (List.replicate (orig - (headLen + left.length)) 0 ++
        buf.drop orig)) := by
  have headSize : (buf.take headLen).length = headLen := by
    rw [List.length_take]
    omega
  have midSize : left.length = ((buf.drop headLen).take left.length).length := by
    rw [List.length_take, List.length_drop]
    omega
  have first := overwrite_append (buf.take headLen) ((buf.drop headLen).take left.length)
    ((buf.drop headLen).drop left.length) midSize
  rw [List.take_append_drop, List.take_append_drop, headSize, List.drop_drop] at first
  have frontSize : (buf.take headLen ++ left).length = headLen + left.length := by
    rw [List.length_append, headSize]
  have zeroSize : (List.replicate (orig - (headLen + left.length)) (0 : UInt8)).length =
      ((buf.drop (headLen + left.length)).take (orig - (headLen + left.length))).length := by
    rw [List.length_replicate, List.length_take, List.length_drop]
    omega
  have second := overwrite_append (buf.take headLen ++ left)
    ((buf.drop (headLen + left.length)).take (orig - (headLen + left.length)))
    ((buf.drop (headLen + left.length)).drop (orig - (headLen + left.length))) zeroSize
  have whole : headLen + left.length + (orig - (headLen + left.length)) = orig := by omega
  rw [List.take_append_drop, frontSize, List.drop_drop, whole, List.append_assoc,
    List.append_assoc] at second
  rw [first, second]

/-- A posting that goes on. The bytes up to `post_size` end with a delimiter, and once something has
    been sent a zero byte follows them. -/
structure Transfer.Running (transfer : Transfer) (headLen origPostSize : Nat) : Prop where
  long : maxHttpLogPostSize ≤ origPostSize
  inside : origPostSize ≤ transfer.postBuf.length
  some_ : headLen < transfer.postSize
  size : transfer.postSize ≤ origPostSize
  solid : ∀ i < headLen, transfer.postBuf[i]? ≠ some 0
  ends : ∃ front, transfer.postBuf.take transfer.postSize = front ++ logDelimiter
  closed : transfer.postSize < origPostSize → transfer.postBuf[transfer.postSize]? = some 0

namespace Transfer

variable {transfer after : Transfer} {post : Nat → Int} {headLen orig turns c i : Nat} {ret rc : Int}

/-- What is still to be sent, with the head. -/
def text (transfer : Transfer) : List UInt8 := transfer.postBuf.take transfer.postSize

namespace Running

variable (running : transfer.Running headLen orig)

include running

theorem length_text : transfer.text.length = transfer.postSize := by
  have inside := running.inside
  have size := running.size
  rw [text, List.length_take]
  omega

theorem three_le : 3 ≤ transfer.postSize := by
  obtain ⟨front, ends⟩ := running.ends
  have length := running.length_text
  rw [text, ends, List.length_append] at length
  change _ + 3 = _ at length
  omega

/-- The delimiter at the end. -/
theorem getElem?_end (near : i < 3) :
    transfer.postBuf[transfer.postSize - 3 + i]? = logDelimiter[i]? := by
  obtain ⟨front, ends⟩ := running.ends
  have length := running.length_text
  have three := running.three_le
  rw [text, ends, List.length_append] at length
  change _ + 3 = _ at length
  have place : front.length = transfer.postSize - 3 := by omega
  rw [← List.getElem?_take_of_lt (show transfer.postSize - 3 + i < transfer.postSize by omega), ends,
    List.getElem?_append_right (by omega)]
  congr 1
  omega

theorem locate : locateDelimiter transfer.postBuf headLen 0 0 =
    match cutOf transfer.text with
    | none => .error qcloudErrInval
    | some cut => .ok cut := by
  have whole : cutOf transfer.postBuf = cutOf transfer.text := by
    conv_lhs => rw [← List.take_append_drop transfer.postSize transfer.postBuf]
    refine cutOf_append ?_
    rcases Nat.lt_or_eq_of_le running.size with less | same
    · obtain ⟨inside, nul⟩ := List.getElem?_eq_some_iff.mp (running.closed less)
      have first := List.drop_eq_getElem_cons inside
      rw [nul] at first
      exact .inl ⟨_, first⟩
    · have length := running.length_text
      rw [text] at length
      exact .inr ⟨by rw [length, same]; exact running.long, running.ends⟩
  rw [locateDelimiter_eq running.solid 0 0 (Nat.zero_le _), if_pos (by decide), List.drop_zero,
    ← whole, cutOf]

/-- The cut is behind a delimiter, and in front of the last one. -/
theorem cut (found : cutOf transfer.text = some c) (positive : c ≠ 0) :
    3 ≤ c ∧ c + 3 ≤ transfer.postSize ∧ logDelimiter <+: transfer.text.drop (c - 3) := by
  obtain ⟨isEnd, room⟩ := cutOf_spec found
  obtain ⟨three, occurs⟩ := isEnd.resolve_left positive
  refine ⟨three, ?_, ?_⟩
  · rw [← running.length_text]
    exact room.trans (length_cString_le _)
  · exact occurs.trans ((List.takeWhile_prefix _).drop (c - 3))

/-- After a post the end characters are at its end: the comma and the blank that are written at
    `post_size` are there already. -/
theorem postOne_eq (three : 3 ≤ c) (room : c + 3 ≤ transfer.postSize) :
    transfer.postOne c ret =
      { transfer with
        postBuf := appendEndcharToUploadBuffer transfer.postBuf c
        posts := transfer.posts ++ [((appendEndcharToUploadBuffer transfer.postBuf c).take c, ret)]
            } := by
  have comma : (appendEndcharToUploadBuffer transfer.postBuf c)[transfer.postSize - 2]? = some 44 := by
    have place : transfer.postSize - 2 = transfer.postSize - 3 + 1 := by omega
    rw [getElem?_appendEndchar_ge (by omega) (by omega), place, running.getElem?_end (by omega)]
    rfl
  have blank : (appendEndcharToUploadBuffer transfer.postBuf c)[transfer.postSize - 1]? = some 32 := by
    have place : transfer.postSize - 1 = transfer.postSize - 3 + 2 := by omega
    rw [getElem?_appendEndchar_ge (by omega) (by omega), place, running.getElem?_end (by omega)]
    rfl
  rw [Transfer.postOne, removeEndchar_of_there comma blank]

/-- After a post that succeeds what is left is moved to the head, as it is then. -/
theorem moveForward_eq (three : 3 ≤ c) (room : c + 3 ≤ transfer.postSize)
    (fits : transfer.postSize + headLen - c ≤ orig) :
    (transfer.postOne c ret).moveForward headLen orig c =
      { postBuf := (appendEndcharToUploadBuffer transfer.postBuf c).take headLen ++
          (transfer.text.drop c ++
            (List.replicate (orig - (transfer.postSize + headLen - c)) 0 ++
              transfer.postBuf.drop orig))
        postSize := transfer.postSize + headLen - c
        actualPostPayload := transfer.actualPostPayload + c - headLen
        posts := transfer.posts ++
          [((appendEndcharToUploadBuffer transfer.postBuf c).take c, ret)] } := by
  have size := running.size
  have left : ((appendEndcharToUploadBuffer transfer.postBuf c).drop c).take
      (transfer.postSize - c) = transfer.text.drop c := by
    rw [drop_appendEndchar (by omega) (Nat.le_refl c), text, List.drop_take]
  have leftSize : (transfer.text.drop c).length = transfer.postSize - c := by
    rw [List.length_drop, running.length_text]
  have newSize : headLen + (transfer.text.drop c).length = transfer.postSize + headLen - c := by
    omega
  have moved := @moved_eq (appendEndcharToUploadBuffer transfer.postBuf c) (transfer.text.drop c)
    headLen orig (by omega) (by rw [length_appendEndchar]; exact running.inside)
  rw [newSize, drop_appendEndchar (by omega) (by omega)] at moved
  rw [running.postOne_eq three room, moveForward]
  dsimp only
  rw [left, moved]

/-- The posting goes on. -/
theorem moveForward (three : 3 ≤ c) (room : c + 3 ≤ transfer.postSize)
    (fits : transfer.postSize + headLen - c ≤ orig) :
    ((transfer.postOne c ret).moveForward headLen orig c).Running headLen orig := by
  have inside := running.inside
  have size := running.size
  have headSize : ((appendEndcharToUploadBuffer transfer.postBuf c).take headLen).length =
      headLen := by
    have some_ := running.some_
    rw [List.length_take, length_appendEndchar]
    omega
  have leftSize : (transfer.text.drop c).length = transfer.postSize - c := by
    rw [List.length_drop, running.length_text]
  have newSize : ((appendEndcharToUploadBuffer transfer.postBuf c).take headLen ++
      transfer.text.drop c).length = transfer.postSize + headLen - c := by
    rw [List.length_append, headSize, leftSize]
    omega
  rw [running.moveForward_eq three room fits]
  refine ⟨running.long, ?_, ?_, fits, ?_, ?_, ?_⟩
  · rw [← List.append_assoc, List.length_append, newSize, List.length_append,
      List.length_replicate, List.length_drop]
    omega
  · show headLen < transfer.postSize + headLen - c
    omega
  · intro i below nul
    rw [List.getElem?_append_left (by omega), List.getElem?_take_of_lt below] at nul
    exact running.solid i below (getElem?_of_appendEndchar (by decide) (by decide) nul)
  · obtain ⟨front, ends⟩ := running.ends
    have frontSize : c ≤ front.length := by
      have length := running.length_text
      rw [text, ends, List.length_append] at length
      change _ + 3 = _ at length
      omega
    refine ⟨(appendEndcharToUploadBuffer transfer.postBuf c).take headLen ++ front.drop c, ?_⟩
    show List.take (transfer.postSize + headLen - c) _ = _
    rw [← newSize, ← List.append_assoc, List.take_left, text, ends,
      List.drop_append_of_le_length frontSize, List.append_assoc]
  · intro less
    show (_ : List UInt8)[transfer.postSize + headLen - c]? = _
    change transfer.postSize + headLen - c < orig at less
    obtain ⟨zeros, isZeros⟩ : ∃ zeros, orig - (transfer.postSize + headLen - c) = zeros + 1 :=
      ⟨orig - (transfer.postSize + headLen - c) - 1, by omega⟩
    rw [← List.append_assoc, List.getElem?_append_right newSize.le, newSize, Nat.sub_self, isZeros]
    rfl

/-- What a turn does: it stops where there is no cut or an empty one, or where the post fails, or it
    goes on with what is left. -/
theorem fragmentLoop_succ (turns : Nat) :
    fragmentLoop post headLen orig (turns + 1) transfer =
      match cutOf transfer.text with
      | none => some (qcloudErrInval, transfer)
      | some c =>
        if c = 0 then some (qcloudErrFailure, transfer)
        else if post transfer.posts.length ≠ 0 then
          some (qcloudErrFailure, transfer.postOne c (post transfer.posts.length))
        else if orig < transfer.postSize + headLen - c then none
        else
          fragmentLoop post headLen orig turns
            ((transfer.postOne c 0).moveForward headLen orig c) := by
  rw [fragmentLoop, running.locate]
  cases found : cutOf transfer.text with
  | none => rfl
  | some c =>
    dsimp only
    by_cases empty : c = 0
    · rw [if_pos empty, if_pos empty]
    · rw [if_neg empty, if_neg empty]
      by_cases succeeded : post transfer.posts.length = 0
      · obtain ⟨three, room, _⟩ := running.cut found empty
        have size : (transfer.postOne c 0).postSize = transfer.postSize := by
          rw [running.postOne_eq three room]
        have before : ¬ transfer.postSize < c := by omega
        rw [if_neg (not_not.mpr succeeded), if_neg (not_not.mpr succeeded), succeeded, size]
        by_cases beyond : orig < transfer.postSize + headLen - c
        · rw [if_pos (.inr beyond), if_pos beyond]
        · have moved := @moveForward _ _ _ _ 0 running three room (Nat.not_lt.mp beyond)
          rw [if_neg (not_or.mpr ⟨before, beyond⟩), if_neg beyond, if_pos moved.some_]
      · rw [if_pos succeeded, if_pos succeeded]

/-- How the loop may have ended. -/
theorem turn (result : fragmentLoop post headLen orig turns transfer = some (rc, after)) :
    (cutOf transfer.text = none ∧ rc = qcloudErrInval ∧ after = transfer) ∨
    (cutOf transfer.text = some 0 ∧ rc = qcloudErrFailure ∧ after = transfer) ∨
    ∃ c, cutOf transfer.text = some c ∧ c ≠ 0 ∧
      ((post transfer.posts.length ≠ 0 ∧ rc = qcloudErrFailure ∧
          after = transfer.postOne c (post transfer.posts.length)) ∨
        (post transfer.posts.length = 0 ∧ transfer.postSize + headLen - c ≤ orig ∧
          ∃ turns', turns = turns' + 1 ∧
            fragmentLoop post headLen orig turns'
              ((transfer.postOne c 0).moveForward headLen orig c) = some (rc, after))) := by
  cases turns with
  | zero => cases result
  | succ turns =>
    rw [running.fragmentLoop_succ] at result
    split at result
    · next found =>
      cases result
      exact .inl ⟨found, rfl, rfl⟩
    · next c found =>
      split at result
      · next empty =>
        cases result
        exact .inr (.inl ⟨by rw [found, empty], rfl, rfl⟩)
      · next some_ =>
        refine .inr (.inr ⟨c, found, some_, ?_⟩)
        split at result
        · next failed =>
          cases result
          exact .inl ⟨failed, rfl, rfl⟩
        · next succeeded =>
          split at result
          · cases result
          · next fits =>
            exact .inr ⟨not_not.mp succeeded, Nat.not_lt.mp fits, turns, rfl, result⟩

/-- The loop never returns success. -/
theorem rc_ne_zero (result : fragmentLoop post headLen orig turns transfer = some (rc, after)) :
    rc ≠ 0 := by
  induction turns generalizing transfer with
  | zero => cases result
  | succ turns ih =>
    rcases running.turn result with ⟨_, rfl, _⟩ | ⟨_, rfl, _⟩ | ⟨c, found, some_, stops⟩
    · decide
    · decide
    · rcases stops with ⟨_, rfl, _⟩ | ⟨_, fits, turns', same, result⟩
      · decide
      · cases same
        obtain ⟨three, room, _⟩ := running.cut found some_
        exact ih (running.moveForward three room fits) result

/-- A comma of the head that is lost stays lost. -/
theorem head_stays (below : i < headLen) (lost : transfer.postBuf[i]? ≠ some 44)
    (result : fragmentLoop post headLen orig turns transfer = some (rc, after)) :
    after.postBuf[i]? ≠ some 44 := by
  induction turns generalizing transfer with
  | zero => cases result
  | succ turns ih =>
    rcases running.turn result with ⟨_, _, rfl⟩ | ⟨_, _, rfl⟩ | ⟨c, found, some_, stops⟩
    · exact lost
    · exact lost
    · obtain ⟨three, room, _⟩ := running.cut found some_
      have ended : (appendEndcharToUploadBuffer transfer.postBuf c)[i]? ≠ some 44 := fun comma =>
        lost (getElem?_of_appendEndchar (by decide) (by decide) comma)
      rcases stops with ⟨_, _, rfl⟩ | ⟨_, fits, turns', same, result⟩
      · rw [running.postOne_eq three room]
        exact ended
      · cases same
        refine ih (running.moveForward three room fits) ?_ result
        have headSize : i < ((appendEndcharToUploadBuffer transfer.postBuf c).take headLen).length
            := by
          have some_ := running.some_
          have size := running.size
          have inside := running.inside
          rw [List.length_take, length_appendEndchar]
          omega
        rw [running.moveForward_eq three room fits]
        rw [List.getElem?_append_left headSize, List.getElem?_take_of_lt below]
        exact ended

end Running

end Transfer

end QcloudIot.Log
