import QcloudIot.Log.Proofs.Posting

/-!
# What has been sent and what is held

When a posting loses no log, and when its failure leaves exactly the logs in the buffer that no
successful post had.
-/

namespace QcloudIot.Log

open QcloudIot.Mqtt (qcloudErrInval qcloudErrFailure)
open QcloudIot.Ota (utf8)

/-- The logs as they are appended. -/
def appendedLogs (logs : List (List UInt8)) : List UInt8 := (logs.map logEntry).flatten

/-- The text of a post: the end characters in the place of the last comma and blank. -/
def closedText (text : List UInt8) : List UInt8 := text.take (text.length - 2) ++ [93, 125]

/-- The logs in the successful posts, with a comma and a blank at the end of each again. -/
def sentLogs (headLen : Nat) (posts : List (List UInt8 × Int)) : List UInt8 :=
  posts.flatMap fun (text, ret) =>
    if ret = 0 then (removeEndcharFromUploadBuffer text text.length).drop headLen else []

theorem sentLogs_append (headLen : Nat) (posts later : List (List UInt8 × Int)) :
    sentLogs headLen (posts ++ later) = sentLogs headLen posts ++ sentLogs headLen later :=
  List.flatMap_append

/-- The transfer when so many bytes of the logs have been sent, and nothing is spoiled. -/
def heldTransfer (head body rest : List UInt8) (sent : Nat) (posts : List (List UInt8 × Int)) :
    Transfer where
  postBuf := head ++ (body.drop sent ++ (List.replicate sent 0 ++ rest))
  postSize := head.length + (body.length - sent)
  actualPostPayload := sent
  posts := posts

/-- Every post succeeds, and none ends inside the head, until there is no cut any more or an empty one:
    from the number of posts and the bytes sent before to the bytes sent then. -/
inductive Ships (post : Nat → Int) (head body : List UInt8) : Nat → Nat → Nat → Prop
  | stop {k sent : Nat} (stops : cutOf (head ++ body.drop sent) = none ∨
      cutOf (head ++ body.drop sent) = some 0) : Ships post head body k sent sent
  | post {k sent c last : Nat} (found : cutOf (head ++ body.drop sent) = some c)
      (behind : head.length ≤ c) (succeeds : post k = 0)
      (later : Ships post head body (k + 1) (sent + (c - head.length)) last) :
      Ships post head body k sent last

/-! ## The end characters -/

section Endchars

variable {buf : List UInt8} {c : Nat}

theorem removeEndchar_appendEndchar (two : 2 ≤ c) (comma : buf[c - 2]? = some 44)
    (blank : buf[c - 1]? = some 32) :
    removeEndcharFromUploadBuffer (appendEndcharToUploadBuffer buf c) c = buf := by
  have other : c - 2 ≠ c - 1 := by omega
  rw [appendEndcharToUploadBuffer, removeEndcharFromUploadBuffer, List.set_comm 93 125 other,
    List.set_set, List.set_comm 125 44 other.symm, List.set_set, set_of_getElem? comma,
    set_of_getElem? blank]

/-- What has been posted, with the comma and the blank again. -/
theorem removeEndchar_take (two : 2 ≤ c) (inside : c ≤ buf.length) (comma : buf[c - 2]? = some 44)
    (blank : buf[c - 1]? = some 32) :
    removeEndcharFromUploadBuffer ((appendEndcharToUploadBuffer buf c).take c)
      ((appendEndcharToUploadBuffer buf c).take c).length = buf.take c := by
  have length : ((appendEndcharToUploadBuffer buf c).take c).length = c := by
    rw [List.length_take, length_appendEndchar]
    omega
  rw [length]
  conv_rhs => rw [← removeEndchar_appendEndchar two comma blank]
  rw [removeEndcharFromUploadBuffer, removeEndcharFromUploadBuffer, List.take_set, List.take_set]

theorem take_appendEndchar_self (text behind : List UInt8) (two : 2 ≤ text.length) :
    (appendEndcharToUploadBuffer (text ++ behind) text.length).take text.length =
      closedText text := by
  obtain ⟨front, a, b, rfl⟩ : ∃ front a b, text = front ++ [a, b] := by
    refine ⟨text.take (text.length - 2), text[text.length - 2], text[text.length - 1], ?_⟩
    conv_lhs => rw [← List.take_append_drop (text.length - 2) text]
    have last : text.length - 2 + 1 = text.length - 1 := by omega
    have whole : text.length - 1 + 1 = text.length := by omega
    rw [List.drop_eq_getElem_cons (by omega), List.drop_eq_getElem_cons (by omega)]
    simp only [last, whole, List.drop_length]
  have size : (front ++ [a, b]).length = front.length + 2 := List.length_append
  have first : front.length + 2 - 2 = front.length := rfl
  have second : front.length + 2 - 1 = front.length + 1 := rfl
  rw [closedText, size, first, List.take_left, appendEndcharToUploadBuffer, first, second,
    List.append_assoc, List.set_append_right _ _ (Nat.le_refl _), Nat.sub_self,
    List.set_append_right _ _ (Nat.le_succ _), Nat.succ_sub (Nat.le_refl _), Nat.sub_self]
  show List.take (front.length + 2) (front ++ ([93, 125] ++ behind)) = _
  have size' : (front ++ [93, 125]).length = front.length + 2 := List.length_append
  rw [← List.append_assoc, ← size', List.take_left]

end Endchars

/-! ## The head and the logs -/

theorem notMem_cString (mem : List UInt8) : 0 ∉ cString mem := by
  intro nul
  have char := List.mem_takeWhile_imp nul
  exact absurd rfl (of_decide_eq_true char)

theorem notMem_logHead (deviceName productId : List UInt8) : 0 ∉ logHead deviceName productId := by
  rw [logHead]
  simp only [List.mem_append, not_or]
  refine ⟨⟨⟨⟨?_, notMem_cString _⟩, ?_⟩, notMem_cString _⟩, ?_⟩ <;> with_unfolding_all decide

theorem exists_logHead (deviceName productId : List UInt8) :
    ∃ front, logHead deviceName productId = front ++ [91] := by
  refine ⟨utf8 "\x7b\"DeviceName\":\"" ++ cString deviceName ++
    utf8 "\",\"Level\":\"ERR\",\"ProductId\":\"" ++ cString productId ++ utf8 "\",\"Message\":", ?_⟩
  have message : utf8 "\",\"Message\":[" = utf8 "\",\"Message\":" ++ [91] := by
    with_unfolding_all decide
  rw [logHead, message, ← List.append_assoc]

theorem appendedLogs_append (logs later : List (List UInt8)) :
    appendedLogs (logs ++ later) = appendedLogs logs ++ appendedLogs later := by
  rw [appendedLogs, List.map_append, List.flatten_append, appendedLogs, appendedLogs]

/-- The logs end with a delimiter. -/
theorem exists_appendedLogs {logs : List (List UInt8)} (some_ : logs ≠ []) :
    ∃ front, appendedLogs logs = front ++ logDelimiter := by
  obtain ⟨before, log, rfl⟩ := (List.eq_nil_or_concat' logs).resolve_left some_
  refine ⟨appendedLogs before ++ Json.quote :: escapedText log, ?_⟩
  rw [appendedLogs_append, List.append_assoc]
  congr 1
  exact List.append_nil _

/-! ## The cut -/

section Held

variable {post : Nat → Int} {head body rest : List UInt8} {posts : List (List UInt8 × Int)}
  {k c sent last turns : Nat} {rc : Int} {after : Transfer}

/-- The head does not end inside a delimiter. -/
theorem three_le_of_behind (bracket : ∃ front, head = front ++ [91]) (three : 3 ≤ c)
    (occurs : logDelimiter <+: (head ++ body).drop (c - 3)) (behind : head.length ≤ c) :
    head.length + 3 ≤ c := by
  obtain ⟨front, rfl⟩ := bracket
  rw [List.length_append, List.length_singleton] at behind ⊢
  by_contra short
  obtain ⟨after, isText⟩ := occurs
  have place : c - 3 + (front.length - (c - 3)) = front.length := by omega
  have near : front.length - (c - 3) < 3 := by omega
  have found : ((front ++ [91] ++ body).drop (c - 3))[front.length - (c - 3)]? = some 91 := by
    rw [List.getElem?_drop, place, List.append_assoc, List.getElem?_append_right (Nat.le_refl _),
      Nat.sub_self]
    rfl
  rw [← isText, List.getElem?_append_left near] at found
  have mem : (91 : UInt8) ∈ logDelimiter := List.mem_of_getElem? found
  revert mem
  decide

/-- The byte two places in front of a cut is a comma, and the next one a blank. -/
theorem comma_of_occurs {text : List UInt8} (three : 3 ≤ c)
    (occurs : logDelimiter <+: text.drop (c - 3)) :
    text[c - 2]? = some 44 ∧ text[c - 1]? = some 32 := by
  obtain ⟨after, isText⟩ := occurs
  have first : c - 3 + 1 = c - 2 := by omega
  have second : c - 3 + 2 = c - 1 := by omega
  rw [← first, ← second, ← List.getElem?_drop, ← List.getElem?_drop, ← isText]
  exact ⟨rfl, rfl⟩

theorem held_text (head rest : List UInt8) (posts : List (List UInt8 × Int))
    (within : sent ≤ body.length) :
    (heldTransfer head body rest sent posts).text = head ++ body.drop sent := by
  have size : (head ++ body.drop sent).length = head.length + (body.length - sent) := by
    rw [List.length_append, List.length_drop]
  show (head ++ (body.drop sent ++ _)).take (head.length + (body.length - sent)) = _
  rw [← size, ← List.append_assoc, List.take_left]

/-- As long as a delimiter is left, the posting goes on. -/
theorem held_running (rest : List UInt8) (posts : List (List UInt8 × Int)) (noNul : 0 ∉ head)
    (ends : ∃ front, body = front ++ logDelimiter)
    (long : maxHttpLogPostSize ≤ head.length + body.length) (room : sent + 3 ≤ body.length) :
    (heldTransfer head body rest sent posts).Running head.length (head.length + body.length) := by
  have size : (head ++ body.drop sent).length = head.length + (body.length - sent) := by
    rw [List.length_append, List.length_drop]
  refine ⟨long, ?_, ?_, ?_, ?_, ?_, ?_⟩
  · show _ ≤ (head ++ (body.drop sent ++ (List.replicate sent 0 ++ rest))).length
    rw [← List.append_assoc, List.length_append, size, List.length_append, List.length_replicate]
    omega
  · show head.length < head.length + (body.length - sent)
    omega
  · show head.length + (body.length - sent) ≤ head.length + body.length
    omega
  · intro i below nul
    change (head ++ _)[i]? = _ at nul
    rw [List.getElem?_append_left below] at nul
    exact noNul (List.mem_of_getElem? nul)
  · have text := held_text head rest posts (show sent ≤ body.length by omega)
    obtain ⟨front, rfl⟩ := ends
    rw [List.length_append] at room
    refine ⟨head ++ front.drop sent, text.trans ?_⟩
    rw [List.drop_append_of_le_length (Nat.le_of_add_le_add_right room), List.append_assoc]
  · intro less
    change head.length + (body.length - sent) < head.length + body.length at less
    obtain ⟨before, rfl⟩ : ∃ before, sent = before + 1 := ⟨sent - 1, by omega⟩
    show (head ++ (body.drop (before + 1) ++ _))[head.length + (body.length - (before + 1))]? = _
    rw [← size, ← List.append_assoc, List.getElem?_append_right (Nat.le_refl _), Nat.sub_self]
    rfl

/-- A post that succeeds behind the head sends the logs up to its cut. -/
theorem held_moveForward (rest : List UInt8) (posts : List (List UInt8 × Int)) (noNul : 0 ∉ head)
    (bracket : ∃ front, head = front ++ [91])
    (ends : ∃ front, body = front ++ logDelimiter)
    (long : maxHttpLogPostSize ≤ head.length + body.length) (room : sent + 3 ≤ body.length)
    (found : cutOf (head ++ body.drop sent) = some c) (positive : c ≠ 0) (behind : head.length ≤ c) :
    ∃ text, ((heldTransfer head body rest sent posts).postOne c 0).moveForward head.length
        (head.length + body.length) c =
      heldTransfer head body rest (sent + (c - head.length)) (posts ++ [(text, 0)]) ∧
      sent + (c - head.length) + 3 ≤ body.length ∧
      sentLogs head.length [(text, 0)] = (body.drop sent).take (c - head.length) := by
  have running := held_running rest posts noNul ends long room
  have isText := held_text head rest posts
    (show sent ≤ body.length by omega)
  rw [← isText] at found
  obtain ⟨three, before, occurs⟩ := running.cut found positive
  rw [isText] at occurs
  have inLogs := three_le_of_behind bracket three occurs behind
  change c + 3 ≤ head.length + (body.length - sent) at before
  have whole : (head ++ (body.drop sent ++ List.replicate sent (0 : UInt8))).length =
      head.length + body.length := by
    rw [List.length_append, List.length_append, List.length_drop, List.length_replicate]
    omega
  have isCut : c = head.length + (c - head.length) := by omega
  have buffer : (heldTransfer head body rest sent posts).postBuf =
      head ++ body.drop sent ++ (List.replicate sent 0 ++ rest) := (List.append_assoc _ _ _).symm
  have textSize : (head ++ body.drop sent).length = head.length + (body.length - sent) := by
    rw [List.length_append, List.length_drop]
  refine ⟨(appendEndcharToUploadBuffer (heldTransfer head body rest sent posts).postBuf c).take c,
    ?_, by omega, ?_⟩
  · have front : (appendEndcharToUploadBuffer (heldTransfer head body rest sent posts).postBuf c).take
        head.length = head := by
      rw [take_appendEndchar (by omega)]
      exact List.take_left
    have left : (heldTransfer head body rest sent posts).text.drop c =
        body.drop (sent + (c - head.length)) := by
      rw [isText, List.drop_append, List.drop_of_length_le behind, List.nil_append, List.drop_drop]
    have behindIt : (heldTransfer head body rest sent posts).postBuf.drop
        (head.length + body.length) = rest := by
      rw [buffer, ← List.append_assoc, List.append_assoc head, ← whole, List.drop_left]
    have size : head.length + (body.length - sent) + head.length - c =
        head.length + (body.length - (sent + (c - head.length))) := by omega
    have zeros : head.length + body.length -
        (head.length + (body.length - (sent + (c - head.length)))) = sent + (c - head.length) := by
      omega
    have payload : sent + c - head.length = sent + (c - head.length) := by omega
    rw [running.moveForward_eq three before
      (show head.length + (body.length - sent) + head.length - c ≤ _ by omega), front, left, behindIt]
    show (⟨_, head.length + (body.length - sent) + head.length - c, sent + c - head.length, _⟩ :
      Transfer) = _
    change (⟨head ++ (_ ++ (List.replicate (_ - (head.length + (body.length - sent) + head.length - c))
      0 ++ rest)), _, _, _⟩ : Transfer) = _
    rw [size, zeros, payload]
    rfl
  · obtain ⟨comma, blank⟩ := comma_of_occurs three occurs
    have kept : ∀ i < c, (heldTransfer head body rest sent posts).postBuf[i]? =
        (head ++ body.drop sent)[i]? := by
      intro i below
      rw [buffer, List.getElem?_append_left (by omega)]
    have restored := @removeEndchar_take (heldTransfer head body rest sent posts).postBuf c (by omega)
      (running.inside.trans' (by omega)) ((kept _ (by omega)).trans comma)
      ((kept _ (by omega)).trans blank)
    rw [sentLogs, List.flatMap_singleton]
    dsimp only
    rw [if_pos rfl, restored, buffer, List.take_append_of_le_length (by omega), List.take_append,
      List.take_of_length_le behind, List.drop_left]

/-- Where every post succeeds the loop ends with an error, and the buffer holds what has not been
    sent. Induction on the posts. -/
theorem Ships.result (ships : Ships post head body k sent last) (rest : List UInt8) (noNul : 0 ∉ head)
    (bracket : ∃ front, head = front ++ [91]) (ends : ∃ front, body = front ++ logDelimiter)
    (long : maxHttpLogPostSize ≤ head.length + body.length) (room : sent + 3 ≤ body.length)
    (posts : List (List UInt8 × Int)) (count : posts.length = k) :
    sent ≤ last ∧ ∃ turns rc later,
      fragmentLoop post head.length (head.length + body.length) turns
        (heldTransfer head body rest sent posts) =
          some (rc, heldTransfer head body rest last (posts ++ later)) ∧
      sentLogs head.length later = (body.drop sent).take (last - sent) := by
  induction ships generalizing posts with
  | @stop k sent stops =>
    have running := held_running rest posts noNul ends long room
    have isText := held_text head rest posts
      (show sent ≤ body.length by omega)
    rw [Nat.sub_self, List.take_zero]
    refine ⟨Nat.le_refl sent, 1, ?_⟩
    rw [running.fragmentLoop_succ, isText]
    rcases stops with none | zero
    · rw [none]
      exact ⟨_, [], by rw [List.append_nil], rfl⟩
    · rw [zero]
      exact ⟨_, [], by rw [List.append_nil]; rfl, rfl⟩
  | @post k sent c last found behind succeeds later ih =>
    have running := held_running rest posts noNul ends long room
    have isText := held_text head rest posts
      (show sent ≤ body.length by omega)
    have positive : c ≠ 0 := by
      obtain ⟨front, rfl⟩ := bracket
      rw [List.length_append, List.length_singleton] at behind
      omega
    obtain ⟨text, moved, room', restored⟩ :=
      held_moveForward rest posts noNul bracket ends long room found positive behind
    obtain ⟨grows, turns, rc, later, result, sentThen⟩ := ih room' (posts ++ [(text, 0)]) (by
      rw [List.length_append, count]
      rfl)
    have size := (running.cut (by rw [isText]; exact found) positive).2.1
    change c + 3 ≤ head.length + (body.length - sent) at size
    refine ⟨by omega, turns + 1, rc, (text, 0) :: later, ?_, ?_⟩
    · have fits : ¬ head.length + body.length <
          (heldTransfer head body rest sent posts).postSize + head.length - c := by
        show ¬ head.length + body.length < head.length + (body.length - sent) + head.length - c
        omega
      have succeeded : ¬ post (heldTransfer head body rest sent posts).posts.length ≠ 0 := by
        show ¬ post posts.length ≠ 0
        rw [count, succeeds]
        exact not_not.mpr rfl
      rw [running.fragmentLoop_succ, isText, found]
      dsimp only
      rw [if_neg positive, if_neg succeeded, if_neg fits, moved, result, List.append_assoc]
      rfl
    · have split : last - sent = c - head.length + (last - (sent + (c - head.length))) := by omega
      rw [split, List.take_add, List.drop_drop, ← sentThen, ← restored]
      exact sentLogs_append head.length [(text, 0)] later

/-- Only so does the loop end with the head and the logs that have not been sent: a comma that is lost
    at the end of a post does not come back. -/
theorem ships_of_result (noNul : 0 ∉ head)
    (bracket : ∃ front, head = front ++ [91]) (ends : ∃ front, body = front ++ logDelimiter)
    (long : maxHttpLogPostSize ≤ head.length + body.length) (room : sent + 3 ≤ body.length)
    (result : fragmentLoop post head.length (head.length + body.length) turns
      (heldTransfer head body rest sent posts) = some (rc, after))
    (kept : after.postBuf = head ++ (body.drop after.actualPostPayload ++
      (List.replicate after.actualPostPayload 0 ++ rest))) :
    Ships post head body posts.length sent after.actualPostPayload := by
  induction turns generalizing sent posts with
  | zero => cases result
  | succ turns ih =>
    have running := held_running rest posts noNul ends long room
    have isText := held_text head rest posts
      (show sent ≤ body.length by omega)
    rcases running.turn result with ⟨stops, _, rfl⟩ | ⟨stops, _, rfl⟩ | ⟨c, found, positive, goes⟩
    · exact .stop (.inl (by rw [← isText]; exact stops))
    · exact .stop (.inr (by rw [← isText]; exact stops))
    · obtain ⟨three, before, occurs⟩ := running.cut found positive
      obtain ⟨comma, _⟩ := comma_of_occurs three occurs
      have inside : c ≤ (heldTransfer head body rest sent posts).postBuf.length :=
        running.inside.trans' (running.size.trans' (by omega))
      have lost : (appendEndcharToUploadBuffer (heldTransfer head body rest sent posts).postBuf
          c)[c - 2]? =
          some 93 := by
        rw [appendEndcharToUploadBuffer, List.getElem?_set_ne (by omega),
          List.getElem?_set_self (by omega)]
      rw [isText] at comma found
      rcases goes with ⟨_, _, rfl⟩ | ⟨succeeds, fits, turns', same, result⟩
      · rw [running.postOne_eq three before] at kept
        change appendEndcharToUploadBuffer _ c = (heldTransfer head body rest sent posts).postBuf
            at kept
        have there : (heldTransfer head body rest sent posts).postBuf[c - 2]? = some 44 := by
          have front : (heldTransfer head body rest sent posts).postBuf =
              head ++ body.drop sent ++ (List.replicate sent 0 ++ rest) :=
            (List.append_assoc _ _ _).symm
          have textSize := List.getElem?_eq_some_iff.mp comma
          rw [front, List.getElem?_append_left textSize.1]
          exact comma
        rw [kept, there] at lost
        cases lost
      · cases same
        rcases Nat.lt_or_ge c head.length with inHead | behind
        · have moved : (((heldTransfer head body rest sent posts).postOne c 0).moveForward head.length
              (head.length + body.length) c).Running head.length (head.length + body.length) :=
            running.moveForward three before fits
          have front : c - 2 < ((appendEndcharToUploadBuffer
              (heldTransfer head body rest sent posts).postBuf c).take head.length).length := by
            rw [List.length_take, length_appendEndchar]
            omega
          have gone : (((heldTransfer head body rest sent posts).postOne c 0).moveForward head.length
              (head.length + body.length) c).postBuf[c - 2]? ≠ some 44 := by
            rw [running.moveForward_eq three before fits, List.getElem?_append_left front,
              List.getElem?_take_of_lt (by omega), lost]
            decide
          have stays := moved.head_stays (by omega) gone result
          rw [kept, List.getElem?_append_left (by omega)] at stays
          rw [List.getElem?_append_left (by omega)] at comma
          exact absurd comma stays
        · obtain ⟨text, moved, room', _⟩ := held_moveForward rest posts noNul
            bracket ends long room found positive behind
          rw [moved] at result
          have later := ih room' result
          rw [List.length_append] at later
          exact .post found behind succeeds later

end Held

/-! ## Posting the logs -/

/-- `_post_log_to_server` on a buffer that holds the head and the logs. -/
def postLogs (post : Nat → Int) (head : List UInt8) (logs : List (List UInt8)) (rest : List UInt8)
    (turns : Nat) : Option (Int × Transfer) :=
  postLogToServer post head.length turns (head ++ (appendedLogs logs ++ rest))
    (head.length + (appendedLogs logs).length)

/-- With every post succeeding all logs are sent, each in one post, and no post reaches the limit. -/
def LosesNothing (head : List UInt8) (logs : List (List UInt8)) (rest : List UInt8) : Prop :=
  ∃ (turns : Nat) (after : Transfer) (groups : List (List (List UInt8))),
    postLogs (fun _ => 0) head logs rest turns = some (0, after) ∧
    groups.flatten = logs ∧
    after.posts = groups.map (fun group => (closedText (head ++ appendedLogs group), 0)) ∧
    (∀ group ∈ groups, group ≠ [] ∧
      head.length + (appendedLogs group).length < maxHttpLogPostSize) ∧
    after.actualPostPayload = (appendedLogs logs).length

/-- After an error the buffer holds the head and the logs that were not part of a successful post, and
    the payload is the size of the others. -/
def KeepsUnsent (post : Nat → Int) (head : List UInt8) (logs : List (List UInt8))
    (rest : List UInt8) : Prop :=
  ∃ turns rc after, postLogs post head logs rest turns = some (rc, after) ∧
    (rc ≠ 0 → ∃ n, sentLogs head.length after.posts = appendedLogs (logs.take n) ∧
      after.actualPostPayload = (appendedLogs (logs.take n)).length ∧
      after.postBuf = head ++ (appendedLogs (logs.drop n) ++
        (List.replicate after.actualPostPayload 0 ++ rest)))

section Logs

variable {post : Nat → Int} {head rest : List UInt8} {logs : List (List UInt8)} {turns n : Nat}
  {rc : Int} {after : Transfer}

theorem appendedLogs_take_append_drop (logs : List (List UInt8)) (n : Nat) :
    appendedLogs logs = appendedLogs (logs.take n) ++ appendedLogs (logs.drop n) := by
  rw [← appendedLogs_append, List.take_append_drop]

/-- A short buffer is sent with one post, and is as before then. -/
theorem postLogs_short (some_ : logs ≠ [])
    (short : head.length + (appendedLogs logs).length < maxHttpLogPostSize) :
    postLogs post head logs rest turns = some (post 0,
      { postBuf := head ++ (appendedLogs logs ++ rest)
        postSize := head.length + (appendedLogs logs).length
        actualPostPayload := if post 0 = 0 then (appendedLogs logs).length else 0
        posts := [(closedText (head ++ appendedLogs logs), post 0)] }) := by
  obtain ⟨front, ends⟩ := exists_appendedLogs some_
  have size : (head ++ appendedLogs logs).length = head.length + (appendedLogs logs).length :=
    List.length_append
  have three : 3 ≤ head.length + (appendedLogs logs).length := by
    rw [ends, List.length_append]
    exact Nat.le_add_left_of_le (Nat.le_add_left 3 _)
  have occurs : logDelimiter <+: (head ++ (appendedLogs logs ++ rest)).drop
      (head.length + (appendedLogs logs).length - 3) := by
    refine ⟨rest, ?_⟩
    have place : head.length + (appendedLogs logs).length - 3 = (head ++ front).length := by
      rw [ends, List.length_append, List.length_append]
      show head.length + (front.length + 3) - 3 = _
      omega
    rw [place, ends, ← List.append_assoc, ← List.append_assoc, List.append_assoc (head ++ front),
      List.drop_left]
  obtain ⟨comma, blank⟩ := comma_of_occurs three occurs
  have posted := take_appendEndchar_self (head ++ appendedLogs logs) rest (by omega)
  rw [size, List.append_assoc] at posted
  rw [postLogs, postLogToServer, if_pos short]
  dsimp only [Transfer.postOne]
  rw [removeEndchar_appendEndchar (by omega) comma blank, posted, Nat.add_sub_cancel_left]
  rfl

theorem postLogs_long (long : maxHttpLogPostSize ≤ head.length + (appendedLogs logs).length) :
    postLogs post head logs rest turns =
      fragmentLoop post head.length (head.length + (appendedLogs logs).length) turns
        (heldTransfer head (appendedLogs logs) rest 0 []) := by
  rw [postLogs, postLogToServer, if_neg (Nat.not_lt.mpr long)]
  rfl

theorem logs_running (noNul : 0 ∉ head) (some_ : logs ≠ [])
    (long : maxHttpLogPostSize ≤ head.length + (appendedLogs logs).length) :
    (heldTransfer head (appendedLogs logs) rest 0 []).Running head.length
      (head.length + (appendedLogs logs).length) := by
  obtain ⟨front, ends⟩ := exists_appendedLogs some_
  refine held_running rest [] noNul ⟨front, ends⟩ long ?_
  rw [ends, List.length_append]
  exact Nat.le_add_left 3 _

/-- A long buffer is never sent with success. -/
theorem not_losesNothing_of_long (noNul : 0 ∉ head) (some_ : logs ≠ [])
    (long : maxHttpLogPostSize ≤ head.length + (appendedLogs logs).length) :
    ¬ LosesNothing head logs rest := by
  rintro ⟨turns, after, groups, result, _⟩
  rw [postLogs_long long] at result
  exact (logs_running noNul some_ long).rc_ne_zero result rfl

/-- What is left of a long buffer is intact only where every post has succeeded. -/
theorem ships_of_keepsUnsent (noNul : 0 ∉ head) (bracket : ∃ front, head = front ++ [91])
    (some_ : logs ≠ []) (long : maxHttpLogPostSize ≤ head.length + (appendedLogs logs).length)
    (keeps : KeepsUnsent post head logs rest) :
    ∃ n, Ships post head (appendedLogs logs) 0 0 (appendedLogs (logs.take n)).length := by
  obtain ⟨turns, rc, after, result, unsent⟩ := keeps
  rw [postLogs_long long] at result
  obtain ⟨n, _, payload, kept⟩ := unsent ((logs_running noNul some_ long).rc_ne_zero result)
  have left : appendedLogs (logs.drop n) = (appendedLogs logs).drop after.actualPostPayload := by
    rw [appendedLogs_take_append_drop logs n, payload, List.drop_left]
  rw [left] at kept
  obtain ⟨front, ends⟩ := exists_appendedLogs some_
  have room : 0 + 3 ≤ (appendedLogs logs).length := by
    rw [ends, List.length_append]
    exact Nat.le_add_left 3 _
  refine ⟨n, ?_⟩
  rw [← payload]
  exact ships_of_result noNul bracket ⟨front, ends⟩ long room result kept

end Logs

/-- With every post succeeding, a posting loses no log exactly if the buffer is shorter than the
    limit. -/
theorem losesNothing_iff (deviceName productId log : List UInt8) (logs : List (List UInt8))
    (rest : List UInt8) :
    LosesNothing (logHead deviceName productId) (log :: logs) rest ↔
      (logHead deviceName productId).length + (appendedLogs (log :: logs)).length <
        maxHttpLogPostSize := by
  have some_ : log :: logs ≠ [] := List.cons_ne_nil log logs
  constructor
  · intro nothing
    by_contra long
    exact not_losesNothing_of_long (notMem_logHead _ _) some_ (Nat.not_lt.mp long) nothing
  · intro short
    refine ⟨0, _, [log :: logs], postLogs_short some_ short, List.append_nil _, rfl, ?_, rfl⟩
    intro group mem
    rw [List.mem_singleton.mp mem]
    exact ⟨some_, short⟩

/-- An error leaves exactly the unsent logs if the buffer is sent with one post, or if every post of
    the fragments succeeds, and the last one ends with a log. -/
theorem keepsUnsent_iff (post : Nat → Int) (deviceName productId log : List UInt8)
    (logs : List (List UInt8)) (rest : List UInt8) :
    KeepsUnsent post (logHead deviceName productId) (log :: logs) rest ↔
      (logHead deviceName productId).length + (appendedLogs (log :: logs)).length <
          maxHttpLogPostSize ∨
        ∃ n, Ships post (logHead deviceName productId) (appendedLogs (log :: logs)) 0 0
          (appendedLogs ((log :: logs).take n)).length := by
  have some_ : log :: logs ≠ [] := List.cons_ne_nil log logs
  constructor
  · intro keeps
    refine Nat.lt_or_ge _ _ |>.imp_right fun long => ?_
    exact ships_of_keepsUnsent (notMem_logHead _ _) (exists_logHead _ _) some_ long keeps
  · intro sends
    rcases Nat.lt_or_ge ((logHead deviceName productId).length + (appendedLogs (log :: logs)).length)
        maxHttpLogPostSize with short | long
    · refine ⟨0, _, _, postLogs_short some_ short, fun failed => ⟨0, ?_, ?_, ?_⟩⟩
      · rw [sentLogs, List.flatMap_singleton]
        exact if_neg failed
      · exact if_neg failed
      · dsimp only
        rw [if_neg failed]
        rfl
    · obtain ⟨n, ships⟩ := sends.resolve_left (Nat.not_lt.mpr long)
      obtain ⟨front, ends⟩ := exists_appendedLogs some_
      have room : 0 + 3 ≤ (appendedLogs (log :: logs)).length := by
        rw [ends, List.length_append]
        exact Nat.le_add_left 3 _
      obtain ⟨_, turns, rc, later, result, sent⟩ := ships.result rest (notMem_logHead _ _)
        (exists_logHead _ _) ⟨front, ends⟩ long room [] rfl
      refine ⟨turns, rc, _, (postLogs_long long).trans result, fun _ => ⟨n, ?_, rfl, ?_⟩⟩
      · refine sent.trans ?_
        rw [List.drop_zero, Nat.sub_zero, appendedLogs_take_append_drop (log :: logs) n,
          List.take_left]
      · have left : (appendedLogs (log :: logs)).drop (appendedLogs ((log :: logs).take n)).length =
            appendedLogs ((log :: logs).drop n) := by
          rw [appendedLogs_take_append_drop (log :: logs) n, List.drop_left]
        show _ ++ ((appendedLogs (log :: logs)).drop _ ++ _) = _
        rw [left]
        rfl

/-! ## Two long logs -/

section Example

theorem Ships.stops_of_failed {post : Nat → Int} {head body : List UInt8} {k sent last : Nat}
    (ships : Ships post head body k sent last) (failed : post k ≠ 0) :
    cutOf (head ++ body.drop sent) = none ∨ cutOf (head ++ body.drop sent) = some 0 := by
  cases ships with
  | stop stops => exact stops
  | post found behind succeeds later => exact absurd succeeds failed

/-- A text that has a delimiter in front of the limit and reaches it with another one has a cut. -/
theorem exists_cutOf {front behind before : List UInt8}
    (noNul : 0 ∉ front ++ logDelimiter ++ behind) (below : front.length + 3 < maxHttpLogPostSize)
    (ends : front ++ logDelimiter ++ behind = before ++ logDelimiter)
    (long : maxHttpLogPostSize ≤ before.length + 3) :
    ∃ c, cutOf (front ++ logDelimiter ++ behind) = some c ∧ c ≠ 0 := by
  have nonempty : logDelimiter ≠ [] := List.cons_ne_nil _ _
  have whole : cString (front ++ logDelimiter ++ behind) = front ++ logDelimiter ++ behind := by
    have alone := cString_append noNul []
    rw [List.append_nil] at alone
    exact alone.trans (List.append_nil _)
  have first : front.length + 3 ∈ delimiterEnds logDelimiter 0 (front ++ logDelimiter ++ behind) := by
    obtain ⟨later, same⟩ := delimiterEnds_append logDelimiter (front ++ logDelimiter) behind 0
    have mem := @length_mem_delimiterEnds UInt8 _ _ 0 nonempty front
    rw [Nat.zero_add, List.length_append] at mem
    rw [same]
    exact List.mem_append_left later mem
  have last : before.length + 3 ∈ delimiterEnds logDelimiter 0 (front ++ logDelimiter ++ behind) := by
    have mem := @length_mem_delimiterEnds UInt8 _ _ 0 nonempty before
    rw [Nat.zero_add, List.length_append] at mem
    rw [ends]
    exact mem
  obtain ⟨c, found⟩ := @exists_cutBelow _ maxHttpLogPostSize 0 _ last long
  have spread := delimiterEnds_pairwise (show (34 : UInt8) ∉ [44, 32] by decide) 0
    (front ++ logDelimiter ++ behind)
  have bound := le_cutBelow spread found first below
  refine ⟨c, ?_, by omega⟩
  rw [cutOf, whole]
  exact found

/-- A log of so many letters. -/
def longLog : List UInt8 := List.replicate 2000 97

theorem escapedText_replicate {b : UInt8} (kept : jsonEscape b = none) (n : Nat) :
    escapedText (List.replicate n b) = List.replicate n b := by
  induction n with
  | zero => rfl
  | succ n ih =>
    rw [List.replicate_succ, escapedText, List.flatMap_cons, escapeByte, kept]
    exact congrArg (b :: ·) ih

theorem appendedLogs_longLog : appendedLogs [longLog, longLog] =
    34 :: longLog ++ logDelimiter ++ (34 :: longLog ++ logDelimiter) := by
  have entry : logEntry longLog = 34 :: longLog ++ logDelimiter := by
    rw [logEntry, longLog, escapedText_replicate (by decide)]
  rw [appendedLogs, List.map_cons, List.map_cons, List.map_nil, List.flatten_cons,
    List.flatten_cons, List.flatten_nil, List.append_nil, entry]

theorem length_longLog : longLog.length = 2000 := List.length_replicate

theorem length_appendedLogs_longLog : (appendedLogs [longLog, longLog]).length = 4008 := by
  rw [appendedLogs_longLog]
  simp only [List.length_append, List.length_cons, List.length_nil, length_longLog]

theorem length_logHead_one : (logHead [100] [112]).length = 59 := by with_unfolding_all decide

theorem longLogs_long :
    maxHttpLogPostSize ≤ (logHead [100] [112]).length + (appendedLogs [longLog, longLog]).length := by
  rw [length_logHead_one, length_appendedLogs_longLog]
  decide

/-- The last fragment has no delimiter that reaches the limit, and is refused. -/
theorem longLogs_refused : ¬ LosesNothing (logHead [100] [112]) [longLog, longLog] [] :=
  not_losesNothing_of_long (notMem_logHead _ _) (List.cons_ne_nil _ _) longLogs_long

/-- The first log is in front of the limit, and the second one reaches it. -/
theorem exists_cutOf_longLogs :
    ∃ c, cutOf (logHead [100] [112] ++ appendedLogs [longLog, longLog]) = some c ∧ c ≠ 0 := by
  have noNul : 0 ∉ appendedLogs [longLog, longLog] := by
    have letters : 0 ∉ longLog := fun nul => absurd (List.eq_of_mem_replicate nul) (by decide)
    rw [appendedLogs_longLog]
    simp only [List.mem_append, List.mem_cons, not_or]
    exact ⟨⟨⟨by decide, letters⟩, by decide⟩, ⟨by decide, letters⟩, by decide⟩
  have split : logHead [100] [112] ++ appendedLogs [longLog, longLog] =
      logHead [100] [112] ++ 34 :: longLog ++ logDelimiter ++ (34 :: longLog ++ logDelimiter) := by
    rw [appendedLogs_longLog]
    simp only [List.append_assoc, List.cons_append]
  have ends : logHead [100] [112] ++ 34 :: longLog ++ logDelimiter ++
      (34 :: longLog ++ logDelimiter) =
        (logHead [100] [112] ++ 34 :: longLog ++ logDelimiter ++ 34 :: longLog) ++ logDelimiter := by
    simp only [List.append_assoc, List.cons_append]
  rw [split]
  refine exists_cutOf ?_ ?_ ends ?_
  · rw [← split, List.mem_append, not_or]
    exact ⟨notMem_logHead _ _, noNul⟩
  · simp only [List.length_append, List.length_cons, length_longLog, length_logHead_one]
    decide
  · simp only [List.length_append, List.length_cons, List.length_nil, length_longLog,
      length_logHead_one]
    decide

/-- The first post fails, and its end characters stay. -/
theorem longLogs_spoiled : ¬ KeepsUnsent (fun _ => 1) (logHead [100] [112]) [longLog, longLog] [] := by
  intro keeps
  obtain ⟨n, ships⟩ := ships_of_keepsUnsent (notMem_logHead _ _) (exists_logHead _ _)
    (List.cons_ne_nil _ _) longLogs_long keeps
  obtain ⟨c, found, positive⟩ := exists_cutOf_longLogs
  rcases ships.stops_of_failed (by decide) with none | zero
  · cases found.symm.trans none
  · exact positive (Option.some.inj (found.symm.trans zero))

end Example

end QcloudIot.Log
