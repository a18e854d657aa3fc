import QcloudIot.Json.Proofs.InPlace
import QcloudIot.Shadow.Request

/-!
# When a refused shadow request leaves nothing

The insertion puts the member behind the first byte of the document and stays inside the buffer. A
request that is refused for another reason than its document has been published by then, or leaves the
parsed token behind.
-/

namespace QcloudIot.Shadow

open Mqtt (CStr)
open Json (Fault liteJsonValueOf strlen memory)

/-! ## The insertion -/

section Insertion

variable {front gap back pch : List UInt8} {nlen pos : Nat}

/-- What is moved up leaves a gap in front of it. Induction on the bytes that are still to be moved,
    from the last one on. -/
theorem moveUp_eq (gapSize : gap.length = nlen) (inside : pos ≤ front.length) :
    ∃ gap', gap'.length = nlen ∧ moveUp nlen pos front.length (front ++ (gap ++ back)) =
      .ok (front.take pos ++ (gap' ++ (front.drop pos ++ back))) := by
  induction front using List.reverseRecOn generalizing gap back with
  | nil =>
    refine ⟨gap, gapSize, ?_⟩
    rw [Nat.le_zero.mp inside]
    rfl
  | append_singleton front b ih =>
    have size : (front ++ [b]).length = front.length + 1 := List.length_append
    rw [size] at inside ⊢
    rcases Nat.lt_or_eq_of_le inside with before | isEnd
    · have here : (front ++ [b] ++ (gap ++ back))[front.length]? = some b := by
        rw [List.append_assoc, List.getElem?_append_right (Nat.le_refl _), Nat.sub_self]
        rfl
      have room : front.length + nlen < (front ++ [b] ++ (gap ++ back)).length := by
        rw [List.length_append, size, List.length_append]
        omega
      have stored : (front ++ [b] ++ (gap ++ back)).set (front.length + nlen) b =
          front ++ ((b :: gap).take nlen ++ (b :: back)) := by
        have whole : (b :: gap).length = nlen + 1 := by rw [List.length_cons, gapSize]
        have last : b :: gap = (b :: gap).take nlen ++ [(b :: gap)[nlen]] := by
          conv_lhs => rw [← List.take_append_drop nlen (b :: gap)]
          rw [List.drop_eq_getElem_cons (by omega), List.drop_of_length_le whole.le]
        have takeSize : ((b :: gap).take nlen).length = nlen := by
          rw [List.length_take, whole]
          omega
        rw [List.append_assoc, List.set_append_right _ _ (Nat.le_add_right _ _),
          Nat.add_sub_cancel_left]
        show front ++ (b :: gap ++ back).set nlen b = _
        conv_lhs => rw [last]
        rw [List.append_assoc, List.set_append_right _ _ takeSize.le, takeSize, Nat.sub_self]
        rfl
      have takeSize : ((b :: gap).take nlen).length = nlen := by
        rw [List.length_take, List.length_cons]
        omega
      obtain ⟨gap', gapSize', moved⟩ := @ih ((b :: gap).take nlen) (b :: back) takeSize
        (Nat.le_of_lt_succ before)
      refine ⟨gap', gapSize', ?_⟩
      rw [moveUp, if_pos (Nat.le_of_lt_succ before), here]
      dsimp only
      rw [storeByte, if_pos room, stored]
      show moveUp nlen pos front.length (front ++ ((b :: gap).take nlen ++ b :: back)) = _
      have short : pos ≤ front.length := Nat.le_of_lt_succ before
      rw [moved, List.take_append_of_le_length short, List.drop_append_of_le_length short,
        List.append_assoc (front.drop pos)]
      rfl
    · refine ⟨gap, gapSize, ?_⟩
      have whole : (front ++ [b]).take pos = front ++ [b] := List.take_of_length_le (by omega)
      have none : (front ++ [b]).drop pos = [] := List.drop_of_length_le (by omega)
      rw [moveUp, if_neg (by omega), whole, none]
      rfl

theorem copyFrom_eq (front back : List UInt8) (gapSize : gap.length = pch.length) :
    copyFrom front.length pch (front ++ (gap ++ back)) = .ok (front ++ (pch ++ back)) := by
  induction pch generalizing front gap with
  | nil =>
    rw [List.eq_nil_of_length_eq_zero gapSize]
    rfl
  | cons b pch ih =>
    cases gap with
    | nil => cases gapSize
    | cons old gap =>
      have room : front.length < (front ++ (old :: gap ++ back)).length := by
        rw [List.length_append, List.length_append, List.length_cons]
        omega
      have stored : (front ++ (old :: gap ++ back)).set front.length b =
          front ++ [b] ++ (gap ++ back) := by
        rw [List.set_append_right _ _ (Nat.le_refl _), Nat.sub_self, List.append_assoc]
        rfl
      have size : (front ++ [b]).length = front.length + 1 := List.length_append
      have later := @ih gap (front ++ [b]) (Nat.succ.inj gapSize)
      rw [size] at later
      rw [copyFrom, storeByte, if_pos room, stored]
      show copyFrom (front.length + 1) pch (front ++ [b] ++ (gap ++ back)) = _
      rw [later, List.append_assoc]
      rfl

/-- The text is inserted, and a NUL follows what was behind it. -/
theorem insertInto_eq {str behind : List UInt8} (noNul : 0 ∉ str) (inside : pos ≤ str.length)
    (room : pch.length ≤ behind.length) :
    insertInto (str ++ 0 :: behind) pch pos =
      .ok (str.take pos ++ (pch ++ (str.drop pos ++ 0 :: behind.drop pch.length))) := by
  have length : strlen (str ++ 0 :: behind) = .ok str.length := by
    rw [strlen, if_pos (List.mem_append_right _ List.mem_cons_self), cString_nul noNul]
  have gapSize : ((0 :: behind).take pch.length).length = pch.length := by
    rw [List.length_take, List.length_cons]
    omega
  obtain ⟨gap', gapSize', moved⟩ := @moveUp_eq str ((0 :: behind).take pch.length)
    ((0 :: behind).drop pch.length) pch.length pos gapSize inside
  rw [List.take_append_drop] at moved
  have frontSize : (str.take pos).length = pos := by
    rw [List.length_take]
    omega
  have copied := copyFrom_eq (str.take pos) (str.drop pos ++ (0 :: behind).drop pch.length) gapSize'
  rw [frontSize] at copied
  have textSize : (str.take pos ++ (pch ++ str.drop pos)).length = str.length + pch.length := by
    rw [List.length_append, List.length_append, frontSize, List.length_drop]
    omega
  obtain ⟨old, isOld⟩ : ∃ old, (0 :: behind).drop pch.length = old :: behind.drop pch.length := by
    have some_ : pch.length < (0 :: behind).length := by
      rw [List.length_cons]
      omega
    exact ⟨_, List.drop_eq_getElem_cons some_⟩
  have shape : str.take pos ++ (pch ++ (str.drop pos ++ old :: behind.drop pch.length)) =
      str.take pos ++ (pch ++ str.drop pos) ++ old :: behind.drop pch.length := by
    rw [List.append_assoc, List.append_assoc]
  rw [insertInto, length]
  show (do
    let str ← moveUp pch.length pos str.length (str ++ 0 :: behind)
    let str ← copyFrom pos pch str
    storeByte str _ 0) = _
  rw [moved]
  show (do
    let str ← copyFrom pos pch _
    storeByte str _ 0) = _
  rw [copied]
  show storeByte _ _ 0 = _
  rw [isOld, shape, storeByte, if_pos, List.set_append_right _ _ textSize.le, textSize, Nat.sub_self,
    List.append_assoc, List.append_assoc]
  · rfl
  · rw [List.length_append, textSize, List.length_cons]
    omega

end Insertion

/-! ## The request -/

/-- The memory of a document in a buffer that has some bytes behind it. -/
def docIn (jsonDoc : CStr) (behind : List UInt8) : List UInt8 := jsonDoc.bytes ++ 0 :: behind

/-- A refused request leaves no trace: nothing is published, and the document, the list and the heap
    are as before. One that is accepted leaves the document with the type behind its first byte, in the
    same buffer. -/
def RefusedLeavesNothing (s : ShadowClient) (params : RequestParams) (jsonDoc : CStr)
    (behind : List UInt8) (env : RequestEnv) : Prop :=
  ∃ result, s.doShadowRequestIn params (docIn jsonDoc behind) (jsonDoc.length + 1 + behind.length)
      env = .ok result ∧
    (result.rc ≠ Mqtt.qcloudRetSuccess →
      result.client.history = s.history ∧ result.client.requestList = s.requestList ∧
        result.jsonDoc = docIn jsonDoc behind ∧ result.tokenHeld = false) ∧
    (result.rc = Mqtt.qcloudRetSuccess →
      result.tokenHeld = false ∧ result.jsonDoc.length = (docIn jsonDoc behind).length ∧
        ∃ later, result.jsonDoc = jsonDoc.bytes.take 1 ++
          ((jsonNodeStr params.method).bytes ++ (jsonDoc.bytes.drop 1 ++ 0 :: later)))

/-- Nothing stands against the request: the type fits into the buffer, the topic into its array, the
    publishing does not fail, and there is room in the list. -/
structure ShadowClient.Accepts (s : ShadowClient) (params : RequestParams) (behind : List UInt8)
    (env : RequestEnv) : Prop where
  fits : (jsonNodeStr params.method).length < behind.length
  topic : s.operationTopic.length ≤ maxSizeOfCloudTopic - 1
  published : 0 ≤ env.published
  room : s.requestList.length < maxAppendingRequest
  requestAllocated : env.requestAllocated = true
  nodeAllocated : env.nodeAllocated = true

section Request

variable {s : ShadowClient} {params : RequestParams} {jsonDoc : CStr} {behind : List UInt8}
  {env : RequestEnv} {clientToken : List UInt8}

theorem textOf_docIn (jsonDoc : CStr) (behind : List UInt8) :
    textOf (docIn jsonDoc behind) = jsonDoc := by
  have bytes : (textOf (docIn jsonDoc behind)).bytes = jsonDoc.bytes := cString_nul jsonDoc.noNul
      behind
  cases jsonDoc with
  | mk text noNul =>
    cases same : textOf (docIn ⟨text, noNul⟩ behind) with
    | mk text' noNul' =>
      rw [same] at bytes
      cases bytes
      rfl

/-- The document with the type in it. -/
def typedDoc (jsonDoc : CStr) (method : Method) (behind : List UInt8) : List UInt8 :=
  jsonDoc.bytes.take 1 ++ ((jsonNodeStr method).bytes ++
    (jsonDoc.bytes.drop 1 ++ 0 :: behind.drop (jsonNodeStr method).length))

/-- What remains for the type in a buffer with so many bytes behind its document. -/
theorem sizeSub_remain (len behind : Nat) :
    sizeSub (sizeSub (len + 1 + behind) len) 1 = behind := by
  have remain : len + 1 + behind - len = 1 + behind := by omega
  rw [sizeSub_of_le (show len ≤ len + 1 + behind by omega), remain,
    sizeSub_of_le (show 1 ≤ 1 + behind by omega), Nat.add_sub_cancel_left]

theorem setShadowJsonTypeIn_eq (some_ : 1 ≤ jsonDoc.length) (method : Method) :
    setShadowJsonTypeIn (docIn jsonDoc behind) (jsonDoc.length + 1 + behind.length) method =
      .ok (if (jsonNodeStr method).length < behind.length then
          (Mqtt.qcloudRetSuccess, typedDoc jsonDoc method behind)
        else (Mqtt.qcloudErrInval, docIn jsonDoc behind)) := by
  have length : strlen (docIn jsonDoc behind) = .ok jsonDoc.length := by
    rw [docIn, strlen, if_pos (List.mem_append_right _ List.mem_cons_self),
      cString_nul jsonDoc.noNul]
    rfl
  rw [setShadowJsonTypeIn, length]
  simp only [bind, Except.bind, sizeSub_remain]
  by_cases fits : (jsonNodeStr method).length < behind.length
  · have inserted := @insertInto_eq (jsonNodeStr method).bytes _ _ _ jsonDoc.noNul some_ fits.le
    rw [if_neg (Nat.not_le.mpr fits), if_pos fits, docIn, inserted]
    rfl
  · rw [if_pos (Nat.not_lt.mp fits), if_neg fits]
    rfl

/-- A document with a token in it is not empty. -/
theorem length_of_token
    (found : liteJsonValueOf clientTokenField jsonDoc env.tokenAllocated = .ok (some clientToken)) :
    1 ≤ jsonDoc.length := by
  by_contra empty
  obtain ⟨bytes, noNul⟩ := jsonDoc
  have none_ : bytes = [] := List.eq_nil_of_length_eq_zero (Nat.lt_one_iff.mp (Nat.not_le.mp empty))
  subst none_
  cases allocated : env.tokenAllocated with
  | false =>
    rw [allocated] at found
    cases found
  | true =>
    rw [allocated] at found
    cases found

/-- The request once the token is parsed. -/
theorem doShadowRequestIn_of_token
    (found : liteJsonValueOf clientTokenField jsonDoc env.tokenAllocated = .ok (some clientToken)) :
    s.doShadowRequestIn params (docIn jsonDoc behind) (jsonDoc.length + 1 + behind.length) env =
      .ok (if (jsonNodeStr params.method).length < behind.length then
          let jsonDoc := typedDoc jsonDoc params.method behind
          let published := s.publishOperationToCloud (textOf jsonDoc) env.published
          let added := if 0 ≤ published.1 then
            published.2.addRequestToList (textOf clientToken) params env else published
          ⟨added.1, jsonDoc, added.2, false⟩
        else ⟨Mqtt.qcloudErrInval, docIn jsonDoc behind, s, true⟩) := by
  rw [ShadowClient.doShadowRequestIn, textOf_docIn, found]
  simp only [bind, Except.bind, setShadowJsonTypeIn_eq (length_of_token found)]
  by_cases fits : (jsonNodeStr params.method).length < behind.length
  · simp only [if_pos fits]
    rfl
  · simp only [if_neg fits]
    rfl

theorem length_typedDoc (some_ : 1 ≤ jsonDoc.length) (method : Method)
    (fits : (jsonNodeStr method).length < behind.length) :
    (typedDoc jsonDoc method behind).length = (docIn jsonDoc behind).length := by
  have isLength : jsonDoc.length = jsonDoc.bytes.length := rfl
  have nodeLength : (jsonNodeStr method).length = (jsonNodeStr method).bytes.length := rfl
  simp only [typedDoc, docIn, List.length_append, List.length_take, List.length_drop,
    List.length_cons]
  omega

/-- The text of the document has grown. -/
theorem typedDoc_ne (method : Method) : typedDoc jsonDoc method behind ≠ docIn jsonDoc behind := by
  intro same
  have noNul : 0 ∉ jsonDoc.bytes.take 1 ++ ((jsonNodeStr method).bytes ++ jsonDoc.bytes.drop 1) := by
    simp only [List.mem_append, not_or]
    exact ⟨fun mem => jsonDoc.noNul (List.mem_of_mem_take mem), (jsonNodeStr method).noNul,
      fun mem => jsonDoc.noNul (List.mem_of_mem_drop mem)⟩
  have typed := cString_nul noNul (behind.drop (jsonNodeStr method).length)
  rw [List.append_assoc, List.append_assoc] at typed
  change cString (typedDoc jsonDoc method behind) = _ at typed
  rw [same, docIn, cString_nul jsonDoc.noNul] at typed
  have length := congrArg List.length typed
  have node : (jsonNodeStr method).bytes.length ≠ 0 := by cases method <;> decide
  rw [List.length_append, List.length_append, List.length_take, List.length_drop] at length
  omega

theorem maxAppending_ne : qcloudErrMaxAppendingRequest ≠ Mqtt.qcloudRetSuccess := by decide

theorem failure_ne : Mqtt.qcloudErrFailure ≠ Mqtt.qcloudRetSuccess := by decide

theorem inval_ne : Mqtt.qcloudErrInval ≠ Mqtt.qcloudRetSuccess := by decide

theorem addRequestToList_rc (client : ShadowClient) (token : CStr) :
    (client.addRequestToList token params env).1 = Mqtt.qcloudRetSuccess ↔
      client.requestList.length < maxAppendingRequest ∧ env.requestAllocated = true ∧
        env.nodeAllocated = true := by
  unfold ShadowClient.addRequestToList
  by_cases full : client.requestList.length ≥ maxAppendingRequest
  · rw [if_pos full]
    exact ⟨fun rc => absurd rc maxAppending_ne, fun accepts => absurd accepts.1 (Nat.not_lt.mpr full)⟩
  · rw [if_neg full]
    by_cases request : env.requestAllocated = true
    · rw [if_neg (not_not.mpr request)]
      by_cases node : env.nodeAllocated = true
      · simp only [if_neg (not_not.mpr node)]
        exact ⟨fun _ => ⟨Nat.not_le.mp full, request, node⟩, fun _ => trivial⟩
      · simp only [if_pos node]
        exact ⟨fun rc => absurd rc (by decide), fun accepts => absurd accepts.2.2 node⟩
    · rw [if_pos request]
      exact ⟨fun rc => absurd rc failure_ne, fun accepts => absurd accepts.2.1 request⟩

theorem publishOperationToCloud_rc (jsonDoc : CStr) (published : Int) :
    0 ≤ (s.publishOperationToCloud jsonDoc published).1 ↔
      s.operationTopic.length ≤ maxSizeOfCloudTopic - 1 ∧ 0 ≤ published := by
  unfold ShadowClient.publishOperationToCloud
  by_cases long : s.operationTopic.length > maxSizeOfCloudTopic - 1
  · have negative : ¬ 0 ≤ Mqtt.qcloudErrFailure := by decide
    rw [if_pos long]
    exact ⟨fun rc => absurd rc negative, fun accepts => absurd accepts.1 (Nat.not_le.mpr long)⟩
  · rw [if_neg long]
    exact ⟨fun rc => ⟨Nat.not_lt.mp long, rc⟩, fun accepts => accepts.2⟩

theorem publishOperationToCloud_requestList (jsonDoc : CStr) (published : Int) :
    (s.publishOperationToCloud jsonDoc published).2.requestList = s.requestList := by
  unfold ShadowClient.publishOperationToCloud
  split <;> rfl

theorem textOf_typedDoc (some_ : 1 ≤ jsonDoc.length) (method : Method) :
    textOf (typedDoc jsonDoc method behind) = insert jsonDoc (jsonNodeStr method) 1 := by
  have noNul : 0 ∉ jsonDoc.bytes.take 1 ++ (jsonNodeStr method).bytes ++ jsonDoc.bytes.drop 1 := by
    simp only [List.mem_append, not_or]
    exact ⟨⟨fun mem => jsonDoc.noNul (List.mem_of_mem_take mem), (jsonNodeStr method).noNul⟩,
      fun mem => jsonDoc.noNul (List.mem_of_mem_drop mem)⟩
  have bytes : (textOf (typedDoc jsonDoc method behind)).bytes =
      jsonDoc.bytes.take 1 ++ (jsonNodeStr method).bytes ++ jsonDoc.bytes.drop 1 := by
    have typed := cString_nul noNul (behind.drop (jsonNodeStr method).length)
    rw [List.append_assoc, List.append_assoc] at typed
    exact typed
  rw [insert, if_neg (Nat.not_lt.mpr some_)]
  cases same : textOf (typedDoc jsonDoc method behind) with
  | mk text noNul =>
    rw [same] at bytes
    cases bytes
    rfl

/-- The request in memory is the one on texts. -/
theorem doShadowRequestIn_refines (s : ShadowClient) (params : RequestParams) (jsonDoc : CStr)
    (behind : List UInt8) (env : RequestEnv) :
    (s.doShadowRequestIn params (docIn jsonDoc behind) (jsonDoc.length + 1 + behind.length) env).map
        (fun result => (result.rc, textOf result.jsonDoc, result.client)) =
      s.doShadowRequest params jsonDoc (jsonDoc.length + 1 + behind.length) env := by
  cases found : liteJsonValueOf clientTokenField jsonDoc env.tokenAllocated with
  | error fault =>
    rw [ShadowClient.doShadowRequestIn, textOf_docIn, ShadowClient.doShadowRequest, found]
    rfl
  | ok token =>
    cases token with
    | none =>
      rw [ShadowClient.doShadowRequestIn, textOf_docIn, ShadowClient.doShadowRequest, found]
      show Except.ok (_, textOf (docIn jsonDoc behind), s) = _
      rw [textOf_docIn]
      rfl
    | some token =>
      have typed : setShadowJsonType jsonDoc (jsonDoc.length + 1 + behind.length) params.method =
          if (jsonNodeStr params.method).length < behind.length then
            (Mqtt.qcloudRetSuccess, insert jsonDoc (jsonNodeStr params.method) 1)
          else (Mqtt.qcloudErrInval, jsonDoc) := by
        unfold setShadowJsonType
        dsimp only
        rw [sizeSub_remain]
        by_cases fits : (jsonNodeStr params.method).length < behind.length
        · rw [if_neg (Nat.not_le.mpr fits), if_pos fits]
        · rw [if_pos (Nat.not_lt.mp fits), if_neg fits]
      have whole : s.doShadowRequest params jsonDoc (jsonDoc.length + 1 + behind.length) env =
          .ok (s.sendRequest (textOf token) params jsonDoc (jsonDoc.length + 1 + behind.length)
            env) := by
        rw [ShadowClient.doShadowRequest, found]
        rfl
      rw [doShadowRequestIn_of_token found, whole]
      show Except.ok _ = Except.ok _
      congr 1
      unfold ShadowClient.sendRequest
      rw [typed]
      by_cases fits : (jsonNodeStr params.method).length < behind.length
      · rw [if_pos fits, if_pos fits]
        dsimp only
        rw [textOf_typedDoc (length_of_token found)]
        rw [if_neg (not_not.mpr rfl)]
        by_cases published : 0 ≤ (s.publishOperationToCloud
            (insert jsonDoc (jsonNodeStr params.method) 1) env.published).1
        · rw [if_pos published, if_neg (Int.not_lt.mpr published)]
        · rw [if_neg published, if_pos (Int.not_le.mp published)]
      · rw [if_neg fits, if_neg fits]
        dsimp only
        rw [textOf_docIn, if_pos inval_ne]

/-- With a token in its document, a request leaves nothing exactly if it is accepted. -/
theorem leavesNothing_of_token
    (found : liteJsonValueOf clientTokenField jsonDoc env.tokenAllocated = .ok (some clientToken)) :
    RefusedLeavesNothing s params jsonDoc behind env ↔ s.Accepts params behind env := by
  have request := @doShadowRequestIn_of_token s params jsonDoc behind env clientToken found
  constructor
  · rintro ⟨result, run, refused, _⟩
    rw [request] at run
    by_cases fits : (jsonNodeStr params.method).length < behind.length
    · rw [if_pos fits] at run
      cases run
      have succeeded := not_not.mp fun failed =>
        typedDoc_ne params.method (refused failed).2.2.1
      dsimp only at succeeded
      by_cases published : 0 ≤ (s.publishOperationToCloud
          (textOf (typedDoc jsonDoc params.method behind)) env.published).1
      · rw [if_pos published, addRequestToList_rc, publishOperationToCloud_requestList] at succeeded
        obtain ⟨topic, publishing⟩ := (publishOperationToCloud_rc _ _).mp published
        exact ⟨fits, topic, publishing, succeeded.1, succeeded.2.1, succeeded.2.2⟩
      · rw [if_neg published] at succeeded
        rw [succeeded] at published
        exact absurd (by decide) published
    · rw [if_neg fits] at run
      cases run
      cases (refused inval_ne).2.2.2
  · intro accepts
    rw [if_pos accepts.fits] at request
    have published : 0 ≤ (s.publishOperationToCloud
        (textOf (typedDoc jsonDoc params.method behind)) env.published).1 :=
      (publishOperationToCloud_rc _ _).mpr ⟨accepts.topic, accepts.published⟩
    refine ⟨_, request, fun failed => absurd ?_ failed, fun _ => ⟨rfl, ?_, _, rfl⟩⟩
    · dsimp only
      rw [if_pos published, addRequestToList_rc, publishOperationToCloud_requestList]
      exact ⟨accepts.room, accepts.requestAllocated, accepts.nodeAllocated⟩
    · exact length_typedDoc (length_of_token found) params.method accepts.fits

end Request

/-- The document `{"clientToken":"t"}`. -/
def tokenDoc : CStr :=
  ⟨[123, 34, 99, 108, 105, 101, 110, 116, 84, 111, 107, 101, 110, 34, 58, 34, 116, 34, 125],
    by decide⟩

theorem tokenDoc_token : ∃ token, liteJsonValueOf clientTokenField tokenDoc true = .ok (some token) :=
  ⟨_, show liteJsonValueOf clientTokenField tokenDoc true = .ok (some [116]) from by
    with_unfolding_all decide⟩

/-- A client with as many requests as there may be. -/
def fullClient : ShadowClient where
  shadowType := .shadow
  productId := ⟨[112], CStr.noNul_p⟩
  deviceName := ⟨[100], CStr.noNul_d⟩
  requestList := List.replicate maxAppendingRequest ⟨0, strncpy maxSizeOfClientToken ⟨[117], by
      decide⟩,
    [], .get, 0, ⟨0⟩, none⟩
  shadowRecvBuf := ⟨[], CStr.noNul_nil⟩
  allocated := 10
  history := []

/-- Everything succeeds. -/
def wholeEnv : RequestEnv := ⟨true, 0, true, true, 0, []⟩

end QcloudIot.Shadow
