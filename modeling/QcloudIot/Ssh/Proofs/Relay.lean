import QcloudIot.Ssh.Proofs.Sessions

/-!
# What the relay forwards

A message is handled well if the fields that its type needs are there, its answer fits into a packet
and its payload has the length that the header tells.
-/

namespace QcloudIot.Ssh.Proxy

open Mqtt (CStr)
open Json (bind_ok)
open Http (atoi)

variable {proxy after : Proxy} {message : List UInt8} {token len : CStr} {env : Env}
  {i : Fin localSshCountMax}

/-! ## The claim and its condition -/

/-- The bytes written since `proxy` are those behind the first CRLF, as many as the header tells,
    and they go to the slot with the token of the message. -/
def Forwarded (proxy after : Proxy) (message : List UInt8) (token len : CStr) : Prop :=
  ∃ writes, after.written = proxy.written ++ writes ∧ ∀ write ∈ writes, write.2 ≠ [] →
    ∃ place, strstr crlf message = some place ∧ 0 ≤ atoi len.bytes ∧
      place + 2 + atoi len.bytes ≤ message.length ∧
      write.2 = (message.drop (place + 2)).take (atoi len.bytes).toNat ∧
      token.bytes ≠ [] ∧ (proxy.slots write.1).text = token

/-- No missing field is read and no memory is left, and bytes are written as the message tells. -/
def ForwardsRight (proxy : Proxy) (message : List UInt8) (env : Env) : Prop :=
  ∃ after, proxy.recvMsgCallback message env = .ok after ∧
    ((∃ token len, headerField tokenKey message env.tokenAllocated = .ok (some token) ∧
        headerField payloadLenKey message env.lenAllocated = .ok (some len) ∧
        proxy.Forwarded after message token len) ∨
      after.written = proxy.written)

/-- The payload has the length told, or nothing is to be written. -/
def DataFits (message : List UInt8) (token len : CStr) : Prop :=
  atoi len.bytes = 0 ∨ token.bytes ≠ [] ∧ 0 < atoi len.bytes ∧
    ∃ place, delimiter message = some place ∧ place + 2 + atoi len.bytes ≤ message.length

/-- What a message of a type needs. -/
def Complete (proxy : Proxy) (message : List UInt8) (msgType : Int) (token len : Option CStr)
    (env : Env) : Prop :=
  if msgType = newSession then
    ∃ text, token = some text ∧ proxy.AnswerFits text newSessionResp
      (if proxy.findFree ≠ none ∧ env.initialized = true then qcloudRetSuccess
      else qcloudErrFailure) env
  else if msgType = releaseSession then
    ∃ text, token = some text ∧ proxy.AnswerFits text releaseSessionResp qcloudRetSuccess env ∧
      ∀ i, proxy.findSlot text = some i → (proxy.slots i).localSshNetworkStack.ready = true
  else if msgType = sshRawdata then
    ∃ text number, token = some text ∧ len = some number ∧ ∀ i, proxy.findSlot text = some i →
      (proxy.slots i).localSshNetworkStack.ready = true ∧
        ((proxy.slots i).connected = true ∨ env.connects = true → DataFits message text number)
  else True

/-- The header can be searched, and a message with a type has what the type needs. -/
def Handleable (proxy : Proxy) (message : List UInt8) (env : Env) : Prop :=
  ∃ msgType token len, headerField msgTypeKey message env.typeAllocated = .ok msgType ∧
    headerField tokenKey message env.tokenAllocated = .ok token ∧
    headerField payloadLenKey message env.lenAllocated = .ok len ∧
    ∀ text, msgType = some text → proxy.Complete message (atoi text.bytes) token len env

/-! ## The payload -/

theorem cString_isPrefix (message : List UInt8) : cString (message ++ [0]) <+: message := by
  by_cases nul : 0 ∈ message
  · obtain ⟨text, behind, rfl, noNul⟩ := List.eq_append_cons_of_mem nul
    rw [List.append_assoc, List.cons_append, cString_nul noNul]
    exact List.prefix_append _ _
  · rw [cString_nul nul]

/-- The delimiter is the first CRLF, and what follows it lies inside the message. -/
theorem strstr_of_delimiter {place : Nat} (found : delimiter message = some place) :
    strstr crlf message = some place ∧ place + 2 ≤ message.length := by
  have nonempty : crlf ≠ [] := by decide
  obtain ⟨behind, whole⟩ := cString_isPrefix message
  have within := strstr_within nonempty found
  have first := @strstr_append _ _ _ _ behind _ nonempty found
  rw [whole] at first
  refine ⟨first, ?_⟩
  have length := congrArg List.length whole
  rw [List.length_append] at length
  have two : crlf.length = 2 := rfl
  omega

/-- The bytes of the payload, where their number is right. -/
theorem take_payload {place : Nat} {number : Int} (found : delimiter message = some place)
    (fits : place + 2 + number ≤ message.length) :
    ((message ++ [0]).drop (place + 2)).take number.toNat =
      (message.drop (place + 2)).take number.toNat := by
  have inside := (strstr_of_delimiter found).2
  rw [List.drop_append_of_le_length inside, List.take_append_of_le_length]
  rw [List.length_drop]
  omega

/-! ## Writing -/

theorem forwarded_of_written (same : after.written = proxy.written) :
    proxy.Forwarded after message token len :=
  ⟨[], by rw [same, List.append_nil], fun _ member => absurd member List.not_mem_nil⟩

/-- A write forwards the payload exactly if it has the length told. -/
theorem networkWrite_iff (open_ : Proxy) (same : open_.written = proxy.written)
    (named : (proxy.slots i).text = token) :
    (∃ after, open_.networkWrite i (payloadMemory message) (atoi len.bytes) = .ok after ∧
        proxy.Forwarded after message token len) ↔
      (open_.slots i).localSshNetworkStack.ready = true ∧ DataFits message token len := by
  unfold networkWrite
  cases ready : (open_.slots i).localSshNetworkStack.ready with
  | false =>
    constructor
    · rintro ⟨_, crashed, _⟩
      cases crashed
    · rintro ⟨isReady, _⟩
      cases isReady
  | true =>
    simp only [Bool.not_true, Bool.false_eq_true, if_false, true_and]
    by_cases zero : atoi len.bytes = 0
    · simp only [if_pos zero]
      refine iff_of_true ⟨_, rfl, [(i, [])], by rw [same], ?_⟩ (Or.inl zero)
      intro write member some
      rw [List.mem_singleton.mp member] at some
      exact absurd rfl some
    · simp only [if_neg zero, payloadMemory]
      cases found : delimiter message with
      | none =>
        refine iff_of_false ?_ ?_
        · rintro ⟨_, crashed, _⟩
          cases crashed
        · rintro (isZero | ⟨_, _, place, isPlace, _⟩)
          · exact zero isZero
          · rw [found] at isPlace
            cases isPlace
      | some place =>
        obtain ⟨first, inside⟩ := strstr_of_delimiter found
        have length : ((message ++ [0]).drop (place + 2)).length =
            message.length + 1 - (place + 2) := by
          rw [List.length_drop, List.length_append, List.length_singleton]
        simp only [Option.map_some, length]
        constructor
        · rintro ⟨after, wrote, writes, isWritten, right⟩
          split_ifs at wrote with bounds
          cases wrote
          rw [same, List.append_cancel_left_eq] at isWritten
          have some : ((message ++ [0]).drop (place + 2)).take (atoi len.bytes).toNat ≠ [] := by
            rw [← List.length_pos_iff, List.length_take, length]
            omega
          obtain ⟨other, isFirst, _, fits, _, nonempty, _⟩ := right
            (i, ((message ++ [0]).drop (place + 2)).take (atoi len.bytes).toNat)
            (by rw [← isWritten]; exact List.mem_singleton_self _) some
          rw [first] at isFirst
          cases isFirst
          exact Or.inr ⟨nonempty, by omega, place, found, fits⟩
        · rintro (isZero | ⟨nonempty, positive, other, isPlace, fits⟩)
          · exact absurd isZero zero
          · rw [found] at isPlace
            cases isPlace
            rw [if_pos ⟨by omega, by omega⟩]
            refine ⟨_, rfl, _, by rw [same], ?_⟩
            intro write member _
            rw [List.mem_singleton.mp member]
            exact ⟨place, first, by omega, fits, take_payload found fits, nonempty, named⟩

/-! ## Answers -/

/-- An answer is sent exactly if the message has a token with which it fits. -/
theorem procResp_iff {msgType ret : Int} {field : Option CStr} :
    (∃ after, proxy.procResp field msgType ret env = .ok after) ↔
      ∃ text, field = some text ∧ proxy.AnswerFits text msgType ret env := by
  cases field with
  | none =>
    refine iff_of_false ?_ ?_
    · rintro ⟨_, crashed⟩
      cases crashed
    · rintro ⟨_, missing, _⟩
      cases missing
  | some text =>
    constructor
    · rintro ⟨after, answered⟩
      refine ⟨text, rfl, ?_⟩
      by_contra large
      rw [AnswerFits, not_le] at large
      simp only [procResp, gt_iff_lt, if_pos large] at answered
      cases answered
    · rintro ⟨other, same, fits⟩
      cases same
      obtain ⟨after, answered, -⟩ := procResp_fits fits
      exact ⟨after, answered⟩

theorem written_of_procResp {msgType ret : Int} {field : Option CStr}
    (answered : proxy.procResp field msgType ret env = .ok after) :
    after.slots = proxy.slots ∧ after.written = proxy.written := by
  obtain ⟨text, rfl, fits⟩ := procResp_iff.mp ⟨after, answered⟩
  obtain ⟨other, sent, slots, -, -, -, written⟩ := procResp_fits fits
  rw [answered] at sent
  cases sent
  exact ⟨slots, written⟩

/-- A session is closed if the functions of its network are set. -/
theorem localSshDestory_ready
    (ready : ∀ i, proxy.findSlot token = some i →
      (proxy.slots i).localSshNetworkStack.ready = true) :
    ∃ ret after, proxy.localSshDestory token = .ok (ret, after) ∧
      after.written = proxy.written := by
  unfold localSshDestory
  dsimp only
  cases found : proxy.findSlot token with
  | none => exact ⟨_, _, rfl, rfl⟩
  | some i =>
    simp only [localSshDeinit, ready i found, if_true]
    exact ⟨_, _, rfl, rfl⟩

theorem ready_of_localSshDestory {ret : Int}
    (closed : proxy.localSshDestory token = .ok (ret, after)) (found : proxy.findSlot token = some i) :
    (proxy.slots i).localSshNetworkStack.ready = true := by
  by_contra off
  unfold localSshDestory at closed
  simp only [found, localSshDeinit, if_neg off] at closed
  cases closed

/-- The slot that a token names depends on the strings of the slots alone. -/
theorem findSlot_congr {other : Proxy} (same : ∀ j, (other.slots j).text = (proxy.slots j).text) :
    other.findSlot token = proxy.findSlot token := by
  unfold findSlot
  simp only [same]

/-- A connection cannot be opened: the peer is told and the session is closed. -/
theorem giveUp_written (session : Slot) (same : session.text = (proxy.slots i).text)
    (ready : session.localSshNetworkStack.ready = true)
    (found : proxy.findSlot token = some i) :
    ∃ after, (do
      let proxy ← (proxy.setSlot i session).procNewsessionResp
        ((proxy.setSlot i session).slots i).text qcloudErrFailure env
      let (_, proxy) ← proxy.localSshDestory (proxy.slots i).text
      return proxy) = Except.ok after ∧ after.written = proxy.written := by
  have here : (proxy.setSlot i session).slots i = session := setSlot_self _ _ _
  have texts : ∀ j, ((proxy.setSlot i session).slots j).text = (proxy.slots j).text := by
    intro j
    by_cases isHere : j = i
    · rw [isHere, here, same]
    · rw [setSlot_of_ne _ _ isHere]
  have fits := @answerFits_of_short _ env (proxy.setSlot i session)
    (length_text_le ((proxy.setSlot i session).slots i)) (-1001)
  obtain ⟨told, answered, slots, -, -, -, written⟩ := procResp_fits fits
  have isToken : (told.slots i).text = token := by
    rw [slots, texts i]
    exact text_of_findSlot found
  obtain ⟨code, after, closed, writtenAfter⟩ := @localSshDestory_ready told (told.slots i).text (by
      intro j foundThere
      rw [isToken, @findSlot_congr proxy _ _ (by rw [slots]; exact texts), found] at foundThere
      cases foundThere
      rw [slots, here, ready])
  refine ⟨after, ?_, writtenAfter.trans written⟩
  rw [procNewsessionResp]
  change (Except.bind _ _) = _
  rw [show (proxy.setSlot i session).procResp ((proxy.setSlot i session).slots i).text
    newSessionResp qcloudErrFailure env = .ok told from answered]
  simp only [Except.bind, bind, closed]
  rfl

/-! ## Messages -/

/-- Data are forwarded to a session exactly if its network is set and their length is right. -/
theorem localSshSend_iff :
    (∃ after, proxy.localSshSend token (payloadMemory message) (atoi len.bytes) env = .ok after ∧
        proxy.Forwarded after message token len) ↔
      ∀ i, proxy.findSlot token = some i →
        (proxy.slots i).localSshNetworkStack.ready = true ∧
          ((proxy.slots i).connected = true ∨ env.connects = true →
            DataFits message token len) := by
  unfold localSshSend
  dsimp only
  cases found : proxy.findSlot token with
  | none =>
    refine iff_of_true ⟨proxy, rfl, forwarded_of_written rfl⟩ ?_
    intro i absent
    cases absent
  | some i =>
    have named := text_of_findSlot found
    simp only [Option.some.injEq, forall_eq']
    cases connected : (proxy.slots i).connected with
    | true =>
      rw [if_pos rfl, networkWrite_iff proxy rfl named]
      simp only [true_or, forall_true_left]
    | false =>
      simp only [Bool.false_eq_true, if_false, false_or, localSshConnect]
      cases ready : (proxy.slots i).localSshNetworkStack.ready with
      | false =>
        refine iff_of_false ?_ ?_
        · rintro ⟨_, crashed, _⟩
          cases crashed
        · rintro ⟨isReady, _⟩
          cases isReady
      | true =>
        simp only [Bool.not_true, Bool.false_eq_true, if_false, true_and]
        cases connects : env.connects with
        | true =>
          simp only [if_true, forall_true_left, bind, Except.bind]
          refine (networkWrite_iff _ ?_ named).trans ?_
          · rfl
          · simp only [setSlot, Function.update_self, true_and]
        | false =>
          simp only [Bool.false_eq_true, if_false, false_implies, iff_true]
          have same : ({ proxy.slots i with localSshNetworkStack := ⟨true, none⟩ } : Slot).text =
              (proxy.slots i).text := rfl
          obtain ⟨after, gaveUp, written⟩ := @giveUp_written _ _ env _ _ same rfl found
          exact ⟨after, gaveUp, forwarded_of_written written⟩

/-- `QCLOUD_RET_SUCCESS <= ret` tells success from failure. -/
theorem code_of_ret (success : Prop) [Decidable success] :
    (if qcloudRetSuccess ≤ (if success then qcloudRetSuccess else qcloudErrFailure) then
      qcloudRetSuccess else qcloudErrFailure) =
      if success then qcloudRetSuccess else qcloudErrFailure := by
  by_cases isSuccess : success
  · simp only [if_pos isSuccess, le_refl, if_true]
  · simp only [if_neg isSuccess, if_neg (show ¬qcloudRetSuccess ≤ qcloudErrFailure by decide)]

/-- The code of `_local_ssh_create`, which only changes the table. -/
theorem localSshCreate_spec (proxy : Proxy) (field : Option CStr) (env : Env) :
    ∃ ret created, proxy.localSshCreate field env = (ret, created) ∧
      created.written = proxy.written ∧ created.nonce = proxy.nonce ∧ ∀ text, field = some text →
        ret = if proxy.findFree ≠ none ∧ env.initialized = true then qcloudRetSuccess
          else qcloudErrFailure := by
  unfold localSshCreate
  cases field with
  | none => exact ⟨_, _, rfl, rfl, rfl, fun _ absent => by cases absent⟩
  | some text =>
    cases proxy.findFree with
    | none => exact ⟨_, _, rfl, rfl, rfl, fun _ _ => rfl⟩
    | some i =>
      cases initialized : env.initialized with
      | true => exact ⟨_, _, rfl, rfl, rfl, fun _ _ => by simp⟩
      | false => exact ⟨_, _, rfl, rfl, rfl, fun _ _ => by simp⟩

/-- A new session ends in its answer. -/
theorem procNewsession_eq (proxy : Proxy) (field : Option CStr) (env : Env) :
    proxy.procNewsession field env =
      (proxy.localSshCreate field env).2.procResp field newSessionResp
        (if qcloudRetSuccess ≤ (proxy.localSshCreate field env).1 then qcloudRetSuccess
        else qcloudErrFailure) env := by
  unfold procNewsession
  dsimp only
  split_ifs
  · rfl
  · rfl

theorem written_of_procNewsession {field : Option CStr}
    (handled : proxy.procNewsession field env = .ok after) : after.written = proxy.written := by
  obtain ⟨ret, created, isCreated, written, -⟩ := localSshCreate_spec proxy field env
  rw [procNewsession_eq, isCreated] at handled
  exact (written_of_procResp handled).2.trans written

/-- A new session is answered exactly if there is a token with which the answer fits. -/
theorem procNewsession_iff {field : Option CStr} :
    (∃ after, proxy.procNewsession field env = .ok after) ↔
      ∃ text, field = some text ∧ proxy.AnswerFits text newSessionResp
        (if proxy.findFree ≠ none ∧ env.initialized = true then qcloudRetSuccess
        else qcloudErrFailure) env := by
  obtain ⟨ret, created, isCreated, -, nonce, isRet⟩ := localSshCreate_spec proxy field env
  rw [procNewsession_eq, isCreated, procResp_iff]
  apply exists_congr
  intro text
  apply and_congr_right
  intro isText
  unfold AnswerFits
  rw [nonce, isRet text isText, code_of_ret]

/-- What a released session leaves. -/
theorem written_of_procReleasesession {field : Option CStr}
    (handled : proxy.procReleasesession field env = .ok after) :
    after.written = proxy.written := by
  obtain ⟨told, answered, handled⟩ := bind_ok handled
  obtain ⟨⟨code, other⟩, closed, handled⟩ := bind_ok handled
  cases handled
  obtain ⟨text, rfl, -⟩ := procResp_iff.mp ⟨told, answered⟩
  obtain ⟨code', same, closed', written⟩ :=
    localSshDestory_ready fun i found => ready_of_localSshDestory closed found
  rw [closed] at closed'
  cases closed'
  exact written.trans (written_of_procResp answered).2

theorem procReleasesession_iff {field : Option CStr} :
    (∃ after, proxy.procReleasesession field env = .ok after) ↔
      ∃ text, field = some text ∧ proxy.AnswerFits text releaseSessionResp qcloudRetSuccess env ∧
        ∀ i, proxy.findSlot text = some i →
          (proxy.slots i).localSshNetworkStack.ready = true := by
  constructor
  · rintro ⟨after, released⟩
    obtain ⟨told, answered, released⟩ := bind_ok released
    obtain ⟨⟨code, other⟩, closed, -⟩ := bind_ok released
    obtain ⟨text, rfl, fits⟩ := procResp_iff.mp ⟨told, answered⟩
    obtain ⟨slots, -⟩ := written_of_procResp answered
    refine ⟨text, rfl, fits, ?_⟩
    intro i found
    have foundTold : told.findSlot text = some i := by
      rw [findSlot, slots]
      exact found
    rw [← slots]
    exact ready_of_localSshDestory closed foundTold
  · rintro ⟨text, rfl, fits, ready⟩
    obtain ⟨told, answered, slots, -⟩ := procResp_fits fits
    have readyTold : ∀ i, told.findSlot text = some i →
        (told.slots i).localSshNetworkStack.ready = true := by
      intro i found
      rw [findSlot, slots] at found
      rw [slots]
      exact ready i found
    obtain ⟨code, after, closed, -⟩ := localSshDestory_ready readyTold
    refine ⟨after, ?_⟩
    rw [procReleasesession, procReleasesessionResp, answered]
    simp only [bind, Except.bind, closed]
    rfl

/-- What a message with these fields leaves is what it should. -/
def HandledWell (proxy : Proxy) (message : List UInt8) (token len : Option CStr)
    (result : Except Crash Proxy) : Prop :=
  ∃ after, result = .ok after ∧
    ((∃ text number, token = some text ∧ len = some number ∧
        proxy.Forwarded after message text number) ∨
      after.written = proxy.written)

/-- Where nothing is ever written, no crash is all that is asked for. -/
theorem handledWell_iff {result : Except Crash Proxy} {field number : Option CStr}
    (keeps : ∀ {after}, result = .ok after → after.written = proxy.written) :
    proxy.HandledWell message field number result ↔ ∃ after, result = .ok after :=
  ⟨fun ⟨after, handled, _⟩ => ⟨after, handled⟩,
    fun ⟨after, handled⟩ => ⟨after, handled, Or.inr (keeps handled)⟩⟩

/-- A message of a type is handled well exactly if it has what the type needs. -/
theorem procMsg_iff {msgType : Int} {field number : Option CStr} :
    proxy.HandledWell message field number
        (proxy.procMsg msgType field number (payloadMemory message) env) ↔
      proxy.Complete message msgType field number env := by
  unfold procMsg Complete
  by_cases isNew : msgType = newSession
  · simp only [if_pos isNew]
    rw [handledWell_iff written_of_procNewsession, procNewsession_iff]
  by_cases isRelease : msgType = releaseSession
  · simp only [if_neg isNew, if_pos isRelease]
    rw [handledWell_iff written_of_procReleasesession, procReleasesession_iff]
  by_cases isData : msgType = sshRawdata
  · have noPong : ¬msgType = cmdPong := by
      rw [isData]
      decide
    simp only [if_neg isNew, if_neg isRelease, if_neg noPong, if_pos isData]
    cases number with
    | none =>
      refine iff_of_false ?_ ?_
      · rintro ⟨_, crashed, _⟩
        cases crashed
      · rintro ⟨_, _, _, absent, _⟩
        cases absent
    | some number =>
      cases field with
      | none =>
        refine iff_of_false ?_ ?_
        · rintro ⟨_, crashed, _⟩
          cases crashed
        · rintro ⟨_, _, absent, _⟩
          cases absent
      | some text =>
        constructor
        · rintro ⟨after, handled, forwarded⟩
          refine ⟨text, number, rfl, rfl, localSshSend_iff.mp ⟨after, handled, ?_⟩⟩
          rcases forwarded with ⟨_, _, isText, isNumber, forwarded⟩ | same
          · cases isText
            cases isNumber
            exact forwarded
          · exact forwarded_of_written same
        · rintro ⟨_, _, isText, isNumber, fits⟩
          cases isText
          cases isNumber
          obtain ⟨after, handled, forwarded⟩ := localSshSend_iff.mpr fits
          exact ⟨after, handled, Or.inl ⟨text, number, rfl, rfl, forwarded⟩⟩
  · simp only [if_neg isNew, if_neg isRelease, if_neg isData, iff_true]
    split_ifs
    · exact ⟨_, rfl, Or.inr rfl⟩
    · exact ⟨_, rfl, Or.inr rfl⟩
    · exact ⟨_, rfl, Or.inr rfl⟩

/-- `{"msgType":6,"payloadLen":1}` with one byte behind it. -/
def namelessData : List UInt8 :=
  Shadow.ascii ['{', '"', 'm', 's', 'g', 'T', 'y', 'p', 'e', '"', ':', '6', ',', '"', 'p', 'a', 'y',
    'l', 'o', 'a', 'd', 'L', 'e', 'n', '"', ':', '1', '}'] ++ [13, 10, 120]

end QcloudIot.Ssh.Proxy
