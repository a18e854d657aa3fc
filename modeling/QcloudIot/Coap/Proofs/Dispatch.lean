import QcloudIot.Coap.Client
import QcloudIot.Coap.Proofs.RoundTrip

/-!
# What a datagram makes the client do

A datagram that is refused has no effect, whichever stage refuses it. The only message that
a datagram makes the client write answers a confirmable 2.05 response, and it is not an
empty acknowledgement: its code is that of a POST.
-/

namespace QcloudIot.Coap

/-! ## Refused datagrams -/

/-- What the deserializer leaves: nothing if a stage fails, else a message that is checked. -/
theorem deserializeCoapMessage_result {alloc : Nat → Bool} {msg m : CoapMessage}
    {buf : List UInt8} {len : Nat} {rc : Int}
    (read : deserializeCoapMessage alloc msg buf len = .ok (rc, m)) :
    m = .zero ∨ rc = coapMsgCheck m := by
  simp only [deserializeCoapMessage, bind, Except.bind, pure, Except.pure] at read
  cases header : coapMessageDeserializeHeader msg buf len with
  | error fault => simp only [header, reduceCtorEq] at read
  | ok stage =>
    simp only [header] at read
    cases stage with
    | error failed =>
      cases read
      exact .inl rfl
    | ok next =>
      obtain ⟨tokenLen, first, p, left⟩ := next
      simp only at read
      cases token : coapMessageDeserializeToken tokenLen first p left with
      | error fault => simp only [token, reduceCtorEq] at read
      | ok stage =>
        simp only [token] at read
        cases stage with
        | error failed =>
          cases read
          exact .inl rfl
        | ok next =>
          obtain ⟨second, p, left⟩ := next
          simp only at read
          cases options : coapMessageDeserializeOptions alloc left 0 second p left with
          | error fault => simp only [options, reduceCtorEq] at read
          | ok stage =>
            simp only [options] at read
            cases stage with
            | error failed =>
              cases read
              exact .inl rfl
            | ok next =>
              obtain ⟨third, p, left⟩ := next
              simp only at read
              cases payload : coapMessageDeserializePayload alloc third.opList.length third p left with
              | error fault => simp only [payload, reduceCtorEq] at read
              | ok stage =>
                simp only [payload] at read
                cases stage with
                | error failed =>
                  cases read
                  exact .inl rfl
                | ok next =>
                  cases read
                  exact .inr rfl

/-- A message that the check refuses is empty or a reset. -/
theorem coapMsgCheck_failed {m : CoapMessage} (failed : coapMsgCheck m ≠ qcloudRetSuccess) :
    m.IsEmpty ∨ m.type = .rst := by
  by_contra neither
  rw [not_or, CoapMessage.IsEmpty] at neither
  rw [coapMsgCheck, if_neg neither.1, if_neg neither.2] at failed
  exact failed rfl

/-- An empty message and a reset are not dispatched. -/
theorem CoapClient.dispatch_none {m : CoapMessage} (s : CoapClient) (env : CycleEnv)
    (none : m.IsEmpty ∨ m.type = .rst) : s.dispatch m env = s := by
  rcases none with empty | reset
  · have notAck : ¬ m.IsEmptyAck := fun isAck => absurd (empty.1.symm.trans isAck.1) (by decide)
    have notRsp : ¬ m.IsEmptyRsp := fun isRsp => absurd (empty.1.symm.trans isRsp.1) (by decide)
    rw [dispatch, if_neg (fun ack => notAck ack.2), if_neg (fun piggy => piggy.2 empty),
      if_neg (fun con => notRsp con.2), if_neg (fun non => notRsp non.2)]
  · have notAck : m.type ≠ .ack := by
      rw [reset]
      decide
    have notCon : m.type ≠ .con := by
      rw [reset]
      decide
    have notNon : m.type ≠ .non := by
      rw [reset]
      decide
    rw [dispatch, if_neg (fun ack => notAck ack.1), if_neg (fun piggy => notAck piggy.1),
      if_neg (fun con => notCon con.1), if_neg (fun non => notNon non.1)]

/-- A datagram that is refused leaves the client as it was. -/
theorem coapMessageHandle_refused {s : CoapClient} {datalen : Nat} {env : CycleEnv} {rc : Int}
    {m : CoapMessage}
    (read : deserializeCoapMessage env.alloc .zero s.recvBuf datalen = .ok (rc, m))
    (failed : rc ≠ qcloudRetSuccess) : s.coapMessageHandle datalen env = .ok s := by
  have dispatched : s.dispatch m env = s := by
    apply s.dispatch_none env
    rcases deserializeCoapMessage_result read with zero | checked
    · rw [zero]
      exact .inl ⟨rfl, rfl⟩
    · rw [checked] at failed
      exact coapMsgCheck_failed failed
  simp only [CoapClient.coapMessageHandle, read, bind, Except.bind, pure, Except.pure, dispatched]

/-- A client without requests. -/
def idleClient (recvBuf : List UInt8) : CoapClient where
  sendBufSize := 512
  readBufSize := 512
  recvBuf
  commandTimeoutMs := 500
  messageList := []
  maxRetryCount := 5
  eventHandle := none
  requests := 0
  history := []

/-- Surroundings in which everything succeeds at the time 0. -/
def calm : CycleEnv where
  readRc := qcloudRetSuccess
  datagram := []
  alloc := fun _ => true
  ack :=
    { rc := 0
      written := 4
      infoAllocated := true
      messageAllocated := true
      nodeAllocated := true
      now := 0 }
  proc := { iterator := true, now := fun _ => 0, restart := fun _ => 0, rc := fun _ => 0 }
  sweep := { iterator := true, now := fun _ => 0, restart := fun _ => 0, rc := fun _ => 0 }

/-- A reset with the code of a request: the check at the end refuses it. -/
theorem coapMessageHandle_refused_reset :
    (idleClient [0x70, 1, 0x12, 0x34, 0xFF, 0]).coapMessageHandle 6 calm =
      .ok (idleClient [0x70, 1, 0x12, 0x34, 0xFF, 0]) :=
  @coapMessageHandle_refused (idleClient [0x70, 1, 0x12, 0x34, 0xFF, 0]) 6 calm
    qcloudErrCoapDataSize
    { CoapMessage.zero with
      version := 1
      type := .rst
      codeDetail := 1
      msgId := 0x1234
      payload := [0] }
    rfl (by decide)

/-! ## Acknowledgements -/

/-- The messages written. -/
def writes (events : List Event) : List (Option (List UInt8)) :=
  events.filterMap fun event =>
    match event with
    | .write _ bytes _ => some bytes
    | _ => none

/-- Type ACK, code 0.00, no token, no options and no payload. -/
def emptyAck (msgId : Nat) : List UInt8 :=
  [0x60, 0, UInt8.ofNat (msgId / 256), UInt8.ofNat (msgId % 256)]

/-- The message has the type ACK. -/
def IsAck : Option (List UInt8) → Prop
  | some (b :: _) => (b.toNat >>> 4) &&& 3 = CoapMsgType.ack.toNat
  | _ => False

/-- A datagram that is read as a confirmable message of class 2, 4 or 5. -/
def ConfirmableResponse (rc : Int) (m : CoapMessage) : Prop :=
  rc = qcloudRetSuccess ∧ m.type = .con ∧ (m.codeClass = coapMsgSuccess ∨
    m.codeClass = coapMsgClientErr ∨ m.codeClass = coapMsgServerErr)

/-- A confirmable response is answered by an empty acknowledgement and nothing else, and no other
    datagram is acknowledged. -/
def CoapClient.AckedAsRequired (s : CoapClient) (datalen : Nat) (env : CycleEnv) : Prop :=
  ∃ rc m s' events, deserializeCoapMessage env.alloc .zero s.recvBuf datalen = .ok (rc, m) ∧
    s.coapMessageHandle datalen env = .ok s' ∧ s'.history = s.history ++ events ∧
    (ConfirmableResponse rc m → writes events = [some (emptyAck m.msgId)]) ∧
    (¬ ConfirmableResponse rc m → ∀ bytes ∈ writes events, ¬ IsAck bytes)

theorem writes_append (events more : List Event) :
    writes (events ++ more) = writes events ++ writes more := List.filterMap_append

/-- A traversal writes nothing if the command writes nothing at any node. -/
theorem visitList_writes {process : CoapMessage → CoapMsgSendInfo → Visit}
    (silent : ∀ message info, writes (process message info).events = [])
    (list : List CoapMsgSendInfo) (message : CoapMessage) :
    writes (visitList process list message).2.2 = [] := by
  induction list with
  | nil => rfl
  | cons info list ih =>
    rw [visitList, writes_append, ih, silent]
    rfl

/-- The messages written by a traversal are those written at the nodes. -/
theorem coapMessageListProc_writes {s : CoapClient} {message : CoapMessage} {env : ProcEnv}
    {process : CoapMessage → CoapMsgSendInfo → Visit}
    (silent : ∀ message info, writes (process message info).events = []) :
    ∃ events, (s.coapMessageListProc message env process).2.history = s.history ++ events ∧
      writes events = [] := by
  rw [CoapClient.coapMessageListProc]
  by_cases empty : s.messageList.length ≤ 0
  · rw [if_pos empty]
    exact ⟨[], (List.append_nil _).symm, rfl⟩
  · rw [if_neg empty]
    by_cases iterator : env.iterator = true
    · rw [if_neg (not_not.mpr iterator)]
      exact ⟨_, rfl, visitList_writes silent _ _⟩
    · rw [if_pos iterator]
      exact ⟨[], (List.append_nil _).symm, rfl⟩

theorem processAck_writes (s : CoapClient) (env : ProcEnv) (message : CoapMessage)
    (info : CoapMsgSendInfo) : writes (processAck s env message info).events = [] := by
  rw [processAck]
  split_ifs <;> rfl

theorem processResp_writes (s : CoapClient) (message : CoapMessage) (info : CoapMsgSendInfo) :
    writes (processResp s message info).events = [] := by
  rw [processResp]
  split_ifs
  · cases info.handler with
    | some handler => rfl
    | none => cases s.eventHandle <;> rfl
  · rfl

theorem processPiggy_writes (s : CoapClient) (message : CoapMessage) (info : CoapMsgSendInfo) :
    writes (processPiggy s message info).events = [] := by
  rw [processPiggy]
  split_ifs
  · cases info.handler with
    | some handler => rfl
    | none => cases s.eventHandle <;> rfl
  · rfl

/-- The default message with another type and identity keeps the code 0.02. -/
theorem encode_ack (msgId : Nat) :
    encode { defaultCoapMessage with type := .ack, msgId } =
      [0x60, 2, UInt8.ofNat ((msgId &&& 0xFF00) >>> 8), UInt8.ofNat (msgId &&& 0xFF)] := by
  have first : UInt8.ofNat (coapMsgVer <<< 6 ||| (CoapMsgType.ack.toNat &&& 3) <<< 4 |||
      (defaultCoapMessage.token.length &&& 15)) = 0x60 := by
    decide
  have second : UInt8.ofNat ((coapMsgReq &&& 7) <<< 5 ||| (coapMsgPost &&& 31)) = 2 := by
    decide
  rw [encode, encodeHeader, first]
  show (0x60 :: UInt8.ofNat ((coapMsgReq &&& 7) <<< 5 ||| (coapMsgPost &&& 31)) :: _ :: _ :: []) ++
    _ ++ _ ++ _ = _
  rw [second]
  rfl

/-- The acknowledgement that is sent has the code 0.02. -/
theorem coapClientSendAck_writes (s : CoapClient) (msgId : Nat) (env : SendEnv) :
    ∃ events, (s.coapClientSendAck msgId env).2.history = s.history ++ events ∧
      (events = [] ∨ ∃ hi lo, events = [.write none (some [0x60, 2, hi, lo]) env.rc]) := by
  rw [CoapClient.coapClientSendAck]
  split_ifs
  · exact ⟨[], (List.append_nil _).symm, .inl rfl⟩
  · rw [CoapClient.coapMessageSend]
    cases serialized : serializeCoapMessage { defaultCoapMessage with type := .ack, msgId }
        s.sendBufSize with
    | error rc => exact ⟨[], (List.append_nil _).symm, .inl rfl⟩
    | ok bytes =>
      have noRequest : ¬ CoapMessage.IsRequest { defaultCoapMessage with type := .ack, msgId } := by
        rintro ⟨con, _⟩
        cases con
      have isEncoded := serializeCoapMessage_eq serialized
      simp only [if_neg noRequest]
      rw [encode_ack] at isEncoded
      subst isEncoded
      exact ⟨_, rfl, .inr ⟨_, _, rfl⟩⟩

/-- Only a confirmable 2.05 response makes the client write a message, which has the code 0.02. -/
theorem CoapClient.dispatch_writes (s : CoapClient) (m : CoapMessage) (env : CycleEnv) :
    ∃ events, (s.dispatch m env).history = s.history ++ events ∧
      (writes events = [] ∨ m.type = .con ∧ m.IsEmptyRsp ∧
        ∃ hi lo, writes events = [some [0x60, 2, hi, lo]]) := by
  have response : m.IsEmptyRsp → ∃ events,
      (s.coapRespMessageHandle m env).history = s.history ++ events ∧
        (writes events = [] ∨ m.type = .con ∧ m.IsEmptyRsp ∧
          ∃ hi lo, writes events = [some [0x60, 2, hi, lo]]) := by
    intro isRsp
    rw [coapRespMessageHandle]
    by_cases con : m.type = .con
    · obtain ⟨sent, isSent, ack⟩ := coapClientSendAck_writes s m.msgId env.ack
      obtain ⟨events, isHistory, silent⟩ := @coapMessageListProc_writes
        (s.coapClientSendAck m.msgId env.ack).2 m env.proc
        (processResp (s.coapClientSendAck m.msgId env.ack).2) (processResp_writes _)
      refine ⟨sent ++ events, ?_, ?_⟩
      · simp only [if_pos con]
        rw [isHistory, isSent, List.append_assoc]
      · rw [writes_append, silent, List.append_nil]
        rcases ack with rfl | ⟨hi, lo, rfl⟩
        · exact .inl rfl
        · exact .inr ⟨con, isRsp, hi, lo, rfl⟩
    · simp only [if_neg con]
      obtain ⟨events, isHistory, silent⟩ :=
        @coapMessageListProc_writes s m env.proc (processResp s) (processResp_writes s)
      exact ⟨events, isHistory, .inl silent⟩
  rw [dispatch]
  split_ifs with ack piggy con non
  · obtain ⟨events, isHistory, silent⟩ :=
      @coapMessageListProc_writes s m env.proc _ (processAck_writes s env.proc)
    exact ⟨events, isHistory, .inl silent⟩
  · obtain ⟨events, isHistory, silent⟩ :=
      @coapMessageListProc_writes s m env.proc _ (processPiggy_writes s)
    exact ⟨events, isHistory, .inl silent⟩
  · exact response con.2
  · exact response non.2
  · exact ⟨[], (List.append_nil _).symm, .inl rfl⟩

/-- The client acknowledges as required exactly the datagrams that need no acknowledgement. -/
theorem ackedAsRequired_iff {s : CoapClient} {datalen : Nat} {env : CycleEnv} {rc : Int}
    {m : CoapMessage}
    (read : deserializeCoapMessage env.alloc .zero s.recvBuf datalen = .ok (rc, m)) :
    s.AckedAsRequired datalen env ↔ ¬ ConfirmableResponse rc m := by
  have handled : s.coapMessageHandle datalen env = .ok (s.dispatch m env) := by
    simp only [CoapClient.coapMessageHandle, read, bind, Except.bind, pure, Except.pure]
  obtain ⟨events, isHistory, wrote⟩ := s.dispatch_writes m env
  constructor
  · rintro ⟨rc', m', s', events', read', handled', isHistory', acked, _⟩ response
    cases read.symm.trans read'
    cases handled.symm.trans handled'
    have same : events = events' := List.append_cancel_left (isHistory.symm.trans isHistory')
    have required := acked response
    rw [← same] at required
    rcases wrote with none | ⟨_, _, hi, lo, wrong⟩
    · cases none.symm.trans required
    · cases wrong.symm.trans required
  · intro noResponse
    refine ⟨rc, m, _, events, read, handled, isHistory, fun response => absurd response noResponse,
      fun _ bytes mem => ?_⟩
    rcases wrote with none | ⟨con, isRsp, _⟩
    · rw [none] at mem
      cases mem
    · exfalso
      -- a 2.05 response is not refused by the check
      rcases deserializeCoapMessage_result read with zero | checked
      · rw [zero] at isRsp
        exact absurd isRsp.1 (by decide)
      · have notEmpty : ¬ (m.codeClass = 0 ∧ m.codeDetail = 0) := fun empty =>
          absurd (empty.1.symm.trans isRsp.1) (by decide)
        have notReset : m.type ≠ .rst := by
          rw [con]
          decide
        rw [coapMsgCheck, if_neg notEmpty, if_neg notReset] at checked
        exact noResponse ⟨checked, con, .inl isRsp.1⟩

/-- A piggybacked response needs no acknowledgement. -/
theorem ackedAsRequired_iff_piggybacked :
    (idleClient [0x61, 0x45, 0x12, 0x34, 7, 0xFF, 0x68, 0x69]).AckedAsRequired 8 calm :=
  (@ackedAsRequired_iff (idleClient [0x61, 0x45, 0x12, 0x34, 7, 0xFF, 0x68, 0x69]) 8 calm
    qcloudRetSuccess
    { CoapMessage.zero with
      version := 1
      type := .ack
      codeClass := 2
      codeDetail := 5
      msgId := 0x1234
      token := [7]
      payload := [0x68, 0x69] }
    rfl).mpr (fun response => absurd response.2.1 (by decide))

/-- A separate response is answered by an acknowledgement with the code of a POST. -/
theorem separateResponse_acked :
    (idleClient [0x41, 0x45, 0x12, 0x34, 7, 0xFF, 0x68, 0x69]).coapMessageHandle 8 calm =
        .ok { idleClient [0x41, 0x45, 0x12, 0x34, 7, 0xFF, 0x68, 0x69] with
          history := [.write none (some [0x60, 2, 0x12, 0x34]) 0] } ∧
      ¬ (idleClient [0x41, 0x45, 0x12, 0x34, 7, 0xFF, 0x68, 0x69]).AckedAsRequired 8 calm := by
  have handles : (idleClient [0x41, 0x45, 0x12, 0x34, 7, 0xFF, 0x68, 0x69]).coapMessageHandle 8 calm =
      .ok { idleClient [0x41, 0x45, 0x12, 0x34, 7, 0xFF, 0x68, 0x69] with
        history := [.write none (some [0x60, 2, 0x12, 0x34]) 0] } := by
    decide
  have reads : deserializeCoapMessage calm.alloc .zero
      (idleClient [0x41, 0x45, 0x12, 0x34, 7, 0xFF, 0x68, 0x69]).recvBuf 8 =
        .ok (qcloudRetSuccess,
          { CoapMessage.zero with
            version := 1
            type := .con
            codeClass := 2
            codeDetail := 5
            msgId := 0x1234
            token := [7]
            payload := [0x68, 0x69] }) := by
    decide
  refine ⟨handles, ?_⟩
  rintro ⟨rc, m, s', events, read, handled, isHistory, acked, _⟩
  cases reads.symm.trans read
  cases handles.symm.trans handled
  have required := acked ⟨rfl, rfl, .inl rfl⟩
  have isEvents : [.write none (some [0x60, 2, 0x12, 0x34]) 0] = events := isHistory
  rw [← isEvents] at required
  exact absurd required (by decide)

end QcloudIot.Coap
