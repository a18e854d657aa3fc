import QcloudIot.Misc.Sweep
import QcloudIot.Shadow.Manager

/-!
# One answer for every request

A request with a callback waits in the list until its callback has been called, and the
callback is called once. The reply handler removes a request whose token matches also if it
cannot read a result from the reply; then the callback is never called.
-/

namespace QcloudIot.Shadow

open Mqtt (CStr FnPtr Ptr Timer cstrOf)
open Json (Fault liteJsonValueOf quote colon)

/-! ## What has been answered -/

/-- The request accepted, if it has a callback. -/
def Event.acceptance : Event → Option Nat
  | .accepted ref (some _) => some ref
  | _ => none

/-- The request answered. -/
def Event.answer : Event → Option (Nat × RequestAck)
  | .requestCallback _ ref _ ack _ _ => some (ref, ack)
  | _ => none

/-- The requests with a callback that were accepted. -/
def ShadowClient.accepted (s : ShadowClient) : List Nat := s.history.filterMap Event.acceptance

/-- The calls of callbacks. -/
def ShadowClient.answered (s : ShadowClient) : List (Nat × RequestAck) :=
  s.history.filterMap Event.answer

/-- What the callback of a request was called with. -/
def ShadowClient.answers (s : ShadowClient) (ref : Nat) : List RequestAck :=
  (s.answered.filter (·.1 = ref)).map Prod.snd

/-- The request is in the list. -/
def ShadowClient.Waiting (s : ShadowClient) (ref : Nat) : Prop :=
  ∃ request ∈ s.requestList, request.ref = ref

/-- `ack_update` of `IOT_Shadow_Update_Sync` and `IOT_Shadow_Get_Sync`: `_update_ack_cb` stores
    what it is called with, and the loop waits while it is `ACK_NONE`. -/
def ShadowClient.ackUpdate (s : ShadowClient) (ref : Nat) : RequestAck :=
  (s.answers ref).getLastD .none

/-- Every request accepted waits in the list, and then its callback has not been called, or its
    callback has been called once, with an acknowledgement. -/
def ShadowClient.OneAnswer (s : ShadowClient) : Prop :=
  ∀ ref ∈ s.accepted,
    (s.Waiting ref ∧ s.answers ref = []) ∨
      (¬ s.Waiting ref ∧ ∃ ack, s.answers ref = [ack] ∧ ack ≠ .none)

/-- Once the timer of a request has run out, the sweep that begins every round of the loop that
    waits for it lets the loop end. -/
def ShadowClient.LoopsEnd (s : ShadowClient) : Prop :=
  ∀ ref ∈ s.accepted, ∀ now : Nat → Nat,
    (∀ request ∈ s.requestList, request.ref = ref → request.timer.endTime ≤ now ref) →
    ∃ s', s.handleExpiredRequest true now = .ok s' ∧ s'.ackUpdate ref ≠ .none

/-- A reply that finds a request with a callback has a result that can be read. -/
def ShadowClient.Readable (s : ShadowClient) : Action → Prop
  | .message message env =>
    message.Taken → env.iteratorAllocated →
      ∀ type token, parseReply message.received env = .ok (some (type, some token)) →
        ∀ request ∈ s.requestList, request.callback.isSome → request.tokenText = token →
          ∃ code, parseShadowOperationResultCode message.received
            (env.resultAllocated request.ref) = .ok (some code)
  | _ => True

/-! ## The invariant -/

/-- The identity that a request holds on to until it is answered. -/
def Request.pending (request : Request) : List Nat :=
  match request.callback with
  | none => []
  | some _ => [request.ref]

/-- The requests accepted are those that wait and those that were answered. -/
structure ShadowClient.Sound (s : ShadowClient) : Prop where
  balance : s.accepted.Perm (s.requestList.flatMap Request.pending ++ s.answered.map Prod.fst)
  distinct : s.accepted.Nodup
  older : ∀ ref ∈ s.accepted, ref < s.allocated
  olderWaiting : ∀ request ∈ s.requestList, request.ref < s.allocated
  silent : ∀ request ∈ s.requestList, request.callback = none → request.ref ∉ s.accepted
  acks : ∀ answer ∈ s.answered, answer.2 ≠ .none

theorem ShadowClient.Fresh.sound {s : ShadowClient} (fresh : s.Fresh) : s.Sound := by
  have accepted : s.accepted = [] := by rw [accepted, fresh.history]; rfl
  have answered : s.answered = [] := by rw [answered, fresh.history]; rfl
  refine ⟨?_, ?_, ?_, ?_, ?_, ?_⟩
  · rw [accepted, answered, fresh.requestList]
    exact .refl _
  · rw [accepted]
    exact List.nodup_nil
  all_goals simp [accepted, answered, fresh.requestList]

/-- The answers to a request, by their number. -/
theorem ShadowClient.length_answers (s : ShadowClient) (ref : Nat) :
    (s.answers ref).length = (s.answered.map Prod.fst).count ref := by
  rw [answers, List.length_map, List.count_eq_countP, List.countP_map, List.countP_eq_length_filter]
  congr 2

theorem mem_pending {list : List Request} {ref : Nat} :
    ref ∈ list.flatMap Request.pending ↔
      ∃ request ∈ list, request.ref = ref ∧ request.callback.isSome := by
  rw [List.mem_flatMap]
  refine exists_congr fun request => and_congr_right fun _ => ?_
  rw [Request.pending]
  cases request.callback with
  | none => simp
  | some callback => simp [eq_comm]

/-- In a sound state every request has one answer or waits. -/
theorem ShadowClient.Sound.oneAnswer {s : ShadowClient} (sound : s.Sound) : s.OneAnswer := by
  intro ref accepted
  have once : s.accepted.count ref = 1 := List.count_eq_one_of_mem sound.distinct accepted
  rw [sound.balance.count_eq, List.count_append] at once
  have length := s.length_answers ref
  by_cases waiting : s.Waiting ref
  · refine .inl ⟨waiting, ?_⟩
    obtain ⟨request, mem, rfl⟩ := waiting
    have callback : request.callback.isSome := by
      rw [Option.isSome_iff_ne_none]
      exact fun silent => sound.silent request mem silent accepted
    have pending := List.count_pos_iff.mpr (mem_pending.mpr ⟨request, mem, rfl, callback⟩)
    exact List.eq_nil_of_length_eq_zero (by omega)
  · refine .inr ⟨waiting, ?_⟩
    have none : (s.requestList.flatMap Request.pending).count ref = 0 := by
      refine List.count_eq_zero.mpr fun pending => waiting ?_
      obtain ⟨request, mem, same, _⟩ := mem_pending.mp pending
      exact ⟨request, mem, same⟩
    obtain ⟨ack, single⟩ := List.length_eq_one_iff.mp (show (s.answers ref).length = 1 by omega)
    refine ⟨ack, single, ?_⟩
    have mem : ack ∈ s.answers ref := by rw [single]; exact List.mem_singleton_self _
    obtain ⟨answer, answered, rfl⟩ := List.mem_map.mp mem
    exact sound.acks answer (List.mem_of_mem_filter answered)

/-! ## Sweeps over the list -/

/-- A handle answers the requests that it removes, and no others. -/
structure Orderly (request : Request) (removed : Bool) (events : List Event) : Prop where
  answered : (events.filterMap Event.answer).map Prod.fst = if removed then request.pending else []
  acks : ∀ answer ∈ events.filterMap Event.answer, answer.2 ≠ .none
  accepted : events.filterMap Event.acceptance = []

theorem Orderly.kept (request : Request) : Orderly request false [] :=
  ⟨rfl, List.forall_mem_nil _, rfl⟩

theorem Orderly.call (request : Request) {ack : RequestAck} (document : CStr)
    (isAck : ack ≠ .none) : Orderly request true (request.call ack document) := by
  rcases callback : request.callback with _ | fn
  · rw [Request.call, callback]
    refine ⟨?_, List.forall_mem_nil _, rfl⟩
    rw [Request.pending, callback]
    rfl
  · rw [Request.call, callback]
    refine ⟨?_, fun answer mem => ?_, rfl⟩
    · rw [Request.pending, callback]
      rfl
    · rw [List.mem_singleton.mp mem]
      exact isAck

theorem Orderly.delta {request : Request} {removed : Bool} {events : List Event}
    (orderly : Orderly request removed events) (delta : Option (List UInt8)) :
    Orderly request removed ((delta.map Event.handleDelta).toList ++ events) := by
  cases delta with
  | none => exact orderly
  | some delta => exact ⟨orderly.answered, orderly.acks, orderly.accepted⟩

/-- What a traversal whose handle is orderly does. -/
theorem visit_orderly {handle : Request → Except Fault (Bool × List Event)} {list kept : List Request}
    {events : List Event}
    (orderly : ∀ request ∈ list, ∀ removed events, handle request = .ok (removed, events) →
      Orderly request removed events)
    (result : visit handle list = .ok (kept, events)) :
    Swept Request.pending list kept ((events.filterMap Event.answer).map Prod.fst) ∧
      (∀ answer ∈ events.filterMap Event.answer, answer.2 ≠ .none) ∧
      events.filterMap Event.acceptance = [] := by
  induction list generalizing kept events with
  | nil =>
    cases result
    exact ⟨.nil, List.forall_mem_nil _, rfl⟩
  | cons request list ih =>
    simp only [visit, bind, Except.bind] at result
    cases before : visit handle list with
    | error fault =>
      rw [before] at result
      cases result
    | ok visited =>
      obtain ⟨rest, early⟩ := visited
      rw [before] at result
      cases handled : handle request with
      | error fault =>
        simp only [handled] at result
        cases result
      | ok outcome =>
        obtain ⟨removed, late⟩ := outcome
        simp only [handled, pure, Except.pure, Except.ok.injEq, Prod.mk.injEq] at result
        obtain ⟨rfl, rfl⟩ := result
        obtain ⟨swept, acks, accepted⟩ :=
          ih (fun other mem => orderly other (List.mem_cons_of_mem _ mem)) before
        have here := orderly request List.mem_cons_self removed late handled
        refine ⟨?_, ?_, ?_⟩
        · rw [List.filterMap_append, List.map_append, here.answered]
          cases removed with
          | true => exact swept.removed
          | false =>
            have nothing : (if false = true then request.pending else []) = [] :=
              if_neg Bool.false_ne_true
            rw [nothing, List.append_nil]
            exact swept.kept
        · intro answer mem
          rw [List.filterMap_append, List.mem_append] at mem
          exact mem.elim (acks answer) (here.acks answer)
        · rw [List.filterMap_append, accepted, here.accepted]
          rfl

/-- The history grows by events that accept nothing. -/
theorem ShadowClient.accepted_append {s : ShadowClient} {events : List Event}
    (none : events.filterMap Event.acceptance = []) :
    (s.history ++ events).filterMap Event.acceptance = s.accepted := by
  rw [List.filterMap_append, none, List.append_nil]
  rfl

/-- An orderly traversal keeps the invariant. -/
theorem ShadowClient.Sound.traverseList {s s' : ShadowClient} (sound : s.Sound) {iterator : Bool}
    {handle : Request → Except Fault (Bool × List Event)}
    (orderly : iterator = true → ∀ request ∈ s.requestList, ∀ removed events,
      handle request = .ok (removed, events) → Orderly request removed events)
    (result : s.traverseList iterator handle = .ok s') : s'.Sound := by
  rw [ShadowClient.traverseList] at result
  split_ifs at result with visited
  · simp only [bind, Except.bind] at result
    cases swept : visit handle s.requestList with
    | error fault =>
      rw [swept] at result
      cases result
    | ok outcome =>
      obtain ⟨kept, events⟩ := outcome
      rw [swept] at result
      cases result
      obtain ⟨swept, acks, accepted⟩ := visit_orderly (orderly visited.2) swept
      have same := s.accepted_append accepted
      have answered : (s.history ++ events).filterMap Event.answer =
          s.answered ++ events.filterMap Event.answer := List.filterMap_append ..
      refine ⟨?_, ?_, ?_, ?_, ?_, ?_⟩
      · change ((s.history ++ events).filterMap Event.acceptance).Perm
          (kept.flatMap Request.pending ++ ((s.history ++ events).filterMap Event.answer).map Prod.fst)
        rw [same, answered, List.map_append]
        refine sound.balance.trans ?_
        have perm := swept.perm.append_right (s.answered.map Prod.fst)
        rw [List.append_assoc] at perm
        exact perm.trans (List.perm_append_comm.append_left _)
      · change ((s.history ++ events).filterMap Event.acceptance).Nodup
        rw [same]
        exact sound.distinct
      · change ∀ ref ∈ (s.history ++ events).filterMap Event.acceptance, ref < s.allocated
        rw [same]
        exact sound.older
      · exact fun request mem => sound.olderWaiting request (swept.sublist.mem mem)
      · intro request mem silent
        change request.ref ∉ (s.history ++ events).filterMap Event.acceptance
        rw [same]
        exact sound.silent request (swept.sublist.mem mem) silent
      · intro answer mem
        change answer ∈ (s.history ++ events).filterMap Event.answer at mem
        rw [answered, List.mem_append] at mem
        exact mem.elim (sound.acks answer) (acks answer)
  · cases result
    exact sound

/-! ## Steps -/

theorem handleExpiredRequestCallback_orderly {recvBuf : CStr} {now : Nat → Nat} {request : Request}
    {removed : Bool} {events : List Event}
    (handled : handleExpiredRequestCallback recvBuf now request = .ok (removed, events)) :
    Orderly request removed events := by
  rw [handleExpiredRequestCallback] at handled
  split_ifs at handled
  · cases handled
    exact .call request recvBuf (by decide)
  · cases handled
    exact .kept request

/-- A reply whose result can be read answers the requests that it removes. -/
theorem handleRequestCallback_orderly {recvBuf : CStr} {clientToken type : List UInt8}
    {env : ReplyEnv} {request : Request} {removed : Bool} {events : List Event}
    (readable : request.callback.isSome → request.tokenText = clientToken →
      ∃ code, parseShadowOperationResultCode recvBuf (env.resultAllocated request.ref) =
        .ok (some code))
    (handled : handleRequestCallback recvBuf clientToken type env request = .ok (removed, events)) :
    Orderly request removed events := by
  rw [handleRequestCallback] at handled
  split_ifs at handled with same
  · simp only [bind, Except.bind] at handled
    cases parsed : parseShadowOperationResultCode recvBuf (env.resultAllocated request.ref) with
    | error fault =>
      rw [parsed] at handled
      cases handled
    | ok result =>
      rw [parsed] at handled
      cases result with
      | none =>
        cases handled
        -- without a result nothing is called, which is right only for a request without callback
        have silent : request.callback = none := by
          by_contra callback
          obtain ⟨code, isCode⟩ := readable (Option.isSome_iff_ne_none.mpr callback) same
          rw [parsed] at isCode
          cases isCode
        refine ⟨?_, List.forall_mem_nil _, rfl⟩
        rw [Request.pending, silent]
        rfl
      | some code =>
        have isAck : (if code = 0 then RequestAck.accepted else .rejected) ≠ .none := by
          split <;> decide
        simp only at handled
        split at handled
        · cases handled
        · simp only [pure, Except.pure, Except.ok.injEq, Prod.mk.injEq] at handled
          obtain ⟨rfl, rfl⟩ := handled
          exact (Orderly.call request recvBuf isAck).delta _
  · cases handled
    exact .kept request

/-- What is recorded besides acceptances and answers does not matter. -/
theorem ShadowClient.Sound.of_history {s s' : ShadowClient} (sound : s.Sound)
    (accepted : s'.accepted = s.accepted) (answered : s'.answered = s.answered)
    (requestList : s'.requestList = s.requestList) (allocated : s.allocated ≤ s'.allocated) :
    s'.Sound := by
  refine ⟨?_, ?_, ?_, ?_, ?_, ?_⟩
  · rw [accepted, answered, requestList]
    exact sound.balance
  · rw [accepted]
    exact sound.distinct
  · rw [accepted]
    exact fun ref mem => (sound.older ref mem).trans_le allocated
  · rw [requestList]
    exact fun request mem => (sound.olderWaiting request mem).trans_le allocated
  · rw [accepted, requestList]
    exact sound.silent
  · rw [answered]
    exact sound.acks

theorem ShadowClient.Sound.publishOperationToCloud {s : ShadowClient} (sound : s.Sound)
    (jsonDoc : CStr) (published : Int) : (s.publishOperationToCloud jsonDoc published).2.Sound := by
  rw [ShadowClient.publishOperationToCloud]
  split_ifs
  · exact sound
  · refine sound.of_history ?_ ?_ rfl (Nat.le_refl _)
    · exact s.accepted_append rfl
    · change (s.history ++ _).filterMap Event.answer = s.answered
      rw [List.filterMap_append]
      exact List.append_nil _

/-- A request is pushed under an identity of its own. -/
theorem ShadowClient.Sound.push {s : ShadowClient} (sound : s.Sound) {request : Request}
    (fresh : request.ref = s.allocated) :
    ShadowClient.Sound { s with
      allocated := s.allocated + 1
      requestList := s.requestList ++ [request]
      history := s.history ++ [Event.accepted request.ref request.callback] } := by
  have unused : request.ref ∉ s.accepted := by
    intro mem
    exact Nat.lt_irrefl _ (fresh ▸ sound.older _ mem)
  have answered : (s.history ++ [Event.accepted request.ref request.callback]).filterMap Event.answer =
      s.answered := by
    rw [List.filterMap_append]
    exact List.append_nil _
  have accepted : (s.history ++ [Event.accepted request.ref request.callback]).filterMap
      Event.acceptance = s.accepted ++ request.pending := by
    rw [List.filterMap_append, Request.pending]
    cases request.callback <;> rfl
  have own : ∀ ref ∈ request.pending, ref = request.ref := by
    intro ref mem
    rw [Request.pending] at mem
    cases callback : request.callback with
    | none =>
      rw [callback] at mem
      cases mem
    | some fn =>
      rw [callback] at mem
      exact List.mem_singleton.mp mem
  refine ⟨?_, ?_, ?_, ?_, ?_, ?_⟩
  · change ((s.history ++ _).filterMap Event.acceptance).Perm ((s.requestList ++ [request]).flatMap
      Request.pending ++ ((s.history ++ _).filterMap Event.answer).map Prod.fst)
    rw [accepted, answered, List.flatMap_append, List.flatMap_singleton, List.append_assoc]
    refine (sound.balance.append_right _).trans ?_
    rw [List.append_assoc]
    exact List.perm_append_comm.append_left _
  · change ((s.history ++ _).filterMap Event.acceptance).Nodup
    rw [accepted, List.nodup_append]
    refine ⟨sound.distinct, ?_, fun ref mem other pending => ?_⟩
    · rw [Request.pending]
      cases request.callback
      · exact List.nodup_nil
      · exact List.nodup_singleton _
    · rintro rfl
      exact unused (own _ pending ▸ mem)
  · change ∀ ref ∈ (s.history ++ _).filterMap Event.acceptance, ref < s.allocated + 1
    rw [accepted]
    intro ref mem
    rcases List.mem_append.mp mem with mem | mem
    · exact (sound.older ref mem).trans (Nat.lt_succ_self _)
    · rw [own ref mem, fresh]
      exact Nat.lt_succ_self _
  · intro other mem
    rcases List.mem_append.mp mem with mem | mem
    · exact (sound.olderWaiting other mem).trans (Nat.lt_succ_self _)
    · rw [List.mem_singleton.mp mem, fresh]
      exact Nat.lt_succ_self _
  · intro other mem silent
    change other.ref ∉ (s.history ++ _).filterMap Event.acceptance
    rw [accepted, List.mem_append, not_or]
    rcases List.mem_append.mp mem with mem | mem
    · refine ⟨sound.silent other mem silent, fun pending => ?_⟩
      have older := sound.olderWaiting other mem
      rw [own _ pending, fresh] at older
      exact Nat.lt_irrefl _ older
    · rw [List.mem_singleton.mp mem] at silent ⊢
      refine ⟨unused, ?_⟩
      rw [Request.pending, silent]
      exact List.not_mem_nil
  · change ∀ answer ∈ (s.history ++ _).filterMap Event.answer, answer.2 ≠ .none
    rw [answered]
    exact sound.acks

theorem ShadowClient.Sound.addRequestToList {s : ShadowClient} (sound : s.Sound)
    (clientToken : CStr) (params : RequestParams) (env : RequestEnv) :
    (s.addRequestToList clientToken params env).2.Sound := by
  rw [ShadowClient.addRequestToList]
  by_cases full : s.requestList.length ≥ maxAppendingRequest
  · rw [if_pos full]
    exact sound
  · rw [if_neg full]
    by_cases requestAllocated : env.requestAllocated = true
    · rw [if_neg (not_not.mpr requestAllocated)]
      by_cases nodeAllocated : env.nodeAllocated = true
      · simp only [if_neg (not_not.mpr nodeAllocated)]
        exact sound.push rfl
      · simp only [if_pos nodeAllocated]
        exact sound.of_history rfl rfl rfl (Nat.le_succ _)
    · rw [if_pos requestAllocated]
      exact sound

theorem ShadowClient.Sound.sendRequest {s : ShadowClient} (sound : s.Sound) (clientToken : CStr)
    (params : RequestParams) (jsonDoc : CStr) (sizeOfBuffer : Nat) (env : RequestEnv) :
    (s.sendRequest clientToken params jsonDoc sizeOfBuffer env).2.2.Sound := by
  rw [ShadowClient.sendRequest]
  generalize setShadowJsonType jsonDoc sizeOfBuffer params.method = typed
  obtain ⟨rc, doc⟩ := typed
  have published := sound.publishOperationToCloud doc env.published
  have added := published.addRequestToList clientToken params env
  simp only
  split
  · exact sound
  · generalize s.publishOperationToCloud doc env.published = sent at published added
    obtain ⟨rc, sent⟩ := sent
    simp only at published added ⊢
    split
    · exact published
    · generalize sent.addRequestToList clientToken params env = pushed at added
      exact added

theorem ShadowClient.Sound.doShadowRequest {s s' : ShadowClient} (sound : s.Sound)
    {params : RequestParams} {jsonDoc jsonDoc' : CStr} {sizeOfBuffer : Nat} {env : RequestEnv}
    {rc : Int} (result : s.doShadowRequest params jsonDoc sizeOfBuffer env = .ok (rc, jsonDoc', s')) :
    s'.Sound := by
  simp only [ShadowClient.doShadowRequest, bind, Except.bind] at result
  split at result
  · cases result
  · split at result
    · simp only [pure, Except.pure, Except.ok.injEq, Prod.mk.injEq] at result
      exact result.2.2 ▸ sound
    · next token _ =>
      have sent := sound.sendRequest (textOf token) params jsonDoc sizeOfBuffer env
      rw [show s.sendRequest (textOf token) params jsonDoc sizeOfBuffer env = (rc, jsonDoc', s') from
        Except.ok.inj result] at sent
      exact sent

/-- Every step that meets the condition keeps the invariant. -/
theorem ShadowClient.Sound.after {s s' : ShadowClient} (sound : s.Sound) {action : Action}
    (readable : s.Readable action) (result : s.after action = .ok s') : s'.Sound := by
  cases action with
  | request params jsonDoc sizeOfBuffer env =>
    simp only [ShadowClient.after, bind, Except.bind] at result
    cases request : s.doShadowRequest params jsonDoc sizeOfBuffer env with
    | error fault =>
      rw [request] at result
      cases result
    | ok outcome =>
      rw [request] at result
      cases result
      exact sound.doShadowRequest request
  | message message env =>
    simp only [ShadowClient.after, ShadowClient.onOperationResultHandler] at result
    by_cases taken : message.Taken
    · rw [if_neg (not_not.mpr taken)] at result
      have copied : ShadowClient.Sound { s with shadowRecvBuf := message.received } :=
        sound.of_history rfl rfl rfl (Nat.le_refl _)
      simp only [bind, Except.bind] at result
      split at result
      · cases result
      · next reply parsed =>
        rcases reply with _ | ⟨type, _ | token⟩
        · cases result
          exact copied
        · simp only at result
          cases looked : liteJsonValueOf payloadState message.received env.stateAllocated with
          | error fault =>
            rw [looked] at result
            cases result
          | ok delta =>
            rw [looked] at result
            cases delta with
            | none =>
              cases result
              exact copied
            | some delta =>
              cases result
              refine copied.of_history ?_ ?_ rfl (Nat.le_refl _)
              · exact s.accepted_append rfl
              · change (s.history ++ _).filterMap Event.answer = s.answered
                rw [List.filterMap_append]
                exact List.append_nil _
        · refine copied.traverseList ?_ result
          intro iterator request mem removed events handled
          refine handleRequestCallback_orderly ?_ handled
          intro callback same
          exact readable taken iterator type token parsed request mem callback same
    · rw [if_pos taken] at result
      cases result
      exact sound
  | expire iteratorAllocated now =>
    refine sound.traverseList ?_ result
    intro _ request _ removed events handled
    exact handleExpiredRequestCallback_orderly handled

/-! ## Waiting loops -/

/-- What is kept by a traversal was not removed by the handle. -/
theorem visit_kept {handle : Request → Except Fault (Bool × List Event)} {list kept : List Request}
    {events : List Event} (result : visit handle list = .ok (kept, events)) :
    ∀ request ∈ kept, request ∈ list ∧ ∃ events, handle request = .ok (false, events) := by
  induction list generalizing kept events with
  | nil =>
    cases result
    exact List.forall_mem_nil _
  | cons head list ih =>
    simp only [visit, bind, Except.bind] at result
    cases before : visit handle list with
    | error fault =>
      rw [before] at result
      cases result
    | ok visited =>
      rw [before] at result
      cases handled : handle head with
      | error fault =>
        simp only [handled] at result
        cases result
      | ok outcome =>
        obtain ⟨removed, late⟩ := outcome
        simp only [handled, pure, Except.pure, Except.ok.injEq, Prod.mk.injEq] at result
        obtain ⟨rfl, _⟩ := result
        intro request mem
        have rest : request ∈ visited.1 →
            request ∈ head :: list ∧ ∃ events, handle request = .ok (false, events) := by
          intro mem
          obtain ⟨inList, kept⟩ := ih before request mem
          exact ⟨List.mem_cons_of_mem _ inList, kept⟩
        cases removed with
        | true => exact rest mem
        | false =>
          rcases List.mem_cons.mp mem with rfl | mem
          · exact ⟨List.mem_cons_self, late, handled⟩
          · exact rest mem

/-- A traversal fails only where its handle does. -/
theorem visit_total {handle : Request → Except Fault (Bool × List Event)} (list : List Request)
    (total : ∀ request, ∃ outcome, handle request = .ok outcome) :
    ∃ outcome, visit handle list = .ok outcome := by
  induction list with
  | nil => exact ⟨_, rfl⟩
  | cons request list ih =>
    obtain ⟨before, visited⟩ := ih
    obtain ⟨outcome, handled⟩ := total request
    simp only [visit, bind, Except.bind, visited, handled]
    exact ⟨_, rfl⟩

theorem handleExpiredRequestCallback_total (recvBuf : CStr) (now : Nat → Nat) (request : Request) :
    ∃ outcome, handleExpiredRequestCallback recvBuf now request = .ok outcome := by
  rw [handleExpiredRequestCallback]
  split
  · exact ⟨_, rfl⟩
  · exact ⟨_, rfl⟩

/-- The sweep forgets nothing that was accepted. -/
theorem ShadowClient.handleExpiredRequest_spec (s : ShadowClient) (now : Nat → Nat) : ∃ s',
    s.handleExpiredRequest true now = .ok s' ∧ s'.accepted = s.accepted ∧
      ∀ request ∈ s'.requestList, request ∈ s.requestList ∧ now request.ref < request.timer.endTime
          := by
  rw [handleExpiredRequest, ShadowClient.traverseList]
  by_cases empty : s.requestList.length = 0
  · rw [if_neg (fun visited => visited.1 empty)]
    refine ⟨s, rfl, rfl, fun request mem => ?_⟩
    rw [List.eq_nil_of_length_eq_zero empty] at mem
    cases mem
  · obtain ⟨⟨kept, events⟩, visited⟩ := visit_total s.requestList
      (handleExpiredRequestCallback_total s.shadowRecvBuf now)
    rw [if_pos ⟨empty, rfl⟩, visited]
    refine ⟨_, rfl, ?_, fun request mem => ?_⟩
    · obtain ⟨_, _, accepted⟩ := visit_orderly
        (fun request _ removed events handled => handleExpiredRequestCallback_orderly handled) visited
      exact s.accepted_append accepted
    · obtain ⟨inList, events, keeps⟩ := visit_kept visited request mem
      refine ⟨inList, ?_⟩
      rw [handleExpiredRequestCallback] at keeps
      by_contra expired
      rw [if_pos (Nat.le_of_not_lt expired)] at keeps
      cases keeps

theorem ShadowClient.Sound.loopsEnd {s : ShadowClient} (sound : s.Sound) : s.LoopsEnd := by
  intro ref accepted now expired
  obtain ⟨s', result, same, kept⟩ := s.handleExpiredRequest_spec now
  refine ⟨s', result, ?_⟩
  have sound' : s'.Sound := @Sound.after s s' sound (.expire true now) trivial result
  rcases sound'.oneAnswer ref (same ▸ accepted) with ⟨waiting, _⟩ | ⟨_, ack, single, isAck⟩
  · obtain ⟨request, mem, rfl⟩ := waiting
    obtain ⟨inList, notYet⟩ := kept request mem
    exact absurd (expired request inList rfl) (Nat.not_le_of_lt notYet)
  · rw [ShadowClient.ackUpdate, single]
    exact isAck

/-! ## Runs -/

/-- A client without requests. -/
def idle : ShadowClient where
  shadowType := .shadow
  productId := ⟨[112], by decide⟩
  deviceName := ⟨[100], CStr.noNul_d⟩
  requestList := []
  shadowRecvBuf := ⟨[], CStr.noNul_nil⟩
  allocated := 0
  history := []

/-- `"clientToken":"t"`. -/
def tokenT : List UInt8 := quote :: clientTokenField.bytes ++ [quote, colon, quote, 116, quote]

/-- An update with the token `t` and a callback. -/
def updateT : Action :=
  .request { method := .update, timeoutSec := 4, requestCallback := some 1, userContext := 0 }
    (textOf ([123] ++ tokenT ++ [125])) 200
    { tokenAllocated := true, published := 0, requestAllocated := true, nodeAllocated := true,
      now := 0, behind := [] }

/-- `{"type":"update","clientToken":"t"` and the bytes `rest`. -/
def replyT (rest : List UInt8) : Message where
  topicLen := 1
  payload := [123, quote] ++ typeField.bytes ++ [quote, colon, quote] ++ operationUpdate ++
    [quote, 44] ++ tokenT ++ rest

/-- Every allocation succeeds. -/
def allAllocated : ReplyEnv := ⟨true, true, true, true, fun _ => true, fun _ => true⟩

/-- `,"result":0}`. -/
def resultZero : List UInt8 := [44, quote] ++ resultField.bytes ++ [quote, colon, 48, 125]

end QcloudIot.Shadow
