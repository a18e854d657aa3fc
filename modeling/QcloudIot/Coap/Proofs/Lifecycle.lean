import QcloudIot.Coap.Proofs.Dispatch

/-!
# The life of a CoAP request

A request is written, written again while its time runs out, and ends with one notification:
a response, or a timeout. A node whose handler has run is taken out of the list by the sweep
that ends the cycle; where the iterator of that sweep cannot be allocated the node stays, and
the next response runs its handler again.
-/

namespace QcloudIot.Coap

open Mqtt (FnPtr Ptr Timer)

/-! ## The history of a request -/

/-- The request that an event is about. -/
def Event.about : Event → Option Nat
  | .write request _ _ => request
  | .answered request => some request
  | .handler _ request _ _ => some request
  | .event _ request _ => some request

/-- The request is transmitted. -/
def Event.isWrite : Event → Bool
  | .write _ _ _ => true
  | _ => false

/-- An acknowledgement or a response is processed. -/
def Event.isAnswer : Event → Bool
  | .answered _ => true
  | _ => false

/-- The handler or the event callback runs. -/
def Event.isNotification : Event → Bool
  | .handler _ _ _ _ => true
  | .event _ _ _ => true
  | _ => false

/-- The events about a request. -/
def eventsOf (history : List Event) (ref : Nat) : List Event :=
  history.filter fun event => event.about = some ref

theorem eventsOf_append (history events : List Event) (ref : Nat) :
    eventsOf (history ++ events) ref = eventsOf history ref ++ eventsOf events ref :=
  List.filter_append _ _

/-- Events that are all about one request. -/
theorem eventsOf_self {events : List Event} {ref : Nat}
    (own : ∀ event ∈ events, event.about = some ref) : eventsOf events ref = events :=
  List.filter_eq_self.mpr fun event mem => decide_eq_true (own event mem)

theorem eventsOf_other {events : List Event} {ref : Nat}
    (other : ∀ event ∈ events, event.about ≠ some ref) : eventsOf events ref = [] :=
  List.filter_eq_nil_iff.mpr fun event mem about => other event mem (of_decide_eq_true about)

/-- What may happen to a request that is transmitted again at most `limit` times: one notification
    at most, and nothing is transmitted behind an answer. -/
structure Orderly (limit : UInt8) (events : List Event) : Prop where
  once : events.countP Event.isNotification ≤ 1
  transmissions : events.countP Event.isWrite ≤ 1 + limit.toNat
  silent : events.Pairwise fun earlier later => earlier.isAnswer → ¬ later.isWrite

/-- Every request has an orderly life, and one whose handler has run is not in the list. -/
structure CoapClient.Lifecycle (s : CoapClient) : Prop where
  orderly : ∀ ref, Orderly s.maxRetryCount (eventsOf s.history ref)
  gone : ∀ info ∈ s.messageList, ∀ event ∈ eventsOf s.history info.ref, ¬ event.isNotification

/-- The message is a response to the request of the node. -/
def CoapMsgSendInfo.AnsweredBy (info : CoapMsgSendInfo) (message : CoapMessage) : Prop :=
  message.type = .ack ∧ ¬ message.IsEmptyAck ∧ ¬ message.IsEmpty ∧ info.msgId = message.msgId ∨
    (message.type = .con ∨ message.type = .non) ∧ message.IsEmptyRsp ∧ info.TokenIs message

/-- The memory from `recv_buf` on when the datagram has been received. -/
def CoapClient.received (s : CoapClient) (env : CycleEnv) : List UInt8 :=
  env.datagram.take s.readBufSize ++ s.recvBuf.drop (env.datagram.take s.readBufSize).length

/-- If a cycle processes a response to a request in the list, the iterator of its sweep can be
    allocated. -/
def CoapClient.Sweeps (s : CoapClient) : Action → Prop
  | .send _ _ => True
  | .cycle env =>
    env.readRc = qcloudRetSuccess → env.proc.iterator = true →
      ∀ rc message, deserializeCoapMessage env.alloc .zero (s.received env)
          ((env.datagram.take s.readBufSize).length % 2 ^ 16) = .ok (rc, message) →
        (∃ info ∈ s.messageList, info.AnsweredBy message) → env.sweep.iterator = true

/-! ## One node -/

/-- A request that waits: its handler has not run, its transmissions are counted, and it knows of
    an answer. -/
structure CoapMsgSendInfo.Waits (limit : UInt8) (events : List Event) (info : CoapMsgSendInfo) :
    Prop where
  orderly : Orderly limit events
  normal : info.nodeState = .normal
  unnotified : events.countP Event.isNotification = 0
  transmitted : events.countP Event.isWrite ≤ 1 + info.retransCount.toNat
  counted : info.retransCount ≤ limit
  acked : (∃ event ∈ events, event.isAnswer) → info.acked = true

/-- A request in the list during a cycle: it waits, or its handler has run. -/
def CoapMsgSendInfo.Listed (limit : UInt8) (events : List Event) (info : CoapMsgSendInfo) : Prop :=
  info.Waits limit events ∨ info.nodeState = .invalid ∧ Orderly limit events

/-- What a command may do at a node: its events are about the node, the request remains orderly,
    and if the node stays, `P` holds of it. -/
structure Visit.Fine (limit : UInt8) (P : List Event → CoapMsgSendInfo → Prop)
    (events : List Event) (info : CoapMsgSendInfo) (visit : Visit) : Prop where
  own : ∀ event ∈ visit.events, event.about = some info.ref
  same : visit.info.ref = info.ref
  orderly : Orderly limit (events ++ visit.events)
  stays : visit.removed = false → P (events ++ visit.events) visit.info

theorem Orderly.append {limit : UInt8} {events more : List Event} (orderly : Orderly limit events)
    (once : events.countP Event.isNotification + more.countP Event.isNotification ≤ 1)
    (noWrite : ∀ event ∈ more, event.isWrite = false) : Orderly limit (events ++ more) := by
  have none : more.countP Event.isWrite = 0 :=
    List.countP_eq_zero.mpr fun event mem => by rw [noWrite event mem]; exact Bool.false_ne_true
  refine ⟨?_, ?_, ?_⟩
  · rw [List.countP_append]
    exact once
  · rw [List.countP_append, none]
    exact orderly.transmissions
  · refine List.pairwise_append.mpr ⟨orderly.silent, ?_, ?_⟩
    · refine List.pairwise_of_forall_mem_list ?_
      intro _ _ later mem _ isWrite
      rw [noWrite later mem] at isWrite
      cases isWrite
    · intro _ _ later mem _ isWrite
      rw [noWrite later mem] at isWrite
      cases isWrite

/-- A node that is left as it is. -/
theorem Visit.Fine.idle {limit : UInt8} {P : List Event → CoapMsgSendInfo → Prop}
    {events : List Event} {info : CoapMsgSendInfo} {message : CoapMessage} {removed : Bool}
    (orderly : Orderly limit events) (stays : removed = false → P events info) :
    Visit.Fine limit P events info { message, info, removed, events := [] } where
  own := List.forall_mem_nil _
  same := rfl
  orderly := by rwa [List.append_nil]
  stays := by rwa [List.append_nil]

/-- An acknowledgement: the request waits on, and knows of it. -/
theorem processAck_fine {s : CoapClient} {env : ProcEnv} {message : CoapMessage}
    {info : CoapMsgSendInfo} {limit : UInt8} {events : List Event}
    (waits : info.Waits limit events) :
    Visit.Fine limit (fun events info => info.Waits limit events) events info
      (processAck s env message info) := by
  rw [processAck]
  split_ifs with isFor
  · have orderly : Orderly limit (events ++ [.answered info.ref]) := by
      refine waits.orderly.append ?_ ?_
      · rw [waits.unnotified]
        exact Nat.zero_le 1
      · intro event mem
        rw [List.mem_singleton.mp mem]
        rfl
    refine ⟨?_, rfl, orderly, fun _ => ?_⟩
    · intro event mem
      rw [List.mem_singleton.mp mem]
      rfl
    · refine ⟨orderly, waits.normal, ?_, ?_, waits.counted, fun _ => rfl⟩
      · rw [List.countP_append, waits.unnotified]
        rfl
      · rw [List.countP_append]
        exact waits.transmitted
  · exact .idle waits.orderly fun _ => waits

/-- At most one call that tells of the request. -/
structure Calls (ref : Nat) (events : List Event) : Prop where
  one : events.length ≤ 1
  own : ∀ event ∈ events, event.about = some ref
  noWrite : ∀ event ∈ events, event.isWrite = false

theorem Calls.none (ref : Nat) : Calls ref [] where
  one := Nat.zero_le 1
  own := List.forall_mem_nil _
  noWrite := List.forall_mem_nil _

theorem Calls.single {ref : Nat} {event : Event} (own : event.about = some ref)
    (noWrite : event.isWrite = false) : Calls ref [event] where
  one := Nat.le_refl 1
  own := List.forall_mem_singleton.mpr own
  noWrite := List.forall_mem_singleton.mpr noWrite

/-- A request that waits is told once. -/
theorem CoapMsgSendInfo.Waits.told {limit : UInt8} {events calls : List Event}
    {info : CoapMsgSendInfo} (waits : info.Waits limit events) (isCalls : Calls info.ref calls) :
    Orderly limit (events ++ calls) := by
  refine waits.orderly.append ?_ isCalls.noWrite
  rw [waits.unnotified, Nat.zero_add]
  have most : calls.countP Event.isNotification ≤ calls.length := List.countP_le_length
  exact most.trans isCalls.one

/-- A response is taken note of, and the request is told once. -/
theorem CoapMsgSendInfo.Waits.answered {limit : UInt8} {events calls : List Event}
    {info : CoapMsgSendInfo} (waits : info.Waits limit events) (isCalls : Calls info.ref calls) :
    Orderly limit (events ++ .answered info.ref :: calls) := by
  refine waits.orderly.append ?_ (List.forall_mem_cons.mpr ⟨rfl, isCalls.noWrite⟩)
  rw [waits.unnotified, Nat.zero_add]
  have most : calls.countP Event.isNotification ≤ calls.length := List.countP_le_length
  exact most.trans isCalls.one

/-- What a separate response does at the node of its request. -/
theorem processResp_answers {s : CoapClient} {message : CoapMessage} {info : CoapMsgSendInfo}
    (isFor : info.TokenIs message) :
    ∃ message' calls, Calls info.ref calls ∧
      processResp s message info =
        { message := message'
          info := { info with nodeState := .invalid }
          removed := false
          events := .answered info.ref :: calls } := by
  rw [processResp, if_pos isFor]
  cases info.handler with
  | some handler =>
    refine ⟨_, _, ?_, rfl⟩
    exact .single rfl rfl
  | none =>
    cases s.eventHandle with
    | some event =>
      refine ⟨_, _, ?_, rfl⟩
      exact .single rfl rfl
    | none => exact ⟨_, _, .none _, rfl⟩

/-- What a piggybacked response does at the node of its request. -/
theorem processPiggy_answers {s : CoapClient} {message : CoapMessage} {info : CoapMsgSendInfo}
    (isFor : info.msgId = message.msgId) :
    ∃ message' calls, Calls info.ref calls ∧
      processPiggy s message info =
        { message := message'
          info := { info with acked := true, nodeState := .invalid }
          removed := false
          events := .answered info.ref :: calls } := by
  rw [processPiggy, if_pos isFor]
  cases info.handler with
  | some handler =>
    refine ⟨_, _, ?_, rfl⟩
    exact .single rfl rfl
  | none =>
    cases s.eventHandle with
    | some event =>
      refine ⟨_, _, ?_, rfl⟩
      exact .single rfl rfl
    | none => exact ⟨_, _, .none _, rfl⟩

/-- A node that is marked by a response. -/
theorem Visit.Fine.marked {limit : UInt8} {events calls : List Event} {info : CoapMsgSendInfo}
    {message : CoapMessage} {acked : Bool} (waits : info.Waits limit events)
    (isCalls : Calls info.ref calls) :
    Visit.Fine limit (fun events info => info.Listed limit events) events info
      { message
        info := { info with acked, nodeState := .invalid }
        removed := false
        events := .answered info.ref :: calls } where
  own := List.forall_mem_cons.mpr ⟨rfl, isCalls.own⟩
  same := rfl
  orderly := waits.answered isCalls
  stays := fun _ => .inr ⟨rfl, waits.answered isCalls⟩

theorem processResp_fine {s : CoapClient} {message : CoapMessage} {info : CoapMsgSendInfo}
    {limit : UInt8} {events : List Event} (waits : info.Waits limit events) :
    Visit.Fine limit (fun events info => info.Listed limit events) events info
      (processResp s message info) := by
  by_cases isFor : info.TokenIs message
  · obtain ⟨message', calls, isCalls, visit⟩ := @processResp_answers s message info isFor
    rw [visit]
    exact .marked waits isCalls
  · rw [processResp, if_neg isFor]
    exact .idle waits.orderly fun _ => .inl waits

theorem processPiggy_fine {s : CoapClient} {message : CoapMessage} {info : CoapMsgSendInfo}
    {limit : UInt8} {events : List Event} (waits : info.Waits limit events) :
    Visit.Fine limit (fun events info => info.Listed limit events) events info
      (processPiggy s message info) := by
  by_cases isFor : info.msgId = message.msgId
  · obtain ⟨message', calls, isCalls, visit⟩ := @processPiggy_answers s message info isFor
    rw [visit]
    exact .marked waits isCalls
  · rw [processPiggy, if_neg isFor]
    exact .idle waits.orderly fun _ => .inl waits

/-- A request that is transmitted again has no answer yet, and is counted. -/
theorem CoapMsgSendInfo.Waits.resent {limit : UInt8} {events : List Event} {info : CoapMsgSendInfo}
    {timer : Timer} {rc : Int} (waits : info.Waits limit events)
    (more : info.retransCount < limit) (unanswered : info.acked = false) :
    CoapMsgSendInfo.Waits limit (events ++ [.write (some info.ref) info.message rc])
      { info with startTime := timer, retransCount := info.retransCount + 1 } := by
  have noAnswer : ∀ event ∈ events, ¬ event.isAnswer := by
    intro event mem isAnswer
    have acked := waits.acked ⟨event, mem, isAnswer⟩
    rw [unanswered] at acked
    cases acked
  have below : info.retransCount.toNat < limit.toNat := UInt8.lt_iff_toNat_lt.mp more
  have next : (info.retransCount + 1).toNat = info.retransCount.toNat + 1 := by
    have bound := limit.toNat_lt
    rw [UInt8.toNat_add]
    exact Nat.mod_eq_of_lt (by show info.retransCount.toNat + 1 < 2 ^ 8; omega)
  have transmitted : (events ++ [Event.write (some info.ref) info.message rc]).countP Event.isWrite ≤
      1 + (info.retransCount + 1).toNat := by
    have before := waits.transmitted
    rw [List.countP_append, next]
    show _ + 1 ≤ _
    omega
  have unnotified : (events ++ [Event.write (some info.ref) info.message rc]).countP
      Event.isNotification = 0 := by
    rw [List.countP_append, waits.unnotified]
    rfl
  refine ⟨⟨?_, ?_, ?_⟩, waits.normal, unnotified, transmitted, ?_, ?_⟩
  · rw [unnotified]
    exact Nat.zero_le 1
  · rw [next] at transmitted
    omega
  · refine List.pairwise_append.mpr ⟨waits.orderly.silent, List.pairwise_singleton _ _, ?_⟩
    intro earlier mem later _ isAnswer
    exact absurd isAnswer (noAnswer earlier mem)
  · show info.retransCount + 1 ≤ limit
    rw [UInt8.le_iff_toNat_le, next]
    exact below
  · rintro ⟨event, mem, isAnswer⟩
    rcases List.mem_append.mp mem with mem | mem
    · exact absurd isAnswer (noAnswer event mem)
    · rw [List.mem_singleton.mp mem] at isAnswer
      cases isAnswer

/-- The request is given up. -/
theorem processWait_ends {s : CoapClient} {env : ProcEnv} {message : CoapMessage}
    {info : CoapMsgSendInfo} (normal : info.nodeState ≠ .invalid)
    (expired : ¬ leftMs info.startTime (env.now info.ref) > 0)
    (last : ¬ (info.retransCount < s.maxRetryCount ∧ info.acked = false)) :
    ∃ message' calls, Calls info.ref calls ∧
      processWait s env message info =
        { message := message'
          info := { info with nodeState := .invalid }
          removed := true
          events := calls } := by
  rw [processWait, if_neg normal, if_neg expired, if_neg last]
  cases info.handler with
  | some handler =>
    refine ⟨_, _, ?_, rfl⟩
    exact .single rfl rfl
  | none =>
    cases s.eventHandle with
    | some event =>
      refine ⟨_, _, ?_, rfl⟩
      exact .single rfl rfl
    | none => exact ⟨_, _, .none _, rfl⟩

/-- The sweep at the node of a request: one that stays waits. -/
theorem processWait_fine {s : CoapClient} {env : ProcEnv} {message : CoapMessage}
    {info : CoapMsgSendInfo} {events : List Event} (listed : info.Listed s.maxRetryCount events) :
    Visit.Fine s.maxRetryCount (fun events info => info.Waits s.maxRetryCount events) events info
      (processWait s env message info) := by
  rcases listed with waits | ⟨invalid, orderly⟩
  · have normal : info.nodeState ≠ .invalid := by
      rw [waits.normal]
      decide
    by_cases running : leftMs info.startTime (env.now info.ref) > 0
    · rw [processWait, if_neg normal, if_pos running]
      exact .idle waits.orderly fun _ => waits
    by_cases again : info.retransCount < s.maxRetryCount ∧ info.acked = false
    · have resent := @CoapMsgSendInfo.Waits.resent _ _ _
        (countdownMs (env.restart info.ref) s.commandTimeoutMs) (env.rc info.ref) waits again.1
        again.2
      rw [processWait, if_neg normal, if_neg running, if_pos again]
      exact ⟨List.forall_mem_singleton.mpr rfl, rfl, resent.orderly, fun _ => resent⟩
    · obtain ⟨message', calls, isCalls, visit⟩ :=
        @processWait_ends s env message info normal running again
      rw [visit]
      refine ⟨isCalls.own, rfl, waits.told isCalls, fun stays => ?_⟩
      cases stays
  · rw [processWait, if_pos invalid]
    exact .idle orderly fun stays => absurd stays Bool.noConfusion

/-! ## The list -/

theorem eventsOf_add_other {history events : List Event} {ref : Nat}
    (other : ∀ event ∈ events, event.about ≠ some ref) :
    eventsOf (history ++ events) ref = eventsOf history ref := by
  rw [eventsOf_append, eventsOf_other other, List.append_nil]

theorem visitList_cons (process : CoapMessage → CoapMsgSendInfo → Visit) (info : CoapMsgSendInfo)
    (list : List CoapMsgSendInfo) (message : CoapMessage) :
    visitList process (info :: list) message =
      let visited := visitList process list message
      let visit := process visited.2.1 info
      (if visit.removed then visited.1 else visit.info :: visited.1, visit.message,
        visited.2.2 ++ visit.events) := rfl

/-- A traversal by a command that is fine at every node. -/
theorem visitList_fine {process : CoapMessage → CoapMsgSendInfo → Visit} {limit : UInt8}
    {P Q : List Event → CoapMsgSendInfo → Prop} {history : List Event}
    {list : List CoapMsgSendInfo}
    (fine : ∀ message events info, Q events info →
      Visit.Fine limit P events info (process message info))
    (distinct : (list.map CoapMsgSendInfo.ref).Nodup)
    (nodes : ∀ info ∈ list, Q (eventsOf history info.ref) info)
    (orderly : ∀ ref, Orderly limit (eventsOf history ref)) (message : CoapMessage) :
    ((visitList process list message).1.map CoapMsgSendInfo.ref).Sublist
        (list.map CoapMsgSendInfo.ref) ∧
      (∀ event ∈ (visitList process list message).2.2,
        ∃ info ∈ list, event.about = some info.ref) ∧
      (∀ ref, Orderly limit (eventsOf (history ++ (visitList process list message).2.2) ref)) ∧
      ∀ info ∈ (visitList process list message).1,
        P (eventsOf (history ++ (visitList process list message).2.2) info.ref) info := by
  induction list with
  | nil =>
    refine ⟨List.Sublist.slnil, List.forall_mem_nil _, fun ref => ?_, List.forall_mem_nil _⟩
    rw [visitList, List.append_nil]
    exact orderly ref
  | cons info list ih =>
    obtain ⟨new, distinctBehind⟩ := List.nodup_cons.mp distinct
    obtain ⟨here, behind⟩ := List.forall_mem_cons.mp nodes
    obtain ⟨sublist, about, orderlyBehind, nodesBehind⟩ := ih distinctBehind behind
    rw [visitList_cons]
    generalize visitList process list message = visited at *
    obtain ⟨list', message', events⟩ := visited
    dsimp only at sublist about orderlyBehind nodesBehind ⊢
    obtain ⟨own, same, ends, stays⟩ := fine message' _ info here
    -- the events of the other nodes are not about this one, nor the other way round
    have before : ∀ event ∈ events, event.about ≠ some info.ref := by
      intro event mem isAbout
      obtain ⟨other, inList, isOther⟩ := about event mem
      rw [isAbout] at isOther
      exact new (Option.some.inj isOther ▸ List.mem_map_of_mem inList)
    have mine : eventsOf (history ++ (events ++ (process message' info).events)) info.ref =
        eventsOf history info.ref ++ (process message' info).events := by
      rw [← List.append_assoc, eventsOf_append, eventsOf_add_other before, eventsOf_self own]
    have others : ∀ ref, ref ≠ info.ref →
        eventsOf (history ++ (events ++ (process message' info).events)) ref =
          eventsOf (history ++ events) ref := by
      intro ref other
      rw [← List.append_assoc]
      refine eventsOf_add_other fun event mem isAbout => other ?_
      rw [own event mem] at isAbout
      exact (Option.some.inj isAbout).symm
    have kept : ∀ other ∈ list', P (eventsOf (history ++
        (events ++ (process message' info).events)) other.ref) other := by
      intro other mem
      have apart : other.ref ≠ info.ref := fun isSame =>
        new (isSame ▸ sublist.subset (List.mem_map_of_mem mem))
      rw [others other.ref apart]
      exact nodesBehind other mem
    refine ⟨?_, ?_, fun ref => ?_, ?_⟩
    · cases (process message' info).removed with
      | true => exact sublist.cons _
      | false =>
        show List.Sublist ((process message' info).info.ref :: _) _
        rw [same]
        exact sublist.cons_cons _
    · intro event mem
      rcases List.mem_append.mp mem with mem | mem
      · obtain ⟨other, inList, isOther⟩ := about event mem
        exact ⟨other, List.mem_cons_of_mem _ inList, isOther⟩
      · exact ⟨info, List.mem_cons_self, own event mem⟩
    · by_cases isMine : ref = info.ref
      · rw [isMine, mine]
        exact ends
      · rw [others ref isMine]
        exact orderlyBehind ref
    · cases removed : (process message' info).removed with
      | true => exact kept
      | false =>
        refine List.forall_mem_cons.mpr ⟨?_, kept⟩
        rw [same, mine]
        exact stays removed

/-- A command that does nothing at any node leaves the list as it is. -/
theorem visitList_idle {process : CoapMessage → CoapMsgSendInfo → Visit}
    {list : List CoapMsgSendInfo} {message : CoapMessage}
    (idle : ∀ info ∈ list, process message info = { message, info, removed := false, events := [] }) :
    visitList process list message = (list, message, []) := by
  induction list with
  | nil => rfl
  | cons info list ih =>
    obtain ⟨here, behind⟩ := List.forall_mem_cons.mp idle
    rw [visitList, ih behind]
    simp only [here]
    rfl

/-! ## The client -/

/-- The identities of the requests are distinct and used before, every request has an orderly life,
    and `P` holds of those in the list. -/
structure CoapClient.Sound (P : UInt8 → List Event → CoapMsgSendInfo → Prop) (s : CoapClient) :
    Prop where
  distinct : (s.messageList.map CoapMsgSendInfo.ref).Nodup
  older : ∀ info ∈ s.messageList, info.ref < s.requests
  past : ∀ event ∈ s.history, ∀ ref, event.about = some ref → ref < s.requests
  orderly : ∀ ref, Orderly s.maxRetryCount (eventsOf s.history ref)
  nodes : ∀ info ∈ s.messageList, P s.maxRetryCount (eventsOf s.history info.ref) info

theorem CoapClient.Sound.mono {P Q : UInt8 → List Event → CoapMsgSendInfo → Prop} {s : CoapClient}
    (sound : s.Sound Q) (weaker : ∀ limit events info, Q limit events info → P limit events info) :
    s.Sound P :=
  { sound with nodes := fun info mem => weaker _ _ _ (sound.nodes info mem) }

theorem coapMessageListProc_sound {P Q : UInt8 → List Event → CoapMsgSendInfo → Prop}
    {s : CoapClient} {message : CoapMessage} {env : ProcEnv}
    {process : CoapMessage → CoapMsgSendInfo → Visit} (sound : s.Sound Q)
    (fine : ∀ message events info, Q s.maxRetryCount events info →
      Visit.Fine s.maxRetryCount (P s.maxRetryCount) events info (process message info))
    (iterator : env.iterator = true) : (s.coapMessageListProc message env process).2.Sound P := by
  rw [CoapClient.coapMessageListProc, if_neg (not_not.mpr iterator)]
  by_cases empty : s.messageList.length ≤ 0
  · rw [if_pos empty]
    have none : s.messageList = [] := List.eq_nil_of_length_eq_zero (Nat.le_zero.mp empty)
    refine { sound with nodes := ?_ }
    intro info mem
    rw [none] at mem
    cases mem
  · rw [if_neg empty]
    obtain ⟨sublist, about, orderly, nodes⟩ :=
      visitList_fine fine sound.distinct sound.nodes sound.orderly message
    refine ⟨sublist.nodup sound.distinct, ?_, ?_, orderly, nodes⟩
    · intro info mem
      obtain ⟨old, inList, same⟩ := List.mem_map.mp (sublist.subset (List.mem_map_of_mem mem))
      rw [← same]
      exact sound.older old inList
    · intro event mem ref isAbout
      rcases List.mem_append.mp mem with mem | mem
      · exact sound.past event mem ref isAbout
      · obtain ⟨info, inList, isInfo⟩ := about event mem
        rw [isAbout] at isInfo
        rw [Option.some.inj isInfo]
        exact sound.older info inList

/-- Without an iterator nothing happens. -/
theorem coapMessageListProc_noIterator {s : CoapClient} {message : CoapMessage} {env : ProcEnv}
    {process : CoapMessage → CoapMsgSendInfo → Visit} (none : env.iterator = false) :
    (s.coapMessageListProc message env process).2 = s := by
  rw [CoapClient.coapMessageListProc, none, if_pos Bool.false_ne_true]
  split_ifs <;> rfl

/-- Nor does anything happen if the command does nothing at any node. -/
theorem coapMessageListProc_idle {s : CoapClient} {message : CoapMessage} {env : ProcEnv}
    {process : CoapMessage → CoapMsgSendInfo → Visit}
    (idle : ∀ info ∈ s.messageList,
      process message info = { message, info, removed := false, events := [] }) :
    (s.coapMessageListProc message env process).2 = s := by
  rw [CoapClient.coapMessageListProc, visitList_idle idle]
  split_ifs
  · rfl
  · show { s with history := s.history ++ [] } = s
    rw [List.append_nil]
  · rfl

/-- A message that is not a request is written, and that is all. -/
theorem coapMessageSend_other {P : UInt8 → List Event → CoapMsgSendInfo → Prop} {s : CoapClient}
    {message : CoapMessage} {env : SendEnv} (sound : s.Sound P) (other : ¬ message.IsRequest) :
    (s.coapMessageSend message env).2.Sound P ∧
      (s.coapMessageSend message env).2.messageList = s.messageList := by
  rw [CoapClient.coapMessageSend]
  cases serializeCoapMessage message s.sendBufSize with
  | error rc => exact ⟨sound, rfl⟩
  | ok bytes =>
    have unrelated : ∀ ref, eventsOf (s.history ++ [.write none (some bytes) env.rc]) ref =
        eventsOf s.history ref := fun ref =>
      eventsOf_add_other (List.forall_mem_singleton.mpr fun isAbout => by cases isAbout)
    simp only [if_neg other]
    refine ⟨⟨sound.distinct, sound.older, ?_, fun ref => ?_, fun info mem => ?_⟩, trivial⟩
    · intro event mem ref isAbout
      rcases List.mem_append.mp mem with mem | mem
      · exact sound.past event mem ref isAbout
      · rw [List.mem_singleton.mp mem] at isAbout
        cases isAbout
    · rw [unrelated ref]
      exact sound.orderly ref
    · rw [unrelated info.ref]
      exact sound.nodes info mem

/-- The first transmission of a request. -/
theorem orderly_write (limit : UInt8) (ref : Nat) (bytes : Option (List UInt8)) (rc : Int) :
    Orderly limit [.write (some ref) bytes rc] where
  once := Nat.zero_le 1
  transmissions := Nat.le_add_right 1 _
  silent := List.pairwise_singleton _ _

/-- A request is written and, if that succeeds, waits in the list under a new identity. -/
theorem coapMessageSend_request {s : CoapClient} {message : CoapMessage} {env : SendEnv}
    (sound : s.Sound CoapMsgSendInfo.Waits) (request : message.IsRequest) :
    (s.coapMessageSend message env).2.Sound CoapMsgSendInfo.Waits := by
  rw [CoapClient.coapMessageSend]
  cases serializeCoapMessage message s.sendBufSize with
  | error rc => exact sound
  | ok bytes =>
    have fresh : eventsOf s.history s.requests = [] := by
      refine eventsOf_other fun event mem isAbout => ?_
      exact Nat.lt_irrefl _ (sound.past event mem _ isAbout)
    have first : eventsOf (s.history ++ [.write (some s.requests) (some bytes) env.rc])
        s.requests = [.write (some s.requests) (some bytes) env.rc] := by
      rw [eventsOf_append, fresh, eventsOf_self (List.forall_mem_singleton.mpr rfl), List.nil_append]
    have others : ∀ ref, ref ≠ s.requests →
        eventsOf (s.history ++ [.write (some s.requests) (some bytes) env.rc]) ref =
          eventsOf s.history ref := by
      intro ref other
      refine eventsOf_add_other (List.forall_mem_singleton.mpr fun isAbout => other ?_)
      exact (Option.some.inj isAbout).symm
    have written : CoapClient.Sound CoapMsgSendInfo.Waits
        { s with
          requests := s.requests + 1
          history := s.history ++ [.write (some s.requests) (some bytes) env.rc] } := by
      refine ⟨sound.distinct, fun info mem => (sound.older info mem).trans (Nat.lt_succ_self _),
        ?_, fun ref => ?_, fun info mem => ?_⟩
      · intro event mem ref isAbout
        rcases List.mem_append.mp mem with mem | mem
        · exact (sound.past event mem ref isAbout).trans (Nat.lt_succ_self _)
        · rw [List.mem_singleton.mp mem] at isAbout
          cases isAbout
          exact Nat.lt_succ_self _
      · by_cases isNew : ref = s.requests
        · rw [isNew, first]
          exact orderly_write _ _ _ _
        · rw [others ref isNew]
          exact sound.orderly ref
      · rw [others info.ref (sound.older info mem).ne]
        exact sound.nodes info mem
    simp only [if_pos request]
    by_cases sent : env.rc = qcloudRetSuccess
    · rw [if_pos sent, CoapClient.coapMessageListAdd]
      by_cases allocated : env.infoAllocated = true ∧ env.nodeAllocated = true
      · rw [if_neg (not_not.mpr allocated.1)]
        simp only [if_neg (not_not.mpr allocated.2)]
        refine ⟨?_, ?_, written.past, written.orderly, ?_⟩
        · rw [List.map_append, List.nodup_append]
          refine ⟨sound.distinct, List.nodup_singleton _, ?_⟩
          intro ref mem new isNew
          obtain ⟨info, inList, isInfo⟩ := List.mem_map.mp mem
          rw [List.mem_singleton.mp isNew, ← isInfo]
          exact (sound.older info inList).ne
        · intro info mem
          rcases List.mem_append.mp mem with mem | mem
          · exact written.older info mem
          · rw [List.mem_singleton.mp mem]
            exact Nat.lt_succ_self _
        · intro info mem
          rcases List.mem_append.mp mem with mem | mem
          · exact written.nodes info mem
          · rw [List.mem_singleton.mp mem]
            show CoapMsgSendInfo.Waits _ (eventsOf _ s.requests) _
            rw [first]
            refine ⟨orderly_write _ _ _ _, rfl, rfl, Nat.le_refl 1, ?_, ?_⟩
            · exact UInt8.le_iff_toNat_le.mpr (Nat.zero_le _)
            · rintro ⟨event, mem, isAnswer⟩
              rw [List.mem_singleton.mp mem] at isAnswer
              cases isAnswer
      · rw [not_and_or] at allocated
        rcases allocated with noInfo | noNode
        · rw [if_pos noInfo]
          exact written
        · simp only [if_pos noNode]
          split_ifs <;> exact written
    · rw [if_neg sent]
      exact written

theorem coapMessageSend_sound {s : CoapClient} {message : CoapMessage} {env : SendEnv}
    (sound : s.Sound CoapMsgSendInfo.Waits) :
    (s.coapMessageSend message env).2.Sound CoapMsgSendInfo.Waits := by
  by_cases request : message.IsRequest
  · exact coapMessageSend_request sound request
  · exact (coapMessageSend_other sound request).1

/-- An acknowledgement leaves the list as it is. -/
theorem coapClientSendAck_sound {P : UInt8 → List Event → CoapMsgSendInfo → Prop} {s : CoapClient}
    {msgId : Nat} {env : SendEnv} (sound : s.Sound P) :
    (s.coapClientSendAck msgId env).2.Sound P ∧
      (s.coapClientSendAck msgId env).2.messageList = s.messageList := by
  rw [CoapClient.coapClientSendAck]
  split_ifs
  · exact ⟨sound, rfl⟩
  · refine coapMessageSend_other sound ?_
    rintro ⟨con, _⟩
    cases con

/-! ## A cycle -/

/-- A command of the datagram leaves the requests of the list listed, and they wait unless it
    answers one of them. -/
theorem listProc_answer {s t : CoapClient} {message : CoapMessage} {env : ProcEnv}
    {process : CoapMessage → CoapMsgSendInfo → Visit} (sound : s.Sound CoapMsgSendInfo.Waits)
    (fine : ∀ message events info, info.Waits s.maxRetryCount events →
      Visit.Fine s.maxRetryCount (fun events info => info.Listed s.maxRetryCount events) events info
        (process message info))
    (idle : ∀ info, ¬ info.AnsweredBy message →
      process message info = { message, info, removed := false, events := [] })
    (result : t = (s.coapMessageListProc message env process).2) :
    t.Sound CoapMsgSendInfo.Listed ∧ (t.Sound CoapMsgSendInfo.Waits ∨
      env.iterator = true ∧ ∃ info ∈ s.messageList, info.AnsweredBy message) := by
  subst result
  have listed : s.Sound CoapMsgSendInfo.Listed := sound.mono fun _ _ _ waits => .inl waits
  cases iterator : env.iterator with
  | false =>
    rw [coapMessageListProc_noIterator iterator]
    exact ⟨listed, .inl sound⟩
  | true =>
    by_cases answers : ∃ info ∈ s.messageList, info.AnsweredBy message
    · exact ⟨coapMessageListProc_sound sound fine iterator, .inr ⟨rfl, answers⟩⟩
    · have none : (s.coapMessageListProc message env process).2 = s :=
        coapMessageListProc_idle fun info mem => idle info fun isFor => answers ⟨info, mem, isFor⟩
      rw [none]
      exact ⟨listed, .inl sound⟩

/-- A separate response. -/
theorem coapRespMessageHandle_sound {s : CoapClient} {message : CoapMessage} {env : CycleEnv}
    (sound : s.Sound CoapMsgSendInfo.Waits) (type : message.type = .con ∨ message.type = .non)
    (isRsp : message.IsEmptyRsp) :
    (s.coapRespMessageHandle message env).Sound CoapMsgSendInfo.Listed ∧
      ((s.coapRespMessageHandle message env).Sound CoapMsgSendInfo.Waits ∨
        env.proc.iterator = true ∧ ∃ info ∈ s.messageList, info.AnsweredBy message) := by
  have idle : ∀ (t : CoapClient) (info : CoapMsgSendInfo), ¬ info.AnsweredBy message →
      processResp t message info = { message, info, removed := false, events := [] } := by
    intro t info notFor
    rw [processResp, if_neg (fun isFor => notFor (.inr ⟨type, isRsp, isFor⟩))]
  rw [CoapClient.coapRespMessageHandle]
  by_cases con : message.type = .con
  · obtain ⟨acked, list⟩ := @coapClientSendAck_sound _ s message.msgId env.ack sound
    simp only [if_pos con]
    rw [← list]
    exact @listProc_answer _ _ _ _ (processResp (s.coapClientSendAck message.msgId env.ack).2) acked
      (fun _ _ _ waits => processResp_fine waits) (idle _) rfl
  · simp only [if_neg con]
    exact @listProc_answer _ _ _ _ (processResp s) sound
      (fun _ _ _ waits => processResp_fine waits) (idle _) rfl

/-- What a datagram does to the requests. -/
theorem dispatch_sound {s : CoapClient} {message : CoapMessage} {env : CycleEnv}
    (sound : s.Sound CoapMsgSendInfo.Waits) :
    (s.dispatch message env).Sound CoapMsgSendInfo.Listed ∧
      ((s.dispatch message env).Sound CoapMsgSendInfo.Waits ∨
        env.proc.iterator = true ∧ ∃ info ∈ s.messageList, info.AnsweredBy message) := by
  have listed : ∀ t : CoapClient, t.Sound CoapMsgSendInfo.Waits → t.Sound CoapMsgSendInfo.Listed :=
    fun _ waits => waits.mono fun _ _ _ waits => .inl waits
  rw [CoapClient.dispatch]
  by_cases ack : message.type = .ack ∧ message.IsEmptyAck
  · rw [if_pos ack]
    have after : (s.coapMessageListProc message env.proc (processAck s env.proc)).2.Sound
        CoapMsgSendInfo.Waits := by
      cases iterator : env.proc.iterator with
      | false => rwa [coapMessageListProc_noIterator iterator]
      | true =>
        exact coapMessageListProc_sound sound (fun _ _ _ waits => processAck_fine waits) iterator
    exact ⟨listed _ after, .inl after⟩
  rw [if_neg ack]
  by_cases piggy : message.type = .ack ∧ ¬ message.IsEmpty
  · rw [if_pos piggy]
    refine listProc_answer sound (fun _ _ _ waits => processPiggy_fine waits) ?_ rfl
    intro info notFor
    rw [processPiggy, if_neg]
    intro isFor
    exact notFor (.inl ⟨piggy.1, fun isAck => ack ⟨piggy.1, isAck⟩, piggy.2, isFor⟩)
  rw [if_neg piggy]
  by_cases con : message.type = .con ∧ message.IsEmptyRsp
  · rw [if_pos con]
    exact coapRespMessageHandle_sound sound (.inl con.1) con.2
  rw [if_neg con]
  by_cases non : message.type = .non ∧ message.IsEmptyRsp
  · rw [if_pos non]
    exact coapRespMessageHandle_sound sound (.inr non.1) non.2
  · rw [if_neg non]
    exact ⟨listed s sound, .inl sound⟩

/-- What a read does to the requests. -/
theorem coapMessageRecv_sound {s t : CoapClient} {env : CycleEnv} {rc : Int}
    (sound : s.Sound CoapMsgSendInfo.Waits) (sweeps : s.Sweeps (.cycle env))
    (result : s.coapMessageRecv env = .ok (rc, t)) :
    t.Sound CoapMsgSendInfo.Listed ∧
      (t.Sound CoapMsgSendInfo.Waits ∨ rc = qcloudRetSuccess ∧ env.sweep.iterator = true) := by
  rw [CoapClient.coapMessageRecv] at result
  by_cases success : env.readRc = qcloudRetSuccess
  · rw [if_pos success] at result
    simp only [CoapClient.coapMessageHandle, bind, Except.bind, pure, Except.pure] at result
    cases read : deserializeCoapMessage env.alloc .zero (s.received env)
        ((env.datagram.take s.readBufSize).length % 2 ^ 16) with
    | error fault =>
      rw [CoapClient.received] at read
      simp only [read] at result
      cases result
    | ok outcome =>
      obtain ⟨code, message⟩ := outcome
      have answered := sweeps success
      have received := read
      rw [CoapClient.received] at received
      simp only [received] at result
      cases result
      have copied : CoapClient.Sound CoapMsgSendInfo.Waits
          { s with recvBuf := env.datagram.take s.readBufSize ++
            s.recvBuf.drop (env.datagram.take s.readBufSize).length } :=
        ⟨sound.distinct, sound.older, sound.past, sound.orderly, sound.nodes⟩
      obtain ⟨listed, waits | ⟨iterator, found⟩⟩ :=
        @dispatch_sound _ message env copied
      · exact ⟨listed, .inl waits⟩
      · exact ⟨listed, .inr ⟨success, answered iterator code message read found⟩⟩
  · rw [if_neg success] at result
    cases result
    exact ⟨sound.mono fun _ _ _ waits => .inl waits, .inl sound⟩

/-- A request waits again at the end of each cycle, or is gone. -/
theorem coapMessageCycle_sound {s t : CoapClient} {env : CycleEnv} {rc : Int}
    (sound : s.Sound CoapMsgSendInfo.Waits) (sweeps : s.Sweeps (.cycle env))
    (result : s.coapMessageCycle env = .ok (rc, t)) : t.Sound CoapMsgSendInfo.Waits := by
  rw [CoapClient.coapMessageCycle] at result
  cases recv : s.coapMessageRecv env with
  | error fault =>
    rw [recv] at result
    cases result
  | ok outcome =>
    obtain ⟨code, u⟩ := outcome
    obtain ⟨listed, settled⟩ := coapMessageRecv_sound sound sweeps recv
    simp only [recv, bind, Except.bind, pure, Except.pure] at result
    by_cases failed : code ≠ qcloudRetSuccess ∧ code ≠ qcloudErrSslReadTimeout
    · rw [if_pos failed] at result
      cases result
      rcases settled with waits | ⟨success, _⟩
      · exact waits
      · exact absurd success failed.1
    · rw [if_neg failed] at result
      have isResult := congrArg Prod.snd (Except.ok.inj result)
      dsimp only at isResult
      rw [← isResult]
      cases iterator : env.sweep.iterator with
      | true =>
        exact coapMessageListProc_sound listed (fun _ _ _ isListed => processWait_fine isListed)
          iterator
      | false =>
        rw [coapMessageListProc_noIterator iterator]
        rcases settled with waits | ⟨_, swept⟩
        · exact waits
        · rw [iterator] at swept
          cases swept

/-! ## Runs -/

theorem CoapClient.Fresh.sound {s : CoapClient} (fresh : s.Fresh) :
    s.Sound CoapMsgSendInfo.Waits := by
  have none : ∀ ref, eventsOf s.history ref = [] := by
    intro ref
    rw [fresh.history]
    rfl
  refine ⟨?_, ?_, ?_, ?_, ?_⟩
  · rw [fresh.messageList]
    exact List.nodup_nil
  · rw [fresh.messageList]
    exact List.forall_mem_nil _
  · rw [fresh.history]
    exact List.forall_mem_nil _
  · intro ref
    rw [none ref]
    exact ⟨Nat.zero_le _, Nat.zero_le _, List.Pairwise.nil⟩
  · rw [fresh.messageList]
    exact List.forall_mem_nil _

theorem CoapClient.Sound.after {s t : CoapClient} {action : Action}
    (sound : s.Sound CoapMsgSendInfo.Waits) (sweeps : s.Sweeps action)
    (result : s.after action = .ok t) : t.Sound CoapMsgSendInfo.Waits := by
  cases action with
  | send message env =>
    cases result
    exact coapMessageSend_sound sound
  | cycle env =>
    cases cycle : s.coapMessageCycle env with
    | error fault =>
      simp only [CoapClient.after, cycle, bind, Except.bind] at result
      cases result
    | ok outcome =>
      obtain ⟨rc, u⟩ := outcome
      simp only [CoapClient.after, cycle, bind, Except.bind, pure, Except.pure] at result
      cases result
      exact coapMessageCycle_sound sound sweeps cycle

theorem CoapClient.Sound.lifecycle {s : CoapClient} (sound : s.Sound CoapMsgSendInfo.Waits) :
    s.Lifecycle where
  orderly := sound.orderly
  gone := by
    intro info mem event about isNotification
    have none := (sound.nodes info mem).unnotified
    exact List.countP_eq_zero.mp none event about isNotification

/-- In every run in which every cycle that processes a response can allocate the iterator of its
    sweep, every request has an orderly life. -/
theorem requests_orderly {s t : CoapClient} (fresh : s.Fresh) (actions : List Action)
    (sweeps : coapClient.Guarded (fun s action => ∀ t, s = .ok t → t.Sweeps action) (.ok s) actions)
    (reached : coapClient.exec (.ok s) actions = .ok t) : t.Lifecycle := by
  have sound : ∀ t, coapClient.exec (.ok s) actions = .ok t → t.Sound CoapMsgSendInfo.Waits := by
    refine Machine.Guarded.invariant (I := fun state => ∀ t, state = .ok t →
      t.Sound CoapMsgSendInfo.Waits) ?_ ?_ sweeps
    · intro t same
      cases same
      exact fresh.sound
    · intro state action sweeps holds t result
      cases state with
      | error fault => cases result
      | ok before => exact (holds before rfl).after (sweeps before rfl) result
  exact (sound t reached).lifecycle

/-- A request with the identity 7, the token 9 and a handler. -/
def sendRequest : Action :=
  .send { defaultCoapMessage with msgId := 7, token := [9], handler := some 1 } calm.ack

/-- A cycle that receives a piggybacked 2.05 response to it. -/
def receiveResponse (sweepIterator : Bool) : Action :=
  .cycle
    { calm with
      datagram := [0x61, 0x45, 0, 7, 9, 0xFF, 0x68]
      sweep := { calm.sweep with iterator := sweepIterator } }

/-- The request is answered, and a second response finds it gone. -/
theorem requests_orderly_answered :
    ∃ t, coapClient.exec (.ok (idleClient []))
        [sendRequest, receiveResponse true, receiveResponse true] = .ok t ∧ t.Lifecycle := by
  have finished : (coapClient.exec (.ok (idleClient []))
      [sendRequest, receiveResponse true, receiveResponse true]).isOk = true := by
    decide +kernel
  cases reached : coapClient.exec (.ok (idleClient []))
      [sendRequest, receiveResponse true, receiveResponse true] with
  | error fault =>
    rw [reached] at finished
    cases finished
  | ok t =>
    have fresh : (idleClient []).Fresh := ⟨rfl, rfl⟩
    refine ⟨t, rfl, requests_orderly fresh
      [sendRequest, receiveResponse true, receiveResponse true] ?_ reached⟩
    exact ⟨fun _ _ => trivial, fun _ _ _ _ _ _ _ _ => rfl, fun _ _ _ _ _ _ _ _ => rfl, trivial⟩

/-- Where the sweep behind the first response has no iterator, the second one runs the handler
    again. -/
theorem response_notifiesTwice :
    ∃ t, coapClient.exec (.ok (idleClient []))
        [sendRequest, receiveResponse false, receiveResponse true] = .ok t ∧
      (eventsOf t.history 0).countP Event.isNotification = 2 ∧ ¬ t.Lifecycle := by
  have finished : (coapClient.exec (.ok (idleClient []))
      [sendRequest, receiveResponse false, receiveResponse true]).map
        (fun t => (eventsOf t.history 0).countP Event.isNotification) = .ok 2 := by
    decide +kernel
  cases reached : coapClient.exec (.ok (idleClient []))
      [sendRequest, receiveResponse false, receiveResponse true] with
  | error fault =>
    rw [reached] at finished
    cases finished
  | ok t =>
    rw [reached] at finished
    have twice : (eventsOf t.history 0).countP Event.isNotification = 2 := Except.ok.inj finished
    refine ⟨t, rfl, twice, fun lifecycle => ?_⟩
    have once := (lifecycle.orderly 0).once
    omega

end QcloudIot.Coap
