import QcloudIot.Mqtt.Requests
import QcloudIot.Mqtt.Proofs.Send

/-!
# What a request does

Publish, subscribe and unsubscribe as the rest of the development uses them. A request
changes the last packet id, `write_buf` and the wait lists of the client and nothing else
(`World.OnlyRequests`). It is either refused, with the lists as they were, or made, with one
node appended.
-/

namespace QcloudIot.Mqtt

/-! ## What a request leaves alone -/

/-- What a request may change of the client. -/
structure World.OnlyRequests (w w' : World) : Prop where
  client : w'.client = { w.client with
    nextPacketId := w'.client.nextPacketId, writeBuf := w'.client.writeBuf,
    listPubWaitAck := w'.client.listPubWaitAck, listSubWaitAck := w'.client.listSubWaitAck }
  writeBufSize : w'.client.writeBufSize = w.client.writeBufSize
  trace : w'.trace = w.trace
  net : w'.net = { w.net with tx := w'.net.tx }
  grows : w.net.tx <+: w'.net.tx
  env : w'.env = { w.env with
    mallocs := w'.env.mallocs, ticks := w'.env.ticks, writes := w'.env.writes,
    stack := w'.env.stack }

instance : Std.Refl World.OnlyRequests :=
  ⟨fun _ => ⟨rfl, rfl, rfl, rfl, List.prefix_rfl, rfl⟩⟩

instance : IsTrans World World.OnlyRequests where
  trans a b c first second :=
    { client := by rw [second.client, first.client]
      writeBufSize := second.writeBufSize.trans first.writeBufSize
      trace := second.trace.trans first.trace
      net := by rw [second.net, first.net]
      grows := first.grows.trans second.grows
      env := by rw [second.env, first.env] }

theorem World.OnlySends.onlyRequests {w w' : World} (h : w.OnlySends w') : w.OnlyRequests w' where
  client := by rw [h.client]
  writeBufSize := by rw [h.client]
  trace := h.trace
  net := h.net
  grows := h.grows
  env := by rw [h.env]

/-- A change that only the fields a request may change are subject to. -/
theorem World.onlyRequests_of {w : World} {c : Client} {env : Env} {heap : Heap} {clock : Nat}
    (client : c = { w.client with
      nextPacketId := c.nextPacketId, writeBuf := c.writeBuf,
      listPubWaitAck := c.listPubWaitAck, listSubWaitAck := c.listSubWaitAck })
    (writeBufSize : c.writeBufSize = w.client.writeBufSize)
    (environment : env = { w.env with
      mallocs := env.mallocs, ticks := env.ticks, writes := env.writes, stack := env.stack }) :
    w.OnlyRequests { w with client := c, env := env, heap := heap, clock := clock } :=
  ⟨client, writeBufSize, rfl, rfl, List.prefix_rfl, environment⟩

section Within

theorem halMalloc_onlyRequests : Prog.Within World.OnlyRequests halMalloc :=
  fun _ => World.onlyRequests_of rfl rfl rfl

theorem countdownMs_onlyRequests (timeoutMs : Nat) :
    Prog.Within World.OnlyRequests (countdownMs timeoutMs) :=
  fun _ => World.onlyRequests_of rfl rfl rfl

theorem getNextPacketId_onlyRequests : Prog.Within World.OnlyRequests getNextPacketId :=
  fun _ => World.onlyRequests_of rfl rfl rfl

theorem halMallocString_onlyRequests (text : CStr) :
    Prog.Within World.OnlyRequests (halMallocString text) :=
  .bind halMalloc_onlyRequests fun _ =>
    .ite (fun _ => World.onlyRequests_of rfl rfl rfl) (.pure _)

theorem halFree_onlyRequests (s : Option StoredFilter) :
    Prog.Within World.OnlyRequests (halFree s) := by
  cases s with
  | none => exact .pure _
  | some s => exact fun _ => World.onlyRequests_of rfl rfl rfl

theorem writeToWriteBuf_onlyRequests (pos : Nat) (bytes : List UInt8) :
    Prog.Within World.OnlyRequests (writeToWriteBuf pos bytes) :=
  fun _ => World.onlyRequests_of rfl (by simp [Client.writeBufSize]) rfl

theorem pushSubInfoTo_onlyRequests (len : Nat) (msgId : UInt16) (type : MessageType)
    (handler : SubTopicHandle) :
    Prog.Within World.OnlyRequests (pushSubInfoTo len msgId type handler) := by
  refine .bind client_within fun c => .ite (.pure _) ?_
  refine .bind halMalloc_onlyRequests fun _ => .ite (.pure _) ?_
  refine .bind (countdownMs_onlyRequests _) fun _ => .bind halMalloc_onlyRequests fun _ => ?_
  exact .ite (.pure _) (.bind (fun _ => World.onlyRequests_of rfl rfl rfl) fun _ => .pure _)

theorem maskPushPubInfoTo_onlyRequests (len : Nat) (msgId : UInt16) :
    Prog.Within World.OnlyRequests (maskPushPubInfoTo len msgId) := by
  refine .bind client_within fun c => .ite (.pure _) (.ite (.pure _) ?_)
  refine .bind halMalloc_onlyRequests fun _ => .ite (.pure _) ?_
  refine .bind (countdownMs_onlyRequests _) fun _ => .bind halMalloc_onlyRequests fun _ => ?_
  exact .ite (.pure _) (.bind (fun _ => World.onlyRequests_of rfl rfl rfl) fun _ => .pure _)

theorem sendMqttPacket_onlyRequests (length : Nat) (timer : Timer) :
    Prog.Within World.OnlyRequests (sendMqttPacket length timer) :=
  (sendMqttPacket_onlySends length timer).mono fun _ _ h => h.onlyRequests

theorem sendSubRequest_onlyRequests (topicFilter : CStr) (type : MessageType)
    (serialize : Nat → UInt16 → Except Int (List UInt8)) (subHandle : StoredFilter → SubTopicHandle) :
    Prog.Within World.OnlyRequests (sendSubRequest topicFilter type serialize subHandle) := by
  refine .bind (halMallocString_onlyRequests _) fun stored => ?_
  cases stored with
  | none => exact .pure _
  | some stored =>
    refine .bind client_within fun c => .bind (countdownMs_onlyRequests _) fun timer => ?_
    refine .bind getNextPacketId_onlyRequests fun packetId => ?_
    cases serialize c.writeBufSize packetId with
    | error rc => exact .bind (halFree_onlyRequests _) fun _ => .pure _
    | ok packet =>
      refine .bind (writeToWriteBuf_onlyRequests _ _) fun _ => ?_
      refine .bind (pushSubInfoTo_onlyRequests _ _ _ _) fun rc => ?_
      refine .ite (.bind (halFree_onlyRequests _) fun _ => .pure _) ?_
      refine .bind (sendMqttPacket_onlyRequests _ _) fun rc => .ite ?_ (.pure _)
      refine .bind (fun _ => World.onlyRequests_of rfl rfl rfl) fun _ => ?_
      exact .bind (halFree_onlyRequests _) fun _ => .pure _

theorem qcloudIotMqttSubscribe_onlyRequests (topicFilter : CStr) (params : SubscribeParams) :
    Prog.Within World.OnlyRequests (qcloudIotMqttSubscribe topicFilter params) := by
  refine .ite (.pure _) (.ite (.pure _) (.ite (.pure _) ?_))
  exact .bind (fun w => refl_of _ w) fun _ => .ite (.pure _) (sendSubRequest_onlyRequests _ _ _ _)

theorem qcloudIotMqttPublish_onlyRequests (topicName : CStr) (params : PublishParams) :
    Prog.Within World.OnlyRequests (qcloudIotMqttPublish topicName params) := by
  refine .ite (.pure _) (.ite (.pure _) (.ite (.pure _) ?_))
  refine .bind (fun w => refl_of _ w) fun _ => .ite (.pure _) (.bind client_within fun c => ?_)
  refine .bind (countdownMs_onlyRequests _) fun timer => ?_
  refine .bind (.ite getNextPacketId_onlyRequests (.pure _)) fun id => ?_
  cases serializePublishPacket c.writeBufSize 0 params.qos params.retained id topicName
      params.payload with
  | error rc => exact .pure _
  | ok packet =>
    refine .bind (writeToWriteBuf_onlyRequests _ _) fun _ => ?_
    refine .bind (.ite (.pure _) (maskPushPubInfoTo_onlyRequests _ _)) fun rc => .ite (.pure _) ?_
    refine .bind (sendMqttPacket_onlyRequests _ _) fun rc => .ite (.ite (.pure _) ?_) (.pure _)
    exact .bind (fun _ => World.onlyRequests_of rfl rfl rfl) fun _ => .pure _

end Within

/-! ## Subscribe and unsubscribe requests -/

/-- The next `k` allocations succeed. -/
def Env.grants (e : Env) (k : Nat) : Bool := (e.mallocs.take k).all id

theorem Env.grants_succ (e : Env) (k : Nat) :
    e.grants (k + 1) = (e.mallocs.headD true && (e.mallocs.tail.take k).all id) := by
  cases mallocs : e.mallocs <;> simp [Env.grants, mallocs]

/-- What a serializer returns: a packet that is not empty, or an error code. -/
inductive Framed : Except Int (List UInt8) → Prop where
  | ok {packet : List UInt8} : 0 < packet.length → Framed (.ok packet)
  | error {rc : Int} : rc < 0 → Framed (.error rc)

theorem Framed.length_pos {packet : List UInt8} (h : Framed (.ok packet)) : 0 < packet.length := by
  cases h
  assumption

theorem Framed.rc_neg {rc : Int} (h : Framed (.error rc)) : rc < 0 := by
  cases h
  assumption

/-- A SUBSCRIBE or UNSUBSCRIBE that `w` serializes to `serialized` will be made: its filter
    and its node can be allocated, the wait list has room and the packet can be sent. -/
def World.MakesSubRequest (w : World) (serialized : Except Int (List UInt8)) : Prop :=
  w.env.grants 3 = true ∧ w.client.listSubWaitAck.length < maxMessageHandlers ∧
    ∃ packet, serialized = .ok packet ∧
      w.tick.tick.Sends packet.length ⟨w.tick.clock + w.client.commandTimeoutMs * 1000⟩

/-- The request was made: its packet has gone out and its node waits for the answer. -/
structure World.SubRequestMade (w : World) (topicFilter : CStr) (type : MessageType)
    (serialized : Except Int (List UInt8)) (subHandle : StoredFilter → SubTopicHandle)
    (rc : Int) (w' : World) : Prop where
  rc : rc = ((nextId w.client.nextPacketId).toNat : Int)
  nextPacketId : w'.client.nextPacketId = nextId w.client.nextPacketId
  listPubWaitAck : w'.client.listPubWaitAck = w.client.listPubWaitAck
  listSubWaitAck : ∃ subStartTime len buf, w'.client.listSubWaitAck = w.client.listSubWaitAck ++
    [{ type := type, msgId := nextId w.client.nextPacketId, subStartTime := subStartTime,
       nodeState := .normanl, handler := subHandle ⟨w.heap.next, topicFilter⟩,
       len := len, buf := buf }]
  heap : w'.heap = { w.heap with next := w.heap.next + 1 }
  sent : ∃ packet, serialized = .ok packet ∧ w.net.tx ++ packet <+: w'.net.tx

/-- The request was refused, and a filter that was allocated for it is released. -/
structure World.SubRequestRefused (w : World) (rc : Int) (w' : World) : Prop where
  rc : rc < 0
  listPubWaitAck : w'.client.listPubWaitAck = w.client.listPubWaitAck
  listSubWaitAck : w'.client.listSubWaitAck = w.client.listSubWaitAck
  heap : w'.heap = w.heap ∨
    w'.heap = { next := w.heap.next + 1, released := w.heap.released ++ [w.heap.next] }

theorem World.makesSubRequest_congr {w v : World} {serialized : Except Int (List UInt8)}
    (mallocs : w.env.mallocs = v.env.mallocs) (ticks : w.env.ticks = v.env.ticks)
    (writes : w.env.writes = v.env.writes) (clock : w.clock = v.clock)
    (room : w.client.listSubWaitAck.length = v.client.listSubWaitAck.length)
    (size : w.client.writeBufSize = v.client.writeBufSize)
    (timeout : w.client.commandTimeoutMs = v.client.commandTimeoutMs) :
    w.MakesSubRequest serialized ↔ v.MakesSubRequest serialized := by
  have tick : w.tick.clock = v.tick.clock := by simp [World.tick, ticks, clock]
  have sends : ∀ n timer, w.tick.tick.Sends n timer ↔ v.tick.tick.Sends n timer := fun _ _ =>
    World.sends_congr size (by simp [World.tick, ticks]) writes (by simp [World.tick, ticks, clock])
  simp only [World.MakesSubRequest, Env.grants, mallocs, room, tick, timeout, sends]

theorem pushSubInfoTo_spec (len : Nat) (msgId : UInt16) (type : MessageType)
    (handler : SubTopicHandle) (w : World) :
    (pushSubInfoTo len msgId type handler).wp (fun rc w' =>
      (rc = qcloudRetSuccess ∧ w.env.grants 2 = true ∧
        w.client.listSubWaitAck.length < maxMessageHandlers ∧
        ∃ subStartTime, w' = w.popMalloc.tick.popMalloc.setClient { w.client with
          listSubWaitAck := w.client.listSubWaitAck ++
            [{ type := type, msgId := msgId, subStartTime := subStartTime, nodeState := .normanl,
               handler := handler, len := len % 2 ^ 16, buf := w.client.writeBuf.take len }] }) ∨
      (rc < 0 ∧ ¬ (w.env.grants 2 = true ∧
          w.client.listSubWaitAck.length < maxMessageHandlers) ∧
        w'.client = w.client ∧ w'.heap = w.heap)) w := by
  have grants : w.env.grants 2 = (w.env.mallocs.headD true && w.env.mallocs.tail.headD true) := by
    rw [Env.grants_succ]
    cases w.env.mallocs.tail <;> simp
  simp only [pushSubInfoTo, Prog.wp_bind, wp_client, Prog.wp_ite, Prog.wp_pure, wp_halMalloc,
    wp_countdownMs, wp_setClient, grants, Bool.and_eq_true, Bool.not_eq_true',
    World.popMalloc_client, World.tick_client, World.tick_env_mallocs, World.popMalloc_env_mallocs]
  refine ⟨fun full => ?_, fun room => ⟨fun failed => ?_, fun granted => ⟨fun failed => ?_,
    fun granted' => ?_⟩⟩⟩
  · exact .inr ⟨by decide, fun h => absurd h.2 (Nat.not_lt.mpr full), by simp, by simp⟩
  · exact .inr ⟨by decide, fun h => absurd (failed.symm.trans h.1.1) (by decide), by simp, by simp⟩
  · exact .inr ⟨by decide, fun h => absurd (failed.symm.trans h.1.2) (by decide), by simp, by simp⟩
  · simp only [Bool.not_eq_false] at granted granted'
    exact .inl ⟨by simp, ⟨granted, granted'⟩, Nat.not_le.mp room, _, rfl⟩

theorem sendSubRequest_spec (topicFilter : CStr) (type : MessageType)
    (serialize : Nat → UInt16 → Except Int (List UInt8)) (subHandle : StoredFilter → SubTopicHandle)
    (w : World) (framed : ∀ bufLen id, Framed (serialize bufLen id)) :
    (sendSubRequest topicFilter type serialize subHandle).wp (fun rc w' =>
      w.MakesSubRequest (serialize w.client.writeBufSize (nextId w.client.nextPacketId)) ∧
        w.SubRequestMade topicFilter type
          (serialize w.client.writeBufSize (nextId w.client.nextPacketId)) subHandle rc w' ∨
      ¬ w.MakesSubRequest (serialize w.client.writeBufSize (nextId w.client.nextPacketId)) ∧
        w.SubRequestRefused rc w') w := by
  replace framed := framed w.client.writeBufSize (nextId w.client.nextPacketId)
  generalize bytes : serialize w.client.writeBufSize (nextId w.client.nextPacketId) = serialized
    at framed
  have grants : w.env.grants 3 = (w.env.mallocs.headD true && w.popMalloc.env.grants 2) :=
    Env.grants_succ _ _
  rw [sendSubRequest]
  simp only [Prog.wp_bind, wp_halMallocString, Prog.wp_pure]
  refine ⟨fun granted => ?_, fun failed => .inr ⟨fun h => ?_, by decide, rfl, rfl, .inl rfl⟩⟩
  · simp only [Prog.wp_bind, wp_client, wp_countdownMs, wp_getNextPacketId, World.tick_client,
      World.setHeap_client, World.popMalloc_client, bytes]
    cases serialized with
    | error rc =>
      simp only [Prog.wp_bind, wp_halFree, Prog.wp_pure]
      refine .inr ⟨fun h => ?_, framed.rc_neg, rfl, rfl, .inr rfl⟩
      obtain ⟨packet, made, -⟩ := h.2.2
      cases made
    | ok packet =>
      simp only [Prog.wp_bind, wp_writeToWriteBuf, World.setClient_client]
      refine Prog.wp_mono (pushSubInfoTo_spec _ _ _ _ _) ?_
      rintro rc w' (⟨rfl, granted', room, start, rfl⟩ | ⟨refused, notMade, client, heap⟩)
      · simp only [ne_eq, not_true_eq_false, if_false, Prog.wp_bind]
        refine Prog.wp_mono (Prog.wp_and (sendMqttPacket_spec _ _ _ framed.length_pos)
          (Prog.wp_and (sendMqttPacket_nonpos _ _ _)
            (Prog.within_iff_wp.mp (sendMqttPacket_onlySends _ _) _))) ?_
        rintro rc w' ⟨⟨sends, transmitted⟩, nonpos, only⟩
        replace sends := sends.trans (World.sends_congr (v := w.tick.tick)
          (by simp [Client.writeBufSize]) rfl rfl rfl)
        have makes : w.MakesSubRequest (.ok packet) ↔ rc = qcloudRetSuccess := by
          refine ⟨fun made => ?_, fun succeeded =>
            ⟨by rw [grants, granted]; exact granted', room, packet, rfl, sends.mp succeeded⟩⟩
          obtain ⟨-, -, packet', same, sends'⟩ := made
          cases same
          exact sends.mpr sends'
        simp only [removePushedSubInfo, wp_setClient, Prog.wp_ite, Prog.wp_bind, Prog.wp_pure,
          wp_halFree]
        refine ⟨fun failed => .inr ⟨fun h => failed (makes.mp h), ?_⟩, fun succeeded =>
          .inl ⟨makes.mpr (not_not.mp succeeded), ?_⟩⟩
        · refine ⟨lt_of_le_of_ne nonpos failed, ?_, ?_, .inr ?_⟩
          · simp [only.client]
          · simp [only.client]
          · simp [only.heap, freed]
        · have fits := (sends.mp (not_not.mp succeeded)).1
          obtain ⟨sent, enough, -, sentBytes, -⟩ := transmitted (not_not.mp succeeded)
          refine ⟨rfl, ?_, ?_, ⟨start, packet.length % 2 ^ 16,
            (overwrite w.client.writeBuf 0 packet).take packet.length, ?_⟩, ?_, packet, rfl, ?_⟩
          · simp [only.client]
          · simp [only.client]
          · simp [only.client]
          · simp [only.heap]
          · rw [sentBytes]
            exact (List.prefix_append_right_inj _).mpr
              (prefix_take_overwrite _ (Nat.le_of_lt fits) enough)
      · have other : rc ≠ qcloudRetSuccess := by
          rintro rfl
          exact absurd refused (by decide)
        simp only [other, ne_eq, not_false_eq_true, if_true, Prog.wp_bind, wp_halFree, Prog.wp_pure]
        refine .inr ⟨fun h => notMade ⟨?_, h.2.1⟩, refused, ?_, ?_, .inr ?_⟩
        · have granted' := h.1
          rw [grants, Bool.and_eq_true] at granted'
          exact granted'.2
        · rw [World.setHeap_client, client]
          rfl
        · rw [World.setHeap_client, client]
          rfl
        · simp [heap, freed]
  · rw [World.MakesSubRequest, grants, failed] at h
    simp at h

theorem serializeSubscribePacket_framed (bufLen : Nat) (dup : UInt8) (packetId : UInt16)
    (count : Nat) (topicFilter : CStr) (requestedQoS : QoS) :
    Framed (serializeSubscribePacket bufLen dup packetId count topicFilter requestedQoS) := by
  simp only [serializeSubscribePacket, mqttInitPacketHeader]
  split
  · exact .error (by decide)
  · exact .ok (by simp)

theorem serializeUnsubscribePacket_framed (bufLen : Nat) (dup : UInt8) (packetId : UInt16)
    (count : Nat) (topicFilter : CStr) :
    Framed (serializeUnsubscribePacket bufLen dup packetId count topicFilter) := by
  simp only [serializeUnsubscribePacket, mqttInitPacketHeader]
  split
  · exact .error (by decide)
  · exact .ok (by simp)

/-- A topic filter of a length that the requests accept. -/
def CStr.Admissible (topicFilter : CStr) : Prop :=
  topicFilter.length ≠ 0 ∧ topicFilter.length ≤ maxSizeOfCloudTopic

instance (topicFilter : CStr) : Decidable topicFilter.Admissible :=
  inferInstanceAs (Decidable (_ ∧ _))

/-- A subscribe call that goes through. -/
def World.Subscribes (w : World) (topicFilter : CStr) (params : SubscribeParams) : Prop :=
  topicFilter.Admissible ∧ params.qos ≠ .qos2 ∧ w.client.isConnected = true ∧
    w.MakesSubRequest (serializeSubscribePacket w.client.writeBufSize 0
      (nextId w.client.nextPacketId) 1 topicFilter params.qos)

theorem qcloudIotMqttSubscribe_spec (topicFilter : CStr) (params : SubscribeParams) (w : World) :
    (qcloudIotMqttSubscribe topicFilter params).wp (fun rc w' =>
      w.Subscribes topicFilter params ∧
        w.SubRequestMade topicFilter .subscribe
          (serializeSubscribePacket w.client.writeBufSize 0 (nextId w.client.nextPacketId) 1
            topicFilter params.qos) params.handle rc w' ∨
      ¬ w.Subscribes topicFilter params ∧ w.SubRequestRefused rc w') w := by
  simp only [qcloudIotMqttSubscribe, Prog.wp_ite, Prog.wp_pure, Prog.wp_bind,
    wp_getClientConnState, Bool.not_eq_true', Bool.not_eq_false]
  refine ⟨fun empty => .inr ⟨fun h => absurd empty h.1.1, by decide, rfl, rfl, .inl rfl⟩,
    fun some => ⟨fun long => .inr ⟨fun h => absurd h.1.2 (Nat.not_le.mpr long), by decide, rfl, rfl,
      .inl rfl⟩, fun short => ⟨fun qos2 => .inr ⟨fun h => absurd qos2 h.2.1, by decide, rfl, rfl,
        .inl rfl⟩, fun qos => ⟨fun down => .inr ⟨fun h => ?_, by decide, rfl, rfl, .inl rfl⟩,
          fun up => ?_⟩⟩⟩⟩
  · exact absurd (down.symm.trans h.2.2.1) (by decide)
  · refine Prog.wp_mono (sendSubRequest_spec _ _ _ _ _
      fun _ _ => serializeSubscribePacket_framed _ _ _ _ _ _) ?_
    rintro rc w' (⟨makes, made⟩ | ⟨fails, refused⟩)
    · exact .inl ⟨⟨⟨some, Nat.not_lt.mp short⟩, qos, up, makes⟩, made⟩
    · exact .inr ⟨fun h => fails h.2.2.2, refused⟩

/-- The table entry after the loop of `qcloud_iot_mqtt_unsubscribe`. -/
def SubTopicHandle.cleared (topicFilter : CStr) (h : SubTopicHandle) : SubTopicHandle :=
  if handleIsMeant topicFilter h then { h with topicFilter := none } else h

/-- The callbacks of the loop for a table entry. -/
def SubTopicHandle.clearEvents (topicFilter : CStr) (h : SubTopicHandle) : List Event :=
  if handleIsMeant topicFilter h then
    subNotifications h.subEventHandler .unsubscribe h.handlerUserData
  else []

/-- The identities the loop releases for a table entry. -/
def SubTopicHandle.clearFreed (topicFilter : CStr) (h : SubTopicHandle) : List Nat :=
  if handleIsMeant topicFilter h then freed h.topicFilter else []

/-- The table after the loop of `qcloud_iot_mqtt_unsubscribe` over `slots`. -/
def clearTable (topicFilter : CStr) (slots : List (Fin maxMessageHandlers))
    (table : Fin maxMessageHandlers → SubTopicHandle) : Fin maxMessageHandlers → SubTopicHandle :=
  fun i => if i ∈ slots then (table i).cleared topicFilter else table i

/-- The world after the loop of `qcloud_iot_mqtt_unsubscribe` over `slots`. -/
def World.unsubscribed (w : World) (topicFilter : CStr) (slots : List (Fin maxMessageHandlers)) :
    World :=
  let table := w.client.subHandles
  let released := slots.flatMap fun i => (table i).clearFreed topicFilter
  let events := slots.flatMap fun i => (table i).clearEvents topicFilter
  ((w.setClient { w.client with subHandles := clearTable topicFilter slots table }).setHeap
    { w.heap with released := w.heap.released ++ released }).called events

theorem clearTable_cons (topicFilter : CStr) {i : Fin maxMessageHandlers}
    {rest : List (Fin maxMessageHandlers)} (fresh : i ∉ rest)
    (table : Fin maxMessageHandlers → SubTopicHandle) :
    clearTable topicFilter (i :: rest) table =
      clearTable topicFilter rest (Function.update table i ((table i).cleared topicFilter)) := by
  funext j
  by_cases same : j = i
  · subst same
    simp [clearTable, fresh]
  · simp [clearTable, same]

/-- What the loop does to slot `i` does not depend on an update of another slot. -/
theorem flatMap_update {α : Type} {i : Fin maxMessageHandlers} {rest : List (Fin maxMessageHandlers)}
    (fresh : i ∉ rest) (table : Fin maxMessageHandlers → SubTopicHandle) (h : SubTopicHandle)
    (f : SubTopicHandle → List α) :
    (rest.flatMap fun j => f (Function.update table i h j)) = rest.flatMap fun j => f (table j) := by
  refine List.flatMap_congr fun j member => ?_
  rw [Function.update_of_ne]
  rintro rfl
  exact fresh member

/-- The world after one round of the loop. -/
def World.clearedAt (w : World) (topicFilter : CStr) (i : Fin maxMessageHandlers) : World :=
  let h := w.client.subHandles i
  let table := Function.update w.client.subHandles i (h.cleared topicFilter)
  let released := w.heap.released ++ h.clearFreed topicFilter
  ((w.called (h.clearEvents topicFilter)).setHeap { w.heap with released := released }).setClient
    { w.client with subHandles := table }

/-- The first slot of the loop, and then the others. -/
theorem World.unsubscribed_cons (w : World) (topicFilter : CStr) {i : Fin maxMessageHandlers}
    {rest : List (Fin maxMessageHandlers)} (fresh : i ∉ rest) :
    w.unsubscribed topicFilter (i :: rest) =
      (w.clearedAt topicFilter i).unsubscribed topicFilter rest := by
  simp only [World.unsubscribed, World.clearedAt, clearTable_cons topicFilter fresh, List.flatMap_cons,
    World.setClient_client, World.setClient_heap, World.setHeap_heap,
    flatMap_update fresh _ _ (SubTopicHandle.clearFreed topicFilter),
    flatMap_update fresh _ _ (SubTopicHandle.clearEvents topicFilter), ← List.append_assoc]
  simp only [World.setClient, World.setHeap, World.called, List.append_assoc]

/-- The loop visits every slot once, so what it does to a slot is determined by the table it
    found. -/
theorem unsubscribeLoop_spec (topicFilter : CStr) (slots : List (Fin maxMessageHandlers))
    (distinct : slots.Nodup) (w : World) :
    (unsubscribeLoop topicFilter slots).wp (fun suberExists w' =>
      suberExists = (slots.any fun i => handleIsMeant topicFilter (w.client.subHandles i)) ∧
        w' = w.unsubscribed topicFilter slots) w := by
  induction slots generalizing w with
  | nil =>
    have same : clearTable topicFilter [] w.client.subHandles = w.client.subHandles := by
      funext i
      simp [clearTable]
    simp [unsubscribeLoop, World.unsubscribed, same, World.setClient, World.setHeap]
  | cons i rest ih =>
    obtain ⟨fresh, distinct⟩ := List.nodup_cons.mp distinct
    rw [World.unsubscribed_cons w topicFilter fresh]
    simp only [unsubscribeLoop, Prog.wp_bind, wp_client, Prog.wp_ite, wp_notifySub, wp_halFree,
      wp_setClient, List.any_cons]
    refine ⟨fun meant => ?_, fun other => ?_⟩
    · refine Prog.wp_mono (ih distinct _) ?_
      rintro _ w' ⟨-, rfl⟩
      simp only [Prog.wp_pure, meant, Bool.true_or, true_and, World.clearedAt,
        SubTopicHandle.clearEvents, SubTopicHandle.clearFreed, SubTopicHandle.cleared, if_true]
      rfl
    · refine Prog.wp_mono (ih distinct w) ?_
      rintro _ w' ⟨rfl, rfl⟩
      have round : w.clearedAt topicFilter i = w := by
        simp [World.clearedAt, SubTopicHandle.clearEvents, SubTopicHandle.clearFreed,
          SubTopicHandle.cleared, other, World.setHeap, World.setClient]
      simp [other, round]

/-- The world in which an unsubscribe call starts to make its request. -/
def World.afterClearing (w : World) (topicFilter : CStr) : World :=
  if topicFilter.Admissible then w.unsubscribed topicFilter (List.finRange maxMessageHandlers)
  else w

/-- An unsubscribe call that goes through. -/
def World.Unsubscribes (w : World) (topicFilter : CStr) : Prop :=
  topicFilter.Admissible ∧ (∃ i, handleIsMeant topicFilter (w.client.subHandles i) = true) ∧
    w.client.isConnected = true ∧
    w.MakesSubRequest (serializeUnsubscribePacket w.client.writeBufSize 0
      (nextId w.client.nextPacketId) 1 topicFilter)

/-- An unsubscribe call clears the table first, and then makes its request or is refused. -/
theorem qcloudIotMqttUnsubscribe_spec (topicFilter : CStr) (w : World) :
    (qcloudIotMqttUnsubscribe topicFilter).wp (fun rc w' =>
      (w.afterClearing topicFilter).OnlyRequests w' ∧
      (w.Unsubscribes topicFilter ∧ (∃ qos, (w.afterClearing topicFilter).SubRequestMade topicFilter
          .unsubscribe (serializeUnsubscribePacket w.client.writeBufSize 0
            (nextId w.client.nextPacketId) 1 topicFilter) (unsubscribeHandle qos) rc w') ∨
        ¬ w.Unsubscribes topicFilter ∧
          (w.afterClearing topicFilter).SubRequestRefused rc w')) w := by
  simp only [qcloudIotMqttUnsubscribe, Prog.wp_ite, Prog.wp_pure, Prog.wp_bind]
  by_cases admissible : topicFilter.Admissible
  · have cleared : w.afterClearing topicFilter = w.unsubscribed topicFilter
        (List.finRange maxMessageHandlers) := if_pos admissible
    refine ⟨fun empty => absurd empty admissible.1, fun _ => ⟨fun long =>
      absurd admissible.2 (Nat.not_le.mpr long), fun _ => ?_⟩⟩
    refine Prog.wp_mono (unsubscribeLoop_spec topicFilter _ (List.nodup_finRange _) w) ?_
    rintro _ u ⟨rfl, rfl⟩
    rw [← cleared]
    simp only [Prog.wp_ite, Prog.wp_pure, Prog.wp_bind, wp_getClientConnState, wp_uninitialised,
      Bool.not_eq_true', List.any_eq_false, List.mem_finRange, forall_const, Bool.not_eq_false]
    refine ⟨fun nobody => ?_, fun somebody => ⟨fun down => ?_, fun up => ?_⟩⟩
    · exact ⟨refl_of _ _, .inr ⟨fun h => absurd h.2.1.choose_spec (nobody _), by decide, rfl, rfl,
        .inl rfl⟩⟩
    · refine ⟨refl_of _ _, .inr ⟨fun h => ?_, by decide, rfl, rfl, .inl rfl⟩⟩
      rw [cleared] at down
      exact absurd (down.symm.trans h.2.2.1) (by decide)
    · refine Prog.wp_mono (Prog.wp_and (sendSubRequest_spec _ _ _ _ _
        fun _ _ => serializeUnsubscribePacket_framed _ _ _ _ _)
        (Prog.within_iff_wp.mp (sendSubRequest_onlyRequests _ _ _ _) _)) ?_
      rintro rc w' ⟨outcome, only⟩
      rw [cleared] at up outcome only ⊢
      have makes : ∀ serialized, (w.unsubscribed topicFilter
          (List.finRange maxMessageHandlers)).popStack.MakesSubRequest serialized ↔
          w.MakesSubRequest serialized :=
        fun _ => World.makesSubRequest_congr rfl rfl rfl rfl rfl rfl rfl
      rw [makes] at outcome
      refine ⟨⟨only.client, only.writeBufSize, only.trace, only.net, only.grows, only.env⟩, ?_⟩
      rcases outcome with ⟨goes, made⟩ | ⟨fails, refused⟩
      · refine .inl ⟨⟨admissible, ?_, up, goes⟩, (w.env.stack.headD .zero).qos, ?_⟩
        · simpa using somebody
        · exact ⟨made.rc, made.nextPacketId, made.listPubWaitAck, made.listSubWaitAck, made.heap,
            made.sent⟩
      · exact .inr ⟨fun h => fails h.2.2.2, refused.rc, refused.listPubWaitAck,
          refused.listSubWaitAck, refused.heap⟩
  · have cleared : w.afterClearing topicFilter = w := if_neg admissible
    have never : ¬ w.Unsubscribes topicFilter := fun h => admissible h.1
    rw [cleared]
    exact ⟨fun _ => ⟨refl_of _ w, .inr ⟨never, by decide, rfl, rfl, .inl rfl⟩⟩, fun some =>
      ⟨fun _ => ⟨refl_of _ w, .inr ⟨never, by decide, rfl, rfl, .inl rfl⟩⟩, fun short =>
        absurd ⟨some, Nat.not_lt.mp short⟩ admissible⟩⟩

/-! ## Publish -/

/-- The packet id of a publish call. -/
def PublishParams.packetId (params : PublishParams) (c : Client) : UInt16 :=
  if params.qos = .qos1 then nextId c.nextPacketId else params.id

/-- The publish was made; with QoS1 its node waits for the PUBACK. -/
structure World.PublishMade (w : World) (params : PublishParams) (rc : Int) (w' : World) : Prop where
  rc : rc = ((params.packetId w.client).toNat : Int)
  nextPacketId : w'.client.nextPacketId =
    if params.qos = .qos1 then nextId w.client.nextPacketId else w.client.nextPacketId
  listSubWaitAck : w'.client.listSubWaitAck = w.client.listSubWaitAck
  listPubWaitAck : ∃ pubStartTime len buf, w'.client.listPubWaitAck = w.client.listPubWaitAck ++
    if params.qos = .qos1 then
      [{ pubStartTime := pubStartTime, nodeState := .normanl,
         msgId := nextId w.client.nextPacketId, len := len, buf := buf }]
    else []
  heap : w'.heap = w.heap

/-- The publish was refused. -/
structure World.PublishRefused (w : World) (rc : Int) (w' : World) : Prop where
  rc : rc < 0
  listSubWaitAck : w'.client.listSubWaitAck = w.client.listSubWaitAck
  listPubWaitAck : w'.client.listPubWaitAck = w.client.listPubWaitAck
  heap : w'.heap = w.heap

theorem serializePublishPacket_framed (bufLen : Nat) (dup : UInt8) (qos : QoS) (retained : UInt8)
    (packetId : UInt16) (topicName : CStr) (payload : List UInt8) :
    Framed (serializePublishPacket bufLen dup qos retained packetId topicName payload) := by
  simp only [serializePublishPacket, mqttInitPacketHeader]
  split
  · exact .error (by decide)
  · exact .ok (by simp)

theorem maskPushPubInfoTo_spec (len : Nat) (msgId : UInt16) (w : World) :
    (maskPushPubInfoTo len msgId).wp (fun rc w' =>
      (rc = qcloudRetSuccess ∧ w'.heap = w.heap ∧
        ∃ pubStartTime, w'.client = { w.client with
          listPubWaitAck := w.client.listPubWaitAck ++
            [{ pubStartTime := pubStartTime, nodeState := .normanl, msgId := msgId, len := len,
               buf := w.client.writeBuf.take len }] }) ∨
      (rc < 0 ∧ w'.client = w.client ∧ w'.heap = w.heap)) w := by
  simp only [maskPushPubInfoTo, Prog.wp_bind, wp_client, Prog.wp_ite, Prog.wp_pure, wp_halMalloc,
    wp_countdownMs, wp_setClient]
  refine ⟨fun _ => .inr ⟨by decide, by simp, by simp⟩, fun _ => ⟨fun _ => .inr ⟨by decide, by simp,
    by simp⟩, fun _ => ⟨fun _ => .inr ⟨by decide, by simp, by simp⟩, fun _ =>
      ⟨fun _ => .inr ⟨by decide, by simp, by simp⟩, fun _ => .inl ⟨by simp, rfl, _, rfl⟩⟩⟩⟩⟩

theorem qcloudIotMqttPublish_spec (topicName : CStr) (params : PublishParams) (w : World) :
    (qcloudIotMqttPublish topicName params).wp (fun rc w' =>
      w.PublishMade params rc w' ∨ w.PublishRefused rc w') w := by
  have refused : ∀ rc : Int, rc < 0 → w.PublishMade params rc w ∨ w.PublishRefused rc w :=
    fun _ negative => .inr ⟨negative, rfl, rfl, rfl⟩
  simp only [qcloudIotMqttPublish, Prog.wp_bind, Prog.wp_ite, Prog.wp_pure, wp_getClientConnState,
    wp_client, wp_countdownMs]
  refine ⟨fun _ => refused _ (by decide), fun _ => ⟨fun _ => refused _ (by decide), fun _ =>
    ⟨fun _ => refused _ (by decide), fun qos => ⟨fun _ => refused _ (by decide), fun _ => ?_⟩⟩⟩⟩
  cases level : params.qos with
  | qos2 => exact absurd level qos
  | qos0 =>
    refine ⟨fun h => absurd h (by decide), fun _ => ?_⟩
    have framed := serializePublishPacket_framed w.client.writeBufSize 0 .qos0 params.retained
      params.id topicName params.payload
    cases bytes : serializePublishPacket w.client.writeBufSize 0 .qos0 params.retained
        params.id topicName params.payload with
    | error rc => exact .inr ⟨(bytes ▸ framed).rc_neg, rfl, rfl, rfl⟩
    | ok packet =>
      simp only [Prog.wp_bind, wp_writeToWriteBuf, Prog.wp_pure, if_true, ne_eq, not_true_eq_false,
        if_false]
      refine Prog.wp_mono (Prog.wp_and (sendMqttPacket_nonpos _ _ _)
        (Prog.within_iff_wp.mp (sendMqttPacket_onlySends _ _) _)) ?_
      rintro rc w' ⟨nonpos, only⟩
      simp only [Prog.wp_ite, Prog.wp_pure]
      refine ⟨fun failed => .inr ⟨lt_of_le_of_ne nonpos failed, ?_, ?_, ?_⟩, fun _ =>
        .inl ⟨?_, ?_, ?_, ⟨⟨0⟩, 0, [], ?_⟩, ?_⟩⟩
      · simp [only.client]
      · simp [only.client]
      · simp [only.heap]
      · simp [PublishParams.packetId, level]
      · simp [only.client, level]
      · simp [only.client]
      · simp [only.client, level]
      · simp [only.heap]
  | qos1 =>
    refine ⟨fun _ => ?_, fun h => absurd rfl h⟩
    simp only [wp_getNextPacketId, World.tick_client]
    have framed := serializePublishPacket_framed w.client.writeBufSize 0 .qos1 params.retained
      (nextId w.client.nextPacketId) topicName params.payload
    cases bytes : serializePublishPacket w.client.writeBufSize 0 .qos1 params.retained
        (nextId w.client.nextPacketId) topicName params.payload with
    | error rc => exact .inr ⟨(bytes ▸ framed).rc_neg, rfl, rfl, rfl⟩
    | ok packet =>
      simp only [Prog.wp_bind, wp_writeToWriteBuf, reduceCtorEq, if_false, World.setClient_client]
      refine Prog.wp_mono (maskPushPubInfoTo_spec _ _ _) ?_
      rintro rc w' (⟨rfl, heap, start, pushed⟩ | ⟨negative, client, heap⟩)
      · simp only [Prog.wp_bind, ne_eq, not_true_eq_false, if_false, removePushedPubInfo]
        refine Prog.wp_mono (Prog.wp_and (sendMqttPacket_nonpos _ _ _)
          (Prog.within_iff_wp.mp (sendMqttPacket_onlySends _ _) _)) ?_
        rintro rc w'' ⟨nonpos, only⟩
        have client := only.client.trans pushed
        simp only [Prog.wp_ite, Prog.wp_bind, Prog.wp_pure, wp_setClient]
        refine ⟨fun failed => .inr ⟨lt_of_le_of_ne nonpos failed, ?_, ?_, ?_⟩, fun _ =>
          .inl ⟨?_, ?_, ?_, ⟨start, packet.length,
            (overwrite w.client.writeBuf 0 packet).take packet.length, ?_⟩, ?_⟩⟩
        · simp [client]
        · simp [client]
        · simp [only.heap, heap]
        · simp [PublishParams.packetId, level]
        · simp [client, level]
        · simp [client]
        · simp [client, level]
        · simp [only.heap, heap]
      · have other : rc ≠ qcloudRetSuccess := by
          rintro rfl
          exact absurd negative (by decide)
        simp only [other, ne_eq, not_false_eq_true, if_true, Prog.wp_pure]
        exact .inr ⟨negative, by simp [client], by simp [client], by simp [heap]⟩

end QcloudIot.Mqtt
