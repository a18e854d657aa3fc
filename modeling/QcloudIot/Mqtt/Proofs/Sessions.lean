import QcloudIot.Misc.Sweep
import QcloudIot.Mqtt.Proofs.Requests
import QcloudIot.Mqtt.Proofs.Upkeep

/-!
# What a call of a session does

One statement for each part of the state that requests depend on: what a call does to the
publishes and their outcomes (`World.after_publishes`), and what it does to the `Store`
(`World.after_store`). The results about whole sessions are derived from these two.
-/

namespace QcloudIot.Mqtt

/-! ## The sweeps -/

/-- The packet id that a publish still waits with. -/
def PubInfo.held (node : PubInfo) : List UInt16 :=
  if node.nodeState = .normanl then [node.msgId] else []

/-- The filter that a request still owns. -/
def SubInfo.held (node : SubInfo) : List Nat :=
  if node.nodeState = .normanl then freed node.handler.topicFilter else []

theorem pubInfoLoop_spec (isConnected : Bool) (nodes : List PubInfo) (w : World) :
    (pubInfoLoop isConnected nodes).wp (fun rest w' =>
      w'.client = w.client ∧ w'.heap = w.heap ∧
        ∃ ids, Swept PubInfo.held nodes rest ids ∧
          w'.outcomes = w.outcomes ++ if w.client.eventHandle = none then [] else ids) w := by
  induction nodes generalizing w with
  | nil =>
    rw [pubInfoLoop, Prog.wp_pure]
    exact ⟨rfl, rfl, [], .nil, by simp⟩
  | cons node towardsTail ih =>
    rw [pubInfoLoop, Prog.wp_bind]
    refine Prog.wp_mono (ih w) ?_
    rintro rest w' ⟨client, heap, ids, swept, outcomes⟩
    simp only [Prog.wp_ite, Prog.wp_bind, Prog.wp_pure, wp_leftMs, wp_now, wp_notify]
    refine ⟨fun invalid => ?_, fun valid => ⟨fun down => ?_, fun up => ⟨fun early => ?_,
      fun late => ?_⟩⟩⟩
    · exact ⟨client, heap, ids, swept.dropped (by simp [PubInfo.held, invalid]), outcomes⟩
    · exact ⟨client, heap, ids, swept.kept, outcomes⟩
    · exact ⟨client, heap, ids, swept.kept, outcomes⟩
    · have normanl : node.nodeState = .normanl := by
        cases state : node.nodeState with
        | normanl => rfl
        | invalid => exact absurd state valid
      refine ⟨client, heap, ids ++ node.held, swept.removed, ?_⟩
      have told : (Event.mqtt .publishTimeout (.packetId node.msgId)).outcome.toList =
        [node.msgId] := rfl
      have handle : w'.tick.tick.client.eventHandle = w.client.eventHandle := by
        rw [World.tick_client, World.tick_client, client]
      have same : w'.tick.tick.outcomes = w'.outcomes := rfl
      rw [World.called_outcomes, Client.notifications_outcome, told, handle, same, outcomes,
        PubInfo.held, if_pos normanl]
      split <;> simp

theorem notifySubTimeout_keepsRequests (node : SubInfo) (w : World) :
    (notifySubTimeout node).wp (fun _ w' => w.KeepsRequests w' ∧ w'.client = w.client) w := by
  simp only [notifySubTimeout, Prog.wp_ite, Prog.wp_bind, Prog.wp_pure, wp_client, wp_notify,
    wp_notifySub]
  have silent : ∀ type msg, (Event.mqtt type msg).outcome = none →
      (w.client.notifications type msg).filterMap Event.outcome = [] := by
    intro type msg none
    rw [Client.notifications_outcome, none]
    split <;> rfl
  refine ⟨fun _ => ⟨refl_of World.KeepsRequests w, trivial⟩, fun _ => ⟨fun _ => ⟨?_, rfl⟩, fun _ =>
    ⟨?_, rfl⟩⟩⟩
  · exact trans_of World.KeepsRequests (called_keepsRequests (by simp))
      (called_keepsRequests (silent _ _ rfl))
  · exact called_keepsRequests (silent _ _ rfl)

theorem subInfoLoop_spec (isConnected : Bool) (nodes : List SubInfo) (w : World) :
    (subInfoLoop isConnected nodes).wp (fun rest w' =>
      w'.client = w.client ∧ w.KeepsPublishes w' ∧
        ∃ idents, Swept SubInfo.held nodes rest idents ∧
          w'.heap = { w.heap with released := w.heap.released ++ idents }) w := by
  induction nodes generalizing w with
  | nil =>
    rw [subInfoLoop, Prog.wp_pure]
    exact ⟨rfl, ⟨rfl, rfl, rfl⟩, [], .nil, by simp⟩
  | cons node towardsTail ih =>
    rw [subInfoLoop, Prog.wp_bind]
    refine Prog.wp_mono (ih w) ?_
    rintro rest w' ⟨client, publishes, idents, swept, heap⟩
    simp only [Prog.wp_ite, Prog.wp_bind, Prog.wp_pure, wp_leftMs]
    refine ⟨fun invalid => ?_, fun valid => ⟨fun down => ?_, fun up => ⟨fun early => ?_,
      fun late => ?_⟩⟩⟩
    · exact ⟨client, publishes, idents, swept.dropped (by simp [SubInfo.held, invalid]), heap⟩
    · exact ⟨client, publishes, idents, swept.kept, heap⟩
    · exact ⟨client, publishes.trans ⟨rfl, rfl, rfl⟩, idents, swept.kept, heap⟩
    · have normanl : node.nodeState = .normanl := by
        cases state : node.nodeState with
        | normanl => rfl
        | invalid => exact absurd state valid
      refine Prog.wp_mono (notifySubTimeout_keepsRequests node w'.tick) ?_
      rintro _ v ⟨keeps, same⟩
      have ticked : w.KeepsPublishes w'.tick := publishes.trans ⟨rfl, rfl, rfl⟩
      have publishes' : w.KeepsPublishes v := ticked.trans keeps.toKeepsPublishes
      have heap' : v.heap = w'.heap := congrArg Store.heap keeps.store
      simp only [Prog.wp_bind, wp_halFree, Prog.wp_pure]
      refine ⟨same.trans client, publishes'.setHeap _, idents ++ node.held, swept.removed, ?_⟩
      simp [heap', heap, SubInfo.held, normanl]

theorem qcloudIotMqttPubInfoProc_spec (w : World) :
    qcloudIotMqttPubInfoProc.wp (fun _ w' => w'.store = w.store ∧
      w'.client.eventHandle = w.client.eventHandle ∧
      ∃ ids, Swept PubInfo.held w.client.listPubWaitAck w'.client.listPubWaitAck ids ∧
        w'.outcomes = w.outcomes ++ if w.client.eventHandle = none then [] else ids) w := by
  have idle : ∀ u : World, u.client = w.client → u.heap = w.heap → u.outcomes = w.outcomes →
      u.store = w.store ∧ u.client.eventHandle = w.client.eventHandle ∧
      ∃ ids, Swept PubInfo.held w.client.listPubWaitAck u.client.listPubWaitAck ids ∧
        u.outcomes = w.outcomes ++ if w.client.eventHandle = none then [] else ids := by
    intro u client heap outcomes
    refine ⟨by rw [World.store, World.store, client, heap], by rw [client], [], ?_, ?_⟩
    · rw [client]
      exact Swept.refl _ _
    · rw [outcomes]
      split <;> simp
  simp only [qcloudIotMqttPubInfoProc, Prog.wp_bind, wp_client, Prog.wp_ite, Prog.wp_pure,
    wp_halMalloc]
  refine ⟨fun _ => ⟨trivial, trivial, (idle w rfl rfl rfl).2.2⟩, fun _ =>
    ⟨fun _ => idle _ rfl rfl rfl, fun _ => ?_⟩⟩
  refine Prog.wp_mono (pubInfoLoop_spec _ _ _) ?_
  rintro rest w' ⟨client, heap, ids, swept, outcomes⟩
  rw [wp_setClient]
  refine ⟨?_, by simp [client], ids, swept, outcomes⟩
  simp [World.store, client, heap]

theorem qcloudIotMqttSubInfoProc_spec (w : World) :
    qcloudIotMqttSubInfoProc.wp (fun _ w' => w.KeepsPublishes w' ∧
      ∃ rest idents, Swept SubInfo.held w.client.listSubWaitAck rest idents ∧
        w'.store = { w.store with
          listSubWaitAck := rest
          heap := { w.heap with released := w.heap.released ++ idents } }) w := by
  have idle : ∀ u : World, w.KeepsRequests u → w.KeepsPublishes u ∧
      ∃ rest idents, Swept SubInfo.held w.client.listSubWaitAck rest idents ∧
        u.store = { w.store with
          listSubWaitAck := rest
          heap := { w.heap with released := w.heap.released ++ idents } } := by
    intro u keeps
    refine ⟨keeps.toKeepsPublishes, _, [], Swept.refl _ _, ?_⟩
    rw [keeps.store, List.append_nil]
    rfl
  simp only [qcloudIotMqttSubInfoProc, Prog.wp_bind, wp_client, Prog.wp_ite, Prog.wp_pure,
    wp_halMalloc]
  refine ⟨fun _ => idle w (refl_of _ w), fun _ => ⟨fun _ => idle _ ⟨⟨rfl, rfl, rfl⟩, rfl⟩,
    fun _ => ?_⟩⟩
  refine Prog.wp_mono (subInfoLoop_spec _ _ _) ?_
  rintro rest w' ⟨client, publishes, idents, swept, heap⟩
  rw [wp_setClient]
  refine ⟨⟨publishes.listPubWaitAck, publishes.eventHandle, publishes.outcomes⟩, rest, idents,
    swept, ?_⟩
  simp [World.store, client, heap]

/-! ## The publishes -/

/-- The publish part of `w` after a call. -/
inductive World.PublishStep (w : World) : Call → World → Prop where
  /-- A QoS1 publish goes out and waits for its PUBACK. -/
  | published {topicName params w' node} :
      params.qos = .qos1 →
      w.returns (.publish topicName params) = ((nextId w.client.nextPacketId).toNat : Int) →
      node.msgId = nextId w.client.nextPacketId → node.nodeState = .normanl →
      w'.client.listPubWaitAck = w.client.listPubWaitAck ++ [node] →
      w'.outcomes = w.outcomes → PublishStep w (.publish topicName params) w'
  /-- A publish that is refused, or has no packet id to wait with. -/
  | untracked {topicName params w'} :
      params.qos ≠ .qos1 ∨ w.returns (.publish topicName params) < 0 →
      w.KeepsPublishes w' → PublishStep w (.publish topicName params) w'
  /-- A PUBACK is read. -/
  | acked {timer packetId w'} :
      w.inbound = some (.puback packetId) →
      w'.client.listPubWaitAck = (if w.env.mallocs.headD true then
        w.client.listPubWaitAck.map (PubInfo.mask packetId) else w.client.listPubWaitAck) →
      w'.outcomes = w.outcomes ++ (if w.client.eventHandle = none then [] else [packetId]) →
      PublishStep w (.cycleForRead timer) w'
  /-- The nodes whose time is up are removed. -/
  | swept {ids w'} :
      Swept PubInfo.held w.client.listPubWaitAck w'.client.listPubWaitAck ids →
      w'.outcomes = w.outcomes ++ (if w.client.eventHandle = none then [] else ids) →
      PublishStep w .pubInfoProc w'
  /-- Any other call. -/
  | other {call w'} :
      (∀ topicName params, call ≠ .publish topicName params) → w.KeepsPublishes w' →
      PublishStep w call w'

theorem World.OnlyRequests.outcomes {w w' : World} (h : w.OnlyRequests w') :
    w'.outcomes = w.outcomes := by
  rw [World.outcomes, h.trace, World.outcomes]

theorem World.OnlyRequests.keepsPublishes {w w' : World} (h : w.OnlyRequests w')
    (list : w'.client.listPubWaitAck = w.client.listPubWaitAck) : w.KeepsPublishes w' :=
  ⟨list, by rw [h.client], h.outcomes⟩

theorem afterClearing_keepsPublishes (w : World) (topicFilter : CStr) :
    w.KeepsPublishes (w.afterClearing topicFilter) := by
  rw [World.afterClearing]
  split
  · show w.KeepsPublishes (World.called _ _)
    refine World.KeepsPublishes.called ?_ ?_
    · exact ⟨rfl, rfl, rfl⟩
    · rw [List.filterMap_flatMap]
      refine List.flatMap_eq_nil_iff.mpr fun i _ => ?_
      rw [SubTopicHandle.clearEvents]
      split <;> simp
  · exact ⟨rfl, rfl, rfl⟩

theorem World.after_publishes (w : World) (call : Call) : w.PublishStep call (w.after call) := by
  cases call with
  | publish topicName params =>
    have only := qcloudIotMqttPublish_onlyRequests topicName params w
    rcases qcloudIotMqttPublish_spec topicName params w with made | refused
    · obtain ⟨start, len, buf, list⟩ := made.listPubWaitAck
      by_cases qos : params.qos = .qos1
      · rw [if_pos qos] at list
        have rc := made.rc
        rw [PublishParams.packetId, if_pos qos] at rc
        exact .published qos rc rfl rfl list only.outcomes
      · rw [if_neg qos, List.append_nil] at list
        exact .untracked (.inl qos) (only.keepsPublishes list)
    · exact .untracked (.inr refused.rc) (only.keepsPublishes refused.listPubWaitAck)
  | subscribe topicFilter params =>
    have only := qcloudIotMqttSubscribe_onlyRequests topicFilter params w
    refine .other (by simp) (only.keepsPublishes ?_)
    rcases qcloudIotMqttSubscribe_spec topicFilter params w with ⟨-, made⟩ | ⟨-, refused⟩
    · exact made.listPubWaitAck
    · exact refused.listPubWaitAck
  | unsubscribe topicFilter =>
    obtain ⟨only, outcome⟩ := qcloudIotMqttUnsubscribe_spec topicFilter w
    refine .other (by simp) ((afterClearing_keepsPublishes w topicFilter).trans
      (only.keepsPublishes ?_))
    rcases outcome with ⟨-, qos, made⟩ | ⟨-, refused⟩
    · exact made.listPubWaitAck
    · exact refused.listPubWaitAck
  | cycleForRead timer =>
    have handles := cycleForRead_handles timer w
    have same : w.after (.cycleForRead timer) = ((cycleForRead timer).run w).2 := rfl
    cases read : w.inbound with
    | none =>
      rw [Prog.wp, read] at handles
      exact .other (by simp) handles.toKeepsPublishes
    | some ack =>
      rw [Prog.wp, read] at handles
      cases ack with
      | puback packetId => exact .acked read handles.2.2.1 handles.2.2.2
      | suback packetId grantedQoS => exact .other (by simp) handles.1
      | unsuback packetId => exact .other (by simp) handles.1
  | pubInfoProc =>
    obtain ⟨store, event, ids, swept, outcomes⟩ := qcloudIotMqttPubInfoProc_spec w
    exact .swept swept outcomes
  | subInfoProc => exact .other (by simp) (qcloudIotMqttSubInfoProc_spec w).1
  | upkeep piece => exact .other (by simp) (upkeep_onlyUpkeep piece w).keepsRequests.toKeepsPublishes

/-! ## The subscriptions -/

/-- A request that goes out and waits for its acknowledgement. -/
def Store.request (s : Store) (node : SubInfo) : Store :=
  { s with
    listSubWaitAck := s.listSubWaitAck ++ [node]
    heap := { s.heap with next := s.heap.next + 1 } }

/-- A filter that is allocated and released again. -/
def Store.discard (s : Store) : Store :=
  { s with heap := { next := s.heap.next + 1, released := s.heap.released ++ [s.heap.next] } }

/-- The table entries meant by the argument of an unsubscribe call are cleared. -/
def Store.cleared (s : Store) (topicFilter : CStr) : Store :=
  let slots := List.finRange maxMessageHandlers
  let released := slots.flatMap fun i => (s.subHandles i).clearFreed topicFilter
  { s with
    subHandles := fun i => (s.subHandles i).cleared topicFilter
    heap := { s.heap with released := s.heap.released ++ released } }

/-- A request that is refused, at the latest after its filter was allocated. -/
def Store.Refused (s s' : Store) : Prop := s' = s ∨ s' = s.discard

/-- The subscription part of `w` after a call. -/
inductive World.StoreStep (w : World) : Call → World → Prop where
  /-- A SUBSCRIBE goes out. -/
  | subscribed {topicFilter params node w'} :
      w.returns (.subscribe topicFilter params) =
        ((nextId w.client.nextPacketId).toNat : Int) →
      node.type = .subscribe → node.msgId = nextId w.client.nextPacketId →
      node.nodeState = .normanl → node.handler = params.handle ⟨w.heap.next, topicFilter⟩ →
      w'.store = w.store.request node → StoreStep w (.subscribe topicFilter params) w'
  | subscribeRefused {topicFilter params w'} :
      w.store.Refused w'.store → StoreStep w (.subscribe topicFilter params) w'
  /-- The table is cleared and an UNSUBSCRIBE goes out. -/
  | unsubscribed {topicFilter node qos w'} :
      node.type = .unsubscribe → node.msgId = nextId w.client.nextPacketId →
      node.nodeState = .normanl → node.handler = unsubscribeHandle qos ⟨w.heap.next, topicFilter⟩ →
      w'.store = (w.afterClearing topicFilter).store.request node →
      StoreStep w (.unsubscribe topicFilter) w'
  | unsubscribeRefused {topicFilter w'} :
      (w.afterClearing topicFilter).store.Refused w'.store →
      StoreStep w (.unsubscribe topicFilter) w'
  /-- A SUBACK is read. -/
  | subacked {timer packetId grantedQoS w'} :
      w.inbound = some (.suback packetId grantedQoS) →
      w'.store = w.store.suback packetId grantedQoS (w.acked packetId) →
      StoreStep w (.cycleForRead timer) w'
  /-- An UNSUBACK is read. -/
  | unsubacked {timer packetId w'} :
      w.inbound = some (.unsuback packetId) →
      w'.store = w.store.unsuback packetId (w.env.stack.headD .zero) (w.acked packetId) →
      StoreStep w (.cycleForRead timer) w'
  /-- The nodes whose time is up are removed and their filters released. -/
  | swept {rest idents w'} :
      Swept SubInfo.held w.client.listSubWaitAck rest idents →
      w'.store = { w.store with
        listSubWaitAck := rest
        heap := { w.heap with released := w.heap.released ++ idents } } →
      StoreStep w .subInfoProc w'
  /-- Any other packet and any other call. -/
  | other {call w'} :
      (∀ ack, call = .cycleForRead ack → ∀ packetId, (∀ grantedQoS,
        w.inbound ≠ some (.suback packetId grantedQoS)) ∧ w.inbound ≠ some (.unsuback packetId)) →
      w'.store = w.store → StoreStep w call w'

theorem World.afterClearing_store (w : World) (topicFilter : CStr) :
    (w.afterClearing topicFilter).store = w.store ∨
      (w.afterClearing topicFilter).store = w.store.cleared topicFilter := by
  rw [World.afterClearing]
  split
  · right
    have table : clearTable topicFilter (List.finRange maxMessageHandlers) w.client.subHandles =
        fun i => (w.client.subHandles i).cleared topicFilter := by
      funext i
      rw [clearTable, if_pos (List.mem_finRange i)]
    simp only [World.unsubscribed, World.store, Store.cleared, table, World.called_client,
      World.called_heap, World.setHeap_client, World.setHeap_heap, World.setClient_client]
  · exact .inl rfl

theorem World.afterClearing_next (w : World) (topicFilter : CStr) :
    (w.afterClearing topicFilter).heap.next = w.heap.next := by
  rw [World.afterClearing]
  split <;> rfl

/-- The node of a request that was made. -/
theorem World.SubRequestMade.node {w w' : World} {topicFilter : CStr} {type : MessageType}
    {serialized : Except Int (List UInt8)} {subHandle : StoredFilter → SubTopicHandle} {rc : Int}
    (h : w.SubRequestMade topicFilter type serialized subHandle rc w')
    (table : w'.client.subHandles = w.client.subHandles) :
    ∃ node : SubInfo, w'.store = w.store.request node ∧ node.type = type ∧
      node.msgId = nextId w.client.nextPacketId ∧ node.nodeState = .normanl ∧
      node.handler = subHandle ⟨w.heap.next, topicFilter⟩ := by
  obtain ⟨start, len, buf, list⟩ := h.listSubWaitAck
  have store := congrArg₂ (Store.mk · w.client.subHandles ·) list h.heap
  rw [← table] at store
  exact ⟨_, store.trans (by rw [table]; rfl), rfl, rfl, rfl, rfl⟩

theorem World.SubRequestRefused.store {w w' : World} {rc : Int} (h : w.SubRequestRefused rc w')
    (table : w'.client.subHandles = w.client.subHandles) : w.store.Refused w'.store := by
  rcases h.heap with heap | heap
  · left
    rw [World.store, h.listSubWaitAck, table, heap, World.store]
  · right
    rw [World.store, h.listSubWaitAck, table, heap]
    rfl

theorem World.after_store (w : World) (call : Call) : w.StoreStep call (w.after call) := by
  cases call with
  | publish topicName params =>
    have only := qcloudIotMqttPublish_onlyRequests topicName params w
    refine .other (by simp) ?_
    have table : (w.after (.publish topicName params)).client.subHandles =
        w.client.subHandles := by
      rw [World.after, Call.prog, only.client]
    rcases qcloudIotMqttPublish_spec topicName params w with made | refused
    · rw [World.store, table]
      exact congrArg₂ (Store.mk · _ ·) made.listSubWaitAck made.heap
    · rw [World.store, table]
      exact congrArg₂ (Store.mk · _ ·) refused.listSubWaitAck refused.heap
  | subscribe topicFilter params =>
    have only := qcloudIotMqttSubscribe_onlyRequests topicFilter params w
    have table : (w.after (.subscribe topicFilter params)).client.subHandles =
        w.client.subHandles := by
      rw [World.after, Call.prog, only.client]
    rcases qcloudIotMqttSubscribe_spec topicFilter params w with ⟨-, made⟩ | ⟨-, refused⟩
    · obtain ⟨node, store, type, id, normanl, handler⟩ := made.node table
      exact .subscribed made.rc type id normanl handler store
    · exact .subscribeRefused (refused.store table)
  | unsubscribe topicFilter =>
    obtain ⟨only, outcome⟩ := qcloudIotMqttUnsubscribe_spec topicFilter w
    have table : (w.after (.unsubscribe topicFilter)).client.subHandles =
        (w.afterClearing topicFilter).client.subHandles := by
      rw [World.after, Call.prog, only.client]
    have nextId : (w.afterClearing topicFilter).client.nextPacketId = w.client.nextPacketId := by
      rw [World.afterClearing]
      split <;> rfl
    rcases outcome with ⟨-, qos, made⟩ | ⟨-, refused⟩
    · obtain ⟨node, store, type, id, normanl, handler⟩ := made.node table
      rw [nextId] at id
      rw [World.afterClearing_next] at handler
      exact .unsubscribed type id normanl handler store
    · exact .unsubscribeRefused (refused.store table)
  | cycleForRead timer =>
    have handles := cycleForRead_handles timer w
    cases read : w.inbound with
    | none =>
      rw [Prog.wp, read] at handles
      exact .other (by simp [read]) handles.store
    | some ack =>
      rw [Prog.wp, read] at handles
      cases ack with
      | puback packetId => exact .other (by simp [read]) handles.1
      | suback packetId grantedQoS => exact .subacked read handles.2
      | unsuback packetId => exact .unsubacked read handles.2
  | pubInfoProc => exact .other (by simp) (qcloudIotMqttPubInfoProc_spec w).1
  | subInfoProc =>
    obtain ⟨-, rest, idents, swept, store⟩ := qcloudIotMqttSubInfoProc_spec w
    exact .swept swept store
  | upkeep piece => exact .other (by simp) (upkeep_onlyUpkeep piece w).keepsRequests.store

end QcloudIot.Mqtt
