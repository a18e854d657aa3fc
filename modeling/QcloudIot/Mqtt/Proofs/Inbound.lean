import QcloudIot.Mqtt.Session
import QcloudIot.Mqtt.Proofs.Send

/-!
# What a packet changes

The state of a client that its requests depend on has two parts. The publish part is the
list of publishes that wait for their PUBACK and the outcomes reported to the application;
the subscription part is the `Store`: the list of requests that wait for their SUBACK or
UNSUBACK, the handler table and the allocator their filters come from. Reading a packet,
delivering a message and noting a sign of life leave both alone (`World.KeepsRequests`), so
what a `cycle_for_read` does to them is what the handler of the acknowledgement
`World.inbound` does.
-/

namespace QcloudIot.Mqtt

/-! ## The two parts -/

/-- The packet id for which an event reports how a publish ended. -/
def Event.outcome : Event → Option UInt16
  | .mqtt .publishSuccess (.packetId packetId) => some packetId
  | .mqtt .publishTimeout (.packetId packetId) => some packetId
  | _ => none

/-- The packet ids of the outcomes reported so far. -/
def World.outcomes (w : World) : List UInt16 := w.trace.filterMap Event.outcome

@[simp] theorem World.called_outcomes (w : World) (events : List Event) :
    (w.called events).outcomes = w.outcomes ++ events.filterMap Event.outcome := by
  simp [World.outcomes]

@[simp] theorem subNotifications_outcome (handler : Option FnPtr) (type : MqttEventType)
    (userData : Ptr) : (subNotifications handler type userData).filterMap Event.outcome = [] := by
  cases handler <;> rfl

@[simp] theorem Client.notifications_outcome (c : Client) (type : MqttEventType) (msg : EventMsg) :
    (c.notifications type msg).filterMap Event.outcome =
      if c.eventHandle = none then [] else (Event.mqtt type msg).outcome.toList := by
  rw [Client.notifications]
  split
  · rfl
  · cases reported : (Event.mqtt type msg).outcome <;> simp [reported]

/-- The subscription part of the state. -/
structure Store where
  listSubWaitAck : List SubInfo
  subHandles : Fin maxMessageHandlers → SubTopicHandle
  heap : Heap

/-- The subscription part of `w`. -/
@[simps listSubWaitAck heap]
def World.store (w : World) : Store where
  listSubWaitAck := w.client.listSubWaitAck
  subHandles := w.client.subHandles
  heap := w.heap

@[simp] theorem World.store_subHandles (w : World) : w.store.subHandles = w.client.subHandles := rfl

/-- The publish part does not change from `w` to `w'`. -/
structure World.KeepsPublishes (w w' : World) : Prop where
  listPubWaitAck : w'.client.listPubWaitAck = w.client.listPubWaitAck
  eventHandle : w'.client.eventHandle = w.client.eventHandle
  outcomes : w'.outcomes = w.outcomes

/-- Neither part changes from `w` to `w'`. -/
structure World.KeepsRequests (w w' : World) : Prop extends w.KeepsPublishes w' where
  store : w'.store = w.store

theorem World.KeepsPublishes.trans {a b c : World} (first : a.KeepsPublishes b)
    (second : b.KeepsPublishes c) : a.KeepsPublishes c where
  listPubWaitAck := second.listPubWaitAck.trans first.listPubWaitAck
  eventHandle := second.eventHandle.trans first.eventHandle
  outcomes := second.outcomes.trans first.outcomes

theorem World.KeepsPublishes.called {w w' : World} (h : w.KeepsPublishes w') {events : List Event}
    (silent : events.filterMap Event.outcome = []) : w.KeepsPublishes (w'.called events) :=
  h.trans ⟨rfl, rfl, by simp [silent]⟩

theorem World.KeepsPublishes.setHeap {w w' : World} (h : w.KeepsPublishes w') (heap : Heap) :
    w.KeepsPublishes (w'.setHeap heap) :=
  h.trans ⟨rfl, rfl, rfl⟩

instance : Std.Refl World.KeepsRequests := ⟨fun _ => ⟨⟨rfl, rfl, rfl⟩, rfl⟩⟩

instance : IsTrans World World.KeepsRequests where
  trans _ _ _ first second :=
    ⟨first.toKeepsPublishes.trans second.toKeepsPublishes, second.store.trans first.store⟩

theorem World.OnlySends.keepsRequests {w w' : World} (h : w.OnlySends w') : w.KeepsRequests w' where
  listPubWaitAck := by rw [h.client]
  eventHandle := by rw [h.client]
  outcomes := by rw [World.outcomes, h.trace, World.outcomes]
  store := by rw [World.store, h.client, h.heap, World.store]

/-! ## Reading -/

/-- Nothing changes from `w` to `w'` but `read_buf`, the bytes consumed and the pending
    outcomes of reads. -/
structure World.OnlyReads (w w' : World) : Prop where
  client : w'.client = { w.client with readBuf := w'.client.readBuf }
  readBufSize : w'.client.readBufSize = w.client.readBufSize
  heap : w'.heap = w.heap
  clock : w'.clock = w.clock
  trace : w'.trace = w.trace
  net : w'.net = { w.net with consumed := w'.net.consumed }
  env : w'.env = { w.env with reads := w'.env.reads }

instance : Std.Refl World.OnlyReads := ⟨fun _ => ⟨rfl, rfl, rfl, rfl, rfl, rfl, rfl⟩⟩

instance : IsTrans World World.OnlyReads where
  trans a b c first second :=
    { client := by rw [second.client, first.client]
      readBufSize := second.readBufSize.trans first.readBufSize
      heap := second.heap.trans first.heap
      clock := second.clock.trans first.clock
      trace := second.trace.trans first.trace
      net := by rw [second.net, first.net]
      env := by rw [second.env, first.env] }

theorem World.OnlyReads.keepsRequests {w w' : World} (h : w.OnlyReads w') : w.KeepsRequests w' where
  listPubWaitAck := by rw [h.client]
  eventHandle := by rw [h.client]
  outcomes := by rw [World.outcomes, h.trace, World.outcomes]
  store := by rw [World.store, h.client, h.heap, World.store]

theorem networkRead_onlyReads (len : Nat) : Prog.Within World.OnlyReads (networkRead len) :=
  fun _ => ⟨rfl, rfl, rfl, rfl, rfl, rfl, rfl⟩

theorem writeToReadBuf_onlyReads (pos : Nat) (bytes : List UInt8) :
    Prog.Within World.OnlyReads (writeToReadBuf pos bytes) :=
  fun _ => ⟨rfl, length_overwrite _ _ _, rfl, rfl, rfl, rfl, rfl⟩

theorem remLenFromNet_onlyReads (fuel multiplier value : Nat) :
    Prog.Within World.OnlyReads (remLenFromNet fuel multiplier value) := by
  induction fuel generalizing multiplier value with
  | zero => exact .pure _
  | succ fuel ih =>
    refine .bind (networkRead_onlyReads 1) fun _ => .ite (.pure _) ?_
    exact .ite (ih _ _) (.pure _)

theorem discardLoop_onlyReads (remLen fuel bytesToBeRead totalBytesRead : Nat) :
    Prog.Within World.OnlyReads (discardLoop remLen fuel bytesToBeRead totalBytesRead) := by
  induction fuel generalizing bytesToBeRead totalBytesRead with
  | zero => exact .pure _
  | succ fuel ih =>
    refine .bind (networkRead_onlyReads _) fun _ => .bind (writeToReadBuf_onlyReads _ _) fun _ => ?_
    exact .ite (.bind client_within fun _ => .ite (ih _ _) (.pure _)) (.pure _)

theorem readMqttPacket_onlyReads : Prog.Within World.OnlyReads readMqttPacket := by
  refine .bind (networkRead_onlyReads 1) fun _ => .bind (writeToReadBuf_onlyReads _ _) fun _ => ?_
  refine .ite (.pure _) (.ite (.pure _) (.bind (remLenFromNet_onlyReads _ _ _) fun _ => ?_))
  refine .ite (.pure _) (.bind client_within fun c => .ite ?_ ?_)
  · exact .bind (discardLoop_onlyReads _ _ _ _) fun _ => .pure _
  · refine .bind (writeToReadBuf_onlyReads _ _) fun _ => .ite ?_ (.ite ?_ ?_)
    · refine .bind (networkRead_onlyReads _) fun _ => ?_
      exact .bind (writeToReadBuf_onlyReads _ _) fun _ => .pure _
    · refine .bind (networkRead_onlyReads _) fun _ => .bind (writeToReadBuf_onlyReads _ _) fun _ => ?_
      exact .ite (.pure _) (.bind client_within fun _ => .pure _)
    · exact .bind client_within fun _ => .pure _

/-! ## Delivering and noting -/

theorem setClient_keepsRequests {f : Client → Client}
    (pub : ∀ c, (f c).listPubWaitAck = c.listPubWaitAck) (event : ∀ c, (f c).eventHandle =
        c.eventHandle)
    (sub : ∀ c, (f c).listSubWaitAck = c.listSubWaitAck) (table : ∀ c, (f c).subHandles =
        c.subHandles) :
    Prog.Within World.KeepsRequests (setClient f) := by
  intro w
  refine ⟨⟨pub _, event _, rfl⟩, ?_⟩
  simp only [World.store, setClient, Prog.run_change, World.setClient_client, World.setClient_heap,
    sub, table]

theorem called_keepsRequests {w : World} {events : List Event}
    (silent : events.filterMap Event.outcome = []) : w.KeepsRequests (w.called events) :=
  ⟨⟨rfl, rfl, by simp [silent]⟩, rfl⟩

theorem now_keepsRequests : Prog.Within World.KeepsRequests now :=
  fun w => w.onlySends_tick.keepsRequests

theorem extendTimer_keepsRequests (timer : Timer) :
    Prog.Within World.KeepsRequests (extendTimer timer) := by
  refine .bind ((expired_onlySends timer).mono fun _ _ h => h.keepsRequests) fun _ => ?_
  exact .ite (.bind now_keepsRequests fun _ => .pure _) (.pure _)

theorem sendPubAck_keepsRequests (packetType : MessageType) (packetId : UInt16) (timer : Timer) :
    Prog.Within World.KeepsRequests (sendPubAck packetType packetId timer) := by
  refine .bind client_within fun c => ?_
  cases serializePubAckPacket c.writeBufSize packetType 0 packetId with
  | error rc => exact .pure _
  | ok packet =>
    refine .bind (setClient_keepsRequests (fun _ => rfl) (fun _ => rfl) (fun _ => rfl)
      fun _ => rfl) fun _ => .bind (extendTimer_keepsRequests timer) fun timer => ?_
    refine .bind ?_ fun _ => .pure _
    exact (sendMqttPacket_onlySends _ timer).mono fun _ _ h => h.keepsRequests

theorem deliverLoop_keepsRequests (topicName : List UInt8) (topicNameLen : Nat)
    (message : MqttMessage) (slots : List (Fin maxMessageHandlers)) :
    Prog.Within World.KeepsRequests (deliverLoop topicName topicNameLen message slots) := by
  induction slots with
  | nil => exact .pure _
  | cons i rest ih =>
    refine .bind client_within fun c => .ite ?_ ih
    cases (c.subHandles i).messageHandler with
    | none => exact ih
    | some fn => exact .bind (.change fun w => called_keepsRequests rfl) fun _ => .pure _

theorem notify_keepsRequests {type : MqttEventType} {msg : EventMsg}
    (silent : (Event.mqtt type msg).outcome = none) :
    Prog.Within World.KeepsRequests (notify type msg) := by
  refine .bind client_within fun c => .ite (.change fun w => called_keepsRequests ?_) (.pure _)
  simp [silent]

theorem deliverMessage_keepsRequests (topicName : List UInt8) (topicNameLen : Nat)
    (message : MqttMessage) :
    Prog.Within World.KeepsRequests (deliverMessage topicName topicNameLen message) := by
  refine .bind (deliverLoop_keepsRequests _ _ _ _) fun _ => .ite (.pure _) ?_
  exact .bind (notify_keepsRequests rfl) fun _ => .pure _

theorem handlePublishPacket_keepsRequests (timer : Timer) :
    Prog.Within World.KeepsRequests (handlePublishPacket timer) := by
  refine .bind client_within fun c => ?_
  cases deserializePublishPacket c.readBuf 0 with
  | error rc => exact .pure _
  | ok found =>
    refine .ite (.bind (deliverMessage_keepsRequests _ _ _) fun _ => .pure _) ?_
    refine .bind (.ite (deliverMessage_keepsRequests _ _ _) (.pure _)) fun _ => .ite (.pure _) ?_
    refine .bind (.bind client_within fun _ => .ite (.pure _) ?_) fun _ =>
      sendPubAck_keepsRequests _ _ _
    exact setClient_keepsRequests (fun _ => rfl) (fun _ => rfl) (fun _ => rfl) fun _ => rfl

theorem handlePubrecPacket_keepsRequests (timer : Timer) :
    Prog.Within World.KeepsRequests (handlePubrecPacket timer) := by
  refine .bind client_within fun c => ?_
  cases deserializeAckPacket c.readBuf with
  | error rc => exact .pure _
  | ok found => exact sendPubAck_keepsRequests _ _ _

theorem notePacket_keepsRequests (packetType : UInt8) :
    Prog.Within World.KeepsRequests (notePacket packetType) := by
  have field := fun f pub event sub table => @setClient_keepsRequests f pub event sub table
  refine .ite (.bind client_within fun c => ?_) (.ite ?_ (.pure _))
  · refine .bind (.bind now_keepsRequests fun _ => .pure _) fun _ => ?_
    exact field _ (fun _ => rfl) (fun _ => rfl) (fun _ => rfl) fun _ => rfl
  · exact field _ (fun _ => rfl) (fun _ => rfl) (fun _ => rfl) fun _ => rfl

/-! ## Acknowledgements -/

/-- The marking of one node by `_mask_sub_info_from`. -/
def SubInfo.mask (packetId : UInt16) (node : SubInfo) : SubInfo :=
  if node.msgId = packetId then { node with nodeState := .invalid } else node

/-- Every node with the id is marked, and the handle found is that of the oldest one. -/
theorem maskSubInfoLoop_eq (packetId : UInt16) (messageHandler : SubTopicHandle)
    (nodes : List SubInfo) :
    maskSubInfoLoop packetId messageHandler nodes = (nodes.map (SubInfo.mask packetId),
      ((nodes.find? fun node => node.msgId = packetId).map (·.handler)).getD messageHandler) := by
  induction nodes with
  | nil => rfl
  | cons node towardsTail ih =>
    rw [maskSubInfoLoop, ih]
    by_cases same : node.msgId = packetId <;> simp [SubInfo.mask, same]

/-- The node whose handle `_mask_sub_info_from` finds for an acknowledgement: none without
    memory for its iterator. -/
def World.acked (w : World) (packetId : UInt16) : Option SubInfo :=
  if w.env.mallocs.headD true then
    w.client.listSubWaitAck.find? fun node => node.msgId = packetId
  else none

/-- The nodes with the id are marked. -/
def Store.masked (s : Store) (packetId : UInt16) : Store :=
  { s with listSubWaitAck := s.listSubWaitAck.map (SubInfo.mask packetId) }

/-- A filter is released. -/
def Store.release (s : Store) (filter : Option StoredFilter) : Store :=
  { s with heap := { s.heap with released := s.heap.released ++ freed filter } }

/-- An acknowledged handle is handed over to the handler table. -/
def Store.install (s : Store) (subHandle : SubTopicHandle) : Store :=
  match subackScan s.subHandles subHandle (List.finRange maxMessageHandlers) none with
  | (some i, _) =>
    let entry := { s.subHandles i with handlerUserData := subHandle.handlerUserData }
    { s with subHandles := Function.update s.subHandles i entry }.release subHandle.topicFilter
  | (none, some iFree) =>
    { s with subHandles := Function.update s.subHandles iFree subHandle }
  | (none, none) => s

/-- The filter of an acknowledged handle is handed over: to the handler table, or to the
    allocator if the SUBACK refuses the subscription. -/
def Store.handOver (s : Store) (grantedQoS : List UInt8) (subHandle : SubTopicHandle) : Store :=
  if subHandle.topicFilter = none then s
  else if grantedQoS.headD 0 = 0x80 then s.release subHandle.topicFilter
  else s.install subHandle

/-- A SUBACK whose id belongs to the node `acked`. -/
def Store.suback (s : Store) (packetId : UInt16) (grantedQoS : List UInt8) :
    Option SubInfo → Store
  | none => s
  | some acked => (s.masked packetId).handOver grantedQoS acked.handler

/-- An UNSUBACK whose id belongs to the node `acked`; without one the handle that is released
    is the uninitialised `junk`. -/
def Store.unsuback (s : Store) (packetId : UInt16) (junk : SubTopicHandle) :
    Option SubInfo → Store
  | none => s.release junk.topicFilter
  | some acked => (s.masked packetId).release acked.handler.topicFilter

theorem map_mask_eq_self {packetId : UInt16} {nodes : List SubInfo}
    (unknown : nodes.find? (fun node => node.msgId = packetId) = none) :
    nodes.map (SubInfo.mask packetId) = nodes := by
  rw [List.find?_eq_none] at unknown
  refine (List.map_congr_left fun node member => ?_).trans (List.map_id nodes)
  have other : node.msgId ≠ packetId := by simpa using unknown node member
  rw [SubInfo.mask, if_neg other, id]

/-- What handling an acknowledgement does to the parts of the state. -/
def World.Handles (w : World) : Option Ack → World → Prop
  | none, w' => w.KeepsRequests w'
  | some (.puback packetId), w' =>
    w'.store = w.store ∧ w'.client.eventHandle = w.client.eventHandle ∧
    w'.client.listPubWaitAck = (if w.env.mallocs.headD true then
      w.client.listPubWaitAck.map (PubInfo.mask packetId) else w.client.listPubWaitAck) ∧
    w'.outcomes = w.outcomes ++ if w.client.eventHandle = none then [] else [packetId]
  | some (.suback packetId grantedQoS), w' =>
    w.KeepsPublishes w' ∧ w'.store = w.store.suback packetId grantedQoS (w.acked packetId)
  | some (.unsuback packetId), w' =>
    w.KeepsPublishes w' ∧
      w'.store = w.store.unsuback packetId (w.env.stack.headD .zero) (w.acked packetId)

theorem maskSubInfoFrom_spec (packetId : UInt16) (messageHandler : SubTopicHandle) (w : World) :
    (maskSubInfoFrom packetId messageHandler).wp (fun found w' =>
      found = ((w.acked packetId).map (·.handler)).getD messageHandler ∧ w.KeepsPublishes w' ∧
        w'.store = (match w.acked packetId with
          | none => w.store
          | some _ => w.store.masked packetId)) w := by
  simp only [maskSubInfoFrom, Prog.wp_bind, wp_client, Prog.wp_ite, Prog.wp_pure, wp_halMalloc,
    maskSubInfoLoop_eq, wp_setClient]
  refine ⟨fun empty => ?_, fun some => ⟨fun failed => ?_, fun allocated => ?_⟩⟩
  · have none : w.acked packetId = none := by
      simp [World.acked, List.length_eq_zero_iff.mp empty]
    rw [none]
    exact ⟨rfl, ⟨rfl, rfl, rfl⟩, rfl⟩
  · have none : w.acked packetId = none := by
      rw [World.acked, if_neg (by simpa using failed)]
    rw [none]
    exact ⟨rfl, ⟨rfl, rfl, rfl⟩, rfl⟩
  · have found : w.acked packetId =
        w.client.listSubWaitAck.find? fun node => node.msgId = packetId := by
      rw [World.acked, if_pos (by simpa using allocated)]
    rw [found]
    refine ⟨rfl, ⟨rfl, rfl, rfl⟩, ?_⟩
    cases known : w.client.listSubWaitAck.find? fun node => node.msgId = packetId with
    | none => simp [World.store, map_mask_eq_self known]
    | some node => simp [World.store, Store.masked]

theorem handlePubackPacket_spec (w : World) :
    handlePubackPacket.wp (fun _ w' =>
      w.Handles (ackIn MessageType.puback.code w.client.readBuf) w') w := by
  simp only [handlePubackPacket, Prog.wp_bind, wp_client, ackIn, if_true]
  cases deserializeAckPacket w.client.readBuf with
  | error rc => exact refl_of World.KeepsRequests w
  | ok found =>
    obtain ⟨type, packetId⟩ := found
    simp only [maskPubInfoFrom, Prog.wp_bind, wp_client, Prog.wp_ite, Prog.wp_pure, wp_halMalloc,
      wp_setClient, wp_notify]
    have told : (Event.mqtt .publishSuccess (.packetId packetId)).outcome.toList = [packetId] := rfl
    refine ⟨fun empty => ?_, fun some => ⟨fun failed => ?_, fun allocated => ?_⟩⟩
    · refine ⟨rfl, rfl, ?_, by simp [told]⟩
      simp [List.length_eq_zero_iff.mp empty]
    · refine ⟨rfl, rfl, ?_, by simp [told, World.outcomes]⟩
      rw [if_neg (by simpa using failed)]
      rfl
    · refine ⟨rfl, rfl, ?_, by simp [told, World.outcomes]⟩
      rw [if_pos (by simpa using allocated)]
      rfl

/-- The subscription part after a filter was released. -/
theorem World.store_release (w : World) (filter : Option StoredFilter) :
    (w.setHeap { w.heap with released := w.heap.released ++ freed filter }).store =
      w.store.release filter := rfl

theorem handleUnsubackPacket_spec (w : World) :
    handleUnsubackPacket.wp (fun _ w' =>
      w.Handles (ackIn MessageType.unsuback.code w.client.readBuf) w') w := by
  have type : MessageType.unsuback.code ≠ MessageType.puback.code ∧
      MessageType.unsuback.code ≠ MessageType.suback.code := by decide
  simp only [handleUnsubackPacket, Prog.wp_bind, wp_client, ackIn, if_neg type.1, if_neg type.2,
    if_true]
  cases deserializeUnsubackPacket w.client.readBuf with
  | error rc => exact refl_of World.KeepsRequests w
  | ok packetId =>
    simp only [Prog.wp_bind, wp_uninitialised]
    refine Prog.wp_mono (maskSubInfoFrom_spec _ _ _) ?_
    rintro found w' ⟨rfl, publishes, store⟩
    simp only [Prog.wp_bind, wp_halFree, wp_notify, Prog.wp_pure]
    refine ⟨World.KeepsPublishes.called (World.KeepsPublishes.setHeap ?_ _) ?_, ?_⟩
    · exact ⟨publishes.listPubWaitAck, publishes.eventHandle, publishes.outcomes⟩
    · rw [Client.notifications_outcome]
      split <;> rfl
    · change w'.store.release _ = w.store.unsuback packetId (w.env.stack.headD .zero)
        (w.popStack.acked packetId)
      rw [store]
      cases w.popStack.acked packetId <;> rfl

theorem installSubHandle_spec (subHandle : SubTopicHandle) (w : World) :
    (installSubHandle subHandle).wp (fun _ w' =>
      w.KeepsPublishes w' ∧ w'.store = w.store.install subHandle) w := by
  simp only [installSubHandle, Prog.wp_bind, wp_client, Store.install, World.store_subHandles]
  cases subackScan w.client.subHandles subHandle (List.finRange maxMessageHandlers) none with
  | mk flagDup iFree =>
    cases flagDup with
    | some i =>
      simp only [Prog.wp_bind, wp_setClient, wp_halFree, Prog.wp_pure]
      exact ⟨⟨rfl, rfl, rfl⟩, rfl⟩
    | none =>
      cases iFree with
      | some iFree =>
        simp only [Prog.wp_bind, wp_setClient, Prog.wp_pure]
        exact ⟨⟨rfl, rfl, rfl⟩, rfl⟩
      | none =>
        simp only [Prog.wp_pure]
        exact ⟨⟨rfl, rfl, rfl⟩, trivial⟩

theorem handleSubackPacket_spec (w : World) :
    handleSubackPacket.wp (fun _ w' =>
      w.Handles (ackIn MessageType.suback.code w.client.readBuf) w') w := by
  have type : MessageType.suback.code ≠ MessageType.puback.code := by decide
  simp only [handleSubackPacket, Prog.wp_bind, wp_client, ackIn, if_neg type, if_true]
  cases deserializeSubackPacket 1 w.client.readBuf with
  | error rc => exact refl_of World.KeepsRequests w
  | ok found =>
    obtain ⟨packetId, grantedQoS⟩ := found
    -- the wait list is masked first, and what was found there is then handed over
    have masked : ∀ u : World, w.KeepsRequests u → u.env = w.env →
        (maskSubInfoFrom packetId .zero).wp (fun subHandle w' => w.KeepsPublishes w' ∧
          w.store.suback packetId grantedQoS (w.acked packetId) =
            w'.store.handOver grantedQoS subHandle) u := by
      intro u keeps env
      have acked : u.acked packetId = w.acked packetId := by
        rw [World.acked, World.acked, env, ← World.store_listSubWaitAck, keeps.store]
        rfl
      refine Prog.wp_mono (maskSubInfoFrom_spec _ _ _) ?_
      rintro subHandle w' ⟨rfl, publishes, store⟩
      refine ⟨keeps.toKeepsPublishes.trans publishes, ?_⟩
      rw [store, keeps.store, acked]
      cases w.acked packetId <;> rfl
    simp only [Prog.wp_ite, Prog.wp_bind, wp_emit, beq_iff_eq]
    refine ⟨fun nack => ?_, fun granted => ?_⟩
    · have silent : w.KeepsRequests (w.called [if w.client.eventHandle ≠ none then
          .mqtt .subcribeNack (.packetId packetId) else .nullCall]) := by
        refine called_keepsRequests ?_
        split <;> rfl
      refine Prog.wp_mono (masked _ silent rfl) ?_
      rintro subHandle w' ⟨publishes, store⟩
      simp only [World.Handles, store, Store.handOver, nack, if_true]
      simp only [Prog.wp_ite, Prog.wp_bind, Prog.wp_pure, wp_notifySub, wp_halFree]
      refine ⟨fun unnamed => ⟨publishes, by rw [if_pos unnamed]⟩, fun named => ⟨?_, ?_⟩⟩
      · exact (publishes.called (by simp)).setHeap _
      · rw [if_neg named]
        rfl
    · refine Prog.wp_mono (masked w (refl_of _ w) rfl) ?_
      rintro subHandle w' ⟨publishes, store⟩
      simp only [World.Handles, store, Store.handOver, granted, if_false]
      simp only [Prog.wp_ite, Prog.wp_bind, Prog.wp_pure]
      refine ⟨fun unnamed => ⟨publishes, by rw [if_pos unnamed]⟩, fun named => ?_⟩
      refine Prog.wp_mono (installSubHandle_spec subHandle w') ?_
      rintro room v ⟨publishes', store'⟩
      simp only [Prog.wp_ite, Prog.wp_bind, Prog.wp_pure, wp_notify, wp_notifySub, if_neg named]
      refine ⟨fun full => ⟨publishes.trans publishes', store'⟩, fun installed => ⟨?_, store'⟩⟩
      refine ((publishes.trans publishes').called ?_).called (by simp)
      rw [Client.notifications_outcome]
      split <;> rfl

/-! ## One packet -/

theorem World.Handles.of_keeps {w u v w' : World} {ack : Option Ack} (before : w.KeepsRequests u)
    (mallocs : u.env.mallocs = w.env.mallocs) (stack : u.env.stack = w.env.stack)
    (handles : u.Handles ack v) (after : v.KeepsRequests w') : w.Handles ack w' := by
  have acked : ∀ packetId, u.acked packetId = w.acked packetId := by
    intro packetId
    rw [World.acked, World.acked, mallocs, ← World.store_listSubWaitAck, before.store]
    rfl
  cases ack with
  | none => exact trans_of World.KeepsRequests (trans_of World.KeepsRequests before handles) after
  | some ack =>
    cases ack with
    | puback packetId =>
      obtain ⟨store, event, list, outcomes⟩ := handles
      refine ⟨after.store.trans (store.trans before.store),
        after.eventHandle.trans (event.trans before.eventHandle), ?_, ?_⟩
      · rw [after.listPubWaitAck, list, mallocs, before.listPubWaitAck]
      · rw [after.outcomes, outcomes, before.outcomes, before.eventHandle]
    | suback packetId grantedQoS =>
      obtain ⟨publishes, store⟩ := handles
      refine ⟨before.toKeepsPublishes.trans (publishes.trans after.toKeepsPublishes), ?_⟩
      rw [after.store, store, before.store, acked]
    | unsuback packetId =>
      obtain ⟨publishes, store⟩ := handles
      refine ⟨before.toKeepsPublishes.trans (publishes.trans after.toKeepsPublishes), ?_⟩
      rw [after.store, store, before.store, acked, stack]

theorem handlePacket_spec (packetType : UInt8) (timer : Timer) (w : World) :
    (handlePacket packetType timer).wp (fun _ w' =>
      w.Handles (ackIn packetType w.client.readBuf) w') w := by
  simp only [handlePacket, Prog.wp_ite, Prog.wp_bind, Prog.wp_pure]
  have quiet : packetType ≠ MessageType.puback.code → packetType ≠ MessageType.suback.code →
      packetType ≠ MessageType.unsuback.code → ackIn packetType w.client.readBuf = none := by
    intro puback suback unsuback
    rw [ackIn, if_neg puback, if_neg suback, if_neg unsuback]
  refine ⟨?connack, fun _ => ⟨?puback, fun puback => ⟨?suback, fun suback => ⟨?unsuback,
    fun unsuback => ?others⟩⟩⟩⟩
  case connack =>
    rintro rfl
    exact refl_of World.KeepsRequests w
  case puback =>
    rintro rfl
    exact handlePubackPacket_spec w
  case suback =>
    rintro rfl
    exact handleSubackPacket_spec w
  case unsuback =>
    rintro rfl
    exact handleUnsubackPacket_spec w
  case others =>
    rw [quiet puback suback unsuback]
    have same : w.KeepsRequests w := refl_of World.KeepsRequests w
    refine ⟨fun _ => handlePublishPacket_keepsRequests timer w, fun _ => ⟨fun _ =>
      handlePubrecPacket_keepsRequests timer w, fun _ => ⟨fun _ => same, fun _ => ⟨fun _ => same,
        fun _ => ⟨fun _ => same, fun _ => same⟩⟩⟩⟩⟩

/-- A `cycle_for_read` does what the handler of the acknowledgement it reads does. -/
theorem cycleForRead_handles (timer : Timer) (w : World) :
    (cycleForRead timer).wp (fun _ w' => w.Handles w.inbound w') w := by
  rw [cycleForRead, Prog.wp_bind]
  refine Prog.wp_mono (Prog.wp_run (Prog.within_iff_wp.mp readMqttPacket_onlyReads w)) ?_
  rintro ⟨rc, packetType⟩ u ⟨ran, reads⟩
  rw [World.inbound, World.reading, ran]
  simp only [Prog.wp_ite, Prog.wp_pure]
  refine ⟨fun nothing => ?_, fun something => ?_⟩
  · rw [if_pos nothing]
    exact reads.keepsRequests
  · rw [if_neg something]
    cases packetType with
    | none => exact reads.keepsRequests
    | some packetType =>
      simp only [Prog.wp_bind]
      refine Prog.wp_mono (handlePacket_spec packetType timer u) ?_
      rintro ⟨rc, timer⟩ v handles
      have lift : ∀ w', v.KeepsRequests w' → w.Handles (ackIn packetType u.client.readBuf) w' :=
        fun w' after => World.Handles.of_keeps reads.keepsRequests (by rw [reads.env])
          (by rw [reads.env]) handles after
      exact lift _ (notePacket_keepsRequests packetType v)

end QcloudIot.Mqtt
