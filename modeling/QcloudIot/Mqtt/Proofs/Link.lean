import QcloudIot.Mqtt.Proofs.Requests
import QcloudIot.Mqtt.Session

/-!
# The link while requests and packets are handled

Requests of the application, packets and sweeps leave alone whether the client is connected, on
which connection, and when it is going to reconnect. On that connection more bytes are sent and
more are consumed.
-/

namespace QcloudIot.Mqtt

/-- Nothing that the connection or a reconnect depends on changes from `w` to `w'`. -/
structure World.KeepsLink (w w' : World) : Prop where
  isConnected : w'.client.isConnected = w.client.isConnected
  options : w'.client.options = w.client.options
  interval :
    w'.client.currentReconnectWaitInterval = w.client.currentReconnectWaitInterval
  delayTimer : w'.client.reconnectDelayTimer = w.client.reconnectDelayTimer
  writeBufSize : w'.client.writeBufSize = w.client.writeBufSize
  readBufSize : w'.client.readBufSize = w.client.readBufSize
  net : w'.net = { w.net with consumed := w'.net.consumed, tx := w'.net.tx }
  consumed : w.net.consumed ≤ w'.net.consumed
  grows : w.net.tx <+: w'.net.tx

instance : Std.Refl World.KeepsLink :=
  ⟨fun _ => ⟨rfl, rfl, rfl, rfl, rfl, rfl, rfl, Nat.le_refl _, List.prefix_rfl⟩⟩

instance : IsTrans World World.KeepsLink where
  trans a b c first second :=
    { isConnected := second.isConnected.trans first.isConnected
      options := second.options.trans first.options
      interval := second.interval.trans first.interval
      delayTimer := second.delayTimer.trans first.delayTimer
      writeBufSize := second.writeBufSize.trans first.writeBufSize
      readBufSize := second.readBufSize.trans first.readBufSize
      net := by rw [second.net, first.net]
      consumed := first.consumed.trans second.consumed
      grows := first.grows.trans second.grows }

/-- The same, and nothing is read. -/
structure World.KeepsInput (w w' : World) : Prop extends w.KeepsLink w' where
  readBuf : w'.client.readBuf = w.client.readBuf
  input : w'.net.consumed = w.net.consumed

instance : Std.Refl World.KeepsInput := ⟨fun w => ⟨refl_of _ w, rfl, rfl⟩⟩

instance : IsTrans World World.KeepsInput where
  trans _ _ _ first second :=
    ⟨trans_of World.KeepsLink first.toKeepsLink second.toKeepsLink,
      second.readBuf.trans first.readBuf, second.input.trans first.input⟩

/-- The same, and the number of outstanding pings stays. -/
structure World.KeepsPing (w w' : World) : Prop extends w.KeepsInput w' where
  isPingOutstanding : w'.client.isPingOutstanding = w.client.isPingOutstanding

instance : Std.Refl World.KeepsPing := ⟨fun w => ⟨refl_of _ w, rfl⟩⟩

instance : IsTrans World World.KeepsPing where
  trans _ _ _ first second :=
    ⟨trans_of World.KeepsInput first.toKeepsInput second.toKeepsInput,
      second.isPingOutstanding.trans first.isPingOutstanding⟩

theorem World.OnlySends.keepsPing {w w' : World} (h : w.OnlySends w') : w.KeepsPing w' where
  isConnected := by rw [h.client]
  options := by rw [h.client]
  interval := by rw [h.client]
  delayTimer := by rw [h.client]
  writeBufSize := by rw [h.client]
  readBufSize := by rw [h.client]
  net := by rw [h.net]
  consumed := Nat.le_of_eq (by rw [h.net])
  grows := h.grows
  readBuf := by rw [h.client]
  input := by rw [h.net]
  isPingOutstanding := by rw [h.client]

theorem World.OnlyRequests.keepsPing {w w' : World} (h : w.OnlyRequests w') :
    w.KeepsPing w' := by
  have readBuf : w'.client.readBuf = w.client.readBuf := by rw [h.client]
  exact
    { isConnected := by rw [h.client]
      options := by rw [h.client]
      interval := by rw [h.client]
      delayTimer := by rw [h.client]
      writeBufSize := h.writeBufSize
      readBufSize := congrArg List.length readBuf
      net := by rw [h.net]
      consumed := Nat.le_of_eq (by rw [h.net])
      grows := h.grows
      readBuf := readBuf
      input := by rw [h.net]
      isPingOutstanding := by rw [h.client] }

/-- What reads nothing keeps the link. -/
theorem keepsLink_of_ping {α : Type} {m : Sdk α} (keeps : Prog.Within World.KeepsPing m) :
    Prog.Within World.KeepsLink m :=
  keeps.mono fun _ _ h => h.toKeepsLink

theorem World.keepsLink_tick (w : World) : w.KeepsLink w.tick :=
  w.onlySends_tick.keepsPing.toKeepsLink

/-! ## The pieces -/

/-- A change of the client and its surroundings that is none of the link. -/
theorem World.keepsPing_of {w : World} {c : Client} {heap : Heap} {clock : Nat} {env : Env}
    {trace : List Event} (isConnected : c.isConnected = w.client.isConnected)
    (options : c.options = w.client.options)
    (interval : c.currentReconnectWaitInterval = w.client.currentReconnectWaitInterval)
    (delayTimer : c.reconnectDelayTimer = w.client.reconnectDelayTimer)
    (writeBufSize : c.writeBufSize = w.client.writeBufSize)
    (readBuf : c.readBuf = w.client.readBuf)
    (isPingOutstanding : c.isPingOutstanding = w.client.isPingOutstanding) :
    w.KeepsPing { w with client := c, heap := heap, clock := clock, env := env, trace := trace } :=
  ⟨⟨⟨isConnected, options, interval, delayTimer, writeBufSize, congrArg List.length readBuf, rfl,
    Nat.le_refl _, List.prefix_rfl⟩, readBuf, rfl⟩, isPingOutstanding⟩

theorem now_keepsPing : Prog.Within World.KeepsPing now := fun w => w.onlySends_tick.keepsPing

theorem expired_keepsPing (timer : Timer) : Prog.Within World.KeepsPing (expired timer) :=
  .bind now_keepsPing fun _ => .pure _

theorem leftMs_keepsPing (timer : Timer) : Prog.Within World.KeepsPing (leftMs timer) :=
  .bind now_keepsPing fun _ => .pure _

theorem countdownMs_keepsPing (timeoutMs : Nat) :
    Prog.Within World.KeepsPing (countdownMs timeoutMs) :=
  .bind now_keepsPing fun _ => .pure _

theorem countdown_keepsPing (timeout : Nat) : Prog.Within World.KeepsPing (countdown timeout) :=
  .bind now_keepsPing fun _ => .pure _

theorem halMalloc_keepsPing : Prog.Within World.KeepsPing halMalloc :=
  fun _ => World.keepsPing_of rfl rfl rfl rfl rfl rfl rfl

theorem halFree_keepsPing (s : Option StoredFilter) : Prog.Within World.KeepsPing (halFree s) := by
  cases s with
  | none => exact .pure _
  | some s => exact fun _ => World.keepsPing_of rfl rfl rfl rfl rfl rfl rfl

theorem uninitialised_keepsPing : Prog.Within World.KeepsPing uninitialised :=
  fun _ => World.keepsPing_of rfl rfl rfl rfl rfl rfl rfl

theorem emit_keepsPing (e : Event) : Prog.Within World.KeepsPing (emit e) :=
  fun _ => World.keepsPing_of rfl rfl rfl rfl rfl rfl rfl

theorem notify_keepsPing (type : MqttEventType) (msg : EventMsg) :
    Prog.Within World.KeepsPing (notify type msg) :=
  .bind client_within fun _ => .ite (emit_keepsPing _) (.pure _)

theorem notifySub_keepsPing (handler : Option FnPtr) (type : MqttEventType) (userData : Ptr) :
    Prog.Within World.KeepsPing (notifySub handler type userData) := by
  cases handler with
  | none => exact .pure _
  | some fn => exact emit_keepsPing _

theorem writeToWriteBuf_keepsPing (pos : Nat) (bytes : List UInt8) :
    Prog.Within World.KeepsPing (writeToWriteBuf pos bytes) :=
  fun _ => World.keepsPing_of rfl rfl rfl rfl (length_overwrite _ _ _) rfl rfl

theorem sendMqttPacket_keepsPing (length : Nat) (timer : Timer) :
    Prog.Within World.KeepsPing (sendMqttPacket length timer) :=
  (sendMqttPacket_onlySends length timer).mono fun _ _ h => h.keepsPing

/-! ## Reading a packet -/

theorem networkRead_keepsLink (len : Nat) : Prog.Within World.KeepsLink (networkRead len) :=
  fun _ => ⟨rfl, rfl, rfl, rfl, rfl, rfl, rfl, Nat.le_add_right _ _, List.prefix_rfl⟩

theorem writeToReadBuf_keepsLink (pos : Nat) (bytes : List UInt8) :
    Prog.Within World.KeepsLink (writeToReadBuf pos bytes) :=
  fun _ => ⟨rfl, rfl, rfl, rfl, rfl, length_overwrite _ _ _, rfl, Nat.le_refl _, List.prefix_rfl⟩

theorem readMqttPacket_keepsLink : Prog.Within World.KeepsLink readMqttPacket := by
  have remLen : ∀ fuel multiplier value,
      Prog.Within World.KeepsLink (remLenFromNet fuel multiplier value) := by
    intro fuel
    induction fuel with
    | zero => exact fun _ _ => .pure _
    | succ fuel ih =>
      intro multiplier value
      exact .bind (networkRead_keepsLink 1) fun _ => .ite (.pure _) (.ite (ih _ _) (.pure _))
  have discard : ∀ remLen fuel bytesToBeRead totalBytesRead, Prog.Within World.KeepsLink
      (discardLoop remLen fuel bytesToBeRead totalBytesRead) := by
    intro remLen fuel
    induction fuel with
    | zero => exact fun _ _ => .pure _
    | succ fuel ih =>
      intro bytesToBeRead totalBytesRead
      refine .bind (networkRead_keepsLink _) fun _ => .bind (writeToReadBuf_keepsLink _ _) fun _ => ?_
      exact .ite (.bind client_within fun _ => .ite (ih _ _) (.pure _)) (.pure _)
  refine .bind (networkRead_keepsLink 1) fun _ => .bind (writeToReadBuf_keepsLink _ _) fun _ => ?_
  refine .ite (.pure _) (.ite (.pure _) (.bind (remLen _ _ _) fun _ => ?_))
  refine .ite (.pure _) (.bind client_within fun c => .ite ?_ ?_)
  · exact .bind (discard _ _ _ _) fun _ => .pure _
  · refine .bind (writeToReadBuf_keepsLink _ _) fun _ => .ite ?_ (.ite ?_ ?_)
    · refine .bind (networkRead_keepsLink _) fun _ => ?_
      exact .bind (writeToReadBuf_keepsLink _ _) fun _ => .pure _
    · refine .bind (networkRead_keepsLink _) fun _ => .bind (writeToReadBuf_keepsLink _ _) fun _ => ?_
      exact .ite (.pure _) (.bind client_within fun _ => .pure _)
    · exact .bind client_within fun _ => .pure _

/-! ## Handling a packet -/

theorem maskPubInfoFrom_keepsPing (msgId : UInt16) :
    Prog.Within World.KeepsPing (maskPubInfoFrom msgId) := by
  refine .bind client_within fun c => .ite (.pure _) (.bind halMalloc_keepsPing fun _ => ?_)
  exact .ite (.pure _) fun _ => World.keepsPing_of rfl rfl rfl rfl rfl rfl rfl

theorem maskSubInfoFrom_keepsPing (msgId : UInt16) (messageHandler : SubTopicHandle) :
    Prog.Within World.KeepsPing (maskSubInfoFrom msgId messageHandler) := by
  refine .bind client_within fun c => .ite (.pure _) (.bind halMalloc_keepsPing fun _ => ?_)
  exact .ite (.pure _) (.bind (fun _ => World.keepsPing_of rfl rfl rfl rfl rfl rfl rfl) fun _ =>
      .pure _)

theorem handlePubackPacket_keepsPing : Prog.Within World.KeepsPing handlePubackPacket := by
  refine .bind client_within fun c => ?_
  cases deserializeAckPacket c.readBuf with
  | error rc => exact .pure _
  | ok found =>
    refine .bind (maskPubInfoFrom_keepsPing _) fun _ => ?_
    exact .bind (notify_keepsPing _ _) fun _ => .pure _

theorem installSubHandle_keepsPing (subHandle : SubTopicHandle) :
    Prog.Within World.KeepsPing (installSubHandle subHandle) := by
  refine .bind client_within fun c => ?_
  rcases subackScan c.subHandles subHandle (List.finRange maxMessageHandlers) none with
    ⟨_ | i, _ | iFree⟩
  · exact .pure _
  · exact .bind (fun _ => World.keepsPing_of rfl rfl rfl rfl rfl rfl rfl) fun _ => .pure _
  · refine .bind (fun _ => World.keepsPing_of rfl rfl rfl rfl rfl rfl rfl) fun _ => ?_
    exact .bind (halFree_keepsPing _) fun _ => .pure _
  · refine .bind (fun _ => World.keepsPing_of rfl rfl rfl rfl rfl rfl rfl) fun _ => ?_
    exact .bind (halFree_keepsPing _) fun _ => .pure _

theorem handleSubackPacket_keepsPing : Prog.Within World.KeepsPing handleSubackPacket := by
  refine .bind client_within fun c => ?_
  cases deserializeSubackPacket 1 c.readBuf with
  | error rc => exact .pure _
  | ok found =>
    refine .ite (.bind (emit_keepsPing _) fun _ => ?_) ?_
    · refine .bind (maskSubInfoFrom_keepsPing _ _) fun subHandle => .ite (.pure _) ?_
      refine .bind (notifySub_keepsPing _ _ _) fun _ => ?_
      exact .bind (halFree_keepsPing _) fun _ => .pure _
    · refine .bind (maskSubInfoFrom_keepsPing _ _) fun subHandle => .ite (.pure _) ?_
      refine .bind (installSubHandle_keepsPing _) fun _ => .ite (.pure _) ?_
      refine .bind (notify_keepsPing _ _) fun _ => ?_
      exact .bind (notifySub_keepsPing _ _ _) fun _ => .pure _

theorem handleUnsubackPacket_keepsPing : Prog.Within World.KeepsPing handleUnsubackPacket := by
  refine .bind client_within fun c => ?_
  cases deserializeUnsubackPacket c.readBuf with
  | error rc => exact .pure _
  | ok packetId =>
    refine .bind uninitialised_keepsPing fun junk => .bind (maskSubInfoFrom_keepsPing _ _) fun _ => ?_
    exact .bind (halFree_keepsPing _) fun _ => .bind (notify_keepsPing _ _) fun _ => .pure _

theorem sendPubAck_keepsPing (packetType : MessageType) (packetId : UInt16) (timer : Timer) :
    Prog.Within World.KeepsPing (sendPubAck packetType packetId timer) := by
  have extend : Prog.Within World.KeepsPing (extendTimer timer) := by
    refine .bind (expired_keepsPing timer) fun _ => ?_
    exact .ite (.bind now_keepsPing fun _ => .pure _) (.pure _)
  refine .bind client_within fun c => ?_
  cases serializePubAckPacket c.writeBufSize packetType 0 packetId with
  | error rc => exact .pure _
  | ok packet =>
    refine .bind (writeToWriteBuf_keepsPing _ _) fun _ => .bind extend fun timer => ?_
    exact .bind (sendMqttPacket_keepsPing _ _) fun _ => .pure _

theorem deliverMessage_keepsPing (topicName : List UInt8) (topicNameLen : Nat)
    (message : MqttMessage) :
    Prog.Within World.KeepsPing (deliverMessage topicName topicNameLen message) := by
  have loop : ∀ message slots, Prog.Within World.KeepsPing
      (deliverLoop topicName topicNameLen message slots) := by
    intro message slots
    induction slots with
    | nil => exact .pure _
    | cons i rest ih =>
      refine .bind client_within fun c => .ite ?_ ih
      cases (c.subHandles i).messageHandler with
      | none => exact ih
      | some fn => exact .bind (emit_keepsPing _) fun _ => .pure _
  refine .bind (loop _ _) fun _ => .ite (.pure _) ?_
  exact .bind (notify_keepsPing _ _) fun _ => .pure _

theorem handlePublishPacket_keepsPing (timer : Timer) :
    Prog.Within World.KeepsPing (handlePublishPacket timer) := by
  refine .bind client_within fun c => ?_
  cases deserializePublishPacket c.readBuf 0 with
  | error rc => exact .pure _
  | ok found =>
    refine .ite (.bind (deliverMessage_keepsPing _ _ _) fun _ => .pure _) ?_
    refine .bind (.ite (deliverMessage_keepsPing _ _ _) (.pure _)) fun _ => .ite (.pure _) ?_
    refine .bind (.bind client_within fun _ => .ite (.pure _) ?_) fun _ => sendPubAck_keepsPing _ _ _
    exact fun _ => World.keepsPing_of rfl rfl rfl rfl rfl rfl rfl

theorem handlePacket_keepsPing (packetType : UInt8) (timer : Timer) :
    Prog.Within World.KeepsPing (handlePacket packetType timer) := by
  have pubrec : Prog.Within World.KeepsPing (handlePubrecPacket timer) := by
    refine .bind client_within fun c => ?_
    cases deserializeAckPacket c.readBuf with
    | error rc => exact .pure _
    | ok found => exact sendPubAck_keepsPing _ _ _
  refine .ite (.pure _) (.ite (.bind handlePubackPacket_keepsPing fun _ => .pure _) ?_)
  refine .ite (.bind handleSubackPacket_keepsPing fun _ => .pure _) ?_
  refine .ite (.bind handleUnsubackPacket_keepsPing fun _ => .pure _) ?_
  refine .ite (handlePublishPacket_keepsPing timer) (.ite pubrec ?_)
  exact .ite (.pure _) (.ite (.pure _) (.ite (.pure _) (.pure _)))

theorem notePacket_keepsInput (packetType : UInt8) :
    Prog.Within World.KeepsInput (notePacket packetType) := by
  have kept : ∀ (w : World) (c : Client), c = { w.client with
      isPingOutstanding := c.isPingOutstanding, pingTimer := c.pingTimer } →
        w.KeepsInput (w.setClient c) := by
    rintro w c isClient
    rw [isClient]
    exact ⟨⟨rfl, rfl, rfl, rfl, rfl, rfl, rfl, Nat.le_refl _, List.prefix_rfl⟩, rfl, rfl⟩
  refine .ite (.bind client_within fun c => .bind ?_ fun _ => ?_) (.ite ?_ (.pure _))
  · exact (countdown_keepsPing _).mono fun _ _ h => h.toKeepsInput
  · exact fun w => kept w _ rfl
  · exact fun w => kept w _ rfl

theorem cycleForRead_keepsLink (timer : Timer) :
    Prog.Within World.KeepsLink (cycleForRead timer) := by
  refine .bind readMqttPacket_keepsLink fun read => .ite (.pure _) ?_
  cases read.2 with
  | none => exact .pure _
  | some packetType =>
    refine .bind (keepsLink_of_ping (handlePacket_keepsPing packetType timer)) fun _ => ?_
    exact .bind ((notePacket_keepsInput packetType).mono fun _ _ h => h.toKeepsLink) fun _ => .pure _

theorem waitLoop_keepsLink (packetType : UInt8) (fuel : Nat) (timer : Timer) :
    Prog.Within World.KeepsLink (waitLoop packetType fuel timer) := by
  induction fuel generalizing timer with
  | zero => exact .pure _
  | succ fuel ih =>
    refine .bind (keepsLink_of_ping (expired_keepsPing timer)) fun _ => .ite (.pure _) ?_
    exact .bind (cycleForRead_keepsLink timer) fun _ => .ite (ih _) (.pure _)

theorem waitForRead_keepsLink (packetType : UInt8) (timer : Timer) :
    Prog.Within World.KeepsLink (waitForRead packetType timer) :=
  .bind (.prim fun w => refl_of _ w) fun _ => waitLoop_keepsLink _ _ _

/-! ## Requests and sweeps -/

theorem qcloudIotMqttSubscribe_keepsPing (topicFilter : CStr) (params : SubscribeParams) :
    Prog.Within World.KeepsPing (qcloudIotMqttSubscribe topicFilter params) :=
  (qcloudIotMqttSubscribe_onlyRequests topicFilter params).mono fun _ _ h => h.keepsPing

theorem qcloudIotMqttPublish_keepsPing (topicName : CStr) (params : PublishParams) :
    Prog.Within World.KeepsPing (qcloudIotMqttPublish topicName params) :=
  (qcloudIotMqttPublish_onlyRequests topicName params).mono fun _ _ h => h.keepsPing

theorem qcloudIotMqttUnsubscribe_keepsPing (topicFilter : CStr) :
    Prog.Within World.KeepsPing (qcloudIotMqttUnsubscribe topicFilter) := by
  have loop : ∀ slots, Prog.Within World.KeepsPing (unsubscribeLoop topicFilter slots) := by
    intro slots
    induction slots with
    | nil => exact .pure _
    | cons i rest ih =>
      refine .bind client_within fun c => .ite ?_ ih
      refine .bind (notifySub_keepsPing _ _ _) fun _ => .bind (halFree_keepsPing _) fun _ => ?_
      refine .bind (fun _ => World.keepsPing_of rfl rfl rfl rfl rfl rfl rfl) fun _ => ?_
      exact .bind ih fun _ => .pure _
  have request : ∀ type serialize subHandle, Prog.Within World.KeepsPing
      (sendSubRequest topicFilter type serialize subHandle) := fun type serialize subHandle =>
    (sendSubRequest_onlyRequests topicFilter type serialize subHandle).mono
      fun _ _ h => h.keepsPing
  refine .ite (.pure _) (.ite (.pure _) (.bind (loop _) fun _ => .ite (.pure _) ?_))
  refine .bind (fun w => refl_of _ w) fun _ => .ite (.pure _) ?_
  exact .bind uninitialised_keepsPing fun _ => request _ _ _

theorem qcloudIotMqttResubscribe_keepsPing :
    Prog.Within World.KeepsPing qcloudIotMqttResubscribe := by
  have loop : ∀ slots, Prog.Within World.KeepsPing (resubscribeLoop slots) := by
    intro slots
    induction slots with
    | nil => exact .pure _
    | cons itr rest ih =>
      refine .bind client_within fun c => ?_
      cases (c.subHandles itr).topicFilter with
      | none => exact ih
      | some topic =>
        exact .bind (qcloudIotMqttSubscribe_keepsPing _ _) fun _ => .ite (.pure _) ih
  exact .bind (fun w => refl_of _ w) fun _ => .ite (.pure _) (loop _)

theorem qcloudIotMqttPubInfoProc_keepsPing :
    Prog.Within World.KeepsPing qcloudIotMqttPubInfoProc := by
  have loop : ∀ isConnected nodes, Prog.Within World.KeepsPing (pubInfoLoop isConnected nodes) := by
    intro isConnected nodes
    induction nodes with
    | nil => exact .pure _
    | cons node towardsTail ih =>
      refine .bind ih fun rest => .ite (.pure _) (.ite (.pure _) ?_)
      refine .bind (leftMs_keepsPing _) fun _ => .ite (.pure _) ?_
      exact .bind now_keepsPing fun _ => .bind (notify_keepsPing _ _) fun _ => .pure _
  refine .bind client_within fun c => .ite (.pure _) (.bind halMalloc_keepsPing fun _ => ?_)
  refine .ite (.pure _) (.bind (loop _ _) fun _ => ?_)
  exact fun _ => World.keepsPing_of rfl rfl rfl rfl rfl rfl rfl

theorem qcloudIotMqttSubInfoProc_keepsPing :
    Prog.Within World.KeepsPing qcloudIotMqttSubInfoProc := by
  have timeout : ∀ node, Prog.Within World.KeepsPing (notifySubTimeout node) := by
    intro node
    refine .bind client_within fun c => .ite (.pure _) (.ite ?_ (notify_keepsPing _ _))
    exact .bind (notifySub_keepsPing _ _ _) fun _ => notify_keepsPing _ _
  have loop : ∀ isConnected nodes, Prog.Within World.KeepsPing (subInfoLoop isConnected nodes) := by
    intro isConnected nodes
    induction nodes with
    | nil => exact .pure _
    | cons node towardsTail ih =>
      refine .bind ih fun rest => .ite (.pure _) (.ite (.pure _) ?_)
      refine .bind (leftMs_keepsPing _) fun _ => .ite (.pure _) ?_
      exact .bind (timeout _) fun _ => .bind (halFree_keepsPing _) fun _ => .pure _
  refine .bind client_within fun c => .ite (.pure _) (.bind halMalloc_keepsPing fun _ => ?_)
  refine .ite (.pure _) (.bind (loop _ _) fun _ => ?_)
  exact fun _ => World.keepsPing_of rfl rfl rfl rfl rfl rfl rfl

/-! ## Losing the connection -/

theorem within_wp {α : Type} {R : World → World → Prop} {m : Sdk α} (within : Prog.Within R m)
    (w : World) : m.wp (fun _ w' => R w w') w := within w

theorem ping_wp {α : Type} {m : Sdk α} (keeps : Prog.Within World.KeepsPing m) (w : World) :
    m.wp (fun _ w' => w.KeepsLink w') w := (keeps w).toKeepsLink

/-- The connection has been closed. -/
structure World.Dropped (w w' : World) : Prop where
  isConnected : w'.client.isConnected = false
  handle : w'.net.handle = false
  options : w'.client.options = w.client.options
  readBufSize : w'.client.readBufSize = w.client.readBufSize

/-- The connection may have been used before it is closed. -/
theorem World.KeepsLink.dropped {w w' w'' : World} (keeps : w.KeepsLink w')
    (dropped : w'.Dropped w'') : w.Dropped w'' :=
  ⟨dropped.isConnected, dropped.handle, dropped.options.trans keeps.options,
    dropped.readBufSize.trans keeps.readBufSize⟩

theorem serializePacketWithZeroPayload_failed {bufLen : Nat} {rc : Int}
    (failed : serializePacketWithZeroPayload bufLen .disconnect = .error rc) :
    rc = qcloudErrBufTooShort := by
  rw [serializePacketWithZeroPayload] at failed
  by_cases short : 4 > bufLen
  · rw [if_pos short] at failed
    exact (Except.error.inj failed).symm
  · rw [if_neg short] at failed
    exact absurd failed nofun

/-- A disconnect that fails leaves the connection alone. -/
theorem qcloudIotMqttDisconnect_spec (w : World) : qcloudIotMqttDisconnect.wp (fun rc w' =>
    rc ≠ qcloudRetSuccess ∧ w.KeepsLink w' ∨ rc = qcloudRetSuccess ∧ w.Dropped w') w := by
  rw [qcloudIotMqttDisconnect]
  simp only [Prog.wp_bind, wp_getClientConnState, Prog.wp_ite, Prog.wp_pure, wp_client]
  refine ⟨fun _ => .inl ⟨by decide, refl_of _ w⟩, fun _ => ?_⟩
  rcases serialized : serializePacketWithZeroPayload w.client.writeBufSize .disconnect with rc | packet
  · dsimp only
    rw [Prog.wp_pure, serializePacketWithZeroPayload_failed serialized]
    exact .inl ⟨by decide, refl_of _ w⟩
  · dsimp only
    rw [Prog.wp_bind]
    refine Prog.wp_mono (ping_wp (writeToWriteBuf_keepsPing 0 packet) w) fun _ w₁ written => ?_
    rw [Prog.wp_bind]
    refine Prog.wp_mono (ping_wp (countdownMs_keepsPing _) w₁) fun timer w₂ counted => ?_
    rw [Prog.wp_bind]
    refine Prog.wp_mono (ping_wp (sendMqttPacket_keepsPing _ timer) w₂) fun rc w₃ sent => ?_
    have keeps := trans_of World.KeepsLink written (trans_of World.KeepsLink counted sent)
    simp only [networkDisconnect, Prog.wp_bind, Prog.wp_ite, Prog.wp_pure, Prog.wp_change,
      wp_setClientConnState, wp_setClient]
    exact ⟨fun failed => .inl ⟨failed, keeps⟩, fun _ =>
      .inr ⟨trivial, rfl, rfl, keeps.options, keeps.readBufSize⟩⟩

/-- `_handle_disconnect` closes the connection in any case. -/
theorem handleDisconnect_spec {w : World} (up : w.client.isConnected = true) :
    handleDisconnect.wp (fun rc w' => rc = qcloudErrMqttNoConn ∧ w.Dropped w') w := by
  rw [handleDisconnect]
  simp only [Prog.wp_bind, wp_getClientConnState, Prog.wp_ite, Prog.wp_pure, up]
  refine ⟨fun down => absurd down (by decide), fun _ => ?_⟩
  refine Prog.wp_mono (qcloudIotMqttDisconnect_spec w) fun rc w' outcome => ?_
  simp only [forceDisconnect, networkDisconnect, Prog.wp_bind, Prog.wp_ite, Prog.wp_pure,
    Prog.wp_change, wp_setClientConnState, wp_notify, wp_setClient]
  refine ⟨fun failed => ?_, fun done => ?_⟩
  · obtain ⟨_, keeps⟩ := outcome.resolve_right fun success => failed success.1
    exact ⟨trivial, rfl, rfl, keeps.options, keeps.readBufSize⟩
  · obtain ⟨_, dropped⟩ := outcome.resolve_left fun failed => failed.1 (not_not.mp done)
    exact ⟨trivial, dropped.isConnected, dropped.handle, dropped.options, dropped.readBufSize⟩

/-- Keep alive leaves the connection alone or closes it. -/
theorem mqttKeepAlive_spec {w : World} (up : w.client.isConnected = true) :
    mqttKeepAlive.wp (fun rc w' => w.KeepsLink w' ∨ rc = qcloudErrMqttNoConn ∧ w.Dropped w') w := by
  have ping : ∀ length retries, Prog.Within World.KeepsPing (sendPing length retries) := by
    intro length retries
    induction retries with
    | zero =>
      refine .bind client_within fun c => .bind (countdownMs_keepsPing _) fun timer => ?_
      exact sendMqttPacket_keepsPing _ _
    | succ retries ih =>
      refine .bind client_within fun c => .bind (countdownMs_keepsPing _) fun timer => ?_
      exact .bind (sendMqttPacket_keepsPing _ _) fun rc => .ite ih (.pure _)
  have drops : ∀ w' : World, w.KeepsLink w' → handleDisconnect.wp (fun rc w'' =>
      w.KeepsLink w'' ∨ rc = qcloudErrMqttNoConn ∧ w.Dropped w'') w' := by
    intro w' keeps
    refine Prog.wp_mono (handleDisconnect_spec (keeps.isConnected.trans up)) fun rc w'' dropped => ?_
    exact .inr ⟨dropped.1, keeps.dropped dropped.2⟩
  rw [mqttKeepAlive]
  simp only [Prog.wp_bind, wp_client, Prog.wp_ite, Prog.wp_pure, wp_expired]
  have ticked : w.KeepsLink w.tick := w.keepsLink_tick
  refine ⟨fun _ => .inl (refl_of _ w), fun _ => ⟨fun _ => .inl ticked, fun _ =>
    ⟨fun _ => drops _ ticked, fun _ => ?_⟩⟩⟩
  rcases serializePacketWithZeroPayload w.client.writeBufSize .pingreq with rc | packet
  · exact .inl ticked
  · dsimp only
    rw [Prog.wp_bind]
    refine Prog.wp_mono (ping_wp (writeToWriteBuf_keepsPing 0 packet) w.tick) fun _ w₁ written => ?_
    rw [Prog.wp_bind]
    refine Prog.wp_mono (ping_wp (ping packet.length 3) w₁) fun rc w₂ pinged => ?_
    have keeps := trans_of World.KeepsLink ticked (trans_of World.KeepsLink written pinged)
    simp only [Prog.wp_bind, Prog.wp_ite, Prog.wp_pure, wp_countdown, wp_setClient]
    refine ⟨fun _ => drops _ keeps, fun _ => .inl (trans_of World.KeepsLink keeps ?_)⟩
    exact ⟨rfl, rfl, rfl, rfl, rfl, rfl, rfl, Nat.le_refl _, List.prefix_rfl⟩

/-- The first half of a round leaves the connection alone or closes it. -/
theorem readRound_spec {w : World} (up : w.client.isConnected = true) (timer : Timer) :
    (readRound timer).wp (fun (rc, _) w' =>
      w.KeepsLink w' ∨ rc = qcloudErrMqttNoConn ∧ w.Dropped w') w := by
  rw [readRound, Prog.wp_bind]
  refine Prog.wp_mono (within_wp (cycleForRead_keepsLink timer) w) ?_
  rintro ⟨rc, _, timer'⟩ w₁ read
  have up₁ : w₁.client.isConnected = true := read.isConnected.trans up
  simp only [Prog.wp_bind, Prog.wp_ite, Prog.wp_pure]
  refine ⟨fun _ => ?_, fun _ => ⟨fun _ => ?_, fun _ => .inl read⟩⟩
  · refine Prog.wp_mono (ping_wp qcloudIotMqttPubInfoProc_keepsPing w₁) fun _ w₂ swept => ?_
    rw [Prog.wp_bind]
    refine Prog.wp_mono (ping_wp qcloudIotMqttSubInfoProc_keepsPing w₂) fun _ w₃ swept' => ?_
    rw [Prog.wp_bind]
    have keeps := trans_of World.KeepsLink read (trans_of World.KeepsLink swept swept')
    refine Prog.wp_mono (mqttKeepAlive_spec (keeps.isConnected.trans up)) fun rc' w₄ outcome => ?_
    exact outcome.imp (trans_of World.KeepsLink keeps) fun dropped =>
      ⟨dropped.1, keeps.dropped dropped.2⟩
  · refine Prog.wp_mono (handleDisconnect_spec up₁) fun rc' w₂ dropped => ?_
    exact .inr ⟨dropped.1, read.dropped dropped.2⟩

end QcloudIot.Mqtt
