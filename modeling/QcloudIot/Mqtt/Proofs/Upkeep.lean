import QcloudIot.Mqtt.Proofs.Inbound

/-!
# What upkeep changes

Keep alive, connecting and disconnecting change the connection, its timers and the buffers.
The requests that wait, the handler table, the packet ids received and the allocator stay as
they are (`World.OnlyUpkeep`).
-/

namespace QcloudIot.Mqtt

/-- What upkeep may change. -/
structure World.OnlyUpkeep (w w' : World) : Prop where
  client : w'.client = { w.client with
    isConnected := w'.client.isConnected
    wasManuallyDisconnected := w'.client.wasManuallyDisconnected
    isPingOutstanding := w'.client.isPingOutstanding
    currentReconnectWaitInterval := w'.client.currentReconnectWaitInterval
    counterNetworkDisconnected := w'.client.counterNetworkDisconnected
    writeBuf := w'.client.writeBuf
    options := w'.client.options
    pingTimer := w'.client.pingTimer
    reconnectDelayTimer := w'.client.reconnectDelayTimer }
  heap : w'.heap = w.heap
  outcomes : w'.outcomes = w.outcomes

instance : Std.Refl World.OnlyUpkeep := ⟨fun _ => ⟨rfl, rfl, rfl⟩⟩

instance : IsTrans World World.OnlyUpkeep where
  trans a b c first second :=
    { client := by rw [second.client, first.client]
      heap := second.heap.trans first.heap
      outcomes := second.outcomes.trans first.outcomes }

theorem World.OnlyUpkeep.keepsRequests {w w' : World} (h : w.OnlyUpkeep w') :
    w.KeepsRequests w' where
  listPubWaitAck := by rw [h.client]
  eventHandle := by rw [h.client]
  outcomes := h.outcomes
  store := by rw [World.store, h.client, h.heap, World.store]

theorem World.OnlySends.onlyUpkeep {w w' : World} (h : w.OnlySends w') : w.OnlyUpkeep w' where
  client := by rw [h.client]
  heap := h.heap
  outcomes := by rw [World.outcomes, h.trace, World.outcomes]

theorem sendMqttPacket_onlyUpkeep (length : Nat) (timer : Timer) :
    Prog.Within World.OnlyUpkeep (sendMqttPacket length timer) :=
  (sendMqttPacket_onlySends length timer).mono fun _ _ h => h.onlyUpkeep

theorem now_onlyUpkeep : Prog.Within World.OnlyUpkeep now := fun w => w.onlySends_tick.onlyUpkeep

theorem expired_onlyUpkeep (timer : Timer) : Prog.Within World.OnlyUpkeep (expired timer) :=
  .bind now_onlyUpkeep fun _ => .pure _

theorem countdownMs_onlyUpkeep (timeoutMs : Nat) :
    Prog.Within World.OnlyUpkeep (countdownMs timeoutMs) :=
  .bind now_onlyUpkeep fun _ => .pure _

theorem countdown_onlyUpkeep (timeout : Nat) : Prog.Within World.OnlyUpkeep (countdown timeout) :=
  .bind now_onlyUpkeep fun _ => .pure _

theorem notify_onlyUpkeep {type : MqttEventType} {msg : EventMsg}
    (silent : (Event.mqtt type msg).outcome = none) :
    Prog.Within World.OnlyUpkeep (notify type msg) := by
  refine .bind client_within fun c => .ite (.change fun w => ⟨rfl, rfl, ?_⟩) (.pure _)
  rw [World.called_outcomes, List.filterMap_cons_none silent, List.filterMap_nil, List.append_nil]

theorem qcloudIotMqttDisconnect_onlyUpkeep :
    Prog.Within World.OnlyUpkeep qcloudIotMqttDisconnect := by
  refine .bind (fun w => refl_of _ w) fun _ => .ite (.pure _) (.bind client_within fun c => ?_)
  cases serializePacketWithZeroPayload c.writeBufSize .disconnect with
  | error rc => exact .pure _
  | ok packet =>
    refine .bind (fun w => ⟨rfl, rfl, rfl⟩) fun _ => .bind (countdownMs_onlyUpkeep _) fun timer => ?_
    refine .bind (sendMqttPacket_onlyUpkeep _ _) fun rc => .ite (.pure _) ?_
    refine .bind (fun w => ⟨rfl, rfl, rfl⟩) fun _ => .bind (fun w => ⟨rfl, rfl, rfl⟩) fun _ => ?_
    exact .bind (fun w => ⟨rfl, rfl, rfl⟩) fun _ => .pure _

theorem handleDisconnect_onlyUpkeep : Prog.Within World.OnlyUpkeep handleDisconnect := by
  refine .bind (fun w => refl_of _ w) fun _ => .ite (.pure _) ?_
  refine .bind qcloudIotMqttDisconnect_onlyUpkeep fun rc => .bind (.ite ?_ (.pure _)) fun _ => ?_
  · exact .bind (fun w => ⟨rfl, rfl, rfl⟩) fun _ => fun w => ⟨rfl, rfl, rfl⟩
  · refine .bind (notify_onlyUpkeep rfl) fun _ => ?_
    exact .bind (fun w => ⟨rfl, rfl, rfl⟩) fun _ => .pure _

theorem mqttKeepAlive_onlyUpkeep : Prog.Within World.OnlyUpkeep mqttKeepAlive := by
  have ping : ∀ length retries, Prog.Within World.OnlyUpkeep (sendPing length retries) := by
    intro length retries
    induction retries with
    | zero =>
      refine .bind client_within fun c => .bind (countdownMs_onlyUpkeep _) fun timer => ?_
      exact sendMqttPacket_onlyUpkeep _ _
    | succ retries ih =>
      refine .bind client_within fun c => .bind (countdownMs_onlyUpkeep _) fun timer => ?_
      exact .bind (sendMqttPacket_onlyUpkeep _ _) fun rc => .ite ih (.pure _)
  refine .bind client_within fun c => .ite (.pure _) (.bind (expired_onlyUpkeep _) fun _ => ?_)
  refine .ite (.pure _) (.ite handleDisconnect_onlyUpkeep ?_)
  cases serializePacketWithZeroPayload c.writeBufSize .pingreq with
  | error rc => exact .pure _
  | ok packet =>
    refine .bind (fun w => ⟨rfl, rfl, rfl⟩) fun _ => .bind (ping _ _) fun rc => ?_
    refine .ite handleDisconnect_onlyUpkeep (.bind (countdown_onlyUpkeep _) fun pingTimer => ?_)
    exact .bind (fun w => ⟨rfl, rfl, rfl⟩) fun _ => .pure _

theorem afterRead_onlyUpkeep (rc : Int) : Prog.Within World.OnlyUpkeep (afterRead rc) := by
  refine .ite (.bind (fun w => ⟨rfl, rfl, rfl⟩) fun _ => .bind client_within fun c => ?_) (.pure _)
  refine .ite (.bind (.bind (fun w => ⟨rfl, rfl, rfl⟩) fun _ => .pure _) fun interval => ?_)
    (.pure _)
  refine .bind (countdownMs_onlyUpkeep _) fun timer => ?_
  exact .bind (fun w => ⟨rfl, rfl, rfl⟩) fun _ => .pure _

theorem serializeConnect_onlyUpkeep : Prog.Within World.OnlyUpkeep serializeConnect := by
  refine .bind client_within fun c => .ite (.pure _) (.bind (fun w => ⟨rfl, rfl, rfl⟩) fun _ => ?_)
  refine .ite (.pure _) (.bind (fun w => ⟨rfl, rfl, rfl⟩) fun credentials => ?_)
  refine .bind (.ite (.pure _) fun w => ⟨rfl, rfl, rfl⟩) fun _ => .ite (.pure _) (.pure _)

theorem sendConnect_onlyUpkeep (options : ConnectParams) :
    Prog.Within World.OnlyUpkeep (sendConnect options) := by
  refine .bind client_within fun c => .bind (countdownMs_onlyUpkeep _) fun connectTimer => ?_
  refine .bind (fun w => ⟨rfl, rfl, rfl⟩) fun _ => .bind (fun w => ⟨rfl, rfl, rfl⟩) fun rc => ?_
  refine .ite (.pure _) (.bind serializeConnect_onlyUpkeep fun serialized => ?_)
  cases serialized with
  | error rc => exact .pure _
  | ok packet =>
    refine .bind (fun w => ⟨rfl, rfl, rfl⟩) fun _ => ?_
    exact .bind (sendMqttPacket_onlyUpkeep _ _) fun rc => .ite (.pure _) (.pure _)

theorem readConnack_onlyUpkeep : Prog.Within World.OnlyUpkeep readConnack := by
  refine .bind client_within fun c => ?_
  cases deserializeConnackPacket c.readBuf with
  | error rc => exact .pure _
  | ok connackRc =>
    refine .ite (.pure _) (.bind ?_ fun _ => .pure _)
    refine .bind (fun w => ⟨rfl, rfl, rfl⟩) fun _ => .bind client_within fun c => ?_
    exact .bind (countdown_onlyUpkeep _) fun pingTimer => fun w => ⟨rfl, rfl, rfl⟩

theorem postponeReconnect_onlyUpkeep : Prog.Within World.OnlyUpkeep postponeReconnect := by
  refine .bind (fun w => ⟨rfl, rfl, rfl⟩) fun _ => .bind client_within fun c => .ite (.pure _) ?_
  refine .bind (countdownMs_onlyUpkeep _) fun timer => ?_
  exact .bind (fun w => ⟨rfl, rfl, rfl⟩) fun _ => .pure _

theorem upkeep_onlyUpkeep (piece : Upkeep) : Prog.Within World.OnlyUpkeep piece.prog := by
  cases piece with
  | now => exact .bind now_onlyUpkeep fun _ => .pure _
  | keepAlive => exact .bind mqttKeepAlive_onlyUpkeep fun _ => .pure _
  | handleDisconnect => exact .bind handleDisconnect_onlyUpkeep fun _ => .pure _
  | disconnect => exact .bind qcloudIotMqttDisconnect_onlyUpkeep fun _ => .pure _
  | afterRead rc => exact .bind (afterRead_onlyUpkeep rc) fun _ => .pure _
  | sendConnect options => exact .bind (sendConnect_onlyUpkeep options) fun _ => .pure _
  | readConnack => exact .bind readConnack_onlyUpkeep fun _ => .pure _
  | networkDisconnect => exact fun w => ⟨rfl, rfl, rfl⟩
  | notifyReconnect => exact notify_onlyUpkeep rfl
  | postponeReconnect => exact .bind postponeReconnect_onlyUpkeep fun _ => .pure _

end QcloudIot.Mqtt
