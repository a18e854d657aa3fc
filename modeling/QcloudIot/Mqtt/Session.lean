import QcloudIot.Misc.Run
import QcloudIot.Mqtt.Yield

/-!
# Sessions

What the application and the main loop do with a client, one call at a time. A session is a
run of the machine `session` from a world whose surroundings are arbitrary: they decide what
the peer sends, how every read and write ends, which allocations fail and when a timer runs
out. Every function of the API is such a run (`qcloudIotMqttYield_leads` and the lemmas
before it), so what holds of every session holds whatever the application calls.
`World.inbound` looks ahead at the acknowledgement that the next `cycle_for_read` is going to
read.
-/

namespace QcloudIot.Mqtt

/-! ## The machine -/

/-- What the SDK does by itself between two packets and two requests, in the pieces in which
    the source does it. -/
inductive Upkeep where
  /-- a reading of the clock -/
  | now
  /-- `_mqtt_keep_alive` -/
  | keepAlive
  /-- `_handle_disconnect` -/
  | handleDisconnect
  /-- `qcloud_iot_mqtt_disconnect` -/
  | disconnect
  /-- the end of a round of the main loop, after the return code `rc` -/
  | afterRead (rc : Int)
  /-- `_mqtt_connect` up to the CONNECT packet -/
  | sendConnect (options : ConnectParams)
  /-- `_mqtt_connect` from the CONNACK on -/
  | readConnack
  /-- `network_stack.disconnect` after a CONNECT that failed -/
  | networkDisconnect
  /-- the event of a reconnect -/
  | notifyReconnect
  /-- `_handle_reconnect` after an attempt that failed -/
  | postponeReconnect
  deriving DecidableEq, Repr

/-- The function of a piece of upkeep. -/
def Upkeep.prog : Upkeep → Sdk Unit
  | .now => do let _ ← Mqtt.now
  | .keepAlive => do let _ ← mqttKeepAlive
  | .handleDisconnect => do let _ ← Mqtt.handleDisconnect
  | .disconnect => do let _ ← qcloudIotMqttDisconnect
  | .afterRead rc => do let _ ← Mqtt.afterRead rc
  | .sendConnect options => do let _ ← Mqtt.sendConnect options
  | .readConnack => do let _ ← Mqtt.readConnack
  | .networkDisconnect => Mqtt.networkDisconnect
  | .notifyReconnect => notify .reconnect .null
  | .postponeReconnect => do let _ ← Mqtt.postponeReconnect

/-- A request of the application, a packet, a sweep or a piece of upkeep. -/
inductive Call where
  | publish (topicName : CStr) (params : PublishParams)
  | subscribe (topicFilter : CStr) (params : SubscribeParams)
  | unsubscribe (topicFilter : CStr)
  | cycleForRead (timer : Timer)
  | pubInfoProc
  | subInfoProc
  | upkeep (piece : Upkeep)
  deriving DecidableEq, Repr

/-- The function that is called and its return code; a `void` function has none. -/
def Call.prog : Call → Sdk Int
  | .publish topicName params => qcloudIotMqttPublish topicName params
  | .subscribe topicFilter params => qcloudIotMqttSubscribe topicFilter params
  | .unsubscribe topicFilter => qcloudIotMqttUnsubscribe topicFilter
  | .cycleForRead timer => do
    let (rc, _, _) ← Mqtt.cycleForRead timer
    return rc
  | .pubInfoProc => do
    qcloudIotMqttPubInfoProc
    return qcloudRetSuccess
  | .subInfoProc => do
    qcloudIotMqttSubInfoProc
    return qcloudRetSuccess
  | .upkeep piece => do
    piece.prog
    return qcloudRetSuccess

/-- The world after a call. -/
def World.after (w : World) (call : Call) : World := (call.prog.run w).2

/-- The return code of a call. -/
def World.returns (w : World) (call : Call) : Int := (call.prog.run w).1

/-- A client at work. -/
def session : Machine World Call := ⟨World.after⟩

@[simp] theorem session_step (w : World) (call : Call) : session.step w call = w.after call := rfl

/-- A client for which nothing has been requested yet. -/
structure World.Fresh (w : World) : Prop where
  listPubWaitAck : w.client.listPubWaitAck = []
  listSubWaitAck : w.client.listSubWaitAck = []
  subHandles : ∀ i, (w.client.subHandles i).topicFilter = none
  repeatPacketIdBuf : w.client.repeatPacketIdBuf = fun _ => 0
  released : w.heap.released = []

/-- A client is fresh once it is initialised, whatever its connection is. -/
theorem qcloudIotMqttInit_fresh (params : MqttInitParams) (random : Nat) (env : Env) (net : Net)
    (connected : Bool) :
    World.Fresh { World.initial { qcloudIotMqttInit params random with isConnected := connected }
      env with net := net } :=
  ⟨rfl, rfl, fun _ => rfl, rfl, rfl⟩

/-! ## The functions of the API -/

/-- Some session leads from `w` to `w'`. -/
def World.Leads (w w' : World) : Prop := ∃ calls, w' = session.exec w calls

instance : Std.Refl World.Leads := ⟨fun _ => ⟨[], rfl⟩⟩

instance : IsTrans World World.Leads where
  trans := by
    rintro a _ _ ⟨first, rfl⟩ ⟨second, rfl⟩
    exact ⟨first ++ second, (session.exec_append a first second).symm⟩

theorem upkeep_leads (piece : Upkeep) : Prog.Within World.Leads piece.prog :=
  fun _ => ⟨[.upkeep piece], rfl⟩

theorem now_leads : Prog.Within World.Leads now := upkeep_leads .now

theorem expired_leads (timer : Timer) : Prog.Within World.Leads (expired timer) :=
  .bind now_leads fun _ => .pure _

theorem countdownMs_leads (timeoutMs : Nat) : Prog.Within World.Leads (countdownMs timeoutMs) :=
  .bind now_leads fun _ => .pure _

theorem cycleForRead_leads (timer : Timer) : Prog.Within World.Leads (cycleForRead timer) :=
  fun _ => ⟨[.cycleForRead timer], rfl⟩

theorem waitForRead_leads (packetType : UInt8) (timer : Timer) :
    Prog.Within World.Leads (waitForRead packetType timer) := by
  have loop : ∀ fuel timer, Prog.Within World.Leads (waitLoop packetType fuel timer) := by
    intro fuel
    induction fuel with
    | zero => exact fun _ => .pure _
    | succ fuel ih =>
      intro timer
      refine .bind (expired_leads timer) fun _ => .ite (.pure _) ?_
      exact .bind (cycleForRead_leads timer) fun _ => .ite (ih _) (.pure _)
  exact .bind (.prim fun w => refl_of _ w) fun _ => loop _ _

theorem qcloudIotMqttConnect_leads (params : ConnectParams) :
    Prog.Within World.Leads (qcloudIotMqttConnect params) := by
  have connect : Prog.Within World.Leads (mqttConnect params) := by
    refine .bind (upkeep_leads (.sendConnect params)) fun sent => ?_
    cases sent with
    | error rc => exact .pure _
    | ok connectTimer =>
      refine .bind (waitForRead_leads _ _) fun _ => .ite (.pure _) ?_
      exact upkeep_leads .readConnack
  refine .bind (fun w => refl_of _ w) fun _ => .ite (.pure _) (.bind connect fun _ => ?_)
  exact .ite (.bind (upkeep_leads .networkDisconnect) fun _ => .pure _) (.pure _)

theorem qcloudIotMqttResubscribe_leads : Prog.Within World.Leads qcloudIotMqttResubscribe := by
  have loop : ∀ slots, Prog.Within World.Leads (resubscribeLoop slots) := by
    intro slots
    induction slots with
    | nil => exact .pure _
    | cons itr rest ih =>
      refine .bind client_within fun c => ?_
      cases (c.subHandles itr).topicFilter with
      | none => exact ih
      | some topic =>
        refine .bind (fun w => ⟨[.subscribe topic.text (c.subHandles itr).params], rfl⟩) fun _ => ?_
        exact .ite (.pure _) ih
  exact .bind (fun w => refl_of _ w) fun _ => .ite (.pure _) (loop _)

theorem handleReconnect_leads : Prog.Within World.Leads handleReconnect := by
  have attempt : Prog.Within World.Leads qcloudIotMqttAttemptReconnect := by
    refine .bind (fun w => refl_of _ w) fun _ => .ite (.pure _) (.bind client_within fun c => ?_)
    refine .bind (qcloudIotMqttConnect_leads _) fun _ => .bind (fun w => refl_of _ w) fun _ => ?_
    refine .ite (.pure _) (.bind qcloudIotMqttResubscribe_leads fun _ => ?_)
    exact .ite (.pure _) (.pure _)
  refine .bind client_within fun c => .bind (expired_leads _) fun _ => .ite (.pure _) ?_
  refine .bind attempt fun _ => .ite ?_ (upkeep_leads .postponeReconnect)
  exact .bind (upkeep_leads .notifyReconnect) fun _ => .pure _

theorem yieldRound_leads (rc : Int) (timer : Timer) :
    Prog.Within World.Leads (yieldRound rc timer) := by
  have read : Prog.Within World.Leads (readRound timer) := by
    refine .bind (cycleForRead_leads timer) fun _ => .ite ?_ (.ite ?_ (.pure _))
    · refine .bind (fun w => ⟨[.pubInfoProc], rfl⟩) fun _ => ?_
      refine .bind (fun w => ⟨[.subInfoProc], rfl⟩) fun _ => ?_
      exact .bind (upkeep_leads .keepAlive) fun _ => .pure _
    · exact .bind (upkeep_leads .handleDisconnect) fun _ => .pure _
  refine .bind (expired_leads timer) fun _ => .ite (.pure _) (.bind (fun w => refl_of _ w) fun _ => ?_)
  refine .ite (.bind client_within fun c => .ite (.pure _) ?_) ?_
  · exact .bind handleReconnect_leads fun _ => .pure _
  · exact .bind read fun _ => .bind (upkeep_leads (.afterRead _)) fun _ => .pure _

/-- A yield is a session. -/
theorem qcloudIotMqttYield_leads (fuel timeoutMs : Nat) :
    Prog.Within World.Leads (qcloudIotMqttYield fuel timeoutMs) := by
  have loop : ∀ fuel rc timer, Prog.Within World.Leads (yieldLoop fuel rc timer) := by
    intro fuel
    induction fuel with
    | zero => exact fun _ _ => .pure _
    | succ fuel ih =>
      exact fun rc timer => .bind (yieldRound_leads rc timer) fun _ => .ite (ih _ _) (.pure _)
  refine .ite (.pure _) (.bind client_within fun c => .ite (.pure _) (.ite (.pure _) ?_))
  exact .bind (countdownMs_leads _) fun _ => loop _ _ _

/-! ## What is about to be read -/

/-- An acknowledgement as its handler reads it. -/
inductive Ack where
  | puback (packetId : UInt16)
  | suback (packetId : UInt16) (grantedQoS : List UInt8)
  | unsuback (packetId : UInt16)
  deriving DecidableEq, Repr

/-- The acknowledgement found in `read_buf` by the handler of a packet type. -/
def ackIn (packetType : UInt8) (readBuf : List UInt8) : Option Ack :=
  if packetType = MessageType.puback.code then
    match deserializeAckPacket readBuf with
    | .ok (_, packetId) => some (.puback packetId)
    | .error _ => none
  else if packetType = MessageType.suback.code then
    match deserializeSubackPacket 1 readBuf with
    | .ok (packetId, grantedQoS) => some (.suback packetId grantedQoS)
    | .error _ => none
  else if packetType = MessageType.unsuback.code then
    match deserializeUnsubackPacket readBuf with
    | .ok packetId => some (.unsuback packetId)
    | .error _ => none
  else none

/-- The packet that `cycle_for_read` is going to handle: its type and the `read_buf` it is
    in. -/
def World.reading (w : World) : Option (UInt8 × List UInt8) :=
  let ((rc, packetType), w') := readMqttPacket.run w
  if rc = qcloudErrMqttNothingToRead then none
  else packetType.map fun packetType => (packetType, w'.client.readBuf)

/-- The acknowledgement that `cycle_for_read` is going to handle. -/
def World.inbound (w : World) : Option Ack :=
  match w.reading with
  | none => none
  | some (packetType, readBuf) => ackIn packetType readBuf

/-- A PUBLISH as its handler reads it: the message, and the topic as `_deliver_message`
    compares it. -/
structure Arrival where
  message : MqttMessage
  topicName : List UInt8
  deriving DecidableEq, Repr

/-- The message as `_deliver_message` completes it. -/
def Arrival.of (msg : MqttMessage) (topicName : List UInt8) (topicLen : Nat) : Arrival where
  message := { msg with ptopic := topicName.take topicLen, topicLen := topicLen }
  topicName := topicName

/-- The PUBLISH found in `read_buf` by the handler of a packet type. -/
def arrivalIn (packetType : UInt8) (readBuf : List UInt8) : Option Arrival :=
  if packetType = MessageType.publish.code then
    match deserializePublishPacket readBuf 0 with
    | .error _ => none
    | .ok (msg, topicName, topicLen) =>
      let (fixTopic, topicLen) := fixTopic readBuf topicName topicLen
      some (.of msg fixTopic topicLen)
  else none

/-- The PUBLISH that `cycle_for_read` is going to handle. -/
def World.arriving (w : World) : Option Arrival :=
  match w.reading with
  | none => none
  | some (packetType, readBuf) => arrivalIn packetType readBuf

/-! ## The worlds of a session -/

/-- The world before call number `n` of a session. -/
def World.at (w : World) (calls : List Call) (n : Nat) : World := session.exec w (calls.take n)

theorem World.at_length (w : World) (calls : List Call) :
    w.at calls calls.length = session.exec w calls := by
  rw [World.at, List.take_length]

theorem World.at_concat {w : World} {calls : List Call} {n : Nat} (old : n ≤ calls.length)
    (call : Call) : w.at (calls ++ [call]) n = w.at calls n := by
  rw [World.at, List.take_append_of_le_length old, World.at]

/-- The world after call number `k`. -/
theorem World.at_succ {w : World} {calls : List Call} {k : Nat} {call : Call}
    (found : calls[k]? = some call) : w.at calls (k + 1) = (w.at calls k).after call := by
  rw [World.at, List.take_add_one, found, Option.toList_some, Machine.exec_concat, session_step,
    World.at]

end QcloudIot.Mqtt
