import QcloudIot.Misc.Ring
import QcloudIot.Mqtt.Proofs.Sessions

/-!
# Which messages are handed on

A PUBLISH with QoS1 or QoS2 is handed to the application unless its packet id is in
`repeat_packet_id_buf`. That buffer is a ring of the last ten packet ids recorded, whatever
the DUP flag of the packets was and whichever connection they came in on, so it is the
history of all arrivals that decides (`recentIds`).
-/

namespace QcloudIot.Mqtt

/-! ## The history of arrivals -/

/-- The packet id that a call records, if it reads a PUBLISH that has one. -/
def World.arrivedIds (w : World) : Call → List UInt16
  | .cycleForRead _ =>
    match w.arriving with
    | some arrival => if arrival.message.qos = QoS.qos0.code then [] else [arrival.message.id]
    | none => []
  | _ => []

/-- The packet ids of the PUBLISHes with QoS1 or QoS2 that a session has read. -/
def arrivalHistory (w : World) : List Call → List UInt16
  | [] => []
  | call :: calls => w.arrivedIds call ++ arrivalHistory (w.after call) calls

theorem arrivalHistory_concat (w : World) (calls : List Call) (call : Call) :
    arrivalHistory w (calls ++ [call]) =
      arrivalHistory w calls ++ (session.exec w calls).arrivedIds call := by
  induction calls generalizing w with
  | nil => simp [arrivalHistory]
  | cons first calls ih =>
    rw [List.cons_append, arrivalHistory, ih, arrivalHistory, Machine.exec_cons, session_step,
      List.append_assoc]

/-- The ids recorded last, oldest first, after one more arrival: an id among them is not
    recorded again, unless it is 0. -/
def remember (recent : List UInt16) (packetId : UInt16) : List UInt16 :=
  if packetId ∈ recent ∧ packetId ≠ 0 then recent else recent.tail ++ [packetId]

/-- The ten ids recorded last in a history. -/
def recentIds (history : List UInt16) : List UInt16 :=
  history.foldl remember (List.replicate mqttMaxRepeatBufLen 0)

theorem recentIds_concat (history : List UInt16) (packetId : UInt16) :
    recentIds (history ++ [packetId]) = remember (recentIds history) packetId := by
  rw [recentIds, List.foldl_append, List.foldl_cons, List.foldl_nil, recentIds]

/-! ## Handing a message on -/

/-- What the entry of a table makes of an arrival. -/
def SubTopicHandle.offer (arrival : Arrival) (h : SubTopicHandle) : Option Event :=
  if handleMatches arrival.topicName arrival.message.topicLen h then
    h.messageHandler.map fun fn => .message fn arrival.message h.handlerUserData
  else none

/-- The callback that an arrival leads to: the message handler of the first matching entry
    that has one, or else the event, if there is a callback for it. -/
def Client.delivery (c : Client) (arrival : Arrival) : List Event :=
  match (List.finRange maxMessageHandlers).findSome? fun i => (c.subHandles i).offer arrival with
  | some event => [event]
  | none => c.notifications .publishRecveived (.message arrival.message)

theorem deliverLoop_spec (arrival : Arrival) (slots : List (Fin maxMessageHandlers)) (w : World) :
    (deliverLoop arrival.topicName arrival.message.topicLen arrival.message slots).wp
      (fun delivered w' =>
        match slots.findSome? fun i => (w.client.subHandles i).offer arrival with
        | some event => delivered = true ∧ w' = w.called [event]
        | none => delivered = false ∧ w' = w) w := by
  induction slots with
  | nil => exact ⟨rfl, rfl⟩
  | cons i rest ih =>
    rw [deliverLoop]
    simp only [Prog.wp_bind, wp_client, Prog.wp_ite]
    refine ⟨fun matching => ?_, fun other => ?_⟩
    · cases handler : (w.client.subHandles i).messageHandler with
      | some fn =>
        simp only [Prog.wp_bind, wp_emit, Prog.wp_pure, List.findSome?_cons, SubTopicHandle.offer,
          matching, if_true, handler, Option.map_some]
        exact ⟨trivial, trivial⟩
      | none =>
        simp only [List.findSome?_cons, SubTopicHandle.offer, matching, if_true, handler,
          Option.map_none]
        exact ih
    · simp only [List.findSome?_cons, SubTopicHandle.offer, other]
      exact ih

theorem deliverMessage_spec (topicName : List UInt8) (topicLen : Nat) (msg : MqttMessage)
    (w : World) :
    (deliverMessage topicName topicLen msg).wp (fun rc w' =>
      rc = qcloudRetSuccess ∧ w' = w.called (w.client.delivery (.of msg topicName topicLen))) w := by
  rw [deliverMessage, Prog.wp_bind]
  refine Prog.wp_mono (deliverLoop_spec (.of msg topicName topicLen) _ w) ?_
  intro delivered w' outcome
  rw [Client.delivery]
  cases found : (List.finRange maxMessageHandlers).findSome? fun i =>
      (w.client.subHandles i).offer (.of msg topicName topicLen) with
  | some event =>
    rw [found] at outcome
    obtain ⟨rfl, rfl⟩ := outcome
    exact ⟨rfl, rfl⟩
  | none =>
    rw [found] at outcome
    obtain ⟨rfl, rfl⟩ := outcome
    simp only [Prog.wp_ite, Prog.wp_bind, wp_notify, Prog.wp_pure]
    exact ⟨fun h => absurd h (by decide), fun _ => ⟨trivial, rfl⟩⟩

/-! ## What leaves the ring alone -/

/-- The packet ids recorded do not change from `w` to `w'`. -/
structure World.KeepsReceived (w w' : World) : Prop where
  repeatPacketIdBuf : w'.client.repeatPacketIdBuf = w.client.repeatPacketIdBuf
  currentPacketIdCnt : w'.client.currentPacketIdCnt = w.client.currentPacketIdCnt

/-- Nothing is handed on and no packet id is recorded from `w` to `w'`. -/
structure World.KeepsQuiet (w w' : World) : Prop extends w.KeepsReceived w' where
  trace : w'.trace = w.trace

instance : Std.Refl World.KeepsReceived := ⟨fun _ => ⟨rfl, rfl⟩⟩

instance : IsTrans World World.KeepsReceived where
  trans _ _ _ first second :=
    ⟨second.repeatPacketIdBuf.trans first.repeatPacketIdBuf,
      second.currentPacketIdCnt.trans first.currentPacketIdCnt⟩

instance : Std.Refl World.KeepsQuiet := ⟨fun _ => ⟨⟨rfl, rfl⟩, rfl⟩⟩

instance : IsTrans World World.KeepsQuiet where
  trans _ _ _ first second :=
    ⟨trans_of World.KeepsReceived first.toKeepsReceived second.toKeepsReceived,
      second.trace.trans first.trace⟩

theorem World.OnlySends.keepsQuiet {w w' : World} (h : w.OnlySends w') : w.KeepsQuiet w' where
  repeatPacketIdBuf := by rw [h.client]
  currentPacketIdCnt := by rw [h.client]
  trace := h.trace

theorem World.OnlyReads.keepsQuiet {w w' : World} (h : w.OnlyReads w') : w.KeepsQuiet w' where
  repeatPacketIdBuf := by rw [h.client]
  currentPacketIdCnt := by rw [h.client]
  trace := h.trace

theorem World.OnlyUpkeep.keepsReceived {w w' : World} (h : w.OnlyUpkeep w') :
    w.KeepsReceived w' where
  repeatPacketIdBuf := by rw [h.client]
  currentPacketIdCnt := by rw [h.client]

theorem World.OnlyRequests.keepsReceived {w w' : World} (h : w.OnlyRequests w') :
    w.KeepsReceived w' where
  repeatPacketIdBuf := by rw [h.client]
  currentPacketIdCnt := by rw [h.client]

theorem sendPubAck_keepsQuiet (packetType : MessageType) (packetId : UInt16) (timer : Timer) :
    Prog.Within World.KeepsQuiet (sendPubAck packetType packetId timer) := by
  refine .bind client_within fun c => ?_
  cases serializePubAckPacket c.writeBufSize packetType 0 packetId with
  | error rc => exact .pure _
  | ok packet =>
    have ticked : Prog.Within World.KeepsQuiet now := fun w => w.onlySends_tick.keepsQuiet
    refine .bind (fun _ => ⟨⟨rfl, rfl⟩, rfl⟩) fun _ => .bind ?_ fun timer => ?_
    · refine .bind (.bind ticked fun _ => .pure _) fun _ => .ite ?_ (.pure _)
      exact .bind ticked fun _ => .pure _
    · refine .bind ?_ fun _ => .pure _
      exact (sendMqttPacket_onlySends _ timer).mono fun _ _ h => h.keepsQuiet

theorem notePacket_keepsQuiet (packetType : UInt8) :
    Prog.Within World.KeepsQuiet (notePacket packetType) := by
  refine .ite (.bind client_within fun c => ?_) (.ite (fun w => ⟨⟨rfl, rfl⟩, rfl⟩) (.pure _))
  refine .bind (.bind (fun w => w.onlySends_tick.keepsQuiet) fun _ => .pure _) fun _ => ?_
  exact fun _ => ⟨⟨rfl, rfl⟩, rfl⟩

theorem notify_keepsReceived (type : MqttEventType) (msg : EventMsg) :
    Prog.Within World.KeepsReceived (notify type msg) :=
  .bind client_within fun _ => .ite (fun _ => ⟨rfl, rfl⟩) (.pure _)

theorem notifySub_keepsReceived (handler : Option FnPtr) (type : MqttEventType) (userData : Ptr) :
    Prog.Within World.KeepsReceived (notifySub handler type userData) := by
  cases handler with
  | none => exact .pure _
  | some fn => exact fun w => ⟨rfl, rfl⟩

theorem halFree_keepsReceived (s : Option StoredFilter) :
    Prog.Within World.KeepsReceived (halFree s) := by
  cases s with
  | none => exact .pure _
  | some s => exact fun w => ⟨rfl, rfl⟩

theorem maskSubInfoFrom_keepsReceived (packetId : UInt16) (messageHandler : SubTopicHandle) :
    Prog.Within World.KeepsReceived (maskSubInfoFrom packetId messageHandler) := by
  refine .bind client_within fun c => .ite (.pure _) (.bind (fun w => ⟨rfl, rfl⟩) fun _ => ?_)
  exact .ite (.pure _) (.bind (fun w => ⟨rfl, rfl⟩) fun _ => .pure _)

theorem handlePubackPacket_keepsReceived :
    Prog.Within World.KeepsReceived handlePubackPacket := by
  refine .bind client_within fun c => ?_
  cases deserializeAckPacket c.readBuf with
  | error rc => exact .pure _
  | ok found =>
    refine .bind ?_ fun _ => .bind (notify_keepsReceived _ _) fun _ => .pure _
    refine .bind client_within fun c => .ite (.pure _) (.bind (fun w => ⟨rfl, rfl⟩) fun _ => ?_)
    exact .ite (.pure _) fun w => ⟨rfl, rfl⟩

theorem handleSubackPacket_keepsReceived :
    Prog.Within World.KeepsReceived handleSubackPacket := by
  refine .bind client_within fun c => ?_
  cases deserializeSubackPacket 1 c.readBuf with
  | error rc => exact .pure _
  | ok found =>
    refine .ite (.bind (fun w => ⟨rfl, rfl⟩) fun _ => ?_) ?_
    · refine .bind (maskSubInfoFrom_keepsReceived _ _) fun subHandle => .ite (.pure _) ?_
      refine .bind (notifySub_keepsReceived _ _ _) fun _ => ?_
      exact .bind (halFree_keepsReceived _) fun _ => .pure _
    · refine .bind (maskSubInfoFrom_keepsReceived _ _) fun subHandle => .ite (.pure _) ?_
      refine .bind (.bind client_within fun c => ?_) fun room => .ite (.pure _) ?_
      · cases subackScan c.subHandles subHandle (List.finRange maxMessageHandlers) none with
        | mk flagDup iFree =>
          cases flagDup with
          | some i =>
            refine .bind (fun w => ⟨rfl, rfl⟩) fun _ => ?_
            exact .bind (halFree_keepsReceived _) fun _ => .pure _
          | none =>
            cases iFree with
            | some iFree => exact .bind (fun w => ⟨rfl, rfl⟩) fun _ => .pure _
            | none => exact .pure _
      · refine .bind (notify_keepsReceived _ _) fun _ => ?_
        exact .bind (notifySub_keepsReceived _ _ _) fun _ => .pure _

theorem handleUnsubackPacket_keepsReceived :
    Prog.Within World.KeepsReceived handleUnsubackPacket := by
  refine .bind client_within fun c => ?_
  cases deserializeUnsubackPacket c.readBuf with
  | error rc => exact .pure _
  | ok packetId =>
    refine .bind (fun w => ⟨rfl, rfl⟩) fun junk => ?_
    refine .bind (maskSubInfoFrom_keepsReceived _ _) fun messageHandler => ?_
    refine .bind (halFree_keepsReceived _) fun _ => ?_
    exact .bind (notify_keepsReceived _ _) fun _ => .pure _

/-! ## The ring -/

/-- The packet ids in the ring, oldest first. -/
def Client.recorded (c : Client) : List UInt16 :=
  ringContents (n := 9) c.repeatPacketIdBuf c.currentPacketIdCnt

theorem World.KeepsReceived.recorded {w w' : World} (h : w.KeepsReceived w') :
    w'.client.recorded = w.client.recorded := by
  rw [Client.recorded, h.repeatPacketIdBuf, h.currentPacketIdCnt, Client.recorded]

theorem any_repeatPacketIdBuf (c : Client) (packetId : UInt16) :
    ((List.finRange mqttMaxRepeatBufLen).any fun i => packetId == c.repeatPacketIdBuf i) = true ↔
      packetId ∈ c.recorded := by
  rw [Client.recorded, mem_ringContents, List.any_eq_true]
  constructor
  · rintro ⟨i, -, same⟩
    exact ⟨i, (beq_iff_eq.mp same).symm⟩
  · rintro ⟨i, same⟩
    exact ⟨i, List.mem_finRange i, beq_iff_eq.mpr same.symm⟩

theorem getPacketIdInRepeatBuf_neg (c : Client) (packetId : UInt16) :
    getPacketIdInRepeatBuf c packetId < 0 ↔ packetId ∉ c.recorded := by
  rw [getPacketIdInRepeatBuf, ← any_repeatPacketIdBuf]
  split
  · rename_i found
    simp only [found, not_true_eq_false, iff_false]
    omega
  · rename_i missing
    exact iff_of_true (by decide) missing

theorem getPacketIdInRepeatBuf_pos (c : Client) (packetId : UInt16) :
    getPacketIdInRepeatBuf c packetId > 0 ↔ packetId ∈ c.recorded ∧ packetId ≠ 0 := by
  rw [getPacketIdInRepeatBuf, ← any_repeatPacketIdBuf]
  split
  · rename_i found
    have zero : packetId = 0 ↔ packetId.toNat = 0 := UInt16.toNat_inj.symm
    simp only [found, true_and, ne_eq, zero]
    omega
  · rename_i missing
    simp [missing]

theorem addPacketIdToRepeatBuf_spec (packetId : UInt16) (w : World) :
    (addPacketIdToRepeatBuf packetId).wp (fun _ w' => w'.trace = w.trace ∧
      w'.client.recorded = remember w.client.recorded packetId) w := by
  simp only [addPacketIdToRepeatBuf, Prog.wp_bind, wp_client, Prog.wp_ite, Prog.wp_pure,
    wp_setClient, getPacketIdInRepeatBuf_pos]
  refine ⟨fun known => ⟨trivial, ?_⟩, fun new => ⟨rfl, ?_⟩⟩
  · rw [remember, if_pos known]
  · rw [remember, if_neg new]
    exact ringContents_update (n := 9) _ _ _

/-! ## One packet -/

/-- A PUBLISH with QoS1 or QoS2 is read: it is handed on unless its packet id is in the ring,
    and its id is recorded. -/
structure World.Receives (w : World) (arrival : Arrival) (w' : World) : Prop where
  trace : w'.trace = w.trace ++
    if arrival.message.id ∈ w.client.recorded then [] else w.client.delivery arrival
  recorded : w'.client.recorded = remember w.client.recorded arrival.message.id

/-- What `cycle_for_read` does to the ring and, with QoS1 or QoS2, to the message. -/
def World.Takes (w : World) : Option Arrival → World → Prop
  | none, w' => w.KeepsReceived w'
  | some arrival, w' =>
    if arrival.message.qos = QoS.qos0.code then w.KeepsReceived w' else w.Receives arrival w'

theorem handlePublishPacket_takes (timer : Timer) (w : World) :
    (handlePublishPacket timer).wp (fun _ w' =>
      w.Takes (arrivalIn MessageType.publish.code w.client.readBuf) w') w := by
  rw [handlePublishPacket, Prog.wp_bind, wp_client, arrivalIn, if_pos rfl]
  cases deserializePublishPacket w.client.readBuf 0 with
  | error rc => exact refl_of World.KeepsReceived w
  | ok found =>
    obtain ⟨msg, topicName, topicLen⟩ := found
    simp only
    generalize fixTopic w.client.readBuf topicName topicLen = fixed
    obtain ⟨topic, length⟩ := fixed
    rw [Prog.wp_ite]
    refine ⟨fun qos0 => ?_, fun qos => ?_⟩
    · rw [Prog.wp_bind]
      refine Prog.wp_mono (deliverMessage_spec topic length msg w) ?_
      rintro rc w' ⟨-, rfl⟩
      rw [Prog.wp_pure, World.Takes, Arrival.of, if_pos qos0]
      exact ⟨rfl, rfl⟩
    · have delivered : (if getPacketIdInRepeatBuf w.client msg.id < 0 then
          deliverMessage topic length msg else pure qcloudRetSuccess).wp (fun rc w' =>
            rc = qcloudRetSuccess ∧ w' = w.called (if msg.id ∈ w.client.recorded then []
              else w.client.delivery (.of msg topic length))) w := by
        rw [Prog.wp_ite]
        refine ⟨fun new => ?_, fun known => ?_⟩
        · rw [if_neg ((getPacketIdInRepeatBuf_neg _ _).mp new)]
          exact deliverMessage_spec topic length msg w
        · rw [getPacketIdInRepeatBuf_neg, not_not] at known
          rw [Prog.wp_pure, if_pos known, World.called_nil]
          exact ⟨rfl, rfl⟩
      rw [Prog.wp_bind]
      refine Prog.wp_mono delivered ?_
      rintro rc u ⟨rfl, rfl⟩
      rw [Prog.wp_ite]
      refine ⟨fun failed => absurd rfl failed, fun _ => ?_⟩
      rw [Prog.wp_bind]
      refine Prog.wp_mono (addPacketIdToRepeatBuf_spec msg.id _) ?_
      rintro _ v ⟨trace, recorded⟩
      refine Prog.wp_mono (Prog.within_iff_wp.mp (sendPubAck_keepsQuiet _ _ _) v) ?_
      intro _ w' quiet
      rw [World.Takes, Arrival.of, if_neg qos]
      exact ⟨quiet.trace.trans trace, quiet.recorded.trans recorded⟩

theorem handlePacket_takes (packetType : UInt8) (timer : Timer) (w : World) :
    (handlePacket packetType timer).wp (fun _ w' =>
      w.Takes (arrivalIn packetType w.client.readBuf) w') w := by
  have other : packetType ≠ MessageType.publish.code →
      arrivalIn packetType w.client.readBuf = none := fun different => if_neg different
  have same : w.KeepsReceived w := refl_of World.KeepsReceived w
  by_cases publish : packetType = MessageType.publish.code
  · rw [publish]
    exact handlePublishPacket_takes timer w
  · rw [other publish]
    simp only [handlePacket, Prog.wp_ite, Prog.wp_bind, Prog.wp_pure]
    refine ⟨fun _ => same, fun _ => ⟨fun _ => handlePubackPacket_keepsReceived w, fun _ =>
      ⟨fun _ => handleSubackPacket_keepsReceived w, fun _ =>
        ⟨fun _ => handleUnsubackPacket_keepsReceived w, fun _ =>
          ⟨fun h => absurd h publish, fun _ => ⟨fun _ => ?_, fun _ => ⟨fun _ => same, fun _ =>
            ⟨fun _ => same, fun _ => ⟨fun _ => same, fun _ => same⟩⟩⟩⟩⟩⟩⟩⟩⟩
    have pubrec : Prog.Within World.KeepsReceived (handlePubrecPacket timer) := by
      refine .bind client_within fun c => ?_
      cases deserializeAckPacket c.readBuf with
      | error rc => exact .pure _
      | ok found =>
        exact (sendPubAck_keepsQuiet _ _ _).mono fun _ _ h => h.toKeepsReceived
    exact pubrec w

theorem World.Takes.of_quiet {w u v w' : World} {arrival : Option Arrival} (before : w.KeepsQuiet u)
    (client : u.client.delivery = w.client.delivery) (takes : u.Takes arrival v)
    (after : v.KeepsQuiet w') : w.Takes arrival w' := by
  have kept : u.KeepsReceived v → w.KeepsReceived w' := fun between =>
    trans_of World.KeepsReceived (trans_of World.KeepsReceived before.toKeepsReceived between)
      after.toKeepsReceived
  cases arrival with
  | none => exact kept takes
  | some arrival =>
    by_cases qos0 : arrival.message.qos = QoS.qos0.code
    · rw [World.Takes, if_pos qos0] at takes ⊢
      exact kept takes
    · rw [World.Takes, if_neg qos0] at takes ⊢
      refine ⟨?_, ?_⟩
      · rw [after.trace, takes.trace, before.trace, before.recorded, client]
      · rw [after.recorded, takes.recorded, before.recorded]

/-- A `cycle_for_read` hands on and records the PUBLISH it reads. -/
theorem cycleForRead_takes (timer : Timer) (w : World) :
    (cycleForRead timer).wp (fun _ w' => w.Takes w.arriving w') w := by
  rw [cycleForRead, Prog.wp_bind]
  refine Prog.wp_mono (Prog.wp_run (Prog.within_iff_wp.mp readMqttPacket_onlyReads w)) ?_
  rintro ⟨rc, packetType⟩ u ⟨ran, reads⟩
  have quiet := reads.keepsQuiet
  rw [World.arriving, World.reading, ran]
  simp only [Prog.wp_ite, Prog.wp_pure]
  refine ⟨fun nothing => ?_, fun something => ?_⟩
  · rw [if_pos nothing]
    exact quiet.toKeepsReceived
  · rw [if_neg something]
    cases packetType with
    | none => exact quiet.toKeepsReceived
    | some packetType =>
      have client : u.client.delivery = w.client.delivery := by
        funext arrival
        rw [reads.client]
        rfl
      simp only [Prog.wp_bind]
      refine Prog.wp_mono (handlePacket_takes packetType timer u) ?_
      rintro ⟨rc, timer⟩ v takes
      exact takes.of_quiet quiet client (notePacket_keepsQuiet packetType v)

/-! ## Sessions -/

theorem qcloudIotMqttPubInfoProc_keepsReceived :
    Prog.Within World.KeepsReceived qcloudIotMqttPubInfoProc := by
  have loop : ∀ isConnected nodes,
      Prog.Within World.KeepsReceived (pubInfoLoop isConnected nodes) := by
    intro isConnected nodes
    induction nodes with
    | nil => exact .pure _
    | cons node towardsTail ih =>
      refine .bind ih fun rest => .ite (.pure _) (.ite (.pure _) ?_)
      refine .bind (.bind (fun _ => ⟨rfl, rfl⟩) fun _ => .pure _) fun _ => .ite (.pure _) ?_
      refine .bind (fun _ => ⟨rfl, rfl⟩) fun _ => ?_
      exact .bind (notify_keepsReceived _ _) fun _ => .pure _
  refine .bind client_within fun c => .ite (.pure _) (.bind (fun _ => ⟨rfl, rfl⟩) fun _ => ?_)
  exact .ite (.pure _) (.bind (loop _ _) fun _ => fun _ => ⟨rfl, rfl⟩)

theorem qcloudIotMqttSubInfoProc_keepsReceived :
    Prog.Within World.KeepsReceived qcloudIotMqttSubInfoProc := by
  have told : ∀ node, Prog.Within World.KeepsReceived (notifySubTimeout node) := by
    intro node
    refine .bind client_within fun c => .ite (.pure _) (.ite ?_ (notify_keepsReceived _ _))
    exact .bind (notifySub_keepsReceived _ _ _) fun _ => notify_keepsReceived _ _
  have loop : ∀ isConnected nodes,
      Prog.Within World.KeepsReceived (subInfoLoop isConnected nodes) := by
    intro isConnected nodes
    induction nodes with
    | nil => exact .pure _
    | cons node towardsTail ih =>
      refine .bind ih fun rest => .ite (.pure _) (.ite (.pure _) ?_)
      refine .bind (.bind (fun _ => ⟨rfl, rfl⟩) fun _ => .pure _) fun _ => .ite (.pure _) ?_
      exact .bind (told node) fun _ => .bind (halFree_keepsReceived _) fun _ => .pure _
  refine .bind client_within fun c => .ite (.pure _) (.bind (fun _ => ⟨rfl, rfl⟩) fun _ => ?_)
  exact .ite (.pure _) (.bind (loop _ _) fun _ => fun _ => ⟨rfl, rfl⟩)

/-- One call records the packet id of the PUBLISH it reads, if it reads one. -/
theorem recorded_step (w : World) (call : Call) :
    (w.after call).client.recorded = (w.arrivedIds call).foldl remember w.client.recorded := by
  cases call with
  | publish topicName params =>
    exact (qcloudIotMqttPublish_onlyRequests topicName params w).keepsReceived.recorded
  | subscribe topicFilter params =>
    exact (qcloudIotMqttSubscribe_onlyRequests topicFilter params w).keepsReceived.recorded
  | unsubscribe topicFilter =>
    have only := (qcloudIotMqttUnsubscribe_spec topicFilter w).1
    refine only.keepsReceived.recorded.trans ?_
    rw [World.afterClearing]
    split <;> rfl
  | cycleForRead timer =>
    have takes := cycleForRead_takes timer w
    rw [Prog.wp] at takes
    rw [World.arrivedIds]
    cases arriving : w.arriving with
    | none =>
      rw [arriving] at takes
      exact World.KeepsReceived.recorded takes
    | some arrival =>
      rw [arriving, World.Takes] at takes
      by_cases qos0 : arrival.message.qos = QoS.qos0.code
      · rw [if_pos qos0] at takes
        simp only [if_pos qos0, List.foldl_nil]
        exact takes.recorded
      · rw [if_neg qos0] at takes
        simp only [if_neg qos0, List.foldl_cons, List.foldl_nil]
        exact takes.recorded
  | pubInfoProc => exact (qcloudIotMqttPubInfoProc_keepsReceived w).recorded
  | subInfoProc => exact (qcloudIotMqttSubInfoProc_keepsReceived w).recorded
  | upkeep piece => exact (upkeep_onlyUpkeep piece w).keepsReceived.recorded

/-- The calls of a session record the packet ids of the PUBLISHes they read. -/
theorem recorded_exec (w : World) (calls : List Call) :
    (session.exec w calls).client.recorded =
      (arrivalHistory w calls).foldl remember w.client.recorded := by
  induction calls using List.reverseRecOn with
  | nil => rfl
  | append_singleton calls call ih =>
    rw [Machine.exec_concat, session_step, recorded_step, ih, arrivalHistory_concat,
      List.foldl_append]

/-- The ring holds the ten packet ids recorded last. -/
theorem recorded_run {w : World} (empty : w.client.repeatPacketIdBuf = fun _ => 0)
    (calls : List Call) :
    (session.exec w calls).client.recorded = recentIds (arrivalHistory w calls) := by
  have unused : w.client.recorded = List.replicate mqttMaxRepeatBufLen 0 := by
    rw [Client.recorded, empty]
    exact ringContents_const (n := 9) 0 _
  rw [recorded_exec, unused, recentIds]

/-- Every PUBLISH with QoS1 or QoS2 is handed on exactly if its packet id is not one of the
    ten recorded last, in whatever connection. -/
def HandedOnOnce (w : World) (calls : List Call) : Prop :=
  ∀ k timer arrival, calls[k]? = some (.cycleForRead timer) →
    (w.at calls k).arriving = some arrival → arrival.message.qos ≠ QoS.qos0.code →
    (w.at calls (k + 1)).trace = (w.at calls k).trace ++
      if arrival.message.id ∈ recentIds (arrivalHistory w (calls.take k)) then []
      else (w.at calls k).client.delivery arrival

theorem arrivals_handedOnOnce (w : World) (fresh : w.Fresh) (calls : List Call) :
    HandedOnOnce w calls := by
  intro k timer arrival found arriving qos
  have takes := cycleForRead_takes timer (w.at calls k)
  rw [arriving, Prog.wp, World.Takes, if_neg qos] at takes
  rw [World.at_succ found, ← recorded_run fresh.repeatPacketIdBuf (calls.take k)]
  exact takes.trace

/-! ## A packet id that two connections use -/

/-- A client that loses its connection after a PUBLISH with packet id 5 and is sent another
    PUBLISH with that id on the next one. -/
def receiving : World :=
  let c := qcloudIotMqttInit ⟨⟨[97], CStr.noNul_a⟩, 5000, 240000, 1, 1, some 1⟩ 5
  let w := World.initial { c with isConnected := true }
    { Env.exhausted with
      writes := List.replicate 4 { rc := qcloudRetSuccess, written := 40,
                                    nonpos := qcloudRetSuccess_nonpos }
      reads := List.replicate 9 { avail := 6, err := qcloudErrTcpReadFail,
                                   negative := qcloudErrTcpReadFail_negative,
                                   driver := qcloudErrTcpReadFail_driver }
      connects := [{ rc := qcloudRetSuccess,
                     stream := [0x20, 2, 0, 0, 0x32, 6, 0, 1, 97, 0, 5, 105],
                     nonpos := qcloudRetSuccess_nonpos }] }
  { w with net := { w.net with stream := [0x32, 6, 0, 1, 97, 0, 5, 104] } }

theorem receiving_fresh : receiving.Fresh := ⟨rfl, rfl, fun _ => rfl, rfl, rfl⟩

/-- The client reads a packet, reconnects with a clean session, and reads another one. -/
def readReconnectRead : List Call :=
  [.cycleForRead ⟨1⟩, .upkeep .handleDisconnect,
    .upkeep (.sendConnect ⟨⟨[97], CStr.noNul_a⟩, 4, 240, 1, 1⟩), .cycleForRead ⟨1⟩,
    .upkeep .readConnack, .cycleForRead ⟨1⟩]

/-- Every PUBLISH with QoS1, a packet id and without DUP is handed on. -/
def NothingLost (w : World) (calls : List Call) : Prop :=
  ∀ k timer arrival, calls[k]? = some (.cycleForRead timer) →
    (w.at calls k).arriving = some arrival → arrival.message.qos = QoS.qos1.code →
    arrival.message.dup = 0 → arrival.message.id ≠ 0 →
    (w.at calls (k + 1)).trace = (w.at calls k).trace ++ (w.at calls k).client.delivery arrival

/-- The second PUBLISH is new, but its packet id was used on the first connection. -/
theorem fresh_publish_dropped : ¬ ∀ w : World, w.Fresh → ∀ calls, NothingLost w calls := by
  intro nothingLost
  have read : ∃ arrival, (receiving.at readReconnectRead 5).arriving = some arrival ∧
      arrival.message.qos = QoS.qos1.code ∧ arrival.message.dup = 0 ∧ arrival.message.id = 5 ∧
      (receiving.at readReconnectRead 5).client.delivery arrival ≠ [] := by
    decide +kernel
  have quiet : (receiving.at readReconnectRead (5 + 1)).trace =
      (receiving.at readReconnectRead 5).trace := by
    decide +kernel
  obtain ⟨arrival, arriving, qos, dup, id, delivery⟩ := read
  have kept := nothingLost receiving receiving_fresh readReconnectRead 5 ⟨1⟩ arrival rfl arriving
    qos dup (by rw [id]; decide)
  rw [quiet] at kept
  exact delivery (List.append_cancel_left (kept.symm.trans (List.append_nil _).symm))

theorem arrivals_handedOnOnce_reconnect : HandedOnOnce receiving readReconnectRead :=
  arrivals_handedOnOnce receiving receiving_fresh readReconnectRead

end QcloudIot.Mqtt
