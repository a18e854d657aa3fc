import QcloudIot.Misc.Window
import QcloudIot.Mqtt.Proofs.Delivery

/-!
# Packets that are sent again

`repeat_packet_id_buf` holds the last ten packet ids recorded. A packet whose id is among them is
not handed on again, while its acknowledgement is sent every time.
-/

namespace QcloudIot.Mqtt

/-! ## The ids recorded -/

/-- On ids other than 0 the buffer holds the last ids recorded behind its unused places. -/
theorem recentIds_eq {history : List UInt16} (nonzero : ∀ packetId ∈ history, packetId ≠ 0) :
    recentIds history = paddedTo mqttMaxRepeatBufLen 0 (recordings mqttMaxRepeatBufLen history) := by
  induction history using List.reverseRecOn with
  | nil =>
    rw [recordings, List.foldl_nil, paddedTo_nil]
    rfl
  | append_singleton history packetId ih =>
    have isId : packetId ≠ 0 := nonzero packetId (List.mem_append_right _ List.mem_cons_self)
    rw [recentIds_concat, recordings_concat,
      ih fun packetId mem => nonzero packetId (List.mem_append_left _ mem), remember, record]
    by_cases mem : packetId ∈ lastOf mqttMaxRepeatBufLen (recordings mqttMaxRepeatBufLen history)
    · rw [if_pos ⟨(mem_paddedTo isId).mpr mem, isId⟩, if_pos mem]
    · rw [if_neg fun both => mem ((mem_paddedTo isId).mp both.1), if_neg mem]
      exact (paddedTo_concat 9 0 _ packetId).symm

theorem mem_recentIds {history : List UInt16} (nonzero : ∀ packetId ∈ history, packetId ≠ 0)
    {packetId : UInt16} (isId : packetId ≠ 0) : packetId ∈ recentIds history ↔
      packetId ∈ lastOf mqttMaxRepeatBufLen (recordings mqttMaxRepeatBufLen history) := by
  rw [recentIds_eq nonzero, mem_paddedTo isId]

/-! ## Acknowledgements -/

/-- A PUBACK. -/
def pubAck (packetId : UInt16) : List UInt8 := [0x40, 0x02] ++ mqttWriteUint16 packetId

/-- A PUBACK at the front of the write buffer has been handed to `send_mqtt_packet`. -/
def World.Acknowledges (w : World) (packetId : UInt16) (rc : Int) (tx : List UInt8) : Prop :=
  ∃ u timer v, u.net.tx = w.net.tx ∧ pubAck packetId <+: u.client.writeBuf ∧
    (sendMqttPacket (pubAck packetId).length timer).run u = (rc, v) ∧ v.net.tx = tx

/-- If it has been sent, it has been transmitted. -/
theorem World.Acknowledges.transmitted {w : World} {packetId : UInt16} {tx : List UInt8}
    (acknowledges : w.Acknowledges packetId qcloudRetSuccess tx) :
    ∃ sent, tx = w.net.tx ++ sent ∧ pubAck packetId <+: sent := by
  obtain ⟨u, timer, v, tx', inFront, ran, rfl⟩ := acknowledges
  have spec := (sendMqttPacket_spec (pubAck packetId).length timer u (Nat.succ_pos _)).2
  rw [ran] at spec
  obtain ⟨sent, enough, -, transmitted, -⟩ := spec rfl
  refine ⟨_, transmitted.trans (by rw [tx']), ?_⟩
  obtain ⟨rest, front⟩ := inFront
  rw [← front, List.append_assoc, List.take_append, List.take_of_length_le enough]
  exact List.prefix_append _ _

theorem serializePubAckPacket_puback {bufLen : Nat} (room : 4 ≤ bufLen) (packetId : UInt16) :
    serializePubAckPacket bufLen .puback 0 packetId = .ok (pubAck packetId) := by
  rw [serializePubAckPacket, if_neg (Nat.not_lt.mpr room)]
  rfl

theorem extendTimer_keeps (timer : Timer) (w : World) :
    (extendTimer timer).wp (fun _ w' => w'.client = w.client ∧ w'.net = w.net) w := by
  rw [extendTimer, Prog.wp_bind, wp_expired, Prog.wp_ite]
  exact ⟨fun _ => ⟨rfl, rfl⟩, fun _ => ⟨rfl, rfl⟩⟩

theorem sendPubAck_acknowledges (packetId : UInt16) (timer : Timer) {w : World}
    (room : 4 ≤ w.client.writeBufSize) :
    (sendPubAck .puback packetId timer).wp (fun out w' =>
      w.Acknowledges packetId out.1 w'.net.tx) w := by
  rw [sendPubAck, Prog.wp_bind, wp_client, serializePubAckPacket_puback room]
  simp only [Prog.wp_bind, wp_writeToWriteBuf]
  refine Prog.wp_mono (extendTimer_keeps timer _) ?_
  rintro timer u ⟨client, net⟩
  refine ⟨u, timer, _, by rw [net]; rfl, ?_, rfl, rfl⟩
  have fits : (pubAck packetId).length ≤ w.client.writeBuf.length := room
  rw [client]
  change pubAck packetId <+: overwrite w.client.writeBuf 0 (pubAck packetId)
  rw [overwrite_zero fits]
  exact List.prefix_append _ _

theorem addPacketIdToRepeatBuf_keeps (packetId : UInt16) (w : World) :
    (addPacketIdToRepeatBuf packetId).wp (fun _ w' =>
      w'.client.writeBufSize = w.client.writeBufSize ∧ w'.net = w.net) w := by
  simp only [addPacketIdToRepeatBuf, Prog.wp_bind, wp_client, Prog.wp_ite, Prog.wp_pure,
    wp_setClient]
  exact ⟨fun _ => ⟨trivial, trivial⟩, fun _ => ⟨rfl, rfl⟩⟩

/-- The handler of a PUBLISH with QoS 1 acknowledges it, whether it hands it on or not. -/
theorem handlePublishPacket_acknowledges (timer : Timer) {w : World} {arrival : Arrival}
    (found : arrivalIn MessageType.publish.code w.client.readBuf = some arrival)
    (qos1 : arrival.message.qos = QoS.qos1.code) (room : 4 ≤ w.client.writeBufSize) :
    (handlePublishPacket timer).wp (fun out w' =>
      w.Acknowledges arrival.message.id out.1 w'.net.tx) w := by
  rw [handlePublishPacket, Prog.wp_bind, wp_client]
  rw [arrivalIn, if_pos rfl] at found
  cases parsed : deserializePublishPacket w.client.readBuf 0 with
  | error rc =>
    rw [parsed] at found
    cases found
  | ok parts =>
    obtain ⟨msg, topicName, topicLen⟩ := parts
    rw [parsed] at found
    simp only at found ⊢
    generalize fixTopic w.client.readBuf topicName topicLen = fixed at found ⊢
    obtain ⟨topic, length⟩ := fixed
    obtain rfl := Option.some.inj found
    have isQos1 : msg.qos = QoS.qos1.code := qos1
    have notQos0 : msg.qos ≠ QoS.qos0.code := by
      rw [isQos1]
      decide
    rw [if_neg notQos0, if_pos isQos1, Prog.wp_bind]
    have delivered : (if getPacketIdInRepeatBuf w.client msg.id < 0 then
        deliverMessage topic length msg else pure qcloudRetSuccess).wp (fun rc w' =>
          rc = qcloudRetSuccess ∧ ∃ events, w' = w.called events) w := by
      rw [Prog.wp_ite]
      refine ⟨fun _ => ?_, fun _ => ⟨rfl, [], w.called_nil.symm⟩⟩
      refine Prog.wp_mono (deliverMessage_spec topic length msg w) ?_
      rintro rc w' ⟨success, called⟩
      exact ⟨success, _, called⟩
    refine Prog.wp_mono delivered ?_
    rintro rc _ ⟨rfl, events, rfl⟩
    rw [Prog.wp_ite]
    refine ⟨fun failed => absurd rfl failed, fun _ => ?_⟩
    rw [Prog.wp_bind]
    refine Prog.wp_mono (addPacketIdToRepeatBuf_keeps msg.id _) ?_
    rintro _ u ⟨size, net⟩
    have room' : 4 ≤ u.client.writeBufSize := by
      rw [size]
      exact room
    refine Prog.wp_mono (sendPubAck_acknowledges msg.id timer room') ?_
    rintro out w' ⟨v, timer', v', tx, rest⟩
    exact ⟨v, timer', v', by rw [tx, net]; rfl, rest⟩

theorem notePacket_keepsTx (packetType : UInt8) (w : World) :
    (notePacket packetType).wp (fun _ w' => w'.net = w.net) w := by
  rw [notePacket, Prog.wp_ite, Prog.wp_ite]
  exact ⟨fun _ => rfl, fun _ => ⟨fun _ => rfl, fun _ => rfl⟩⟩

/-- A `cycle_for_read` that reads a PUBLISH with QoS 1 acknowledges it. -/
theorem cycleForRead_acknowledges (timer : Timer) {w : World} {arrival : Arrival}
    (arriving : w.arriving = some arrival) (qos1 : arrival.message.qos = QoS.qos1.code)
    (room : 4 ≤ w.client.writeBufSize) :
    (cycleForRead timer).wp (fun out w' =>
      w.Acknowledges arrival.message.id out.1 w'.net.tx) w := by
  rw [cycleForRead, Prog.wp_bind]
  refine Prog.wp_mono (Prog.wp_run (Prog.within_iff_wp.mp readMqttPacket_onlyReads w)) ?_
  rintro ⟨rc, packetType⟩ u ⟨ran, reads⟩
  rw [World.arriving, World.reading, ran] at arriving
  simp only [Prog.wp_ite, Prog.wp_pure] at arriving ⊢
  refine ⟨fun nothing => ?_, fun something => ?_⟩
  · rw [if_pos nothing] at arriving
    cases arriving
  · rw [if_neg something] at arriving
    cases packetType with
    | none => cases arriving
    | some packetType =>
      have publish : packetType = MessageType.publish.code := by
        by_contra other
        simp only [Option.map_some, arrivalIn, if_neg other] at arriving
        cases arriving
      subst publish
      have room' : 4 ≤ u.client.writeBufSize := by
        rw [reads.client]
        exact room
      simp only [Prog.wp_bind]
      refine Prog.wp_mono (handlePublishPacket_acknowledges timer arriving qos1 room') ?_
      rintro ⟨rc, timer⟩ v ⟨u', timer', v', tx, inFront, sends, tx'⟩
      have before : u'.net.tx = w.net.tx := by rw [tx, reads.net]
      dsimp only
      rw [Prog.wp_bind]
      refine Prog.wp_mono (notePacket_keepsTx _ v) ?_
      intro _ w' net
      exact ⟨u', timer', v', before, inFront, sends, tx'.trans (congrArg Net.tx net.symm)⟩

/-! ## Sessions -/

/-- The world in which `reset_repeat_packet_id_buffer` has been called. -/
def World.resetRepeat (w : World) : World := w.setClient (resetRepeatPacketIdBuffer w.client)

/-- The ids recorded by the first calls of a session. -/
def recordedBy (w : World) (calls : List Call) (k : Nat) : List UInt16 :=
  recordings mqttMaxRepeatBufLen (arrivalHistory w (calls.take k))

/-- The last ten ids recorded by the first calls of a session. -/
def windowAt (w : World) (calls : List Call) (k : Nat) : List UInt16 :=
  lastOf mqttMaxRepeatBufLen (recordedBy w calls k)

/-- A call of the session reads a PUBLISH with QoS 1. -/
structure ReadsQos1 (w : World) (calls : List Call) (k : Nat) (timer : Timer) (arrival : Arrival) :
    Prop where
  call : calls[k]? = some (.cycleForRead timer)
  arriving : (w.at calls k).arriving = some arrival
  qos1 : arrival.message.qos = QoS.qos1.code

/-- What the duplicate detection should achieve in a session. -/
structure Deduplicates (w : World) (calls : List Call) : Prop where
  /-- the entries of the buffer other than 0, oldest first, are the last ids recorded -/
  window : ∀ k, (w.at calls k).client.recorded.filter (· ≠ 0) = windowAt w calls k ∧
    (windowAt w calls k).length = min mqttMaxRepeatBufLen (recordedBy w calls k).length ∧
    (windowAt w calls k).Nodup
  /-- a packet is handed on unless its id is among them, and then its id is recorded -/
  suppressed : ∀ k timer arrival, ReadsQos1 w calls k timer arrival →
    (w.at calls (k + 1)).trace = (w.at calls k).trace ++
      (if arrival.message.id ∈ windowAt w calls k then []
        else (w.at calls k).client.delivery arrival) ∧
    recordedBy w calls (k + 1) = recordedBy w calls k ++
      if arrival.message.id ∈ windowAt w calls k then [] else [arrival.message.id]
  /-- after a packet that was handed on, one with the same id is not as long as fewer than ten
      others are recorded -/
  once : ∀ i j timer timer' arrival arrival', i < j → ReadsQos1 w calls i timer arrival →
    ReadsQos1 w calls j timer' arrival' → arrival'.message.id = arrival.message.id →
    arrival.message.id ∉ windowAt w calls i →
    (recordedBy w calls j).length < (recordedBy w calls (i + 1)).length + mqttMaxRepeatBufLen →
    (w.at calls (i + 1)).trace =
        (w.at calls i).trace ++ (w.at calls i).client.delivery arrival ∧
      (w.at calls (j + 1)).trace = (w.at calls j).trace
  /-- every packet is acknowledged -/
  acknowledged : ∀ k timer arrival, ReadsQos1 w calls k timer arrival →
    4 ≤ (w.at calls k).client.writeBufSize →
    (w.at calls k).Acknowledges arrival.message.id
        ((w.at calls k).returns (.cycleForRead timer)) (w.at calls (k + 1)).net.tx ∧
      ((w.at calls k).returns (.cycleForRead timer) = qcloudRetSuccess →
        ∃ sent, (w.at calls (k + 1)).net.tx = (w.at calls k).net.tx ++ sent ∧
          pubAck arrival.message.id <+: sent)

theorem arrivalHistory_append (w : World) (first second : List Call) :
    arrivalHistory w (first ++ second) =
      arrivalHistory w first ++ arrivalHistory (session.exec w first) second := by
  induction first generalizing w with
  | nil => rfl
  | cons call first ih =>
    rw [List.cons_append, arrivalHistory, ih, arrivalHistory, Machine.exec_cons, session_step,
      List.append_assoc]

theorem arrivalHistory_take (w : World) (calls : List Call) (k : Nat) :
    ∃ more, arrivalHistory w calls = arrivalHistory w (calls.take k) ++ more := by
  have split := arrivalHistory_append w (calls.take k) (calls.drop k)
  rw [List.take_append_drop] at split
  exact ⟨_, split⟩

theorem arrivalHistory_take_subset (w : World) (calls : List Call) (k : Nat) :
    arrivalHistory w (calls.take k) ⊆ arrivalHistory w calls := by
  obtain ⟨more, split⟩ := arrivalHistory_take w calls k
  rw [split]
  exact List.subset_append_left _ _

section

variable {w : World} {calls : List Call} {k : Nat} {timer : Timer} {arrival : Arrival}

theorem ReadsQos1.qos (reads : ReadsQos1 w calls k timer arrival) :
    arrival.message.qos ≠ QoS.qos0.code := by
  rw [reads.qos1]
  decide

theorem ReadsQos1.receives (reads : ReadsQos1 w calls k timer arrival) :
    (w.at calls k).Receives arrival (w.at calls (k + 1)) := by
  have takes := cycleForRead_takes timer (w.at calls k)
  rw [reads.arriving, Prog.wp, World.Takes, if_neg reads.qos] at takes
  rw [World.at_succ reads.call]
  exact takes

theorem ReadsQos1.history (reads : ReadsQos1 w calls k timer arrival) :
    arrivalHistory w (calls.take (k + 1)) =
      arrivalHistory w (calls.take k) ++ [arrival.message.id] := by
  have arriving : (session.exec w (calls.take k)).arriving = some arrival := reads.arriving
  rw [List.take_add_one, reads.call, Option.toList_some, arrivalHistory_concat, World.arrivedIds,
    arriving]
  simp only [if_neg reads.qos]

theorem ReadsQos1.recordedBy (reads : ReadsQos1 w calls k timer arrival) :
    recordedBy w calls (k + 1) = recordedBy w calls k ++
      if arrival.message.id ∈ windowAt w calls k then [] else [arrival.message.id] := by
  rw [Mqtt.recordedBy, reads.history, recordings_concat, record]
  change (if _ ∈ windowAt w calls k then _ else _) = _
  split
  · exact (List.append_nil _).symm
  · rfl

variable (empty : w.client.repeatPacketIdBuf = fun _ => 0)
  (nonzero : ∀ packetId ∈ arrivalHistory w calls, packetId ≠ 0)

include empty nonzero

theorem recorded_at (k : Nat) : (w.at calls k).client.recorded =
    paddedTo mqttMaxRepeatBufLen 0 (recordedBy w calls k) := by
  rw [World.at, recorded_run empty, recentIds_eq fun packetId mem =>
    nonzero packetId (arrivalHistory_take_subset w calls k mem)]
  rfl

theorem ReadsQos1.trace (reads : ReadsQos1 w calls k timer arrival) :
    (w.at calls (k + 1)).trace = (w.at calls k).trace ++
      if arrival.message.id ∈ windowAt w calls k then []
      else (w.at calls k).client.delivery arrival := by
  have mem : arrival.message.id ∈ arrivalHistory w calls := by
    refine arrivalHistory_take_subset w calls (k + 1) ?_
    rw [reads.history]
    exact List.mem_append_right _ List.mem_cons_self
  have known : arrival.message.id ∈ (w.at calls k).client.recorded ↔
      arrival.message.id ∈ windowAt w calls k := by
    rw [recorded_at empty nonzero, mem_paddedTo (nonzero _ mem)]
    rfl
  rw [reads.receives.trace]
  exact congrArg _ (if_congr known rfl rfl)

end

/-- From a reset of the buffer on, every session in which no packet has the id 0 detects the
    duplicates among the last ten ids, and acknowledges them. -/
theorem duplicates_detected (w : World) (calls : List Call)
    (nonzero : ∀ packetId ∈ arrivalHistory w.resetRepeat calls, packetId ≠ 0) :
    Deduplicates w.resetRepeat calls where
  window k := by
    refine ⟨?_, length_lastOf _ _, nodup_lastOf_recordings 9 _⟩
    rw [recorded_at rfl nonzero]
    refine filter_paddedTo fun packetId mem => nonzero packetId ?_
    exact arrivalHistory_take_subset _ _ k (recordings_subset _ _ mem)
  suppressed k timer arrival reads := ⟨reads.trace rfl nonzero, reads.recordedBy⟩
  once := by
    intro i j timer timer' arrival arrival' before reads reads' same new fewer
    refine ⟨?_, ?_⟩
    · rw [reads.trace rfl nonzero, if_neg new]
    · obtain ⟨more, later⟩ := arrivalHistory_take w.resetRepeat (calls.take j) (i + 1)
      rw [List.take_take, Nat.min_eq_left before, reads.history] at later
      have known : arrival'.message.id ∈ windowAt w.resetRepeat calls j := by
        rw [recordedBy, recordedBy, reads.history, later] at fewer
        rw [same, windowAt, recordedBy, later]
        exact mem_lastOf_recordings new fewer
      rw [reads'.trace rfl nonzero, if_pos known, List.append_nil]
  acknowledged := by
    intro k timer arrival reads room
    have ran := cycleForRead_acknowledges timer reads.arriving reads.qos1 room
    rw [Prog.wp] at ran
    have acknowledges : (w.resetRepeat.at calls k).Acknowledges arrival.message.id
        ((w.resetRepeat.at calls k).returns (.cycleForRead timer))
        (w.resetRepeat.at calls (k + 1)).net.tx := by
      rw [World.at_succ reads.call]
      exact ran
    refine ⟨acknowledges, fun success => ?_⟩
    rw [success] at acknowledges
    exact acknowledges.transmitted

theorem receiving_arrivedIds :
    ∀ packetId ∈ arrivalHistory receiving.resetRepeat [.cycleForRead ⟨1⟩], packetId ≠ 0 := by
  have read : receiving.resetRepeat.arriving.map (fun arrival => arrival.message.id) = some 5 := by
    decide +kernel
  obtain ⟨arrival, arriving, isId⟩ := Option.map_eq_some_iff.mp read
  intro packetId mem
  rw [arrivalHistory, arrivalHistory, List.append_nil, World.arrivedIds, arriving] at mem
  simp only at mem
  split at mem
  · exact absurd mem List.not_mem_nil
  · rw [List.mem_singleton.mp mem, isId]
    decide

theorem duplicates_detected_receiving :
    Deduplicates receiving.resetRepeat [.cycleForRead ⟨1⟩] :=
  duplicates_detected receiving [.cycleForRead ⟨1⟩] receiving_arrivedIds

end QcloudIot.Mqtt
