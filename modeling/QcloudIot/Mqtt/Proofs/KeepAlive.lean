import QcloudIot.Mqtt.Proofs.Accepted
import QcloudIot.Mqtt.Proofs.Inbound

/-!
# Keep alive

The number of outstanding pings is the number of PINGREQ packets written since the connection was
accepted or a sign of life arrived, and it never exceeds 2: a connection on which nothing arrives
is closed instead of being pinged for a third time.
-/

namespace QcloudIot.Mqtt

/-! ## What keep alive sees of a session -/

/-- A step of a session that matters to keep alive. -/
inductive LinkEvent where
  /-- a CONNACK accepts the connection -/
  | accepted
  /-- a packet arrives that is a sign of life -/
  | alive
  /-- a PINGREQ is written -/
  | ping
  deriving DecidableEq, Repr

/-- The packet types that show that the connection is alive. -/
def signsOfLife : List MessageType := [.puback, .suback, .unsuback, .pingresp, .publish]

/-- `packetType` is a sign of life. -/
def IsSignOfLife (packetType : UInt8) : Prop := packetType ∈ signsOfLife.map MessageType.code

instance (packetType : UInt8) : Decidable (IsSignOfLife packetType) :=
  inferInstanceAs (Decidable (packetType ∈ signsOfLife.map MessageType.code))

/-- The PINGREQ packet. -/
def pingreqPacket : List UInt8 := [0xC0, 0x00]

/-- `_mqtt_keep_alive` writes a PINGREQ: it succeeds and something has been sent. -/
def World.WritesPing (w : World) : Prop :=
  (mqttKeepAlive.run w).1 = qcloudRetSuccess ∧ (mqttKeepAlive.run w).2.net.tx ≠ w.net.tx

instance (w : World) : Decidable w.WritesPing := inferInstanceAs (Decidable (_ ∧ _))

/-- What keep alive sees of a call. -/
def World.linkEvent (w : World) : Call → Option LinkEvent
  | .cycleForRead _ =>
    match w.reading with
    | some (packetType, _) => if IsSignOfLife packetType then some .alive else none
    | none => none
  | .upkeep .readConnack =>
    if (readConnack.run w).1 = qcloudRetSuccess then some .accepted else none
  | .upkeep .keepAlive => if w.WritesPing then some .ping else none
  | _ => none

/-- What keep alive sees of a session. -/
def World.linkEvents (w : World) (calls : List Call) : List LinkEvent :=
  session.observed World.linkEvent w calls

/-- The pings since the last event of another kind. -/
def pingsSince (events : List LinkEvent) : Nat :=
  (events.reverse.takeWhile (· = .ping)).length

/-- What an event does to the number of outstanding pings. -/
def countPing (count : Nat) : LinkEvent → Nat
  | .accepted => 0
  | .alive => 0
  | .ping => count + 1

theorem pingsSince_concat (events : List LinkEvent) (event : LinkEvent) :
    pingsSince (events ++ [event]) = countPing (pingsSince events) event := by
  rw [pingsSince, List.reverse_append, List.reverse_singleton, List.singleton_append]
  cases event with
  | accepted => rfl
  | alive => rfl
  | ping => rfl

theorem foldl_countPing (events : List LinkEvent) :
    events.foldl countPing 0 = pingsSince events := by
  induction events using List.reverseRecOn with
  | nil => rfl
  | append_singleton events event ih =>
    rw [List.foldl_append, ih, pingsSince_concat]
    rfl

/-- Pings that are followed by pings only are all counted. -/
theorem length_le_pingsSince {before pings : List LinkEvent}
    (only : ∀ event ∈ pings, event = .ping) : pings.length ≤ pingsSince (before ++ pings) := by
  rw [pingsSince, List.reverse_append, List.takeWhile_append_of_pos, List.length_append,
    List.length_reverse]
  · exact Nat.le_add_right _ _
  · intro event isPing
    exact decide_eq_true (only event (List.mem_reverse.mp isPing))

/-! ## Calls that do not count -/

/-- The number of outstanding pings stays. -/
def World.KeepsCount (w w' : World) : Prop :=
  w'.client.isPingOutstanding = w.client.isPingOutstanding

instance : Std.Refl World.KeepsCount := ⟨fun _ => rfl⟩

instance : IsTrans World World.KeepsCount where
  trans _ _ _ first second := second.trans first

theorem keepsCount_of_ping {α : Type} {m : Sdk α} (keeps : Prog.Within World.KeepsPing m) :
    Prog.Within World.KeepsCount m :=
  keeps.mono fun _ _ h => h.isPingOutstanding

theorem qcloudIotMqttDisconnect_keepsCount :
    Prog.Within World.KeepsCount qcloudIotMqttDisconnect := by
  refine .bind (fun _ => rfl) fun _ => .ite (.pure _) (.bind client_within fun c => ?_)
  cases serializePacketWithZeroPayload c.writeBufSize .disconnect with
  | error rc => exact .pure _
  | ok packet =>
    refine .bind (fun _ => rfl) fun _ => .bind (fun _ => rfl) fun timer => ?_
    refine .bind (keepsCount_of_ping (sendMqttPacket_keepsPing _ _)) fun rc => .ite (.pure _) ?_
    refine .bind (fun _ => rfl) fun _ => .bind (fun _ => rfl) fun _ => ?_
    exact .bind (fun _ => rfl) fun _ => .pure _

theorem handleDisconnect_keepsCount : Prog.Within World.KeepsCount handleDisconnect := by
  refine .bind (fun _ => rfl) fun _ => .ite (.pure _) ?_
  refine .bind qcloudIotMqttDisconnect_keepsCount fun rc => .bind (.ite ?_ (.pure _)) fun _ => ?_
  · exact .bind (fun _ => rfl) fun _ => fun _ => rfl
  · refine .bind (keepsCount_of_ping (notify_keepsPing _ _)) fun _ => ?_
    exact .bind (fun _ => rfl) fun _ => .pure _

theorem sendConnect_keepsCount (options : ConnectParams) :
    Prog.Within World.KeepsCount (sendConnect options) := by
  have serialize : Prog.Within World.KeepsCount serializeConnect := by
    refine .bind client_within fun c => .ite (.pure _) (.bind (fun _ => rfl) fun _ => ?_)
    refine .ite (.pure _) (.bind (fun _ => rfl) fun credentials => ?_)
    exact .bind (.ite (.pure _) fun _ => rfl) fun _ => .ite (.pure _) (.pure _)
  refine .bind client_within fun c => .bind (fun _ => rfl) fun connectTimer => ?_
  refine .bind (fun _ => rfl) fun _ => .bind (fun _ => rfl) fun rc => ?_
  refine .ite (.pure _) (.bind serialize fun serialized => ?_)
  cases serialized with
  | error rc => exact .pure _
  | ok packet =>
    refine .bind (fun _ => rfl) fun _ => ?_
    exact .bind (keepsCount_of_ping (sendMqttPacket_keepsPing _ _)) fun rc =>
      .ite (.pure _) (.pure _)

theorem afterRead_keepsCount (rc : Int) : Prog.Within World.KeepsCount (afterRead rc) := by
  refine .ite (.bind (fun _ => rfl) fun _ => .bind client_within fun c => ?_) (.pure _)
  refine .ite (.bind (.bind (fun _ => rfl) fun _ => .pure _) fun interval => ?_) (.pure _)
  exact .bind (fun _ => rfl) fun timer => .bind (fun _ => rfl) fun _ => .pure _

theorem postponeReconnect_keepsCount : Prog.Within World.KeepsCount postponeReconnect := by
  refine .bind (fun _ => rfl) fun _ => .bind client_within fun c => .ite (.pure _) ?_
  exact .bind (fun _ => rfl) fun timer => .bind (fun _ => rfl) fun _ => .pure _

/-! ## Pinging -/

theorem serializePingreq {bufLen : Nat} {packet : List UInt8}
    (serialized : serializePacketWithZeroPayload bufLen .pingreq = .ok packet) :
    4 ≤ bufLen ∧ packet = pingreqPacket := by
  rw [serializePacketWithZeroPayload] at serialized
  by_cases short : 4 > bufLen
  · rw [if_pos short] at serialized
    cases serialized
  · rw [if_neg short] at serialized
    exact ⟨Nat.le_of_not_lt short, (Except.ok.inj serialized).symm⟩

/-- One attempt that succeeds has sent the packet. -/
theorem sendMqttPacket_pings {w : World} {packet : List UInt8} (nonempty : 0 < packet.length)
    (ready : ∃ buf, packet.length ≤ buf.length ∧ w.client.writeBuf = overwrite buf 0 packet)
    (timer : Timer) : (sendMqttPacket packet.length timer).wp (fun rc w' => w.OnlySends w' ∧
      (rc = qcloudRetSuccess → w.net.tx ++ packet <+: w'.net.tx)) w := by
  refine Prog.wp_mono (Prog.wp_and (within_wp (sendMqttPacket_onlySends _ _) w)
    (sendMqttPacket_spec _ timer w nonempty)) ?_
  rintro rc w' ⟨only, -, transmitted⟩
  refine ⟨only, fun success => ?_⟩
  obtain ⟨sent, enough, -, isTx, -⟩ := transmitted success
  obtain ⟨buf, fits, isBuf⟩ := ready
  rw [isTx, isBuf]
  exact (List.prefix_append_right_inj _).mpr (prefix_take_overwrite _ fits enough)

/-- The attempts of `_mqtt_keep_alive`: what failed ones have sent stands before the packet. -/
theorem sendPing_spec {w : World} {packet : List UInt8} (nonempty : 0 < packet.length)
    (ready : ∃ buf, packet.length ≤ buf.length ∧ w.client.writeBuf = overwrite buf 0 packet)
    (retries : Nat) : (sendPing packet.length retries).wp (fun rc w' => w.OnlySends w' ∧
      (rc = qcloudRetSuccess → ∃ failed, w.net.tx ++ failed ++ packet <+: w'.net.tx)) w := by
  have attempt : ∀ (w : World) (timer : Timer), (∃ buf, packet.length ≤ buf.length ∧
      w.client.writeBuf = overwrite buf 0 packet) → (sendMqttPacket packet.length timer).wp
      (fun rc w' => w.tick.OnlySends w' ∧
        (rc = qcloudRetSuccess → w.net.tx ++ packet <+: w'.net.tx)) w.tick :=
    fun w timer ready => sendMqttPacket_pings (w := w.tick) nonempty ready timer
  induction retries generalizing w with
  | zero =>
    rw [sendPing]
    simp only [Prog.wp_bind, wp_client, wp_countdownMs]
    refine Prog.wp_mono (attempt w _ ready) fun rc w' sent => ?_
    refine ⟨trans_of World.OnlySends w.onlySends_tick sent.1, fun success => ⟨[], ?_⟩⟩
    rw [List.append_nil]
    exact sent.2 success
  | succ retries ih =>
    rw [sendPing]
    simp only [Prog.wp_bind, wp_client, wp_countdownMs]
    refine Prog.wp_mono (attempt w _ ready) fun rc w₁ sent => ?_
    have only := trans_of World.OnlySends w.onlySends_tick sent.1
    rw [Prog.wp_ite, Prog.wp_pure]
    refine ⟨fun failed => ?_, fun success => ⟨only, fun _ => ⟨[], ?_⟩⟩⟩
    · have ready₁ : ∃ buf, packet.length ≤ buf.length ∧
          w₁.client.writeBuf = overwrite buf 0 packet := by
        rw [only.client]
        exact ready
      refine Prog.wp_mono (ih ready₁) fun rc' w₂ again => ?_
      refine ⟨trans_of World.OnlySends only again.1, fun success => ?_⟩
      obtain ⟨junk, isPrefix⟩ := again.2 success
      obtain ⟨first, isFirst⟩ := only.grows
      refine ⟨first ++ junk, ?_⟩
      rw [← List.append_assoc, isFirst]
      exact isPrefix
    · rw [List.append_nil]
      exact sent.2 (not_not.mp success)

theorem handleDisconnect_returns (w : World) :
    handleDisconnect.wp (fun rc _ => rc = qcloudErrMqttNoConn) w := by
  rw [handleDisconnect]
  simp only [Prog.wp_bind, Prog.wp_ite, Prog.wp_pure, wp_getClientConnState]
  exact ⟨fun _ => trivial, fun _ => rfl⟩

/-- `_mqtt_keep_alive` writes a PINGREQ and counts it, or does neither. -/
structure World.Pings (w w' : World) : Prop where
  few : w.client.isPingOutstanding < mqttPingRetryTimes
  counted : w'.client.isPingOutstanding = w.client.isPingOutstanding + 1
  sent : ∃ failed, w.net.tx ++ failed ++ pingreqPacket <+: w'.net.tx

theorem mqttKeepAlive_pings (w : World) : mqttKeepAlive.wp (fun rc w' =>
    rc = qcloudRetSuccess ∧ w.Pings w' ∨
      (rc = qcloudRetSuccess → w'.net.tx = w.net.tx) ∧ w.KeepsCount w') w := by
  have drops : ∀ w' : World, w.KeepsCount w' → handleDisconnect.wp (fun rc w'' =>
      rc = qcloudRetSuccess ∧ w.Pings w'' ∨
        (rc = qcloudRetSuccess → w''.net.tx = w.net.tx) ∧ w.KeepsCount w'') w' := by
    intro w' keeps
    refine Prog.wp_mono (Prog.wp_and (handleDisconnect_returns w')
      (within_wp handleDisconnect_keepsCount w')) fun rc w'' dropped => .inr ⟨?_, ?_⟩
    · rw [dropped.1]
      exact fun success => absurd success (by decide)
    · exact trans_of World.KeepsCount keeps dropped.2
  rw [mqttKeepAlive]
  simp only [Prog.wp_bind, wp_client, Prog.wp_ite, Prog.wp_pure, wp_expired]
  refine ⟨fun _ => .inr ⟨fun _ => trivial, rfl⟩, fun _ => ⟨fun _ => .inr ⟨fun _ => rfl, rfl⟩,
    fun _ => ⟨fun _ => drops _ rfl, fun few => ?_⟩⟩⟩
  rcases serialized : serializePacketWithZeroPayload w.client.writeBufSize .pingreq with rc | packet
  · exact .inr ⟨fun _ => rfl, rfl⟩
  · obtain ⟨room, isPingreq⟩ := serializePingreq serialized
    dsimp only
    rw [isPingreq, Prog.wp_bind, wp_writeToWriteBuf, Prog.wp_bind]
    refine Prog.wp_mono (sendPing_spec (by decide)
      ⟨w.client.writeBuf, Nat.le_trans (by decide) room, rfl⟩ 3) fun rc w₁ pinged => ?_
    have counted : w₁.client.isPingOutstanding = w.client.isPingOutstanding := by
      rw [pinged.1.client]
      rfl
    rw [Prog.wp_ite]
    refine ⟨fun _ => drops _ counted, fun success => ?_⟩
    simp only [Prog.wp_bind, wp_countdown, wp_setClient, Prog.wp_pure]
    obtain ⟨failed, isPrefix⟩ := pinged.2 (not_not.mp success)
    exact .inl ⟨trivial, Nat.lt_of_not_le few, congrArg (· + 1) counted, failed, isPrefix⟩

theorem World.Pings.grows {w w' : World} (pings : w.Pings w') : w'.net.tx ≠ w.net.tx := by
  obtain ⟨failed, isPrefix⟩ := pings.sent
  intro same
  have length := isPrefix.length_le
  rw [same, List.length_append, List.length_append] at length
  have nonempty : pingreqPacket.length = 2 := rfl
  omega

/-- The two outcomes of `mqttKeepAlive_pings` are told apart by what is seen of the call. -/
theorem writesPing_cases (w : World) : w.WritesPing ∧ w.Pings (mqttKeepAlive.run w).2 ∨
    ¬ w.WritesPing ∧ w.KeepsCount (mqttKeepAlive.run w).2 := by
  rcases mqttKeepAlive_pings w with ⟨success, pings⟩ | ⟨quiet, keeps⟩
  · exact .inl ⟨⟨success, pings.grows⟩, pings⟩
  · exact .inr ⟨fun writes => writes.2 (quiet writes.1), keeps⟩

/-! ## Every call -/

/-- The number of outstanding pings after a call. -/
def World.counts (w : World) (call : Call) : Nat :=
  (w.linkEvent call).elim w.client.isPingOutstanding (countPing w.client.isPingOutstanding)

theorem readConnack_counts (w : World) : readConnack.wp (fun _ w' =>
    w'.client.isPingOutstanding = w.counts (.upkeep .readConnack)) w := by
  have outcome : readConnack.wp (fun rc w' => w'.client.isPingOutstanding =
      if rc = qcloudRetSuccess then 0 else w.client.isPingOutstanding) w := by
    obtain ⟨noError, noSuccess⟩ := deserializeConnackPacket_returns w.client.readBuf
    rw [readConnack, Prog.wp_bind, wp_client]
    cases read : deserializeConnackPacket w.client.readBuf with
    | error rc =>
      refine (if_neg fun success => ?_).symm
      exact noError (read.trans (congrArg _ success))
    | ok connackRc =>
      dsimp only
      rw [Prog.wp_ite, Prog.wp_pure, acceptConnection]
      simp only [Prog.wp_bind, wp_setClientConnState, wp_client, wp_countdown, wp_setClient,
        Prog.wp_pure]
      refine ⟨fun _ => (if_neg fun success => ?_).symm, fun _ => rfl⟩
      exact noSuccess (read.trans (congrArg _ success))
  refine Prog.wp_mono (Prog.wp_run outcome) fun rc w' ended => ?_
  rw [World.counts, World.linkEvent, ended.1, ended.2]
  by_cases success : rc = qcloudRetSuccess
  · rw [if_pos success, if_pos success]
    rfl
  · rw [if_neg success, if_neg success]
    rfl

theorem notePacket_counts (packetType : UInt8) (w : World) : (notePacket packetType).wp
    (fun _ w' => w'.client.isPingOutstanding =
      if IsSignOfLife packetType then 0 else w.client.isPingOutstanding) w := by
  have isSign : IsSignOfLife packetType ↔ (packetType = MessageType.puback.code ∨
      packetType = MessageType.suback.code ∨ packetType = MessageType.unsuback.code ∨
      packetType = MessageType.pingresp.code) ∨ packetType = MessageType.publish.code := by
    simp only [IsSignOfLife, signsOfLife, List.map_cons, List.map_nil, List.mem_cons,
      List.not_mem_nil, or_false, or_assoc]
  rw [notePacket]
  simp only [handlePingrespPacket, Prog.wp_ite, Prog.wp_bind, wp_client, wp_countdown,
    wp_setClient, Prog.wp_pure]
  refine ⟨fun answer => ?_, fun noAnswer => ⟨fun publish => ?_, fun noPublish => ?_⟩⟩
  · exact (if_pos (isSign.mpr (.inl answer))).symm
  · exact (if_pos (isSign.mpr (.inr publish))).symm
  · exact (if_neg fun alive => (isSign.mp alive).elim noAnswer noPublish).symm

theorem cycleForRead_counts (timer : Timer) (w : World) : (cycleForRead timer).wp
    (fun _ w' => w'.client.isPingOutstanding = w.counts (.cycleForRead timer)) w := by
  rw [cycleForRead, Prog.wp_bind]
  refine Prog.wp_mono (Prog.wp_run (Prog.within_iff_wp.mp readMqttPacket_onlyReads w)) ?_
  rintro ⟨rc, packetType⟩ u ⟨ran, reads⟩
  have same : u.client.isPingOutstanding = w.client.isPingOutstanding := by rw [reads.client]
  rw [World.counts, World.linkEvent, World.reading, ran]
  dsimp only
  rw [Prog.wp_ite, Prog.wp_pure]
  refine ⟨fun nothing => ?_, fun something => ?_⟩
  · rw [if_pos nothing]
    exact same
  · rw [if_neg something]
    cases packetType with
    | none => exact same
    | some packetType =>
      dsimp only
      rw [Prog.wp_bind]
      refine Prog.wp_mono (within_wp (handlePacket_keepsPing packetType timer) u) ?_
      rintro ⟨rc, timer⟩ v handled
      dsimp only
      rw [Prog.wp_bind]
      refine Prog.wp_mono (notePacket_counts packetType v) fun _ w' noted => ?_
      rw [Prog.wp_pure, noted, handled.isPingOutstanding, same, Option.map_some]
      dsimp only
      by_cases alive : IsSignOfLife packetType
      · rw [if_pos alive, if_pos alive]
        rfl
      · rw [if_neg alive, if_neg alive]
        rfl

theorem upkeep_counts (piece : Upkeep) (w : World) :
    (w.after (.upkeep piece)).client.isPingOutstanding = w.counts (.upkeep piece) := by
  cases piece with
  | now => rfl
  | keepAlive =>
    rw [World.counts, World.linkEvent]
    rcases writesPing_cases w with ⟨writes, pings⟩ | ⟨silent, keeps⟩
    · rw [if_pos writes]
      exact pings.counted
    · rw [if_neg silent]
      exact keeps
  | handleDisconnect => exact handleDisconnect_keepsCount w
  | disconnect => exact qcloudIotMqttDisconnect_keepsCount w
  | afterRead rc => exact afterRead_keepsCount rc w
  | sendConnect options => exact sendConnect_keepsCount options w
  | readConnack => exact readConnack_counts w
  | networkDisconnect => rfl
  | notifyReconnect => exact (notify_keepsPing .reconnect .null w).isPingOutstanding
  | postponeReconnect => exact postponeReconnect_keepsCount w

/-- One call. -/
theorem after_counts (w : World) (call : Call) :
    (w.after call).client.isPingOutstanding = w.counts call := by
  cases call with
  | publish topicName params =>
    exact (qcloudIotMqttPublish_keepsPing topicName params w).isPingOutstanding
  | subscribe topicFilter params =>
    exact (qcloudIotMqttSubscribe_keepsPing topicFilter params w).isPingOutstanding
  | unsubscribe topicFilter =>
    exact (qcloudIotMqttUnsubscribe_keepsPing topicFilter w).isPingOutstanding
  | cycleForRead timer => exact cycleForRead_counts timer w
  | pubInfoProc => exact (qcloudIotMqttPubInfoProc_keepsPing w).isPingOutstanding
  | subInfoProc => exact (qcloudIotMqttSubInfoProc_keepsPing w).isPingOutstanding
  | upkeep piece => exact upkeep_counts piece w

/-- Only keep alive is seen to ping. -/
theorem linkEvent_ping {w : World} {call : Call} (ping : w.linkEvent call = some .ping) :
    w.WritesPing := by
  have noAlive : ∀ (c : Prop) [Decidable c] (event : LinkEvent), event ≠ .ping →
      (if c then some event else none) ≠ some .ping := by
    intro c decidable event other same
    by_cases holds : c
    · rw [if_pos holds] at same
      exact other (Option.some.inj same)
    · rw [if_neg holds] at same
      exact nomatch same
  rw [World.linkEvent.eq_def] at ping
  split at ping
  case h_1 =>
    split at ping
    · exact absurd ping (noAlive _ _ nofun)
    · exact nomatch ping
  case h_2 => exact absurd ping (noAlive _ _ nofun)
  case h_3 =>
    by_contra silent
    rw [if_neg silent] at ping
    exact nomatch ping
  case h_4 => exact nomatch ping

/-- No call adds to two outstanding pings. -/
theorem after_few {w : World} (few : w.client.isPingOutstanding ≤ mqttPingRetryTimes)
    (call : Call) : (w.after call).client.isPingOutstanding ≤ mqttPingRetryTimes := by
  rw [after_counts, World.counts]
  rcases event : w.linkEvent call with _ | _ | _ | _
  · exact few
  · exact Nat.zero_le _
  · exact Nat.zero_le _
  · rcases writesPing_cases w with ⟨-, pings⟩ | ⟨silent, -⟩
    · exact pings.few
    · exact absurd (linkEvent_ping event) silent

/-! ## Every session -/

/-- The count over a session, from any world. -/
theorem session_counts (w : World) (calls : List Call) :
    (session.exec w calls).client.isPingOutstanding =
      (w.linkEvents calls).foldl countPing w.client.isPingOutstanding :=
  session.exec_observed (fun w => w.client.isPingOutstanding) after_counts w calls

theorem session_few {w : World} (few : w.client.isPingOutstanding ≤ mqttPingRetryTimes)
    (calls : List Call) :
    (session.exec w calls).client.isPingOutstanding ≤ mqttPingRetryTimes := by
  induction calls generalizing w with
  | nil => exact few
  | cons call calls ih => exact ih (after_few few call)

/-- With two pings outstanding, keep alive closes the connection when `ping_timer` has run out. -/
theorem mqttKeepAlive_expires {w : World} (up : w.client.isConnected = true)
    (enabled : w.client.options.keepAliveInterval ≠ 0)
    (due : w.client.pingTimer.endTime ≤ w.tick.clock)
    (unanswered : mqttPingRetryTimes ≤ w.client.isPingOutstanding) :
    mqttKeepAlive.wp (fun rc w' => rc = qcloudErrMqttNoConn ∧ w.Dropped w') w := by
  rw [mqttKeepAlive]
  simp only [Prog.wp_bind, wp_client, Prog.wp_ite, Prog.wp_pure, wp_expired]
  refine ⟨fun off => absurd off enabled, fun _ => ⟨fun early => ?_, fun _ => ⟨fun _ => ?_, fun few =>
    absurd unanswered few⟩⟩⟩
  · rw [decide_eq_true due] at early
    exact absurd early (by decide)
  · exact Prog.wp_mono (handleDisconnect_spec (w := w.tick) up) fun rc w' dropped =>
      ⟨dropped.1, w.keepsLink_tick.dropped dropped.2⟩

/-- The same for the call of a session, which writes no PINGREQ. -/
theorem after_expires {w : World} (up : w.client.isConnected = true)
    (enabled : w.client.options.keepAliveInterval ≠ 0)
    (due : w.client.pingTimer.endTime ≤ w.tick.clock)
    (unanswered : mqttPingRetryTimes ≤ w.client.isPingOutstanding) :
    (w.after (.upkeep .keepAlive)).client.isConnected = false ∧
      (w.after (.upkeep .keepAlive)).net.handle = false ∧ ¬ w.WritesPing := by
  obtain ⟨rc, dropped⟩ := mqttKeepAlive_expires up enabled due unanswered
  refine ⟨dropped.isConnected, dropped.handle, fun writes => ?_⟩
  exact absurd (rc.symm.trans writes.1) (by decide)

theorem writesPing_sent {w : World} (writes : w.WritesPing) :
    ∃ failed, w.net.tx ++ failed ++ pingreqPacket <+: (w.after (.upkeep .keepAlive)).net.tx := by
  rcases writesPing_cases w with ⟨-, pings⟩ | ⟨silent, -⟩
  · exact pings.sent
  · exact absurd writes silent

/-- A round of the main loop that reads successfully is four calls of a session. -/
theorem readRound_session {w : World} {timer : Timer}
    (success : ((cycleForRead timer).run w).1.1 = qcloudRetSuccess) :
    ((readRound timer).run w).2 = session.exec w
      [.cycleForRead timer, .pubInfoProc, .subInfoProc, .upkeep .keepAlive] := by
  have read : session.exec w [.cycleForRead timer] = ((cycleForRead timer).run w).2 := rfl
  rw [readRound, Prog.run_bind]
  dsimp only
  rw [if_pos success, ← List.singleton_append, Machine.exec_append, read]
  simp only [Machine.exec_cons, Machine.exec_nil, session_step, World.after, Call.prog, Upkeep.prog,
    Prog.run_bind, Prog.run_pure]

/-- In every session from initialisation on, the number of outstanding pings is the number of
    PINGREQ packets written since the connection was accepted or a sign of life arrived, and it is
    at most 2. So at most two are written before the next sign of life, and when `ping_timer` runs
    out after the second one, the connection is closed. A yield is a session; its rounds that read
    successfully end with keep alive. -/
theorem pings_counted (init : MqttInitParams) (random : Nat) (env : Env) (calls : List Call) :
    let start := World.initial (qcloudIotMqttInit init random) env
    let w := session.exec start calls
    w.client.isPingOutstanding = pingsSince (start.linkEvents calls) ∧
      w.client.isPingOutstanding ≤ mqttPingRetryTimes ∧
      (∀ more, (∀ event ∈ w.linkEvents more, event = .ping) →
        (w.linkEvents more).length ≤ mqttPingRetryTimes) ∧
      (w.WritesPing → ∃ failed, w.net.tx ++ failed ++ pingreqPacket <+:
        (w.after (.upkeep .keepAlive)).net.tx) ∧
      (w.client.isConnected = true → w.client.options.keepAliveInterval ≠ 0 →
        w.client.pingTimer.endTime ≤ w.tick.clock →
        pingsSince (start.linkEvents calls) = mqttPingRetryTimes →
        (w.after (.upkeep .keepAlive)).client.isConnected = false ∧
          (w.after (.upkeep .keepAlive)).net.handle = false ∧ ¬ w.WritesPing) ∧
      (∀ timer, ((cycleForRead timer).run w).1.1 = qcloudRetSuccess →
        ((readRound timer).run w).2 = session.exec w
          [.cycleForRead timer, .pubInfoProc, .subInfoProc, .upkeep .keepAlive]) ∧
      ∀ fuel timeoutMs, (qcloudIotMqttYield fuel timeoutMs).wp (fun _ w' =>
        ∃ more, w' = session.exec w more ∧ w'.client.isPingOutstanding =
          pingsSince (start.linkEvents (calls ++ more))) w := by
  intro start
  have counted : ∀ calls, (session.exec start calls).client.isPingOutstanding =
      pingsSince (start.linkEvents calls) := by
    intro calls
    rw [session_counts, ← foldl_countPing]
    rfl
  have few : ∀ calls, (session.exec start calls).client.isPingOutstanding ≤ mqttPingRetryTimes :=
    session_few (Nat.zero_le _)
  refine ⟨counted calls, few calls, fun more onlyPings => ?_, writesPing_sent,
    fun up enabled due unanswered => ?_, fun timer => readRound_session, fun fuel timeoutMs => ?_⟩
  · have later := few (calls ++ more)
    rw [counted, World.linkEvents, Machine.observed_append] at later
    exact Nat.le_trans (length_le_pingsSince onlyPings) later
  · rw [← counted] at unanswered
    exact after_expires up enabled due (Nat.le_of_eq unanswered.symm)
  · obtain ⟨more, isSession⟩ := qcloudIotMqttYield_leads fuel timeoutMs (session.exec start calls)
    refine ⟨more, isSession, ?_⟩
    rw [← counted, Machine.exec_append]
    exact congrArg (fun w => w.client.isPingOutstanding) isSession

/-- A peer that accepts the connection and is silent then; a second passes before the fifth reading
    of the clock. -/
def silentPeer : Env :=
  { Env.exhausted with
      connects := [{ rc := qcloudRetSuccess, stream := [0x20, 0x02, 0x00, 0x00],
                     nonpos := qcloudRetSuccess_nonpos }]
      writes := List.replicate 3 { rc := qcloudRetSuccess, written := 64,
                                    nonpos := qcloudRetSuccess_nonpos }
      reads := List.replicate 3 { avail := 4, err := qcloudErrTcpReadFail,
                                   negative := qcloudErrTcpReadFail_negative,
                                   driver := qcloudErrTcpReadFail_driver }
      ticks := [0, 0, 0, 0, 1000000] }

/-- A connection that is pinged twice. -/
def pingTwice : List Call :=
  [.upkeep (.sendConnect ⟨⟨[100], CStr.noNul_d⟩, 4, 1, 1, 1⟩), .cycleForRead ⟨0⟩,
    .upkeep .readConnack, .upkeep .keepAlive, .upkeep .keepAlive]

section

attribute [local irreducible] session

theorem pings_counted_silent :
    let w := session.exec (.initial (qcloudIotMqttInit ⟨⟨[65], by decide⟩, 1000, 0, 1, 1, none⟩ 0)
      silentPeer) pingTwice
    (w.after (.upkeep .keepAlive)).client.isConnected = false ∧
      (w.after (.upkeep .keepAlive)).net.handle = false ∧ ¬ w.WritesPing :=
  (pings_counted ⟨⟨[65], by decide⟩, 1000, 0, 1, 1, none⟩ 0 silentPeer
    pingTwice).2.2.2.2.1 (by decide +kernel) (by decide +kernel) (by decide +kernel)
    (by decide +kernel)

end

end QcloudIot.Mqtt
