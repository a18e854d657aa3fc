import QcloudIot.Mqtt.Application
import QcloudIot.Mqtt.Proofs.Arrival

/-!
# Connected means accepted

A client is connected only while the network connection is open on which its CONNECT was answered
by a CONNACK that accepts it, whatever the application calls and whatever arrives.
-/

namespace QcloudIot.Mqtt

/-- `packet` is a CONNECT. -/
def IsConnect (packet : List UInt8) : Prop :=
  ∃ bufLen options username password,
    serializeConnectPacket bufLen options username password = .ok packet

/-- `packet` is a CONNACK of remaining length 2 with the return code 0. -/
def IsAcceptance (packet : Packet) : Prop :=
  headerType packet.header = MessageType.connack.code ∧ ∃ flags, packet.payload = [flags, 0]

/-- The connection is open and has been accepted: a CONNECT was the first that was sent on it, and
    the first CONNACK that was read, behind whole packets, accepts it. -/
structure Net.Accepted (n : Net) : Prop where
  handle : n.handle = true
  asked : ∃ packet, IsConnect packet ∧ packet <+: n.tx
  answered : ∃ (before : List Packet) (connack : Packet),
    (∀ earlier ∈ before, headerType earlier.header ≠ MessageType.connack.code) ∧
    IsAcceptance connack ∧
    before.flatMap Packet.bytes ++ connack.bytes <+: n.stream.take n.consumed

/-! ## The answer -/

theorem remLenFromBuf_error {buf : List UInt8} {fuel ptr multiplier value : Nat} {rc : Int}
    (failed : remLenFromBuf buf fuel ptr multiplier value = .error rc) :
    rc = qcloudErrMqttPacketRead := by
  induction fuel generalizing ptr multiplier value with
  | zero => exact (Except.error.inj failed).symm
  | succ fuel ih =>
    rw [remLenFromBuf] at failed
    by_cases goesOn : buf.getD ptr 0 &&& 128 ≠ 0
    · rw [if_pos goesOn] at failed
      exact ih failed
    · rw [if_neg goesOn] at failed
      cases failed

/-- No outcome of `_deserialize_connack_packet` is `QCLOUD_RET_SUCCESS`. -/
theorem deserializeConnackPacket_returns (buf : List UInt8) :
    deserializeConnackPacket buf ≠ .error qcloudRetSuccess ∧
      deserializeConnackPacket buf ≠ .ok qcloudRetSuccess := by
  rw [deserializeConnackPacket]
  by_cases short : 4 > buf.length
  · rw [if_pos short]
    exact ⟨nofun, nofun⟩
  rw [if_neg short]
  by_cases other : headerType (buf.getD 0 0) ≠ MessageType.connack.code
  · simp only [if_pos other]
    exact ⟨nofun, nofun⟩
  simp only [if_neg other]
  cases read : mqttReadPacketRemLenFormBuf buf 1 with
  | error rc =>
    rw [remLenFromBuf_error read]
    exact ⟨nofun, nofun⟩
  | ok found =>
    obtain ⟨decodedLen, readBytesLen⟩ := found
    simp only [bind, Except.bind, pure, Except.pure, throw, throwThe, MonadExceptOf.throw]
    by_cases more : 1 + readBytesLen + decodedLen - (1 + readBytesLen) ≠ 2
    · rw [if_pos more]
      exact ⟨nofun, nofun⟩
    · rw [if_neg more]
      refine ⟨nofun, fun returns => ?_⟩
      have inj := Except.ok.inj returns
      split at inj <;> exact absurd inj (by decide)
/-- The CONNACK that `_deserialize_connack_packet` accepts at the front of the buffer. -/
theorem deserializeConnackPacket_accepted {buf : List UInt8} {packet : Packet}
    (isConnack : headerType packet.header = MessageType.connack.code)
    (found : packet.canonical <+: buf)
    (accepted : deserializeConnackPacket buf = .ok qcloudRetMqttConnackConnectionAccepted) :
    IsAcceptance packet := by
  obtain ⟨rest, isBuf⟩ := found
  have small : packet.payload.length ≤ 268435455 := by
    have below := lt_of_lt_of_le (@fieldValue_lt packet.digits)
      (Nat.pow_le_pow_right (show 0 < 128 by decide) packet.short)
    rw [packet.announced] at below
    have limit : (128 : Nat) ^ maxNoOfRemainingLengthBytes = 268435456 := by decide
    omega
  obtain ⟨isField, isValue, -, few⟩ := mqttWritePacketRemLen_field small
  have read := @remLenFromBuf_field _ (packet.payload ++ rest) [packet.header]
    maxNoOfRemainingLengthBytes 1 0 isField few (Nat.le_refl _)
  have behind : [packet.header] ++ mqttWritePacketRemLen packet.payload.length ++
      (packet.payload ++ rest) = buf := by
    rw [← isBuf, Packet.canonical]
    simp only [List.cons_append, List.nil_append, List.append_assoc]
  rw [behind, isValue, Nat.mul_one, Nat.zero_add, Nat.sub_self, Nat.zero_add] at read
  have isHeader : buf.getD 0 0 = packet.header := by
    rw [← isBuf]
    rfl
  rw [deserializeConnackPacket, mqttReadPacketRemLenFormBuf, isHeader, isConnack] at accepted
  by_cases short : 4 > buf.length
  · rw [if_pos short] at accepted
    cases accepted
  rw [if_neg short] at accepted
  simp only [ne_eq, not_true, if_false] at accepted
  change remLenFromBuf buf maxNoOfRemainingLengthBytes 1 1 0 = _ at read
  rw [read] at accepted
  change (if ¬ (1 + (mqttWritePacketRemLen packet.payload.length).length + packet.payload.length -
    (1 + (mqttWritePacketRemLen packet.payload.length).length) = 2) then _ else _) = _ at accepted
  rw [Nat.add_sub_cancel_left] at accepted
  by_cases two : packet.payload.length = 2
  · rw [if_neg (not_not.mpr two)] at accepted
    obtain ⟨flags, code, isPayload⟩ := List.length_eq_two.mp two
    have isCode : buf.getD (1 + (mqttWritePacketRemLen packet.payload.length).length + 1) 0 =
        code := by
      rw [← behind, isPayload]
      generalize mqttWritePacketRemLen [flags, code].length = digits
      have front : ([packet.header] ++ digits).length = 1 + digits.length := by
        rw [List.length_append, List.length_singleton]
      rw [List.getD_append_right _ _ _ _ (by omega), front, Nat.add_sub_cancel_left]
      rfl
    rw [isCode] at accepted
    refine ⟨isConnack, flags, ?_⟩
    have zero : code.toNat = 0 := by
      have inj := Except.ok.inj accepted
      split at inj
      case h_1 zero => exact zero
      all_goals exact absurd inj (by decide)
    rw [isPayload, show code = 0 from UInt8.toNat_inj.mp zero]
  · rw [if_pos two] at accepted
    cases accepted

/-! ## The question -/

/-- A CONNECT is written on a new connection. -/
structure World.Asks (w w' : World) (sent : Except Int Timer) : Prop where
  isConnected : w'.client.isConnected = w.client.isConnected
  readBufSize : w'.client.readBufSize = w.client.readBufSize
  conn : w'.net = w.net ∨ w'.net.conn = w.net.conn + 1
  failed : ∀ rc, sent = .error rc → rc ≠ qcloudRetSuccess
  asked : ∀ timer, sent = .ok timer → w'.net.handle = true ∧ w'.net.consumed = 0 ∧
    ∃ packet, IsConnect packet ∧ packet <+: w'.net.tx

theorem serializeConnectPacket_failed {bufLen : Nat} {options : ConnectParams} {username : CStr}
    {password : Option CStr} {rc : Int}
    (failed : serializeConnectPacket bufLen options username password = .error rc) :
    rc ≠ qcloudRetSuccess := by
  unfold serializeConnectPacket at failed
  by_cases short : getMqttPacketLen (getPacketConnectRemLen options username password) > bufLen
  · rw [if_pos short] at failed
    rw [← Except.error.inj failed]
    decide
  · rw [if_neg short] at failed
    exact absurd failed nofun

theorem serializeConnect_isConnect (w : World) : serializeConnect.wp (fun serialized w' =>
    w'.client = w.client ∧ w'.net = w.net ∧
      (∀ rc, serialized = .error rc → rc ≠ qcloudRetSuccess) ∧
      ∀ packet, serialized = .ok packet → IsConnect packet) w := by
  have refused : ∀ code : Int, code ≠ qcloudRetSuccess →
      ∀ rc, (Except.error code : Except Int (List UInt8)) = .error rc → rc ≠ qcloudRetSuccess := by
    intro code failed rc same
    rw [← Except.error.inj same]
    exact failed
  have none : ∀ code : Int, ∀ packet,
      (Except.error code : Except Int (List UInt8)) = .ok packet → IsConnect packet := by
    intro code packet same
    cases same
  rw [serializeConnect]
  simp only [Prog.wp_bind, wp_client, Prog.wp_ite, Prog.wp_pure, wp_halMalloc, nextCredentials,
    Prog.wp_prim]
  refine ⟨fun _ => ⟨trivial, trivial, refused _ (by decide), none _⟩, fun _ =>
    ⟨fun _ => ⟨rfl, rfl, refused _ (by decide), none _⟩, fun _ => ⟨fun _ => ?_, fun _ => ?_⟩⟩⟩
  all_goals
    refine ⟨fun _ => ⟨rfl, rfl, refused _ (by decide), none _⟩, fun _ => ⟨rfl, rfl,
      fun rc => serializeConnectPacket_failed, fun packet serialized => ?_⟩⟩
    exact ⟨_, _, _, _, serialized⟩

theorem IsConnect.positive {packet : List UInt8} (isConnect : IsConnect packet) :
    0 < packet.length := by
  obtain ⟨bufLen, options, username, password, serialized⟩ := isConnect
  unfold serializeConnectPacket at serialized
  by_cases short : getMqttPacketLen (getPacketConnectRemLen options username password) > bufLen
  · rw [if_pos short] at serialized
    exact absurd serialized nofun
  · rw [if_neg short] at serialized
    rw [← Except.ok.inj serialized]
    simp only [List.cons_append]
    exact Nat.succ_pos _

/-- A new connection, or none. -/
theorem networkConnect_new (w : World) : networkConnect.wp (fun rc w' => w'.client = w.client ∧
    (rc = qcloudRetSuccess → w'.net.conn = w.net.conn + 1 ∧ w'.net.handle = true ∧
      w'.net.consumed = 0 ∧ w'.net.tx = []) ∧
    (rc ≠ qcloudRetSuccess → w'.net = w.net)) w := by
  rw [networkConnect, Prog.wp_prim]
  refine ⟨rfl, fun connected => ?_, fun failed => if_neg failed⟩
  dsimp only at connected ⊢
  rw [if_pos connected]
  exact ⟨rfl, rfl, rfl, rfl⟩

/-- The connection is new, and so far the CONNECT has been sent on it. -/
theorem sendConnect_asks (w : World) (options : ConnectParams) :
    (sendConnect options).wp (fun sent w' => w.Asks w' sent) w := by
  rw [sendConnect]
  simp only [Prog.wp_bind, wp_client, wp_countdownMs, wp_setClient]
  refine Prog.wp_mono (networkConnect_new _) ?_
  rintro rc w₁ ⟨client₁, connected, failed⟩
  rw [Prog.wp_ite, Prog.wp_pure]
  have isConnected₁ : w₁.client.isConnected = w.client.isConnected := by rw [client₁]; rfl
  have size₁ : w₁.client.readBufSize = w.client.readBufSize := by rw [client₁]; rfl
  refine ⟨fun refused => ⟨isConnected₁, size₁, .inl (failed refused), ?_,
    fun _ same => by cases same⟩, fun success => ?_⟩
  · rintro rc' same
    rw [← Except.error.inj same]
    exact refused
  obtain ⟨conn, handle, consumed, tx⟩ := connected (not_not.mp success)
  rw [Prog.wp_bind]
  refine Prog.wp_mono (serializeConnect_isConnect w₁) ?_
  rintro (rc' | packet) w₂ ⟨client₂, net₂, serializeFailed, isConnect⟩
  · dsimp only
    rw [Prog.wp_pure]
    refine ⟨by rw [client₂, isConnected₁], by rw [client₂, size₁], .inr ?_, fun rc'' same =>
      serializeFailed rc'' (congrArg _ (Except.error.inj same)), fun _ same => by cases same⟩
    rw [net₂, conn]
    rfl
  · dsimp only
    rw [Prog.wp_bind, wp_writeToWriteBuf, Prog.wp_bind]
    refine Prog.wp_mono (Prog.wp_and (sendMqttPacket_spec packet.length _ _
      (isConnect packet rfl).positive) (within_wp (sendMqttPacket_onlySends _ _) _)) ?_
    rintro rc' w₃ ⟨⟨sends, transmitted⟩, only⟩
    have net₃ : w₃.net.conn = w.net.conn + 1 := by
      rw [only.net]
      exact (congrArg Net.conn net₂).trans conn
    have isConnected₃ : w₃.client.isConnected = w.client.isConnected := by
      rw [only.client]
      exact (congrArg Client.isConnected client₂).trans isConnected₁
    have size₃ : w₃.client.readBufSize = w.client.readBufSize := by
      rw [only.client]
      exact (congrArg Client.readBufSize client₂).trans size₁
    rw [Prog.wp_ite, Prog.wp_pure, Prog.wp_pure]
    refine ⟨fun sendFailed => ⟨isConnected₃, size₃, .inr net₃, ?_, fun _ same => by cases same⟩,
      fun success => ⟨isConnected₃, size₃, .inr net₃, fun _ same => (by cases same), fun _ _ =>
        ⟨?_, ?_, packet, isConnect packet rfl, ?_⟩⟩⟩
    · rintro rc'' same
      rw [← Except.error.inj same]
      exact sendFailed
    · rw [only.net]
      exact (congrArg Net.handle net₂).trans handle
    · rw [only.net]
      exact (congrArg Net.consumed net₂).trans consumed
    · obtain ⟨sent, enough, -, isTx, -⟩ := transmitted (not_not.mp success)
      have room : packet.length < (overwrite w₂.client.writeBuf 0 packet).length :=
        (sends.mp (not_not.mp success)).1
      rw [length_overwrite] at room
      have empty : w₂.net.tx = [] := by rw [net₂, tx]
      rw [isTx]
      change packet <+: w₂.net.tx ++
        (overwrite w₂.client.writeBuf 0 packet ++ w₂.client.readBuf).take sent
      rw [empty, List.nil_append]
      exact prefix_take_overwrite _ (Nat.le_of_lt room) enough

/-! ## The handshake -/

/-- The connection is accepted only if the CONNACK in `read_buf` says so. -/
theorem readConnack_accepts (w : World) : readConnack.wp (fun rc w' => w'.net = w.net ∧
    w'.client.readBufSize = w.client.readBufSize ∧
    (rc = qcloudRetSuccess → deserializeConnackPacket w.client.readBuf =
      .ok qcloudRetMqttConnackConnectionAccepted) ∧
    (rc ≠ qcloudRetSuccess → w'.client.isConnected = w.client.isConnected)) w := by
  obtain ⟨noError, noSuccess⟩ := deserializeConnackPacket_returns w.client.readBuf
  rw [readConnack, Prog.wp_bind, wp_client]
  cases read : deserializeConnackPacket w.client.readBuf with
  | error rc =>
    refine ⟨rfl, rfl, fun success => ?_, fun _ => rfl⟩
    change rc = qcloudRetSuccess at success
    exact absurd (read.trans (congrArg _ success)) noError
  | ok connackRc =>
    dsimp only
    rw [Prog.wp_ite, Prog.wp_pure]
    refine ⟨fun refused => ⟨rfl, rfl, fun success => ?_, fun _ => rfl⟩, fun accepted => ?_⟩
    · exact absurd (read.trans (congrArg _ success)) noSuccess
    · rw [acceptConnection]
      simp only [Prog.wp_bind, wp_setClientConnState, wp_client, wp_countdown, wp_setClient,
        Prog.wp_pure]
      exact ⟨rfl, rfl, fun _ => congrArg _ (not_not.mp accepted), fun failed => absurd rfl failed⟩

/-- A handshake that succeeds has been accepted. -/
theorem mqttConnect_accepted {w : World} (room : 6 ≤ w.client.readBufSize)
    (options : ConnectParams) : (mqttConnect options).wp (fun rc w' =>
      w'.client.readBufSize = w.client.readBufSize ∧ (rc = qcloudRetSuccess → w'.net.Accepted)) w := by
  rw [mqttConnect, Prog.wp_bind]
  refine Prog.wp_mono (sendConnect_asks w options) ?_
  rintro (rc | timer) w₁ asks
  · exact ⟨asks.readBufSize, fun success => absurd success (asks.failed rc rfl)⟩
  · obtain ⟨handle, consumed, packet, isConnect, isSent⟩ := asks.asked timer rfl
    have room₁ : 6 ≤ w₁.client.readBufSize := by
      rw [asks.readBufSize]
      exact room
    dsimp only
    rw [Prog.wp_bind]
    refine Prog.wp_mono (Prog.wp_and (waitForRead_hears room₁ MessageType.connack.code timer)
      (within_wp (waitForRead_keepsLink _ _) w₁)) ?_
    rintro ⟨rc, timer'⟩ w₂ ⟨hears, keeps⟩
    have size₂ := keeps.readBufSize.trans asks.readBufSize
    dsimp only
    rw [Prog.wp_ite, Prog.wp_pure]
    refine ⟨fun failed => ⟨size₂, fun success => absurd success failed⟩, fun success => ?_⟩
    obtain ⟨before, connack, others, isConnack, found, consumes⟩ := hears (not_not.mp success)
    refine Prog.wp_mono (readConnack_accepts w₂) ?_
    rintro rc' w₃ ⟨net₃, size₃, accepts, -⟩
    refine ⟨size₃.trans size₂, fun accepted => ?_⟩
    rw [net₃]
    refine ⟨?_, ⟨packet, isConnect, isSent.trans keeps.grows⟩, before, connack, others,
      deserializeConnackPacket_accepted isConnack found (accepts accepted), ?_⟩
    · rw [keeps.net]
      exact handle
    · obtain ⟨rest, isRx⟩ := consumes.sent
      rw [Net.rx, consumed, List.drop_zero] at isRx
      rw [consumes.stream, consumes.consumed, consumed, Nat.zero_add, ← isRx, List.take_left]

/-- A handshake that fails leaves `is_connected` alone. -/
theorem mqttConnect_failed (w : World) (options : ConnectParams) :
    (mqttConnect options).wp (fun rc w' => rc ≠ qcloudRetSuccess →
      w'.client.isConnected = w.client.isConnected) w := by
  rw [mqttConnect, Prog.wp_bind]
  refine Prog.wp_mono (sendConnect_asks w options) ?_
  rintro (rc | timer) w₁ asks
  · exact fun _ => asks.isConnected
  · dsimp only
    rw [Prog.wp_bind]
    refine Prog.wp_mono (within_wp (waitForRead_keepsLink _ timer) w₁) ?_
    rintro ⟨rc, timer'⟩ w₂ keeps
    have same := keeps.isConnected.trans asks.isConnected
    dsimp only
    rw [Prog.wp_ite, Prog.wp_pure]
    refine ⟨fun _ _ => same, fun _ => ?_⟩
    refine Prog.wp_mono (readConnack_accepts w₂) ?_
    rintro rc' w₃ ⟨-, -, -, unchanged⟩ failed
    exact (unchanged failed).trans same

/-! ## Every call -/

/-- A connected client has been accepted. -/
structure World.LinkSound (w : World) : Prop where
  room : 6 ≤ w.client.readBufSize
  accepted : w.client.isConnected = true → w.net.Accepted

/-- What is left of a sound link is sound. -/
def World.KeepsSound (w w' : World) : Prop := w.LinkSound → w'.LinkSound

instance : Std.Refl World.KeepsSound := ⟨fun _ => id⟩

instance : IsTrans World World.KeepsSound where
  trans _ _ _ first second := second ∘ first

theorem World.LinkSound.congr {w w' : World} (sound : w.LinkSound)
    (isConnected : w'.client.isConnected = w.client.isConnected)
    (readBufSize : w'.client.readBufSize = w.client.readBufSize) (net : w'.net = w.net) :
    w'.LinkSound where
  room := by
    rw [readBufSize]
    exact sound.room
  accepted up := by
    rw [net]
    exact sound.accepted (isConnected.symm.trans up)

/-- Bytes that are sent and consumed later do not matter. -/
theorem World.KeepsLink.sound {w w' : World} (keeps : w.KeepsLink w') : w.KeepsSound w' := by
  intro sound
  refine ⟨by rw [keeps.readBufSize]; exact sound.room, fun up => ?_⟩
  obtain ⟨handle, ⟨packet, isConnect, isSent⟩, before, connack, others, isAcceptance, isRead⟩ :=
    sound.accepted (keeps.isConnected.symm.trans up)
  refine ⟨?_, ⟨packet, isConnect, isSent.trans keeps.grows⟩, before, connack, others,
    isAcceptance, isRead.trans ?_⟩
  · rw [keeps.net]
    exact handle
  · rw [keeps.net]
    exact List.take_prefix_take_left keeps.consumed

theorem World.Dropped.sound {w w' : World} (dropped : w.Dropped w') : w.KeepsSound w' := by
  intro sound
  refine ⟨by rw [dropped.readBufSize]; exact sound.room, fun up => ?_⟩
  rw [dropped.isConnected] at up
  exact absurd up (by decide)

/-- `qcloud_iot_mqtt_connect` leaves a connection that was accepted, or none. -/
theorem qcloudIotMqttConnect_sound (params : ConnectParams) :
    Prog.Within World.KeepsSound (qcloudIotMqttConnect params) := by
  intro w sound
  change (qcloudIotMqttConnect params).wp (fun _ w' => w'.LinkSound) w
  rw [qcloudIotMqttConnect]
  simp only [Prog.wp_bind, wp_getClientConnState, Prog.wp_ite, Prog.wp_pure]
  refine ⟨fun _ => sound, fun down => ?_⟩
  refine Prog.wp_mono (Prog.wp_and (mqttConnect_accepted sound.room params)
    (mqttConnect_failed w params)) ?_
  rintro rc w₁ ⟨⟨size, accepted⟩, unchanged⟩
  have room₁ : 6 ≤ w₁.client.readBufSize := by
    rw [size]
    exact sound.room
  rw [Prog.wp_ite, Prog.wp_pure, Prog.wp_bind]
  refine ⟨fun failed => ⟨room₁, fun up => ?_⟩, fun success =>
    ⟨room₁, fun _ => accepted (not_not.mp success)⟩⟩
  exact absurd ((unchanged failed).symm.trans up) down

/-- An error of `qcloud_iot_mqtt_connect` leaves the client disconnected and the network
    connection closed. -/
theorem qcloudIotMqttConnect_failed (w : World) (params : ConnectParams) :
    (qcloudIotMqttConnect params).wp (fun rc w' => rc < 0 →
      w'.client.isConnected = false ∧ w'.net.handle = false) w := by
  rw [qcloudIotMqttConnect]
  simp only [Prog.wp_bind, wp_getClientConnState, Prog.wp_ite, Prog.wp_pure]
  refine ⟨fun _ negative => absurd negative (by decide), fun down => ?_⟩
  refine Prog.wp_mono (mqttConnect_failed w params) fun rc w₁ unchanged => ?_
  rw [Prog.wp_ite, Prog.wp_pure, Prog.wp_bind]
  refine ⟨fun failed _ => ⟨?_, rfl⟩, fun success negative => ?_⟩
  · exact (unchanged failed).trans (Bool.eq_false_iff.mpr down)
  · rw [not_not.mp success] at negative
    exact absurd negative (by decide)

/-! ## The main loop -/

theorem qcloudIotMqttAttemptReconnect_sound :
    Prog.Within World.KeepsSound qcloudIotMqttAttemptReconnect := by
  refine .bind (fun w => refl_of _ w) fun _ => .ite (.pure _) (.bind client_within fun c => ?_)
  refine .bind (qcloudIotMqttConnect_sound _) fun _ => .bind (fun w => refl_of _ w) fun _ => ?_
  refine .ite (.pure _) (.bind ?_ fun _ => .ite (.pure _) (.pure _))
  exact qcloudIotMqttResubscribe_keepsPing.mono fun _ _ h => h.toKeepsLink.sound

theorem countdownMs_sound (timeoutMs : Nat) :
    Prog.Within World.KeepsSound (countdownMs timeoutMs) :=
  (countdownMs_keepsPing timeoutMs).mono fun _ _ h => h.toKeepsLink.sound

theorem handleReconnect_sound : Prog.Within World.KeepsSound handleReconnect := by
  have postpone : Prog.Within World.KeepsSound postponeReconnect := by
    refine .bind (fun _ sound => sound.congr rfl rfl rfl) fun _ => .bind client_within fun c => ?_
    refine .ite (.pure _) (.bind (countdownMs_sound _) fun timer => .bind ?_ fun _ => .pure _)
    exact fun _ sound => sound.congr rfl rfl rfl
  refine .bind client_within fun c => .bind ?_ fun _ => .ite (.pure _) ?_
  · exact (expired_keepsPing _).mono fun _ _ h => h.toKeepsLink.sound
  · refine .bind qcloudIotMqttAttemptReconnect_sound fun rc => .ite (.bind ?_ fun _ => .pure _)
        postpone
    exact (notify_keepsPing _ _).mono fun _ _ h => h.toKeepsLink.sound

theorem afterRead_sound (rc : Int) : Prog.Within World.KeepsSound (afterRead rc) := by
  refine .ite (.bind (fun _ sound => sound.congr rfl rfl rfl) fun _ => ?_) (.pure _)
  refine .bind client_within fun c => .ite ?_ (.pure _)
  refine .bind (.bind (fun _ sound => sound.congr rfl rfl rfl) fun _ => .pure _) fun interval => ?_
  refine .bind (countdownMs_sound _) fun timer => .bind ?_ fun _ => .pure _
  exact fun _ sound => sound.congr rfl rfl rfl

/-- One round of the main loop. -/
theorem yieldRound_sound (rc : Int) (timer : Timer) :
    Prog.Within World.KeepsSound (yieldRound rc timer) := by
  intro w sound
  change (yieldRound rc timer).wp (fun _ w' => w'.LinkSound) w
  have ticked : w.tick.LinkSound := w.keepsLink_tick.sound sound
  rw [yieldRound]
  simp only [Prog.wp_bind, wp_expired, Prog.wp_ite, Prog.wp_pure, wp_getClientConnState, wp_client]
  refine ⟨fun _ => ticked, fun _ => ⟨fun _ => ⟨fun _ => ticked, fun _ => ?_⟩, fun up => ?_⟩⟩
  · exact handleReconnect_sound w.tick ticked
  · refine Prog.wp_mono (readRound_spec (w := w.tick) (by simpa using up) timer) ?_
    rintro ⟨rc', timer'⟩ w₁ outcome
    have sound₁ : w₁.LinkSound := by
      rcases outcome with keeps | ⟨-, dropped⟩
      · exact keeps.sound ticked
      · exact dropped.sound ticked
    exact afterRead_sound rc' w₁ sound₁

/-- The main loop. Induction on its rounds. -/
theorem yieldLoop_sound (fuel : Nat) (rc : Int) (timer : Timer) :
    Prog.Within World.KeepsSound (yieldLoop fuel rc timer) := by
  induction fuel generalizing rc timer with
  | zero => exact .pure _
  | succ fuel ih =>
    exact .bind (yieldRound_sound rc timer) fun _ => .ite (ih _ _) (.pure _)

theorem qcloudIotMqttYield_sound (fuel timeoutMs : Nat) :
    Prog.Within World.KeepsSound (qcloudIotMqttYield fuel timeoutMs) := by
  refine .ite (.pure _) (.bind client_within fun c => .ite (.pure _) (.ite (.pure _) ?_))
  exact .bind (countdownMs_sound _) fun timer => yieldLoop_sound fuel _ timer

/-- One call of the application. -/
theorem ApiCall.sound (call : ApiCall) : Prog.Within World.KeepsSound call.prog := by
  have requests : ∀ {α : Type} {m : Sdk α}, Prog.Within World.KeepsPing m →
      Prog.Within World.KeepsSound m := fun keeps => keeps.mono fun _ _ h => h.toKeepsLink.sound
  cases call with
  | connect params => exact qcloudIotMqttConnect_sound params
  | disconnect =>
    intro w
    rcases qcloudIotMqttDisconnect_spec w with ⟨-, keeps⟩ | ⟨-, dropped⟩
    · exact keeps.sound
    · exact dropped.sound
  | yield fuel timeoutMs => exact qcloudIotMqttYield_sound fuel timeoutMs
  | setAutoreconnect value =>
    exact .bind (fun _ sound => sound.congr rfl rfl rfl) fun _ => .pure _
  | publish topicName params => exact requests (qcloudIotMqttPublish_keepsPing topicName params)
  | subscribe topicFilter params =>
    exact requests (qcloudIotMqttSubscribe_keepsPing topicFilter params)
  | unsubscribe topicFilter => exact requests (qcloudIotMqttUnsubscribe_keepsPing topicFilter)

theorem application_sound {w : World} (sound : w.LinkSound) (calls : List ApiCall) :
    (application.exec w calls).LinkSound := by
  induction calls generalizing w with
  | nil => exact sound
  | cons call calls ih => exact ih (call.sound w sound)

theorem qcloudIotMqttInit_sound (params : MqttInitParams) (random : Nat) (env : Env) :
    (World.initial (qcloudIotMqttInit params random) env).LinkSound where
  room := by
    change 6 ≤ (List.replicate qcloudIotMqttRxBufLen (0 : UInt8)).length
    rw [List.length_replicate]
    decide
  accepted := nofun

/-- In every state that calls lead to, a connected client has been accepted on the connection that
    is open, on which the CONNECT was the first to be written; and a connect that fails leaves the
    client disconnected and the network connection closed. -/
theorem connected_accepted (init : MqttInitParams) (random : Nat) (env : Env)
    (calls : List ApiCall) :
    let w := application.exec (.initial (qcloudIotMqttInit init random) env) calls
    (w.client.isConnected = true → w.net.Accepted) ∧
      (∀ params, (qcloudIotMqttConnect params).wp (fun rc w' => rc < 0 →
        w'.client.isConnected = false ∧ w'.net.handle = false) w) ∧
      ∀ options, (sendConnect options).wp (fun _ w' =>
        w'.net = w.net ∨ w'.net.conn = w.net.conn + 1) w := by
  intro w
  refine ⟨(application_sound (qcloudIotMqttInit_sound init random env) calls).accepted,
    qcloudIotMqttConnect_failed w, fun options => ?_⟩
  exact Prog.wp_mono (sendConnect_asks w options) fun _ _ asks => asks.conn

/-- Surroundings in which one connection is made, and accepted by a CONNACK. -/
def acceptingPeer : Env :=
  { Env.exhausted with
      connects := [{ rc := qcloudRetSuccess, stream := [0x20, 0x02, 0x00, 0x00] }]
      writes := [{ rc := qcloudRetSuccess, written := 64 }]
      reads := List.replicate 3 { avail := 4, err := qcloudErrTcpReadFail,
                                   negative := qcloudErrTcpReadFail_negative,
                                   driver := qcloudErrTcpReadFail_driver } }

theorem connected_accepted_once :
    (application.exec (.initial (qcloudIotMqttInit ⟨⟨[65], by decide⟩, 1000, 0, 1, 1, none⟩ 0)
      acceptingPeer) [.connect connectOptions]).net.Accepted :=
  (connected_accepted ⟨⟨[65], by decide⟩, 1000, 0, 1, 1, none⟩ 0 acceptingPeer
    [.connect connectOptions]).1 (by decide +kernel)

end QcloudIot.Mqtt
