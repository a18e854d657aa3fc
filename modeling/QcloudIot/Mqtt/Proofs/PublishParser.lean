import QcloudIot.Mqtt.Net

/-!
# What the PUBLISH parser accepts

`_read_mqtt_packet` leaves a packet at the front of `read_buf`, with its remaining length
encoded canonically; `deserialize_publish_packet` is given the whole of `read_buf`. The
parser checks that the topic lies in the packet, and neither the value 3 of the QoS bits
nor that the packet id lies in the packet.
-/

namespace QcloudIot.Mqtt

/-! ## The remaining length -/

theorem lastDigit_bits : ∀ digit < 128,
    (UInt8.ofNat digit &&& 127).toNat = digit ∧ UInt8.ofNat digit &&& 128 = 0 := by
  decide

theorem innerDigit_bits : ∀ digit < 128,
    ((UInt8.ofNat digit ||| 0x80) &&& 127).toNat = digit ∧
      (UInt8.ofNat digit ||| 0x80) &&& 128 ≠ 0 := by
  decide

theorem getD_append_length (before after : List UInt8) (byte : UInt8) :
    (before ++ byte :: after).getD before.length 0 = byte := by
  simp

/-- The decoder stops at a digit that no other one follows. -/
theorem remLenFromBuf_lastDigit (before tail : List UInt8) {n : Nat} (digits fuel : Nat)
    (multiplier value : Nat) (small : n < 128) (bound : fuel < maxNoOfRemainingLengthBytes) :
    remLenFromBuf (before ++ remLenDigits (digits + 1) n ++ tail) (fuel + 1) before.length
        multiplier value =
      .ok (value + n * multiplier,
        maxNoOfRemainingLengthBytes - (fuel + 1) + (remLenDigits (digits + 1) n).length) := by
  have digit : n % 128 = n := Nat.mod_eq_of_lt small
  have last : ¬ n / 128 > 0 := by omega
  have count : maxNoOfRemainingLengthBytes - fuel =
      maxNoOfRemainingLengthBytes - (fuel + 1) + 1 := by
    omega
  rw [remLenDigits, if_neg last, digit, List.append_assoc, List.singleton_append, remLenFromBuf,
    getD_append_length]
  simp only [(lastDigit_bits n small).1, (lastDigit_bits n small).2, ne_eq, not_true_eq_false,
    if_false, List.length_singleton]
  rw [count]

/-- The loop of the decoder gives back the number whose digits it reads. -/
theorem remLenFromBuf_digits (tail : List UInt8) :
    ∀ (digits n fuel : Nat) (before : List UInt8) (multiplier value : Nat),
      n < 128 ^ (digits + 1) → n < 128 ^ (fuel + 1) → fuel < maxNoOfRemainingLengthBytes →
      remLenFromBuf (before ++ remLenDigits (digits + 1) n ++ tail) (fuel + 1) before.length
          multiplier value =
        .ok (value + n * multiplier,
          maxNoOfRemainingLengthBytes - (fuel + 1) + (remLenDigits (digits + 1) n).length) := by
  intro digits
  induction digits with
  | zero =>
    intro n fuel before multiplier value fits _ bound
    have small : n < 128 := by simpa using fits
    exact remLenFromBuf_lastDigit before tail 0 fuel multiplier value small bound
  | succ digits ih =>
    intro n fuel before multiplier value fits reads bound
    by_cases last : n / 128 > 0
    · have small : n % 128 < 128 := Nat.mod_lt _ (by omega)
      have again : fuel ≠ 0 := by
        intro none
        subst none
        omega
      obtain ⟨fuel, rfl⟩ := Nat.exists_eq_succ_of_ne_zero again
      have fits' : n / 128 < 128 ^ (digits + 1) := by
        rw [Nat.div_lt_iff_lt_mul (by omega), ← Nat.pow_succ]
        exact fits
      have reads' : n / 128 < 128 ^ (fuel + 1) := by
        rw [Nat.div_lt_iff_lt_mul (by omega), ← Nat.pow_succ]
        exact reads
      have rest := ih (n / 128) fuel (before ++ [UInt8.ofNat (n % 128) ||| 0x80])
        (multiplier * 128) (value + n % 128 * multiplier) fits' reads' (by omega)
      have sum : value + n % 128 * multiplier + n / 128 * (multiplier * 128) =
          value + n * multiplier := by
        calc value + n % 128 * multiplier + n / 128 * (multiplier * 128)
            = value + (n % 128 + 128 * (n / 128)) * multiplier := by ring
          _ = value + n * multiplier := by rw [Nat.mod_add_div]
      rw [remLenDigits, if_pos last, List.append_assoc, List.cons_append, remLenFromBuf,
        getD_append_length]
      simp only [(innerDigit_bits _ small).1]
      rw [if_pos (innerDigit_bits _ small).2]
      simp only [List.append_assoc, List.nil_append, List.cons_append, List.length_append,
        List.length_singleton] at rest
      rw [rest, List.length_cons, sum]
      congr 2
      omega
    · exact remLenFromBuf_lastDigit before tail (digits + 1) fuel multiplier value (by omega) bound

/-- The decoder of the buffer gives back what `mqtt_write_packet_rem_len` wrote. -/
theorem mqttReadPacketRemLenFormBuf_written (first : UInt8) (tail : List UInt8) {n : Nat}
    (fits : n < 128 ^ maxNoOfRemainingLengthBytes) :
    mqttReadPacketRemLenFormBuf (first :: mqttWritePacketRemLen n ++ tail) 1 =
      .ok (n, (mqttWritePacketRemLen n).length) := by
  have decoded := remLenFromBuf_digits tail 4 n 3 [first] 1 0
    (lt_trans fits (by decide)) fits (by decide)
  simpa [mqttReadPacketRemLenFormBuf, mqttWritePacketRemLen] using decoded

/-! ## What a successful read leaves in the buffer -/

/-- Bytes that fit are found where they were stored. -/
theorem overwrite_behind (before buf bytes : List UInt8) (fits : bytes.length ≤ buf.length) :
    overwrite (before ++ buf) before.length bytes = before ++ bytes ++ buf.drop bytes.length := by
  rw [overwrite, List.take_left, List.take_of_length_le]
  · simp [List.drop_append]
  · simp only [List.length_append, List.length_drop]
    omega

/-- The remaining length and the bytes it announces are stored behind the header byte. -/
theorem overwrite_packet (header : UInt8) (old digits body : List UInt8)
    (fits : digits.length + body.length ≤ old.length) :
    overwrite (overwrite (header :: old) 1 digits) (1 + digits.length) body =
      header :: digits ++ (body ++ old.drop (digits.length + body.length)) := by
  have first : overwrite (header :: old) 1 digits = header :: digits ++ old.drop digits.length :=
    overwrite_behind [header] old digits (by omega)
  have front : 1 + digits.length = (header :: digits).length := by
    rw [List.length_cons, Nat.add_comm]
  rw [first, front, overwrite_behind _ _ _ (by rw [List.length_drop]; omega), List.drop_drop,
    List.append_assoc]

/-- A successful read delivers as many bytes as were asked for. -/
theorem networkRead_spec (len : Nat) (w : World) :
    (networkRead len).wp (fun (rc, data) w' =>
      w'.client = w.client ∧ (rc = qcloudRetSuccess → data.length = len)) w := by
  refine ⟨rfl, fun success => ?_⟩
  by_contra short
  have failed : (w.env.reads.headD { avail := 0, err := qcloudErrTcpReadFail }).err =
      qcloudRetSuccess := by
    rw [networkRead, Prog.run_prim] at success short
    simpa only [if_neg short] using success
  have negative := (w.env.reads.headD { avail := 0, err := qcloudErrTcpReadFail }).negative
  rw [failed] at negative
  exact absurd negative (by decide)

instance : Std.Refl fun w w' : World => w'.client = w.client := ⟨fun _ => rfl⟩

instance : IsTrans World fun w w' => w'.client = w.client where
  trans _ _ _ first second := second.trans first

theorem remLenFromNet_client (fuel multiplier value : Nat) :
    Prog.Within (fun w w' : World => w'.client = w.client) (remLenFromNet fuel multiplier value) := by
  induction fuel generalizing multiplier value with
  | zero => exact .pure _
  | succ fuel ih =>
    have read : Prog.Within (fun w w' : World => w'.client = w.client) (networkRead 1) :=
      fun _ => rfl
    exact .bind read fun _ => .ite (.pure _) (.ite (ih _ _) (.pure _))

/-- The encoding of a remaining length takes one to five bytes. -/
theorem length_remLenDigits_pos (digits n : Nat) : 0 < (remLenDigits (digits + 1) n).length := by
  rw [remLenDigits]
  split <;> simp

/-- What a successful `_read_mqtt_packet` leaves in `read_buf`: a header byte, the remaining
    length in canonical form, and as many bytes as it says. -/
theorem readMqttPacket_leaves (w : World) (size : w.client.readBuf.length = qcloudIotMqttRxBufLen) :
    readMqttPacket.wp (fun (rc, packetType) w' => rc = qcloudRetSuccess →
      ∃ header body stale, packetType = some (headerType header) ∧
        w'.client.readBuf = header :: mqttWritePacketRemLen body.length ++ (body ++ stale) ∧
        w'.client.readBuf.length = qcloudIotMqttRxBufLen) w := by
  simp only [readMqttPacket, Prog.wp_bind]
  refine Prog.wp_mono (networkRead_spec 1 w) ?_
  rintro ⟨rc, first⟩ w₁ ⟨client₁, full₁⟩
  simp only [wp_writeToReadBuf, Prog.wp_ite, Prog.wp_pure, Prog.wp_bind]
  refine ⟨fun _ success => absurd success (by decide), fun _ => ⟨fun failed success =>
    absurd success failed, fun success₁ => ?_⟩⟩
  -- the header byte is stored in front of what `read_buf` held before
  obtain ⟨header, rfl⟩ := List.length_eq_one_iff.mp (full₁ (not_not.mp success₁))
  obtain ⟨old, room, stored⟩ : ∃ old : List UInt8, old.length + 1 = qcloudIotMqttRxBufLen ∧
      overwrite w₁.client.readBuf 0 [header] = header :: old := by
    refine ⟨w.client.readBuf.drop 1, ?_, ?_⟩
    · rw [List.length_drop, size]
      rfl
    · rw [client₁]
      exact overwrite_behind [] _ [header] (by simp [size])
  rw [stored]
  refine Prog.wp_mono (Prog.within_iff_wp.mp (remLenFromNet_client _ _ _) _) ?_
  rintro ⟨rc, remLen⟩ w₂ client₂
  have held : w₂.client.readBuf = header :: old := by rw [client₂, World.setClient_client]
  simp only [Prog.wp_bind, Prog.wp_ite, Prog.wp_pure, wp_client, wp_writeToReadBuf,
    World.setClient_client, Client.readBufSize, held, List.length_cons, room]
  have tooShort : ¬ qcloudErrBufTooShort = qcloudRetSuccess := by decide
  refine ⟨fun failed success => absurd success failed, fun _ => ⟨fun _ success =>
    absurd success tooShort, fun fits => ⟨fun _ success => absurd success tooShort,
      fun fits' => ⟨fun some => ?_, fun none _ => ?_⟩⟩⟩⟩
  · refine Prog.wp_mono (networkRead_spec remLen _) ?_
    rintro ⟨rc, body⟩ w₃ ⟨client₃, full₃⟩
    simp only [Prog.wp_bind, Prog.wp_ite, Prog.wp_pure, wp_client, wp_writeToReadBuf,
      World.setClient_client]
    refine ⟨fun failed success => absurd success failed, fun success _ => ?_⟩
    have length := full₃ (not_not.mp success)
    rw [client₃, World.setClient_client]
    have stored := overwrite_packet header old (mqttWritePacketRemLen remLen) body (by omega)
    refine ⟨header, body, old.drop ((mqttWritePacketRemLen remLen).length + body.length), ?_, ?_,
      ?_⟩
    · rw [stored]
      rfl
    · rw [stored, length]
    · simp only [length_overwrite, List.length_cons, room]
  · have noBody : remLen = 0 := by omega
    have digits : (mqttWritePacketRemLen remLen).length ≤ old.length := by
      rw [noBody]
      have one : (mqttWritePacketRemLen 0).length = 1 := by decide
      have size : qcloudIotMqttRxBufLen = 2048 := rfl
      omega
    have stored : overwrite (header :: old) 1 (mqttWritePacketRemLen remLen) =
        header :: mqttWritePacketRemLen remLen ++ old.drop (mqttWritePacketRemLen remLen).length :=
      overwrite_behind [header] old _ digits
    refine ⟨header, [], old.drop (mqttWritePacketRemLen remLen).length, ?_, ?_, ?_⟩
    · rw [stored]
      rfl
    · rw [stored, noBody]
      rfl
    · simp only [length_overwrite, List.length_cons, room]

/-! ## Packets in the read buffer -/

/-- A PUBLISH packet as `_read_mqtt_packet` leaves it in `read_buf`: the fixed header with a
    canonical remaining length, the bytes it announces, and the old bytes behind them. -/
structure PublishFrame where
  header : UInt8
  body : List UInt8
  stale : List UInt8
  isPublish : headerType header = MessageType.publish.code
  fills : 1 + (mqttWritePacketRemLen body.length).length + body.length + stale.length =
    qcloudIotMqttRxBufLen

namespace PublishFrame

variable (frame : PublishFrame)

/-- The contents of `read_buf`. -/
def buf : List UInt8 :=
  frame.header :: mqttWritePacketRemLen frame.body.length ++ (frame.body ++ frame.stale)

/-- The QoS bits of the fixed header. -/
def qos : UInt8 := (frame.header &&& 0x06) >>> (1 : UInt8)

/-- Where the bytes announced by the remaining length begin. -/
def start : Nat := 1 + (mqttWritePacketRemLen frame.body.length).length

/-- The length of the topic announced by the first two bytes of the body. -/
def topicLength : Nat := (mqttReadUint16 frame.body 0).toNat

/-- The two length bytes and the topic lie inside the packet. -/
def HoldsTopic : Prop :=
  2 ≤ frame.body.length ∧ frame.topicLength ≤ qcloudIotMqttRxBufLen ∧
    2 + frame.topicLength ≤ frame.body.length

/-- The packet id behind the topic lies inside the packet. -/
def HoldsPacketId : Prop := 2 + frame.topicLength + 2 ≤ frame.body.length

/-- A PUBLISH packet as the protocol has it. -/
def WellFormed : Prop :=
  frame.qos ≠ 3 ∧ frame.HoldsTopic ∧ (frame.qos ≠ QoS.qos0.code → frame.HoldsPacketId)

/-- The parser accepts exactly the well-formed packets, and what it returns are slices of the
    packet: the topic, and all that is left after topic and packet id. -/
def ParsedExactly (id : UInt16) : Prop :=
  match deserializePublishPacket frame.buf id with
  | .error _ => ¬ frame.WellFormed
  | .ok (msg, topicName, topicLen) =>
    frame.WellFormed ∧ topicName = frame.start + 2 ∧ topicLen = frame.topicLength ∧
      topicName + topicLen ≤ msg.payload ∧
      msg.payload + msg.payloadLen = frame.start + frame.body.length

/-- Every PUBLISH that `_read_mqtt_packet` reads is left as such a frame. -/
theorem readMqttPacket_leavesFrame (w : World)
    (size : w.client.readBuf.length = qcloudIotMqttRxBufLen) :
    readMqttPacket.wp (fun (rc, packetType) w' => rc = qcloudRetSuccess →
      packetType = some MessageType.publish.code →
      ∃ frame : PublishFrame, w'.client.readBuf = frame.buf) w := by
  refine Prog.wp_mono (readMqttPacket_leaves w size) ?_
  rintro ⟨rc, packetType⟩ w' leaves success isPublish
  obtain ⟨header, body, stale, found, stored, size'⟩ := leaves success
  have type : headerType header = MessageType.publish.code :=
    Option.some.inj (found.symm.trans isPublish)
  refine ⟨⟨header, body, stale, type, ?_⟩, stored⟩
  rw [← size', stored]
  simp only [List.length_append, List.length_cons]
  omega

instance : Decidable frame.HoldsTopic := inferInstanceAs (Decidable (_ ∧ _))

instance : Decidable frame.HoldsPacketId := inferInstanceAs (Decidable (_ ≤ _))

theorem body_lt : frame.body.length < 128 ^ maxNoOfRemainingLengthBytes := by
  have fills := frame.fills
  have : qcloudIotMqttRxBufLen < 128 ^ maxNoOfRemainingLengthBytes := by decide
  omega

theorem length_buf : frame.buf.length = qcloudIotMqttRxBufLen := by
  rw [← frame.fills, buf]
  simp only [List.length_append, List.length_cons]
  omega

/-- The remaining length is read as it was written. -/
theorem readRemLen : mqttReadPacketRemLenFormBuf frame.buf 1 =
    .ok (frame.body.length, (mqttWritePacketRemLen frame.body.length).length) :=
  mqttReadPacketRemLenFormBuf_written frame.header _ frame.body_lt

/-- A byte of the body is found behind the fixed header. -/
theorem getD_buf {i : Nat} (inside : i < frame.body.length) :
    frame.buf.getD (frame.start + i) 0 = frame.body.getD i 0 := by
  have front : (frame.header :: mqttWritePacketRemLen frame.body.length).length = frame.start := by
    rw [List.length_cons, start, Nat.add_comm]
  rw [buf, List.getD_append_right _ _ _ _ (by omega), front, Nat.add_sub_cancel_left,
    List.getD_append _ _ _ _ inside]

theorem readTopicLength (room : 2 ≤ frame.body.length) :
    (mqttReadUint16 frame.buf frame.start).toNat = frame.topicLength := by
  have first := frame.getD_buf (i := 0) (by omega)
  have second := frame.getD_buf (i := 1) (by omega)
  rw [topicLength, mqttReadUint16, mqttReadUint16, second, Nat.zero_add, ← first, Nat.add_zero]

/-- The topic is found exactly if it lies in the packet. -/
theorem readTopic : readStringWithLen frame.buf frame.start (frame.start + frame.body.length) =
    if frame.HoldsTopic then
      .ok (frame.start + 2, frame.topicLength, frame.start + 2 + frame.topicLength)
    else .error qcloudErrFailure := by
  by_cases room : 2 ≤ frame.body.length
  · rw [readStringWithLen, if_pos (by omega), frame.readTopicLength room]
    by_cases long : frame.topicLength > qcloudIotMqttRxBufLen
    · have without : ¬ frame.HoldsTopic := fun ⟨_, short, _⟩ => by omega
      rw [if_pos long, if_neg without]
    · by_cases inside : 2 + frame.topicLength ≤ frame.body.length
      · have holds : frame.HoldsTopic := ⟨room, by omega, inside⟩
        rw [if_neg long, if_pos (by omega), if_pos holds]
      · have without : ¬ frame.HoldsTopic := fun ⟨_, _, fits⟩ => inside fits
        rw [if_neg long, if_neg (by omega), if_neg without]
  · have without : ¬ frame.HoldsTopic := fun ⟨fits, _⟩ => room fits
    rw [readStringWithLen, if_neg (by omega), if_neg without]

/-- Where the payload begins. -/
def payloadStart : Nat :=
  frame.start + 2 + frame.topicLength + if frame.qos ≠ QoS.qos0.code then 2 else 0

/-- The parser fails if the topic does not lie in the packet, and only then. -/
theorem deserialize_error (id : UInt16) (without : ¬ frame.HoldsTopic) :
    deserializePublishPacket frame.buf id = .error qcloudErrFailure := by
  have long : ¬ 4 > frame.buf.length := by rw [length_buf]; decide
  have header : frame.buf.getD 0 0 = frame.header := rfl
  have topic := frame.readTopic
  rw [if_neg without] at topic
  rw [deserializePublishPacket, if_neg long, header, if_neg (not_not.mpr frame.isPublish),
    readRemLen]
  change (readStringWithLen frame.buf frame.start (frame.start + frame.body.length) >>= _) = _
  rw [topic]
  rfl

theorem deserialize_ok (id : UInt16) (holds : frame.HoldsTopic) :
    ∃ msg : MqttMessage,
      deserializePublishPacket frame.buf id =
        .ok (msg, frame.start + 2, frame.topicLength) ∧
      msg.payload = frame.payloadStart ∧
      msg.payloadLen =
        (((frame.start + frame.body.length : Nat) - frame.payloadStart : Int) % 2 ^ 64).toNat := by
  have long : ¬ 4 > frame.buf.length := by rw [length_buf]; decide
  have header : frame.buf.getD 0 0 = frame.header := rfl
  have topic := frame.readTopic
  rw [if_pos holds] at topic
  rw [deserializePublishPacket, if_neg long, header, if_neg (not_not.mpr frame.isPublish),
    readRemLen]
  change ∃ msg, (readStringWithLen frame.buf frame.start (frame.start + frame.body.length) >>= _) =
    _ ∧ _
  rw [topic]
  simp only [bind, Except.bind, pure, Except.pure]
  by_cases qos0 : (frame.header &&& 0x06) >>> (1 : UInt8) = QoS.qos0.code
  · have payload : frame.payloadStart = frame.start + 2 + frame.topicLength :=
      congrArg (frame.start + 2 + frame.topicLength + ·) (if_neg (not_not.mpr qos0))
    simp only [if_neg (not_not.mpr qos0), payload]
    exact ⟨_, rfl, rfl, rfl⟩
  · have payload : frame.payloadStart = frame.start + 2 + frame.topicLength + 2 :=
      congrArg (frame.start + 2 + frame.topicLength + ·) (if_pos qos0)
    simp only [if_pos qos0, payload]
    exact ⟨_, rfl, rfl, rfl⟩

/-- Whatever the parser finds the topic of has to be well formed. -/
theorem not_parsedExactly (id : UInt16) (holds : frame.HoldsTopic) (bad : ¬ frame.WellFormed) :
    ¬ frame.ParsedExactly id := by
  obtain ⟨msg, parsed, _⟩ := frame.deserialize_ok id holds
  intro exact
  rw [ParsedExactly, parsed] at exact
  exact bad exact.1

/-- A PUBLISH with QoS 1 whose two bytes are the length of an empty topic. -/
def withoutId : PublishFrame where
  header := 0x32
  body := [0, 0]
  stale := List.replicate 2044 0
  isPublish := by decide
  fills := by decide +kernel

end PublishFrame

end QcloudIot.Mqtt
