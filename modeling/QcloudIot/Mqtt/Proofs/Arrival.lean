import QcloudIot.Mqtt.Proofs.Framing
import QcloudIot.Mqtt.Proofs.Link

/-!
# Packets that arrive

However the reads end, what `_read_mqtt_packet` accepts is one whole packet that the peer sent, and
`wait_for_read` consumes whole packets up to the first one of the type that is waited for, which it
leaves in `read_buf`.
-/

namespace QcloudIot.Mqtt

/-! ## Bytes that are taken from the network -/

/-- From `w` to `w'` these bytes have been consumed. -/
structure World.Consumes (w w' : World) (bytes : List UInt8) : Prop where
  sent : bytes <+: w.net.rx
  stream : w'.net.stream = w.net.stream
  consumed : w'.net.consumed = w.net.consumed + bytes.length

theorem World.Consumes.rx {w w' : World} {bytes : List UInt8} (takes : w.Consumes w' bytes) :
    w.net.rx = bytes ++ w'.net.rx := by
  obtain ⟨rest, isRx⟩ := takes.sent
  have behind : w'.net.rx = w.net.rx.drop bytes.length := by
    rw [Net.rx, Net.rx, takes.stream, takes.consumed, List.drop_drop]
  rw [behind, ← isRx, List.drop_left]

theorem World.Consumes.trans {w w' w'' : World} {bytes bytes' : List UInt8}
    (first : w.Consumes w' bytes) (second : w'.Consumes w'' bytes') :
    w.Consumes w'' (bytes ++ bytes') where
  sent := by
    rw [first.rx]
    exact (List.prefix_append_right_inj bytes).mpr second.sent
  stream := second.stream.trans first.stream
  consumed := by rw [second.consumed, first.consumed, List.length_append, Nat.add_assoc]

theorem World.KeepsInput.takes {w w' : World} (keeps : w.KeepsInput w') : w.Consumes w' [] :=
  ⟨List.nil_prefix, by rw [keeps.net], keeps.input⟩

/-- What a read returns is consumed; it is what was asked for when the read succeeds. -/
theorem networkRead_takes (w : World) (len : Nat) : (networkRead len).wp (fun (rc, data) w' =>
    w'.client = w.client ∧ w.Consumes w' data ∧ (rc = qcloudRetSuccess ↔ data.length = len) ∧
      data.length ≤ len ∧ rc ≠ qcloudErrMqttNothingToRead) w := by
  refine ⟨rfl, ⟨List.take_prefix _ _, rfl, rfl⟩, ?_, ?_, ?_⟩
  · change (if _ then qcloudRetSuccess else _) = qcloudRetSuccess ↔ _
    split
    case isTrue all => exact iff_of_true rfl all
    case isFalse part =>
      refine iff_of_false (fun success => ?_) part
      have negative := (w.env.reads.headD { avail := 0, err := qcloudErrTcpReadFail }).negative
      rw [success] at negative
      exact absurd negative (by decide)
  · exact (List.length_take_le _ _).trans (Nat.min_le_right _ _)
  · change (if _ then qcloudRetSuccess else _) ≠ _
    split
    · decide
    · exact (w.env.reads.headD { avail := 0, err := qcloudErrTcpReadFail }).driver

/-! ## One packet -/

/-- A remaining length that is accepted was sent digit by digit. Induction on the digits that may be
    read. -/
theorem remLenFromNet_takes (w : World) (fuel multiplier value : Nat) :
    (remLenFromNet fuel multiplier value).wp (fun (rc, v) w' => w'.client = w.client ∧
      rc ≠ qcloudErrMqttNothingToRead ∧
      (rc = qcloudRetSuccess → ∃ digits, IsField digits ∧ digits.length ≤ fuel ∧
        w.Consumes w' digits ∧ v = value + fieldValue digits * multiplier)) w := by
  induction fuel generalizing w multiplier value with
  | zero =>
    rw [remLenFromNet, Prog.wp_pure]
    exact ⟨rfl, by decide, fun success =>
      absurd (show qcloudErrMqttPacketRead = qcloudRetSuccess from success) (by decide)⟩
  | succ fuel ih =>
    rw [remLenFromNet, Prog.wp_bind]
    refine Prog.wp_mono (networkRead_takes w 1) ?_
    rintro ⟨rc, data⟩ w' ⟨client, takes, whole, -, -⟩
    dsimp only
    rw [Prog.wp_ite, Prog.wp_pure]
    refine ⟨fun _ => ⟨client, by dsimp only; decide,
      fun success =>
        absurd (show qcloudErrFailure = qcloudRetSuccess from success) (by decide)⟩, fun read => ?_⟩
    obtain ⟨digit, rfl⟩ := List.length_eq_one_iff.mp (whole.mp (not_not.mp read))
    rw [List.headD_cons, Prog.wp_ite, Prog.wp_pure]
    refine ⟨fun goesOn => ?_, fun ends => ⟨client, by dsimp only; decide, fun _ => ?_⟩⟩
    · have inner : 128 ≤ digit.toNat := by
        by_contra small
        exact goesOn (last_bits digit (Nat.not_le.mp small)).2
      refine Prog.wp_mono (ih w' _ _) ?_
      rintro ⟨rc', v⟩ w'' ⟨client', known, rest⟩
      refine ⟨client'.trans client, known, fun success => ?_⟩
      obtain ⟨digits, isField, short, takes', isValue⟩ := rest success
      refine ⟨digit :: digits, isField.cons inner, Nat.succ_le_succ short, takes.trans takes', ?_⟩
      rw [isValue, (inner_bits digit inner).1, fieldValue]
      ring
    · have last : digit.toNat < 128 := by
        by_contra large
        exact ends (inner_bits digit (Nat.not_lt.mp large)).2
      refine ⟨[digit], last, Nat.succ_le_succ (Nat.zero_le _), takes, ?_⟩
      rw [(last_bits digit last).1, fieldValue_last last, Nat.mod_eq_of_lt last]

/-- A packet has been consumed and is found at the front of `read_buf`. -/
structure World.Gets (w w' : World) (packet : Packet) : Prop where
  takes : w.Consumes w' packet.bytes
  found : packet.canonical <+: w'.client.readBuf

/-- What is known of a packet when `_read_mqtt_packet` returns. -/
def World.Reads (w : World) (rc : Int) (packetType : Option UInt8) (w' : World) : Prop :=
  (rc = qcloudErrMqttNothingToRead → w.Consumes w' []) ∧
  (rc = qcloudRetSuccess ∨ packetType ≠ none → ∃ packet : Packet,
    packetType = some (headerType packet.header) ∧ w.Gets w' packet)

theorem World.reads_failed {w w' : World} {rc : Int} (some : rc ≠ qcloudErrMqttNothingToRead)
    (failed : rc ≠ qcloudRetSuccess) : w.Reads rc none w' :=
  ⟨fun nothing => absurd nothing some, fun success => absurd rfl (success.resolve_left failed)⟩

theorem World.reads_tooShort {w w' : World} : w.Reads qcloudErrBufTooShort none w' :=
  World.reads_failed (by decide) (by decide)

theorem World.reads_packet {w w' : World} (packet : Packet) (takes : w.Consumes w' packet.bytes)
    (held : packet.canonical <+: w'.client.readBuf) :
    w.Reads qcloudRetSuccess (some (headerType (w'.client.readBuf.getD 0 0))) w' := by
  obtain ⟨rest, isBuf⟩ := held
  refine ⟨nofun, fun _ => ⟨packet, ?_, takes, rest, isBuf⟩⟩
  rw [← isBuf]
  rfl

section Payload

variable {w w' : World} {header : UInt8} {old digits : List UInt8}

/-- The first byte and the remaining length of a packet have been consumed; the first byte is
    stored. -/
structure World.Announces (w w' : World) (header : UInt8) (old digits : List UInt8) : Prop where
  takes : w.Consumes w' (header :: digits)
  held : w'.client.readBuf = header :: old
  isField : IsField digits
  short : digits.length ≤ maxNoOfRemainingLengthBytes

/-- There is no payload. -/
theorem World.Announces.reads_empty (announces : w.Announces w' header old digits)
    (empty : fieldValue digits = 0) (fits : (mqttWritePacketRemLen 0).length ≤ old.length) :
    w.Reads qcloudRetSuccess
      (some (headerType ((w'.stored 1 (mqttWritePacketRemLen 0)).client.readBuf.getD 0 0)))
      (w'.stored 1 (mqttWritePacketRemLen 0)) := by
  have held : (w'.stored 1 (mqttWritePacketRemLen 0)).client.readBuf =
      header :: mqttWritePacketRemLen 0 ++ old.drop (mqttWritePacketRemLen 0).length := by
    change overwrite w'.client.readBuf 1 _ = _
    rw [announces.held]
    exact overwrite_behind [header] old _ fits
  refine World.reads_packet ⟨header, digits, [], announces.isField, announces.short, empty⟩ ?_ ?_
  · have takes := announces.takes
    rw [Packet.bytes, List.append_nil]
    exact ⟨takes.sent, takes.stream, takes.consumed⟩
  · rw [held, Packet.canonical, List.append_nil]
    exact List.prefix_append _ _

/-- The payload is read behind the shortest remaining length. -/
theorem World.Announces.reads_payload (announces : w.Announces w' header old digits)
    {payload : List UInt8} {w'' : World} (isRemLen : fieldValue digits = payload.length)
    (fits : (mqttWritePacketRemLen payload.length).length + payload.length ≤ old.length)
    (client : w''.client = (w'.stored 1 (mqttWritePacketRemLen payload.length)).client)
    (takes : (w'.stored 1 (mqttWritePacketRemLen payload.length)).Consumes w'' payload) :
    w.Reads qcloudRetSuccess
      (some (headerType ((w''.stored (1 + (mqttWritePacketRemLen payload.length).length)
        payload).client.readBuf.getD 0 0)))
      (w''.stored (1 + (mqttWritePacketRemLen payload.length).length) payload) := by
  have held : (w''.stored (1 + (mqttWritePacketRemLen payload.length).length)
      payload).client.readBuf = header :: mqttWritePacketRemLen payload.length ++
        (payload ++ old.drop ((mqttWritePacketRemLen payload.length).length + payload.length)) := by
    change overwrite w''.client.readBuf _ _ = _
    rw [client]
    change overwrite (overwrite w'.client.readBuf _ _) _ _ = _
    rw [announces.held, overwrite_packet _ _ _ _ fits]
  refine World.reads_packet ⟨header, digits, payload, announces.isField, announces.short, isRemLen⟩
    ?_ ?_
  · have all := announces.takes.trans ⟨takes.sent, takes.stream, takes.consumed⟩
    exact ⟨all.sent, all.stream, all.consumed⟩
  · rw [held, Packet.canonical, ← List.append_assoc]
    exact List.prefix_append _ _

end Payload

/-- `_read_mqtt_packet` takes nothing when it says that there is nothing, and one whole packet when
    it succeeds. -/
theorem readMqttPacket_reads {w : World} (room : 6 ≤ w.client.readBufSize) :
    readMqttPacket.wp (fun (rc, packetType) w' => w.Reads rc packetType w') w := by
  -- the memory before the call, from its second byte on
  obtain ⟨first, old, isMemory⟩ : ∃ first old, w.client.readBuf = first :: old := by
    cases memory : w.client.readBuf with
    | nil =>
      rw [Client.readBufSize, memory] at room
      exact absurd room (by decide)
    | cons first old => exact ⟨first, old, rfl⟩
  have oldLength : w.client.readBufSize = old.length + 1 := by
    rw [Client.readBufSize, isMemory, List.length_cons]
  rw [readMqttPacket, Prog.wp_bind]
  refine Prog.wp_mono (networkRead_takes w 1) ?_
  rintro ⟨rc, data⟩ w₁ ⟨client₁, takes₁, whole, few, known⟩
  simp only [Prog.wp_bind, wp_writeToReadBuf, Prog.wp_ite, Prog.wp_pure]
  refine ⟨fun empty => ⟨fun _ => ?_, fun success => absurd rfl (success.resolve_left (by decide))⟩,
    fun _ => ⟨World.reads_failed known, fun read => ?_⟩⟩
  · have part : data.length ≠ 1 := by
      intro all
      rw [whole.mpr all] at empty
      exact absurd empty (by decide)
    have none : data = [] := List.eq_nil_of_length_eq_zero (by omega)
    subst none
    exact ⟨takes₁.sent, takes₁.stream, takes₁.consumed⟩
  obtain ⟨header, rfl⟩ := List.length_eq_one_iff.mp (whole.mp (not_not.mp read))
  have held₁ : overwrite w₁.client.readBuf 0 [header] = header :: old := by
    rw [client₁, isMemory]
    exact overwrite_behind [] (first :: old) [header] (by simp)
  rw [held₁]
  refine Prog.wp_mono (remLenFromNet_takes _ maxNoOfRemainingLengthBytes 1 0) ?_
  rintro ⟨rc', remLen⟩ w₂ ⟨client₂, known₂, decoded⟩
  have held₂ : w₂.client.readBuf = header :: old := by rw [client₂, World.setClient_client]
  have size₂ : w₂.client.readBufSize = old.length + 1 := by
    rw [Client.readBufSize, held₂, List.length_cons]
  simp only [Prog.wp_bind, Prog.wp_ite, Prog.wp_pure, wp_client]
  refine ⟨World.reads_failed known₂, fun read₂ => ?_⟩
  obtain ⟨digits, isField, short, takes₂, isRemLen⟩ := decoded (not_not.mp read₂)
  rw [Nat.zero_add, Nat.mul_one] at isRemLen
  subst isRemLen
  have announces : w.Announces w₂ header old digits :=
    ⟨takes₁.trans ⟨takes₂.sent, takes₂.stream, takes₂.consumed⟩, held₂, isField, short⟩
  refine ⟨fun _ => World.reads_tooShort, fun _ => ?_⟩
  rw [wp_writeToReadBuf]
  change Prog.wp _ _ (w₂.stored 1 (mqttWritePacketRemLen (fieldValue digits)))
  simp only [Prog.wp_bind, Prog.wp_ite, Prog.wp_pure, wp_client]
  refine ⟨fun _ => World.reads_tooShort, fun fits => ⟨fun some => ?_, fun none => ?_⟩⟩
  · refine Prog.wp_mono (networkRead_takes _ (fieldValue digits)) ?_
    rintro ⟨rc₃, payload⟩ w₄ ⟨client₄, takes₄, whole₄, -, known₄⟩
    rw [Prog.wp_bind, wp_writeToReadBuf, Prog.wp_ite, Prog.wp_pure]
    refine ⟨World.reads_failed known₄, fun read₄ => ?_⟩
    have all := whole₄.mp (not_not.mp read₄)
    rw [← all] at client₄ takes₄ fits ⊢
    exact announces.reads_payload all.symm (by omega) client₄ takes₄
  · have empty : fieldValue digits = 0 := by omega
    rw [empty]
    refine announces.reads_empty empty ?_
    rw [length_mqttWritePacketRemLen]
    split_ifs <;> omega

/-! ## Waiting for a packet -/

/-- The handlers of a packet leave it in the buffer. -/
theorem World.Gets.keeps {w w' w'' : World} {packet : Packet} (receives : w.Gets w' packet)
    (keeps : w'.KeepsInput w'') : w.Gets w'' packet where
  takes := by
    have takes := receives.takes.trans keeps.takes
    rw [List.append_nil] at takes
    exact takes
  found := by
    rw [keeps.readBuf]
    exact receives.found

/-- A call of `cycle_for_read` that succeeds has found nothing, or taken one packet. -/
theorem cycleForRead_gets {w : World} (room : 6 ≤ w.client.readBufSize) (timer : Timer) :
    (cycleForRead timer).wp (fun (rc, packetType, _) w' => rc = qcloudRetSuccess →
      (packetType = none ∧ w.Consumes w' []) ∨
        ∃ packet : Packet, packetType = some (headerType packet.header) ∧ w.Gets w' packet) w := by
  rw [cycleForRead, Prog.wp_bind]
  refine Prog.wp_mono (readMqttPacket_reads room) ?_
  rintro ⟨rc, packetType⟩ w₁ ⟨nothing, whole⟩
  dsimp only
  rw [Prog.wp_ite, Prog.wp_pure]
  refine ⟨fun empty _ => .inl ⟨rfl, nothing empty⟩, fun _ => ?_⟩
  cases packetType with
  | none =>
    intro success
    obtain ⟨packet, isType, -⟩ := whole (.inl success)
    exact absurd isType nofun
  | some packetType =>
    obtain ⟨packet, isType, receives⟩ := whole (.inr nofun)
    dsimp only
    rw [Prog.wp_bind]
    refine Prog.wp_mono (within_wp (handlePacket_keepsPing packetType timer) w₁) ?_
    rintro ⟨rc', timer'⟩ w₂ handled
    dsimp only
    rw [Prog.wp_bind]
    refine Prog.wp_mono (within_wp (notePacket_keepsInput packetType) w₂) fun _ w₃ noted _ => ?_
    exact .inr ⟨packet, isType, (receives.keeps handled.toKeepsInput).keeps noted⟩

/-- Whole packets have been consumed, of which the last is the first of its type, and is found at
    the front of `read_buf`. -/
def World.Hears (w : World) (packetType : UInt8) (w' : World) : Prop :=
  ∃ (before : List Packet) (packet : Packet),
    (∀ earlier ∈ before, headerType earlier.header ≠ packetType) ∧
    headerType packet.header = packetType ∧ packet.canonical <+: w'.client.readBuf ∧
    w.Consumes w' (before.flatMap Packet.bytes ++ packet.bytes)

theorem World.Hears.later {w w' w'' : World} {packetType : UInt8} {first : Packet}
    (takes : w.Consumes w' first.bytes) (other : headerType first.header ≠ packetType)
    (hears : w'.Hears packetType w'') : w.Hears packetType w'' := by
  obtain ⟨before, packet, others, isType, found, rest⟩ := hears
  refine ⟨first :: before, packet, ?_, isType, found, ?_⟩
  · intro earlier mem
    rcases List.mem_cons.mp mem with rfl | mem
    · exact other
    · exact others earlier mem
  · rw [List.flatMap_cons, List.append_assoc]
    exact takes.trans rest

/-- The loop takes packets until it has the one that is waited for. Induction on the rounds that
    may be taken. -/
theorem waitLoop_hears {w : World} (room : 6 ≤ w.client.readBufSize) (packetType : UInt8)
    (fuel : Nat) (timer : Timer) : (waitLoop packetType fuel timer).wp (fun (rc, _) w' =>
      rc = qcloudRetSuccess → w.Hears packetType w') w := by
  induction fuel generalizing w timer with
  | zero =>
    rw [waitLoop, Prog.wp_pure]
    exact nofun
  | succ fuel ih =>
    rw [waitLoop, Prog.wp_bind, wp_expired, Prog.wp_ite, Prog.wp_pure]
    refine ⟨fun _ => nofun, fun _ => ?_⟩
    have room₁ : 6 ≤ w.tick.client.readBufSize := room
    have ticked : w.Consumes w.tick [] := w.onlySends_tick.keepsPing.toKeepsInput.takes
    rw [Prog.wp_bind]
    refine Prog.wp_mono (Prog.wp_and (cycleForRead_gets room₁ timer)
      (within_wp (cycleForRead_keepsLink timer) w.tick)) ?_
    rintro ⟨rc, readPacketType, timer'⟩ w₂ ⟨receives, keeps⟩
    have room₂ : 6 ≤ w₂.client.readBufSize := by
      rw [keeps.readBufSize]
      exact room₁
    dsimp only at receives ⊢
    rw [Prog.wp_ite, Prog.wp_pure]
    refine ⟨fun goesOn => ?_, fun ends success => ?_⟩
    · refine Prog.wp_mono (ih room₂ timer') ?_
      rintro ⟨rc', timer''⟩ w₃ rest success
      rcases receives goesOn.1 with ⟨-, takes⟩ | ⟨packet, isType, receives⟩
      · obtain ⟨before, packet, others, isType, found, rest⟩ := rest success
        exact ⟨before, packet, others, isType, found, ticked.trans (takes.trans rest)⟩
      · refine World.Hears.later (ticked.trans receives.takes) (fun same => ?_) (rest success)
        exact goesOn.2 (by rw [isType, same])
    · have isWanted : readPacketType = some packetType := by
        by_contra other
        exact ends ⟨success, other⟩
      rcases receives success with ⟨none, -⟩ | ⟨packet, isType, receives⟩
      · rw [none] at isWanted
        exact absurd isWanted nofun
      · refine ⟨[], packet, fun _ mem => absurd mem List.not_mem_nil, ?_, receives.found,
          ticked.trans receives.takes⟩
        rw [isType] at isWanted
        exact Option.some.inj isWanted

theorem waitForRead_hears {w : World} (room : 6 ≤ w.client.readBufSize) (packetType : UInt8)
    (timer : Timer) : (waitForRead packetType timer).wp (fun (rc, _) w' =>
      rc = qcloudRetSuccess → w.Hears packetType w') w :=
  waitLoop_hears room packetType _ timer

end QcloudIot.Mqtt
