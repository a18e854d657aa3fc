import QcloudIot.Mqtt.Proofs.RemainingLength

/-!
# Framing

`_read_mqtt_packet` consumes the bytes of one packet, whatever its length is. To say that it writes
to no other memory than `read_buf`, the function is also given a buffer that is followed by more.
-/

namespace QcloudIot.Mqtt

/-! ## A buffer in memory -/

/-- The loop that discards a packet, with a buffer of `size` bytes in the memory `readBuf`. -/
def discardLoopIn (size remLen : Nat) : Nat → Nat → Nat → Sdk Unit
  | 0, _, _ => return ()
  | fuel + 1, bytesToBeRead, totalBytesRead => do
    let (retVal, data) ← networkRead bytesToBeRead
    writeToReadBuf 0 data
    if retVal = qcloudRetSuccess then
      let totalBytesRead := totalBytesRead + data.length
      if totalBytesRead < remLen then
        discardLoopIn size remLen fuel
          (if remLen - totalBytesRead ≥ size then size else remLen - totalBytesRead)
          totalBytesRead
      else
        return ()
    else
      return ()

/-- `_read_mqtt_packet` with a buffer of `size` bytes in the memory `readBuf`. -/
def readMqttPacketIn (size : Nat) : Sdk (Int × Option UInt8) := do
  let (rc, data) ← networkRead 1
  writeToReadBuf 0 data
  if rc = qcloudErrSslNothingToRead ∨ rc = qcloudErrTcpNothingToRead then
    return (qcloudErrMqttNothingToRead, none)
  else if rc ≠ qcloudRetSuccess then
    return (rc, none)
  else
    let (rc, remLen) ← decodePacketRemLenWithNetRead
    if rc ≠ qcloudRetSuccess then
      return (rc, none)
    else if remLen ≥ size then
      discardLoopIn size remLen (remLen + 1) size 0
      return (qcloudErrBufTooShort, none)
    else
      writeToReadBuf 1 (mqttWritePacketRemLen remLen)
      let len := 1 + (mqttWritePacketRemLen remLen).length
      if remLen > 0 ∧ len + remLen > size then
        let (_, data) ← networkRead remLen
        writeToReadBuf 0 data
        return (qcloudErrBufTooShort, none)
      else if remLen > 0 then
        let (rc, data) ← networkRead remLen
        writeToReadBuf len data
        if rc ≠ qcloudRetSuccess then
          return (rc, none)
        else
          let c ← client
          return (qcloudRetSuccess, some (headerType (c.readBuf.getD 0 0)))
      else
        let c ← client
        return (qcloudRetSuccess, some (headerType (c.readBuf.getD 0 0)))

theorem discardLoop_eq (remLen fuel bytesToBeRead totalBytesRead : Nat) (w : World) :
    (discardLoop remLen fuel bytesToBeRead totalBytesRead).run w =
      (discardLoopIn w.client.readBufSize remLen fuel bytesToBeRead totalBytesRead).run w := by
  induction fuel generalizing bytesToBeRead totalBytesRead w with
  | zero => rfl
  | succ fuel ih =>
    rcases read : (networkRead bytesToBeRead).run w with ⟨⟨retVal, data⟩, w₁⟩
    have size : ((writeToReadBuf 0 data).run w₁).2.client.readBufSize = w.client.readBufSize := by
      have same : w₁.client = w.client := congrArg (fun out => out.2.client) read.symm
      rw [← same]
      exact length_overwrite _ _ _
    simp only [discardLoop, discardLoopIn, Prog.run_bind, Prog.run_ite, read]
    refine if_congr Iff.rfl (if_congr Iff.rfl ?_ rfl) rfl
    have rest := ih (if remLen - (totalBytesRead + data.length) ≥ w.client.readBufSize then
        w.client.readBufSize else remLen - (totalBytesRead + data.length))
      (totalBytesRead + data.length) ((writeToReadBuf 0 data).run w₁).2
    rw [size] at rest
    refine Eq.trans ?_ rest
    change (discardLoop remLen fuel (if remLen - (totalBytesRead + data.length) ≥
        ((writeToReadBuf 0 data).run w₁).2.client.readBufSize then
          ((writeToReadBuf 0 data).run w₁).2.client.readBufSize
        else remLen - (totalBytesRead + data.length)) (totalBytesRead + data.length)).run
          ((writeToReadBuf 0 data).run w₁).2 = _
    rw [size]

/-- When nothing follows the buffer this is `_read_mqtt_packet`. -/
theorem readMqttPacket_eq (w : World) :
    readMqttPacket.run w = (readMqttPacketIn w.client.readBufSize).run w := by
  rcases read : (networkRead 1).run w with ⟨⟨rc, data⟩, w₁⟩
  have size₁ : ((writeToReadBuf 0 data).run w₁).2.client.readBufSize = w.client.readBufSize := by
    have same : w₁.client = w.client := congrArg (fun out => out.2.client) read.symm
    rw [← same]
    exact length_overwrite _ _ _
  simp only [readMqttPacket, readMqttPacketIn, Prog.run_bind, Prog.run_ite, read]
  refine if_congr Iff.rfl rfl (if_congr Iff.rfl rfl ?_)
  have client₂ := remLenFromNet_client maxNoOfRemainingLengthBytes 1 0
    ((writeToReadBuf 0 data).run w₁).2
  rcases decoded : decodePacketRemLenWithNetRead.run ((writeToReadBuf 0 data).run w₁).2 with
    ⟨⟨rc', remLen⟩, w₂⟩
  have size₂ : w₂.client.readBufSize = w.client.readBufSize := by
    have same : w₂.client = ((writeToReadBuf 0 data).run w₁).2.client := by
      rw [← client₂]
      exact congrArg (fun out => out.2.client) decoded.symm
    rw [same, size₁]
  refine if_congr Iff.rfl rfl ?_
  have fit : (client.run w₂).1.readBufSize = w.client.readBufSize := size₂
  rw [fit]
  refine if_congr Iff.rfl ?_ rfl
  have rest := discardLoop_eq remLen (remLen + 1) w.client.readBufSize 0 w₂
  rw [size₂] at rest
  exact congrArg (fun out => ((qcloudErrBufTooShort, (none : Option UInt8)), out.2)) rest

theorem wp_readMqttPacket {Q : Int × Option UInt8 → World → Prop} {w : World} :
    readMqttPacket.wp Q w ↔ (readMqttPacketIn w.client.readBufSize).wp Q w := by
  rw [Prog.wp, readMqttPacket_eq]
  exact Iff.rfl

/-- The world in which more memory follows the buffer. -/
def World.followedBy (w : World) (beyond : List UInt8) : World :=
  w.setClient { w.client with readBuf := w.client.readBuf ++ beyond }

theorem World.followedBy_readBuf (w : World) (beyond : List UInt8) :
    (w.followedBy beyond).client.readBuf = w.client.readBuf ++ beyond := rfl

theorem World.Delivers.followedBy {w : World} (delivers : w.Delivers) (beyond : List UInt8) :
    (w.followedBy beyond).Delivers :=
  ⟨delivers.enough, delivers.whole⟩

/-! ## Reading into the buffer -/

/-- What is behind the bytes that are stored stays. -/
theorem drop_overwrite {buf bytes : List UInt8} {pos n : Nat} (before : pos + bytes.length ≤ n)
    (inside : n ≤ buf.length) : (overwrite buf pos bytes).drop n = buf.drop n := by
  have front : (buf.take pos ++ bytes).length = pos + bytes.length := by
    rw [List.length_append, List.length_take]
    omega
  rw [overwrite, List.drop_take, List.drop_append, List.drop_of_length_le (by omega), front,
    List.nil_append, List.drop_drop, List.take_of_length_le]
  · congr 1
    omega
  · rw [List.length_drop]
    omega

/-- Bytes have been consumed, from a network that goes on to deliver, and only the first `size`
    bytes of the memory have been written. -/
structure World.ReadsInto (size : Nat) (w w' : World) (n : Nat) : Prop where
  net : w'.net = { w.net with consumed := w.net.consumed + n }
  delivers : w'.Delivers
  length : w'.client.readBuf.length = w.client.readBuf.length
  behind : w'.client.readBuf.drop size = w.client.readBuf.drop size

theorem World.ReadsInto.rx {size n : Nat} {w w' : World} (reads : w.ReadsInto size w' n) :
    w'.net.rx = w.net.rx.drop n := by
  rw [reads.net, Net.rx, Net.rx, List.drop_drop]

theorem World.Advances.readsInto {w w' : World} {n : Nat} (advances : w.Advances w' n)
    (size : Nat) : w.ReadsInto size w' n :=
  ⟨advances.net, advances.delivers, by rw [advances.client], by rw [advances.client]⟩

theorem World.ReadsInto.trans {size n n' : Nat} {w w' w'' : World}
    (first : w.ReadsInto size w' n) (second : w'.ReadsInto size w'' n') :
    w.ReadsInto size w'' (n + n') := by
  refine ⟨?_, second.delivers, second.length.trans first.length,
    second.behind.trans first.behind⟩
  rw [second.net, first.net, Nat.add_assoc]

/-- The world after bytes have been stored in the memory. -/
def World.stored (w : World) (pos : Nat) (bytes : List UInt8) : World :=
  w.setClient { w.client with readBuf := overwrite w.client.readBuf pos bytes }

theorem World.ReadsInto.stored {size n : Nat} {w w' : World} (reads : w.ReadsInto size w' n)
    {pos : Nat} {bytes : List UInt8} (fits : pos + bytes.length ≤ size)
    (inside : size ≤ w.client.readBuf.length) : w.ReadsInto size (w'.stored pos bytes) n := by
  have inside' : size ≤ w'.client.readBuf.length := by rw [reads.length]; exact inside
  refine ⟨reads.net, ⟨reads.delivers.enough, reads.delivers.whole⟩, ?_, ?_⟩
  · exact (length_overwrite _ _ _).trans reads.length
  · exact (drop_overwrite fits inside').trans reads.behind

/-- Bytes that have been sent are read into the buffer. -/
theorem readInto_delivers {w : World} {size len : Nat} (pos : Nat) (delivers : w.Delivers)
    (positive : 0 < len) (sent : len ≤ w.net.rx.length) (fits : pos + len ≤ size)
    (inside : size ≤ w.client.readBuf.length) :
    (networkRead len).wp (fun (rc, data) w' => rc = qcloudRetSuccess ∧
      data = w.net.rx.take len ∧ w'.client = w.client ∧
      w.ReadsInto size (w'.stored pos data) len) w := by
  refine Prog.wp_mono (networkRead_delivers delivers positive sent) ?_
  rintro ⟨rc, data⟩ w' ⟨success, isData, advances⟩
  refine ⟨success, isData, advances.client, (advances.readsInto size).stored ?_ inside⟩
  rw [isData, List.length_take]
  omega

/-- The loop discards what is left of the packet. Induction on the rounds that may be taken. -/
theorem discardLoopIn_reads {w : World} {size remLen fuel total : Nat} (delivers : w.Delivers)
    (positive : 0 < size) (inside : size ≤ w.client.readBuf.length) (more : total < remLen)
    (sent : remLen - total ≤ w.net.rx.length) (enough : remLen - total ≤ fuel) :
    (discardLoopIn size remLen fuel
      (if remLen - total ≥ size then size else remLen - total) total).wp
        (fun _ w' => w.ReadsInto size w' (remLen - total)) w := by
  induction fuel generalizing w total with
  | zero => omega
  | succ fuel ih =>
    have asked : 0 < (if remLen - total ≥ size then size else remLen - total) ∧
        (if remLen - total ≥ size then size else remLen - total) ≤ size ∧
        (if remLen - total ≥ size then size else remLen - total) ≤ remLen - total := by
      split <;> omega
    generalize (if remLen - total ≥ size then size else remLen - total) = len at *
    obtain ⟨some, small, left⟩ := asked
    rw [discardLoopIn, Prog.wp_bind]
    refine Prog.wp_mono (readInto_delivers 0 delivers some (by omega) (by omega) inside) ?_
    rintro ⟨rc, data⟩ w' ⟨rfl, isData, _, reads⟩
    have length : data.length = len := by
      rw [isData, List.length_take]
      omega
    dsimp only
    rw [Prog.wp_bind, wp_writeToReadBuf, if_pos rfl, length]
    change Prog.wp _ _ (w'.stored 0 data)
    by_cases again : total + len < remLen
    · rw [if_pos again]
      have behind : (w'.stored 0 data).net.rx.length = w.net.rx.length - len := by
        rw [reads.rx, List.length_drop]
      refine Prog.wp_mono (ih reads.delivers (by rw [reads.length]; exact inside) again
        (by omega) (by omega)) ?_
      intro _ w'' rest
      have sum : remLen - total = len + (remLen - (total + len)) := by omega
      rw [sum]
      exact reads.trans rest
    · rw [if_neg again]
      have all : remLen - total = len := by omega
      rw [all]
      exact reads

/-! ## One packet -/

theorem fieldValue_lt {digits : List UInt8} : fieldValue digits < 128 ^ digits.length := by
  induction digits with
  | nil => exact Nat.one_pos
  | cons digit digits ih =>
    have last : digit.toNat % 128 < 128 := Nat.mod_lt _ (by decide)
    rw [fieldValue, List.length_cons, pow_succ]
    omega

/-- A remaining length of at most four bytes is written in at most four bytes. -/
theorem length_canonical {digits : List UInt8} (short : digits.length ≤ 4) :
    (mqttWritePacketRemLen (fieldValue digits)).length ≤ 4 := by
  have below := lt_of_lt_of_le (@fieldValue_lt digits)
    (Nat.pow_le_pow_right (show 0 < 128 by decide) short)
  rw [length_mqttWritePacketRemLen]
  split_ifs <;> omega

/-- The bytes of a packet: a first byte, a remaining length that need not be as short as can be,
    and as many bytes as it says. -/
structure Packet where
  header : UInt8
  digits : List UInt8
  payload : List UInt8
  isField : IsField digits
  short : digits.length ≤ maxNoOfRemainingLengthBytes
  announced : fieldValue digits = payload.length

/-- The packet on the network. -/
def Packet.bytes (packet : Packet) : List UInt8 :=
  packet.header :: (packet.digits ++ packet.payload)

/-- The packet with the shortest remaining length. -/
def Packet.canonical (packet : Packet) : List UInt8 :=
  packet.header :: mqttWritePacketRemLen packet.payload.length ++ packet.payload

theorem Packet.length_canonical (packet : Packet) : packet.canonical.length =
    1 + (mqttWritePacketRemLen packet.payload.length).length + packet.payload.length := by
  rw [Packet.canonical, List.length_append, List.length_cons]
  omega

/-- What becomes of a packet: it is consumed, and either found at the front of the buffer or too
    long for it, while the memory behind the buffer stays. -/
structure PacketRead (size : Nat) (w : World) (packet : Packet) (rc : Int) (packetType : Option UInt8)
    (w' : World) : Prop where
  consumed : w'.net = { w.net with consumed := w.net.consumed + packet.bytes.length }
  found : rc = qcloudRetSuccess → packetType = some (headerType packet.header) ∧
    w'.client.readBuf.take packet.canonical.length = packet.canonical
  fits : rc = qcloudRetSuccess ↔ packet.canonical.length ≤ size
  tooShort : rc ≠ qcloudRetSuccess → rc = qcloudErrBufTooShort
  behind : w'.client.readBuf.drop size = w.client.readBuf.drop size
  length : w'.client.readBuf.length = w.client.readBuf.length

theorem World.ReadsInto.packetRead_short {size : Nat} {w w' : World} {packet : Packet}
    (reads : w.ReadsInto size w' (1 + (packet.digits.length + packet.payload.length)))
    (long : size < packet.canonical.length) :
    PacketRead size w packet qcloudErrBufTooShort none w' where
  consumed := by
    rw [reads.net, Packet.bytes, List.length_cons, List.length_append, Nat.add_comm 1]
  found := fun success => absurd success (by decide)
  fits := iff_of_false (by decide) (Nat.not_le.mpr long)
  tooShort := fun _ => rfl
  behind := reads.behind
  length := reads.length

theorem World.ReadsInto.packetRead {size : Nat} {w w' : World} {packet : Packet} {rest : List UInt8}
    (reads : w.ReadsInto size w' (1 + (packet.digits.length + packet.payload.length)))
    (fits : packet.canonical.length ≤ size) (held : w'.client.readBuf = packet.canonical ++ rest) :
    PacketRead size w packet qcloudRetSuccess
      (some (headerType (w'.client.readBuf.getD 0 0))) w' where
  consumed := by
    rw [reads.net, Packet.bytes, List.length_cons, List.length_append, Nat.add_comm 1]
  found := fun _ => by
    rw [held]
    refine ⟨rfl, List.take_left⟩
  fits := iff_of_true rfl fits
  tooShort := fun failed => absurd rfl failed
  behind := reads.behind
  length := reads.length

/-- `_read_mqtt_packet` on a packet that has been sent, with a buffer that more memory may
    follow. -/
theorem readMqttPacketIn_packetRead {w : World} {packet : Packet} {later : List UInt8} {size : Nat}
    (delivers : w.Delivers) (sent : w.net.rx = packet.bytes ++ later) (six : 6 ≤ size)
    (inside : size ≤ w.client.readBuf.length) :
    (readMqttPacketIn size).wp (fun (rc, packetType) w' =>
      PacketRead size w packet rc packetType w') w := by
  have digitsShort := packet.short
  have canonicalShort : (mqttWritePacketRemLen packet.payload.length).length ≤ 4 := by
    rw [← packet.announced]
    exact length_canonical packet.short
  have total := packet.length_canonical
  have amount : w.net.rx.length =
      1 + packet.digits.length + packet.payload.length + later.length := by
    rw [sent, Packet.bytes, List.length_append, List.length_cons, List.length_append]
    omega
  -- the memory before the call, from its second byte on
  obtain ⟨first, old, isMemory⟩ : ∃ first old, w.client.readBuf = first :: old := by
    cases memory : w.client.readBuf with
    | nil =>
      rw [memory, List.length_nil] at inside
      omega
    | cons first old => exact ⟨first, old, rfl⟩
  have oldLength : size ≤ old.length + 1 := by
    rw [isMemory, List.length_cons] at inside
    exact inside
  rw [readMqttPacketIn, Prog.wp_bind]
  refine Prog.wp_mono (readInto_delivers 0 delivers Nat.one_pos (by omega) (by omega) inside) ?_
  rintro ⟨rc, data⟩ w₁ ⟨rfl, isData, client₁, reads₁⟩
  have isHeader : data = [packet.header] := by
    rw [isData, sent]
    rfl
  subst isHeader
  have notEmpty : ¬ (qcloudRetSuccess = qcloudErrSslNothingToRead ∨
      qcloudRetSuccess = qcloudErrTcpNothingToRead) := by decide
  dsimp only
  rw [Prog.wp_bind, wp_writeToReadBuf, if_neg notEmpty, if_neg (not_not.mpr rfl), Prog.wp_bind]
  change Prog.wp _ _ (w₁.stored 0 [packet.header])
  have held₁ : (w₁.stored 0 [packet.header]).client.readBuf = packet.header :: old := by
    change overwrite w₁.client.readBuf 0 [packet.header] = _
    rw [client₁, isMemory]
    exact overwrite_behind [] (first :: old) [packet.header] (by simp)
  have behind₁ : (w₁.stored 0 [packet.header]).net.rx =
      packet.digits ++ (packet.payload ++ later) := by
    rw [reads₁.rx, sent, Packet.bytes, List.cons_append, List.append_assoc]
    rfl
  generalize w₁.stored 0 [packet.header] = w₁ at *
  refine Prog.wp_mono (remLenFromNet_field reads₁.delivers behind₁ packet.isField packet.short) ?_
  rintro ⟨rc, remLen⟩ w₂ ⟨rfl, isRemLen, advances⟩
  rw [Nat.mul_one, Nat.zero_add, packet.announced] at isRemLen
  subst isRemLen
  have reads₂ := reads₁.trans (advances.readsInto size)
  have held₂ : w₂.client.readBuf = packet.header :: old := by rw [advances.client, held₁]
  have behind₂ : w₂.net.rx = packet.payload ++ later := by
    rw [advances.rx, behind₁, List.drop_left]
  have amount₂ : packet.payload.length ≤ w₂.net.rx.length := by
    rw [behind₂, List.length_append]
    omega
  have inside₂ : size ≤ w₂.client.readBuf.length := by
    rw [reads₂.length]
    exact inside
  dsimp only
  rw [if_neg (not_not.mpr rfl)]
  by_cases large : packet.payload.length ≥ size
  · rw [if_pos large, Prog.wp_bind]
    have discards := @discardLoopIn_reads w₂ size packet.payload.length
      (packet.payload.length + 1) 0 reads₂.delivers (by omega) inside₂ (by omega) amount₂ (by omega)
    rw [Nat.sub_zero, if_pos large] at discards
    refine Prog.wp_mono discards ?_
    intro _ w₃ reads₃
    have reads := reads₂.trans reads₃
    rw [Nat.add_assoc] at reads
    exact reads.packetRead_short (by omega)
  · rw [if_neg large, Prog.wp_bind, wp_writeToReadBuf]
    change Prog.wp _ _ (w₂.stored 1 (mqttWritePacketRemLen packet.payload.length))
    have reads₃ := @World.ReadsInto.stored _ _ _ _ reads₂ 1
      (mqttWritePacketRemLen packet.payload.length) (by omega) inside
    have rx₃ : (w₂.stored 1 (mqttWritePacketRemLen packet.payload.length)).net.rx =
        packet.payload ++ later := behind₂
    have held₃ : (w₂.stored 1 (mqttWritePacketRemLen packet.payload.length)).client.readBuf =
        overwrite (packet.header :: old) 1 (mqttWritePacketRemLen packet.payload.length) := by
      rw [← held₂]
      rfl
    generalize w₂.stored 1 (mqttWritePacketRemLen packet.payload.length) = w₃ at *
    have amount₃ : packet.payload.length ≤ w₃.net.rx.length := by
      rw [rx₃, List.length_append]
      omega
    have inside₃ : size ≤ w₃.client.readBuf.length := by
      rw [reads₃.length]
      exact inside
    by_cases beyond : packet.payload.length > 0 ∧
        1 + (mqttWritePacketRemLen packet.payload.length).length + packet.payload.length > size
    · rw [if_pos beyond, Prog.wp_bind]
      refine Prog.wp_mono (readInto_delivers 0 reads₃.delivers beyond.1 amount₃ (by omega)
        inside₃) ?_
      rintro ⟨rc, data⟩ w₄ ⟨_, _, _, reads₄⟩
      rw [Prog.wp_bind, wp_writeToReadBuf]
      have reads := reads₃.trans reads₄
      rw [Nat.add_assoc] at reads
      exact reads.packetRead_short (by omega)
    · rw [if_neg beyond]
      by_cases some : packet.payload.length > 0
      · rw [if_pos some, Prog.wp_bind]
        refine Prog.wp_mono (readInto_delivers
          (1 + (mqttWritePacketRemLen packet.payload.length).length) reads₃.delivers some amount₃
          (by omega) inside₃) ?_
        rintro ⟨rc, data⟩ w₄ ⟨rfl, isData, client₄, reads₄⟩
        have isPayload : data = packet.payload := by rw [isData, rx₃, List.take_left]
        subst isPayload
        have reads := reads₃.trans reads₄
        rw [Nat.add_assoc] at reads
        dsimp only
        rw [Prog.wp_bind, wp_writeToReadBuf, if_neg (not_not.mpr rfl), Prog.wp_bind, wp_client]
        refine @World.ReadsInto.packetRead _ _ _ _ (old.drop
          ((mqttWritePacketRemLen packet.payload.length).length + packet.payload.length))
          reads (by omega) ?_
        change overwrite w₄.client.readBuf _ _ = _
        rw [client₄, held₃, overwrite_packet _ _ _ _ (by omega), Packet.canonical]
        simp only [List.append_assoc, List.cons_append]
      · rw [if_neg some, Prog.wp_bind, wp_client]
        have empty : packet.payload = [] := List.eq_nil_of_length_eq_zero (by omega)
        have reads := reads₃
        rw [show 1 + packet.digits.length =
          1 + (packet.digits.length + packet.payload.length) by omega] at reads
        refine @World.ReadsInto.packetRead _ _ _ _ (old.drop
          (mqttWritePacketRemLen packet.payload.length).length) reads (by omega) ?_
        rw [held₃, Packet.canonical, empty]
        exact overwrite_behind [packet.header] old _ (by rw [empty] at canonicalShort; omega)

/-- `_read_mqtt_packet` consumes the bytes of one packet, leaves it with its shortest remaining
    length at the front of `read_buf`, or says that it does not fit, and writes nowhere else. -/
theorem readMqttPacket_framing (w : World) (packet : Packet) (later beyond : List UInt8)
    (delivers : w.Delivers) (sent : w.net.rx = packet.bytes ++ later)
    (six : 6 ≤ w.client.readBufSize) :
    readMqttPacket.wp (fun out w' =>
        PacketRead w.client.readBufSize w packet out.1 out.2 w') w ∧
      (readMqttPacketIn w.client.readBufSize).wp (fun out w' =>
          PacketRead w.client.readBufSize (w.followedBy beyond) packet out.1 out.2 w' ∧
          w'.client.readBuf.drop w.client.readBufSize = beyond)
        (w.followedBy beyond) := by
  refine ⟨?_, ?_⟩
  · rw [wp_readMqttPacket]
    exact readMqttPacketIn_packetRead delivers sent six (Nat.le_refl _)
  · have inside : w.client.readBufSize ≤ (w.followedBy beyond).client.readBuf.length := by
      rw [w.followedBy_readBuf, List.length_append]
      exact Nat.le_add_right _ _
    refine Prog.wp_mono (readMqttPacketIn_packetRead (delivers.followedBy beyond) sent six inside) ?_
    rintro ⟨rc, packetType⟩ w' read
    refine ⟨read, ?_⟩
    rw [read.behind, w.followedBy_readBuf]
    exact List.drop_left

/-- Three bytes with a remaining length of two digits, of which the second is not needed. -/
def Packet.padded : Packet where
  header := 0xD0
  digits := [0x81, 0x00]
  payload := [0x2A]
  isField := ⟨by decide, show (0 : UInt8).toNat < 128 by decide⟩
  short := by decide
  announced := by decide

theorem World.sentTo_rx (stream : List UInt8) : (World.sentTo stream).net.rx = stream := rfl

theorem World.sentTo_readBufSize (stream : List UInt8) :
    6 ≤ (World.sentTo stream).client.readBufSize := by
  change 6 ≤ (List.replicate qcloudIotMqttRxBufLen (0 : UInt8)).length
  rw [List.length_replicate]
  decide

theorem readMqttPacket_framing_padded :
    readMqttPacket.wp (fun out w' =>
      PacketRead (World.sentTo Packet.padded.bytes).client.readBufSize
        (.sentTo Packet.padded.bytes) Packet.padded out.1 out.2 w')
      (.sentTo Packet.padded.bytes) :=
  (readMqttPacket_framing (.sentTo Packet.padded.bytes) Packet.padded [] []
    (World.sentTo_delivers _) (by rw [World.sentTo_rx, List.append_nil])
    (World.sentTo_readBufSize _)).1

end QcloudIot.Mqtt
