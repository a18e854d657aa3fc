import QcloudIot.Network.Websocket

/-!
# The byte stream over websocket

While the messages fit the ring and no read gives up with bytes in its hands, what the reads have
returned and what the ring stores make up what was received.
-/

namespace QcloudIot.Network

open QcloudIot.Utils
open QcloudIot.Mqtt (qcloudRetSuccess qcloudErrFailure qcloudErrTcpReadFail
  qcloudErrTcpNothingToRead)

/-! ## Memory -/

theorem readBytes_writeBytes (bytes : List UInt8) (data : Int → UInt8) (n : Nat) :
    readBytes (writeBytes data n bytes) (n + bytes.length) = readBytes data n ++ bytes := by
  induction bytes generalizing data n with
  | nil => rw [writeBytes, List.length_nil, Nat.add_zero, List.append_nil]
  | cons byte rest ih =>
    have before : readBytes (Function.update data n byte) n = readBytes data n := by
      apply List.map_congr_left
      intro i inside
      rw [List.mem_range] at inside
      apply Function.update_of_ne
      omega
    have one : readBytes (Function.update data n byte) (n + 1) = readBytes data n ++ [byte] := by
      rw [← before, readBytes, readBytes, List.range_succ, List.map_append, List.map_singleton,
        Function.update_self]
    have length : n + (byte :: rest).length = n + 1 + rest.length := by
      rw [List.length_cons]
      omega
    have written := ih (Function.update data n byte) (n + 1)
    rw [Nat.cast_succ] at written
    rw [length, writeBytes, written, one, List.append_assoc, List.singleton_append]

/-! ## Messages -/

namespace WebsocketMqtt

variable {wsMqtt : WebsocketMqtt}

theorem size_ringBuffPushData (ring : RingBuff) (pData : List UInt8) (len : Int) :
    (ring.ringBuffPushData pData len).2.size = ring.size := by
  unfold RingBuff.ringBuffPushData
  split
  · rfl
  · exact (RingBuff.contents_push _ _).2

/-- Bytes that fit are stored behind those that are there. -/
theorem contents_ringBuffPushData {ring : RingBuff} {pData : List UInt8}
    (small : ring.size < 2 ^ 31)
    (fits : ring.contents.length + pData.length ≤ ring.size - 1) :
    (ring.ringBuffPushData pData pData.length).2.contents = ring.contents ++ pData := by
  have accepted : ¬ (pData.length : Int) % 2 ^ 32 > ring.size := by omega
  have all : pData.take (ring.size - 1 - ring.contents.length) = pData := by
    apply List.take_of_length_le
    omega
  rw [RingBuff.ringBuffPushData, if_neg accepted, Int.toNat_natCast, List.take_length,
    (RingBuff.contents_push _ _).1, all]

theorem recvRingBuff_recvMsgCallback (wsMqtt : WebsocketMqtt) (data : List UInt8)
    (datalen : Int) :
    (wsMqtt.recvMsgCallback data datalen).recvRingBuff =
      (wsMqtt.recvRingBuff.ringBuffPushData data datalen).2 := rfl

/-- A message is pushed unless it is empty. -/
theorem recvRingBuff_onMsgRecvCallback (wsMqtt : WebsocketMqtt) (msg : List UInt8) :
    (wsMqtt.onMsgRecvCallback msg).recvRingBuff =
      if msg.length ≤ 0 then wsMqtt.recvRingBuff
      else (wsMqtt.recvRingBuff.ringBuffPushData msg (toInt msg.length)).2 := by
  unfold onMsgRecvCallback
  dsimp only
  by_cases empty : msg.length ≤ 0
  · rw [if_pos empty, if_pos empty]
  · rw [if_neg empty, if_neg empty, recvRingBuff_recvMsgCallback]

theorem contents_onMsgRecvCallback {msg : List UInt8} (small : wsMqtt.recvRingBuff.size < 2 ^ 31)
    (fits : wsMqtt.recvRingBuff.contents.length + msg.length ≤ wsMqtt.recvRingBuff.size - 1) :
    (wsMqtt.onMsgRecvCallback msg).recvRingBuff.contents = wsMqtt.recvRingBuff.contents ++ msg := by
  rw [recvRingBuff_onMsgRecvCallback]
  by_cases empty : msg.length ≤ 0
  · have none : msg = [] := List.length_eq_zero_iff.mp (Nat.le_zero.mp empty)
    rw [if_pos empty, none, List.append_nil]
  · have size : msg.length < 2 ^ 31 := by omega
    rw [if_neg empty, toInt_small size]
    exact contents_ringBuffPushData small fits

theorem size_onMsgRecvCallback (wsMqtt : WebsocketMqtt) (msg : List UInt8) :
    (wsMqtt.onMsgRecvCallback msg).recvRingBuff.size = wsMqtt.recvRingBuff.size := by
  rw [recvRingBuff_onMsgRecvCallback]
  by_cases empty : msg.length ≤ 0
  · rw [if_pos empty]
  · rw [if_neg empty]
    exact size_ringBuffPushData _ _ _

theorem received_onMsgRecvCallback (wsMqtt : WebsocketMqtt) (msg : List UInt8) :
    (wsMqtt.onMsgRecvCallback msg).received = wsMqtt.received ++ msg := rfl

theorem disconnected_onMsgRecvCallback (wsMqtt : WebsocketMqtt) (msg : List UInt8) :
    (wsMqtt.onMsgRecvCallback msg).disconnected = wsMqtt.disconnected := by
  unfold onMsgRecvCallback
  dsimp only
  by_cases empty : msg.length ≤ 0
  · rw [if_pos empty]
  · rw [if_neg empty, recvMsgCallback]

theorem size_foldl_onMsgRecvCallback (msgs : List (List UInt8)) (wsMqtt : WebsocketMqtt) :
    (msgs.foldl onMsgRecvCallback wsMqtt).recvRingBuff.size = wsMqtt.recvRingBuff.size := by
  induction msgs generalizing wsMqtt with
  | nil => rfl
  | cons msg rest ih => rw [List.foldl_cons, ih, size_onMsgRecvCallback]

/-- Messages that fit together are stored one behind the other. -/
theorem foldl_onMsgRecvCallback (msgs : List (List UInt8)) (wsMqtt : WebsocketMqtt)
    (small : wsMqtt.recvRingBuff.size < 2 ^ 31)
    (fits : wsMqtt.recvRingBuff.contents.length + msgs.flatten.length ≤
      wsMqtt.recvRingBuff.size - 1) :
    (msgs.foldl onMsgRecvCallback wsMqtt).recvRingBuff.contents =
        wsMqtt.recvRingBuff.contents ++ msgs.flatten ∧
      (msgs.foldl onMsgRecvCallback wsMqtt).received = wsMqtt.received ++ msgs.flatten ∧
      (msgs.foldl onMsgRecvCallback wsMqtt).disconnected = wsMqtt.disconnected := by
  induction msgs generalizing wsMqtt with
  | nil =>
    rw [List.flatten_nil, List.append_nil, List.append_nil]
    exact ⟨rfl, rfl, rfl⟩
  | cons msg rest ih =>
    rw [List.flatten_cons, List.length_append] at fits
    have first := @contents_onMsgRecvCallback _ msg small (by omega)
    have size := size_onMsgRecvCallback wsMqtt msg
    obtain ⟨contents, received, disconnected⟩ :=
      ih (wsMqtt.onMsgRecvCallback msg) (by omega)
        (by rw [first, List.length_append, size]; omega)
    rw [List.foldl_cons, contents, received, disconnected, first, received_onMsgRecvCallback,
      disconnected_onMsgRecvCallback, List.flatten_cons, List.append_assoc, List.append_assoc]
    exact ⟨rfl, rfl, rfl⟩

theorem size_utilsWsClientRecv (wsMqtt : WebsocketMqtt) (recv : WsRecv) :
    (wsMqtt.utilsWsClientRecv recv).2.recvRingBuff.size = wsMqtt.recvRingBuff.size := by
  unfold utilsWsClientRecv
  split
  · rfl
  · have size := size_foldl_onMsgRecvCallback recv.msgs wsMqtt
    dsimp only
    split <;> exact size

theorem utilsWsClientRecv_fails {recv : WsRecv} :
    (wsMqtt.utilsWsClientRecv recv).1 ≠ qcloudRetSuccess ↔ recv.Fails := by
  unfold utilsWsClientRecv WsRecv.Fails
  split
  · rename_i closed
    exact iff_of_true (by decide : qcloudErrFailure ≠ qcloudRetSuccess) (.inl closed)
  · rename_i opened
    exact (or_iff_right opened).symm

/-- A call that succeeds with messages that fit. -/
theorem utilsWsClientRecv_fits {recv : WsRecv} (small : wsMqtt.recvRingBuff.size < 2 ^ 31)
    (passes : ¬ recv.Fails)
    (fits : wsMqtt.recvRingBuff.contents.length + recv.bytes.length ≤
      wsMqtt.recvRingBuff.size - 1) :
    (wsMqtt.utilsWsClientRecv recv).2.recvRingBuff.contents =
        wsMqtt.recvRingBuff.contents ++ recv.bytes ∧
      (wsMqtt.utilsWsClientRecv recv).2.received = wsMqtt.received ++ recv.bytes ∧
      (wsMqtt.utilsWsClientRecv recv).2.disconnected =
        (wsMqtt.disconnected || recv.dataErr) := by
  have opened : ¬ recv.closeReceived = true := fun closed => passes (.inl closed)
  have bytes : recv.bytes = recv.msgs.flatten := if_neg opened
  rw [bytes] at fits ⊢
  obtain ⟨contents, received, disconnected⟩ :=
    foldl_onMsgRecvCallback recv.msgs wsMqtt small fits
  rw [utilsWsClientRecv, if_neg opened]
  dsimp only
  split
  · rename_i err
    exact ⟨contents, received, by rw [err, Bool.or_true]; rfl⟩
  · rename_i err
    exact ⟨contents, received, by rw [disconnected, eq_false_of_ne_true err, Bool.or_false]⟩

/-! ## Reads -/

theorem ringBuffPopData_fits {ring : RingBuff} {len : Nat} (fits : len ≤ ring.size)
    (small : ring.size < 2 ^ 31) :
    ring.ringBuffPopData len =
      (((ring.pop len).1.length : Int), (ring.pop len).1, (ring.pop len).2) := by
  have accepted : ¬ (len : Int) % 2 ^ 32 > ring.size := by omega
  rw [RingBuff.ringBuffPopData, if_neg accepted, Int.toNat_natCast]

theorem size_ringBuffPopData (ring : RingBuff) (len : Int) :
    (ring.ringBuffPopData len).2.2.size = ring.size := by
  unfold RingBuff.ringBuffPopData
  split
  · rfl
  · exact (RingBuff.contents_pop _ _).2.2

/-- A round of the loop, by what is popped. -/
theorem readLoop_popped {datalen : Nat} {data : Int → UInt8} {total n : Int} {recv : WsRecv}
    {later : List WsRecv} {bytes : List UInt8} {ring : RingBuff}
    (popped : wsMqtt.recvRingBuff.ringBuffPopData (toInt ((datalen - total) % 2 ^ 64)) =
      (n, bytes, ring)) :
    readLoop datalen wsMqtt data total recv later =
      if datalen = (total + n) % 2 ^ 64 then
        (qcloudRetSuccess, writeBytes data total bytes, { wsMqtt with recvRingBuff := ring })
      else
        let received := { wsMqtt with recvRingBuff := ring }.utilsWsClientRecv recv
        if received.1 ≠ qcloudRetSuccess then
          (qcloudErrTcpReadFail, writeBytes data total bytes, received.2)
        else
          match later with
          | [] =>
            (if received.2.disconnected then qcloudErrTcpReadFail else qcloudErrTcpNothingToRead,
              writeBytes data total bytes, received.2)
          | next :: rest =>
            readLoop datalen received.2 (writeBytes data total bytes) (total + n) next rest := by
  cases later with
  | nil =>
    unfold readLoop
    dsimp only
    rw [popped]
  | cons next rest =>
    rw [readLoop.eq_def]
    dsimp only
    rw [popped]

theorem size_readLoop (datalen : Nat) (later : List WsRecv) (wsMqtt : WebsocketMqtt)
    (data : Int → UInt8) (total : Int) (recv : WsRecv) :
    (readLoop datalen wsMqtt data total recv later).2.2.recvRingBuff.size =
      wsMqtt.recvRingBuff.size := by
  induction later generalizing wsMqtt data total recv with
  | nil =>
    have popped := size_ringBuffPopData wsMqtt.recvRingBuff (toInt ((datalen - total) % 2 ^ 64))
    rcases pop : wsMqtt.recvRingBuff.ringBuffPopData (toInt ((datalen - total) % 2 ^ 64)) with
      ⟨n, bytes, ring⟩
    rw [pop] at popped
    have received := size_utilsWsClientRecv { wsMqtt with recvRingBuff := ring } recv
    rw [readLoop_popped pop]
    dsimp only
    split_ifs
    · exact popped
    · exact received.trans popped
    · exact received.trans popped
    · exact received.trans popped
  | cons next rest ih =>
    have popped := size_ringBuffPopData wsMqtt.recvRingBuff (toInt ((datalen - total) % 2 ^ 64))
    rcases pop : wsMqtt.recvRingBuff.ringBuffPopData (toInt ((datalen - total) % 2 ^ 64)) with
      ⟨n, bytes, ring⟩
    rw [pop] at popped
    have received := size_utilsWsClientRecv { wsMqtt with recvRingBuff := ring } recv
    rw [readLoop_popped pop]
    dsimp only
    split_ifs
    · exact popped
    · exact received.trans popped
    · exact (ih _ _ _ _).trans (received.trans popped)

/-- What a read that has not failed leaves: the stream goes on behind what it returns. -/
def Settled (datalen : Nat) (returned : List UInt8)
    (read : Int × (Int → UInt8) × WebsocketMqtt) : Prop :=
  read.1 = qcloudErrTcpReadFail ∨
    returned ++ (if read.1 = qcloudRetSuccess then readBytes read.2.1 datalen else []) ++
      read.2.2.recvRingBuff.contents = read.2.2.received

variable {datalen : Nat} {data : Int → UInt8} {got returned : List UInt8} {recv : WsRecv}
  {later : List WsRecv}

/-- The pop that asks for what is still missing. -/
theorem pop_missing (small : wsMqtt.recvRingBuff.size < 2 ^ 31)
    (short : datalen ≤ wsMqtt.recvRingBuff.size) (taken : got.length ≤ datalen) :
    ∃ ring : RingBuff,
      wsMqtt.recvRingBuff.ringBuffPopData (toInt ((datalen - got.length) % 2 ^ 64)) =
          (((wsMqtt.recvRingBuff.contents.take (datalen - got.length)).length : Int),
            wsMqtt.recvRingBuff.contents.take (datalen - got.length), ring) ∧
        ring.contents = wsMqtt.recvRingBuff.contents.drop (datalen - got.length) ∧
        ring.size = wsMqtt.recvRingBuff.size := by
  obtain ⟨bytes, left, size⟩ := RingBuff.contents_pop wsMqtt.recvRingBuff (datalen - got.length)
  have missing : ((datalen : Int) - got.length) % 2 ^ 64 = (datalen - got.length : Nat) := by
    omega
  have fits : datalen - got.length ≤ wsMqtt.recvRingBuff.size := by omega
  refine ⟨_, ?_, left, size⟩
  rw [missing, toInt_small (by omega), ringBuffPopData_fits fits small, bytes]

/-- Enough bytes are stored. -/
theorem readLoop_enough (small : wsMqtt.recvRingBuff.size < 2 ^ 31)
    (short : datalen ≤ wsMqtt.recvRingBuff.size) (taken : got.length ≤ datalen)
    (held : readBytes data got.length = got)
    (stream : returned ++ (got ++ wsMqtt.recvRingBuff.contents) = wsMqtt.received)
    (enough : datalen ≤ got.length + wsMqtt.recvRingBuff.contents.length) :
    Settled datalen returned (readLoop datalen wsMqtt data got.length recv later) := by
  obtain ⟨ring, popped, left, _⟩ := pop_missing small short taken
  have length : (wsMqtt.recvRingBuff.contents.take (datalen - got.length)).length =
      datalen - got.length := by
    rw [List.length_take]
    omega
  have complete : (datalen : Int) = (got.length +
      (wsMqtt.recvRingBuff.contents.take (datalen - got.length)).length) % 2 ^ 64 := by
    rw [length]
    omega
  rw [readLoop_popped popped, if_pos complete]
  right
  have total : datalen = got.length +
      (wsMqtt.recvRingBuff.contents.take (datalen - got.length)).length := by
    rw [length]
    omega
  have read := readBytes_writeBytes (wsMqtt.recvRingBuff.contents.take (datalen - got.length))
    data got.length
  rw [← total, held] at read
  rw [if_pos rfl, read, left, ← stream, List.append_assoc, List.append_assoc,
    List.take_append_drop]

/-- The receiver fails. -/
theorem readLoop_fails (small : wsMqtt.recvRingBuff.size < 2 ^ 31)
    (short : datalen ≤ wsMqtt.recvRingBuff.size) (taken : got.length ≤ datalen)
    (missing : got.length + wsMqtt.recvRingBuff.contents.length < datalen)
    (fails : recv.Fails) :
    (readLoop datalen wsMqtt data got.length recv later).1 = qcloudErrTcpReadFail := by
  obtain ⟨ring, popped, _, _⟩ := pop_missing small short taken
  have length : (wsMqtt.recvRingBuff.contents.take (datalen - got.length)).length =
      wsMqtt.recvRingBuff.contents.length := by
    rw [List.length_take]
    omega
  have incomplete : (datalen : Int) ≠ (got.length +
      (wsMqtt.recvRingBuff.contents.take (datalen - got.length)).length) % 2 ^ 64 := by
    rw [length]
    omega
  rw [readLoop_popped popped, if_neg incomplete]
  dsimp only
  rw [if_pos (utilsWsClientRecv_fails.mpr fails)]

/-- The ring is emptied, and the messages received are stored in it. -/
theorem readLoop_waits (small : wsMqtt.recvRingBuff.size < 2 ^ 31)
    (short : datalen ≤ wsMqtt.recvRingBuff.size) (taken : got.length ≤ datalen)
    (held : readBytes data got.length = got)
    (missing : got.length + wsMqtt.recvRingBuff.contents.length < datalen)
    (passes : ¬ recv.Fails) (fits : recv.bytes.length ≤ wsMqtt.recvRingBuff.size - 1) :
    ∃ (after : WebsocketMqtt) (data' : Int → UInt8),
      after.recvRingBuff.contents = recv.bytes ∧
        after.recvRingBuff.size = wsMqtt.recvRingBuff.size ∧
        after.received = wsMqtt.received ++ recv.bytes ∧
        after.disconnected = (wsMqtt.disconnected || recv.dataErr) ∧
        readBytes data' (got ++ wsMqtt.recvRingBuff.contents).length =
          got ++ wsMqtt.recvRingBuff.contents ∧
        readLoop datalen wsMqtt data got.length recv later =
          match later with
          | [] =>
            (if after.disconnected then qcloudErrTcpReadFail else qcloudErrTcpNothingToRead,
              data', after)
          | next :: rest =>
            readLoop datalen after data' (got ++ wsMqtt.recvRingBuff.contents).length next rest := by
  obtain ⟨ring, popped, left, size⟩ := pop_missing small short taken
  have all : wsMqtt.recvRingBuff.contents.take (datalen - got.length) =
      wsMqtt.recvRingBuff.contents := by
    apply List.take_of_length_le
    omega
  have none : wsMqtt.recvRingBuff.contents.drop (datalen - got.length) = [] := by
    apply List.drop_of_length_le
    omega
  rw [all] at popped
  rw [none] at left
  have incomplete : (datalen : Int) ≠
      (got.length + wsMqtt.recvRingBuff.contents.length) % 2 ^ 64 := by
    omega
  have smaller : ring.size < 2 ^ 31 := by omega
  have room : ring.contents.length + recv.bytes.length ≤ ring.size - 1 := by
    rw [left, size, List.length_nil, Nat.zero_add]
    exact fits
  obtain ⟨contents, received, disconnected⟩ :=
    @utilsWsClientRecv_fits ({ wsMqtt with recvRingBuff := ring }) _ smaller passes room
  refine ⟨({ wsMqtt with recvRingBuff := ring }.utilsWsClientRecv recv).2,
    writeBytes data got.length wsMqtt.recvRingBuff.contents, ?_, ?_, received, disconnected, ?_, ?_⟩
  · rw [contents]
    exact (congrArg (· ++ recv.bytes) left).trans (List.nil_append _)
  · exact (size_utilsWsClientRecv _ _).trans size
  · rw [List.length_append, readBytes_writeBytes, held]
  · rw [readLoop_popped popped, if_neg incomplete]
    dsimp only
    rw [if_neg (mt utilsWsClientRecv_fails.mp passes), List.length_append, Nat.cast_add]

/-- When the timer expires nothing has been taken, or the connection is reported as lost. -/
theorem settled_expired {after : WebsocketMqtt}
    (kept : after.disconnected ∨
      returned ++ after.recvRingBuff.contents = after.received) :
    Settled datalen returned
      (if after.disconnected then qcloudErrTcpReadFail else qcloudErrTcpNothingToRead,
        data, after) := by
  by_cases lost : after.disconnected
  · exact .inl (if_pos lost)
  · have nothing : ¬ qcloudErrTcpNothingToRead = qcloudRetSuccess := by decide
    right
    rw [if_neg lost, if_neg nothing, List.append_nil]
    exact kept.resolve_left lost

/-- A read that fits the ring keeps the stream. Induction on the rounds that are left: between two
    rounds the bytes taken so far stand between what was returned and what is stored. -/
theorem readLoop_fits (small : wsMqtt.recvRingBuff.size < 2 ^ 31)
    (short : datalen ≤ wsMqtt.recvRingBuff.size) (taken : got.length ≤ datalen)
    (held : readBytes data got.length = got)
    (stream : returned ++ (got ++ wsMqtt.recvRingBuff.contents) = wsMqtt.received)
    (fits : FitsRing wsMqtt.recvRingBuff.size datalen
      (got.length + wsMqtt.recvRingBuff.contents.length) wsMqtt.disconnected recv later) :
    Settled datalen returned (readLoop datalen wsMqtt data got.length recv later) := by
  induction later generalizing wsMqtt data got recv with
  | nil =>
    rcases fits with enough | fails | ⟨room, clean⟩
    · exact readLoop_enough small short taken held stream enough
    · by_cases enough : datalen ≤ got.length + wsMqtt.recvRingBuff.contents.length
      · exact readLoop_enough small short taken held stream enough
      · exact .inl (readLoop_fails small short taken (by omega) fails)
    · by_cases enough : datalen ≤ got.length + wsMqtt.recvRingBuff.contents.length
      · exact readLoop_enough small short taken held stream enough
      by_cases fails : recv.Fails
      · exact .inl (readLoop_fails small short taken (by omega) fails)
      obtain ⟨after, data', contents, _, received, disconnected, _, loop⟩ :=
        @readLoop_waits _ _ _ _ _ [] small short taken held (by omega) fails room
      rw [loop]
      apply settled_expired
      rcases clean with nothing | lost
      · right
        have noBytes : got = [] := List.length_eq_zero_iff.mp (by omega)
        have empty : wsMqtt.recvRingBuff.contents = [] := List.length_eq_zero_iff.mp (by omega)
        rw [noBytes, empty, List.append_nil, List.append_nil] at stream
        rw [contents, received, stream]
      · left
        rw [disconnected, Bool.or_eq_true]
        exact lost
  | cons next rest ih =>
    by_cases enough : datalen ≤ got.length + wsMqtt.recvRingBuff.contents.length
    · exact readLoop_enough small short taken held stream enough
    by_cases fails : recv.Fails
    · exact .inl (readLoop_fails small short taken (by omega) fails)
    obtain ⟨room, fitsRest⟩ := (fits.resolve_left enough).resolve_left fails
    obtain ⟨after, data', contents, size, received, disconnected, held', loop⟩ :=
      @readLoop_waits _ _ _ _ _ (next :: rest) small short taken held (by omega) fails room
    rw [loop]
    apply ih
    · rw [size]
      exact small
    · rw [size]
      exact short
    · rw [List.length_append]
      omega
    · exact held'
    · rw [contents, received, ← stream]
      simp only [List.append_assoc]
    · rw [size, contents, disconnected, List.length_append]
      exact fitsRest

/-- A round of a read that is longer than the ring: the pop is refused, and its code is added to
    the total. -/
theorem readLoop_refused {rounds : Nat} (long : wsMqtt.recvRingBuff.size < datalen)
    (bound : datalen + 5 * (rounds + 1) < 2 ^ 32) :
    readLoop datalen wsMqtt data (-(5 * rounds : Nat)) recv later =
      if (wsMqtt.utilsWsClientRecv recv).1 ≠ qcloudRetSuccess then
        (qcloudErrTcpReadFail, data, (wsMqtt.utilsWsClientRecv recv).2)
      else
        match later with
        | [] =>
          (if (wsMqtt.utilsWsClientRecv recv).2.disconnected then qcloudErrTcpReadFail
            else qcloudErrTcpNothingToRead, data, (wsMqtt.utilsWsClientRecv recv).2)
        | next :: rest =>
          readLoop datalen (wsMqtt.utilsWsClientRecv recv).2 data (-(5 * (rounds + 1) : Nat))
            next rest := by
  have refused : toInt ((datalen - -((5 * rounds : Nat) : Int)) % 2 ^ 64) % 2 ^ 32 >
      wsMqtt.recvRingBuff.size := by
    rw [toInt_emod]
    omega
  have popped : wsMqtt.recvRingBuff.ringBuffPopData
      (toInt ((datalen - -((5 * rounds : Nat) : Int)) % 2 ^ 64)) =
      (ringbuffTooShort, [], wsMqtt.recvRingBuff) := if_pos refused
  have total : -((5 * rounds : Nat) : Int) + ringbuffTooShort = -(5 * (rounds + 1) : Nat) := by
    unfold ringbuffTooShort
    omega
  have incomplete : ¬ (datalen : Int) = -((5 * (rounds + 1) : Nat) : Int) % 2 ^ 64 := by
    omega
  rw [readLoop_popped popped, total, if_neg incomplete]
  rfl

/-- A read that is longer than the ring takes nothing from it. -/
theorem readLoop_beside {rounds : Nat} (small : wsMqtt.recvRingBuff.size < 2 ^ 31)
    (long : wsMqtt.recvRingBuff.size < datalen)
    (bound : datalen + 5 * (rounds + later.length + 1) < 2 ^ 32)
    (stream : returned ++ wsMqtt.recvRingBuff.contents = wsMqtt.received)
    (fits : FitsBeside wsMqtt.recvRingBuff.size wsMqtt.recvRingBuff.contents.length recv later) :
    Settled datalen returned (readLoop datalen wsMqtt data (-(5 * rounds : Nat)) recv later) := by
  induction later generalizing wsMqtt data recv rounds with
  | nil =>
    rw [List.length_nil, Nat.add_zero] at bound
    rw [readLoop_refused long bound]
    by_cases fails : recv.Fails
    · rw [if_pos (utilsWsClientRecv_fails.mpr fails)]
      exact .inl rfl
    obtain ⟨contents, received, _⟩ :=
      utilsWsClientRecv_fits small fails (fits.resolve_left fails)
    rw [if_neg (mt utilsWsClientRecv_fails.mp fails)]
    apply settled_expired
    right
    rw [contents, received, ← stream, List.append_assoc]
  | cons next rest ih =>
    rw [List.length_cons] at bound
    rw [readLoop_refused long (by omega)]
    by_cases fails : recv.Fails
    · rw [if_pos (utilsWsClientRecv_fails.mpr fails)]
      exact .inl rfl
    obtain ⟨room, fitsRest⟩ := fits.resolve_left fails
    obtain ⟨contents, received, _⟩ := utilsWsClientRecv_fits small fails room
    have size := size_utilsWsClientRecv wsMqtt recv
    rw [if_neg (mt utilsWsClientRecv_fails.mp fails)]
    apply ih
    · rw [size]
      exact small
    · rw [size]
      exact long
    · omega
    · rw [contents, received, ← stream, List.append_assoc]
    · rw [size, contents, List.length_append]
      exact fitsRest

end WebsocketMqtt

/-! ## Runs -/

/-- The size of the ring never changes. -/
theorem size_call (c : Connection) (call : WsCall) :
    (c.call call).wsMqtt.recvRingBuff.size = c.wsMqtt.recvRingBuff.size := by
  cases call with
  | read data datalen recv later =>
    exact WebsocketMqtt.size_readLoop datalen later c.wsMqtt data 0 recv
  | sendDataErr => rfl

/-- A call that meets the condition keeps the stream. -/
theorem stream_call {c : Connection} {call : WsCall} (small : c.wsMqtt.recvRingBuff.size < 2 ^ 31)
    (keeps : Keeps c call) (stream : c.Stream) : (c.call call).Stream := by
  cases call with
  | sendDataErr => exact stream
  | read data datalen recv later =>
    by_cases failed : c.failed
    · left
      rw [Connection.call, failed]
      rfl
    have kept := stream.resolve_left failed
    have settled : WebsocketMqtt.Settled datalen c.returned
        (c.wsMqtt.networkWebsocketMqttRead data datalen recv later) := by
      have fits := keeps.resolve_left failed
      by_cases short : datalen ≤ c.wsMqtt.recvRingBuff.size
      · rw [if_pos short] at fits
        apply @WebsocketMqtt.readLoop_fits _ _ _ [] _ _ _ small short (Nat.zero_le _) rfl
        · exact kept
        · rw [List.length_nil, Nat.zero_add]
          exact fits
      · rw [if_neg short] at fits
        apply @WebsocketMqtt.readLoop_beside _ _ _ _ _ _ 0 small (by omega) _ kept fits.2
        have := fits.1
        omega
    rcases settled with fails | streams
    · left
      rw [Connection.call]
      dsimp only
      rw [fails, decide_eq_true rfl, Bool.or_true]
    · exact .inr streams

/-- In every run on a new connection whose reads meet the condition, the bytes returned and the
    bytes stored are those that were received, until a read fails. -/
theorem websocket_stream {calls : List WsCall}
    (guarded : connection.Guarded Keeps .initial calls) (n : Nat) :
    (connection.exec .initial (calls.take n)).Stream := by
  have kept : ∀ n, (connection.exec .initial (calls.take n)).wsMqtt.recvRingBuff.size =
      qcloudIotMqttRxBufLen ∧ (connection.exec .initial (calls.take n)).Stream := by
    intro n
    refine guarded.invariant_take (I := fun c => c.wsMqtt.recvRingBuff.size =
      qcloudIotMqttRxBufLen ∧ c.Stream) ⟨rfl, .inr rfl⟩ ?_ n
    rintro c call keeps ⟨size, stream⟩
    refine ⟨(size_call c call).trans size, stream_call ?_ keeps stream⟩
    rw [size]
    decide
  exact (kept n).2

/-- A call of the receiver that hands over messages. -/
def delivers (msgs : List (List UInt8)) : WsRecv := ⟨false, msgs, false, 0⟩

/-- A packet in one message, read in two pieces. -/
theorem websocket_stream_packet :
    (connection.exec .initial
      (([.read (fun _ => 0) 1 (delivers [[0xD0, 0]]) [delivers []],
        .read (fun _ => 0) 1 (delivers []) []] : List WsCall).take 2)).Stream := by
  apply websocket_stream
  decide +kernel

/-- The first bytes of a packet are lost when the read that took them times out; bytes that do not
    fit the ring are dropped. -/
theorem websocket_loses :
    ¬ (connection.exec .initial
        [.read (fun _ => 0) 4 (delivers [[1, 2, 3]]) [delivers []],
          .read (fun _ => 0) 4 (delivers [[4, 5, 6, 7]]) [delivers []]]).Stream ∧
      ¬ (connection.exec .initial
        [.read (fun _ => 0) 1 (delivers [List.replicate 2048 1]) []]).Stream := by
  constructor
  · unfold Connection.Stream
    decide +kernel
  · rintro (failed | same)
    · exact absurd failed (by decide +kernel)
    · -- the ring stores fewer bytes than it has slots, however they are pushed
      have stored := RingBuff.length_contents (connection.exec .initial
        [.read (fun _ => 0) 1 (delivers [List.replicate 2048 1]) []]).wsMqtt.recvRingBuff
      have size : (connection.exec .initial
          [.read (fun _ => 0) 1 (delivers [List.replicate 2048 1]) []]).wsMqtt.recvRingBuff.size =
          qcloudIotMqttRxBufLen :=
        size_call .initial (.read (fun _ => 0) 1 (delivers [List.replicate 2048 1]) [])
      have returned : (connection.exec .initial
          [.read (fun _ => 0) 1 (delivers [List.replicate 2048 1]) []]).returned = [] := by
        decide +kernel
      have received : (connection.exec .initial
          [.read (fun _ => 0) 1 (delivers [List.replicate 2048 1]) []]).wsMqtt.received.length =
          2048 := by
        decide +kernel
      have lengths := congrArg List.length same
      rw [returned, received, List.nil_append] at lengths
      rw [size, lengths] at stored
      exact absurd stored (lt_irrefl _)

end QcloudIot.Network
