import QcloudIot.Mqtt.Net

/-!
# What `send_mqtt_packet` transmits

A send touches nothing but the bytes transmitted, the clock and the pending outcomes
(`World.OnlySends`). When `send_mqtt_packet` succeeds it has transmitted the memory from the
start of `write_buf` up to the offset at which its loop was left. The loop asks for `length`
bytes in every round, so a round that follows a short write can run past the packet
(`World.Overshoots`); without that the offset is `length` and exactly the packet was
transmitted.
-/

namespace QcloudIot.Mqtt

/-! ## What a send leaves alone -/

/-- Nothing changes from `w` to `w'` but the bytes transmitted, which grow, the clock, which
    does not run backwards, and the pending outcomes of clock readings and writes. -/
structure World.OnlySends (w w' : World) : Prop where
  client : w'.client = w.client
  heap : w'.heap = w.heap
  trace : w'.trace = w.trace
  net : w'.net = { w.net with tx := w'.net.tx }
  grows : w.net.tx <+: w'.net.tx
  clock : w.clock ≤ w'.clock
  env : w'.env = { w.env with ticks := w'.env.ticks, writes := w'.env.writes }

instance : Std.Refl World.OnlySends :=
  ⟨fun _ => ⟨rfl, rfl, rfl, rfl, List.prefix_rfl, Nat.le_refl _, rfl⟩⟩

instance : IsTrans World World.OnlySends where
  trans a b c first second :=
    { client := second.client.trans first.client
      heap := second.heap.trans first.heap
      trace := second.trace.trans first.trace
      net := by rw [second.net, first.net]
      grows := first.grows.trans second.grows
      clock := first.clock.trans second.clock
      env := by rw [second.env, first.env] }

theorem World.onlySends_tick (w : World) : w.OnlySends w.tick :=
  ⟨rfl, rfl, rfl, rfl, List.prefix_rfl, Nat.le_add_right _ _, rfl⟩

theorem expired_onlySends (timer : Timer) : Prog.Within World.OnlySends (expired timer) :=
  fun w => w.onlySends_tick

theorem networkWrite_onlySends (bytes : List UInt8) :
    Prog.Within World.OnlySends (networkWrite bytes) :=
  fun _ => ⟨rfl, rfl, rfl, rfl, List.prefix_append _ _, Nat.le_refl _, rfl⟩

theorem sendLoop_onlySends (length : Nat) (timer : Timer) (fuel sent : Nat) :
    Prog.Within World.OnlySends (sendLoop length timer fuel sent) := by
  induction fuel generalizing sent with
  | zero => exact .pure _
  | succ fuel ih =>
    refine .ite (.bind (expired_onlySends timer) fun _ => ?_) (.pure _)
    refine .ite (.pure _) (.bind client_within fun c => ?_)
    exact .bind (networkWrite_onlySends _) fun _ => .ite (.pure _) (ih _)

theorem sendMqttPacket_onlySends (length : Nat) (timer : Timer) :
    Prog.Within World.OnlySends (sendMqttPacket length timer) := by
  refine .bind client_within fun c => .ite (.pure _) (.bind (expired_onlySends timer) fun _ => ?_)
  refine .ite (.pure _) (.bind (.prim fun w => refl_of _ w) fun fuel => ?_)
  refine .bind (sendLoop_onlySends length timer fuel 0) fun _ => .ite (.pure _) ?_
  exact .ite (.bind (expired_onlySends timer) fun _ => .ite (.pure _) (.pure _)) (.pure _)

/-! ## The offset at which the loop is left -/

/-- The bytes that the first `k` writes take if each is asked for `n` bytes. -/
def Env.taken (e : Env) (n k : Nat) : Nat := ((e.writes.take k).map fun o => min o.written n).sum

/-- The time that passes before each of the next `k` readings of the clock. -/
def Env.elapsed (e : Env) (k : Nat) : Nat := (e.ticks.take k).sum

/-- With `sent` bytes of a packet of `n` bytes transmitted, some write will reach `target`
    bytes: it and the writes before it succeed, these do not complete the packet, and the
    timer has not run out when it is read for the `readings`-th time from that write on, the
    reading right before the write being the first. -/
def World.Reaches (w : World) (n : Nat) (timer : Timer) (target : Nat → Prop) (readings : Nat)
    (sent : Nat) : Prop :=
  ∃ k < w.env.writes.length, (∀ o ∈ w.env.writes.take (k + 1), o.rc = qcloudRetSuccess) ∧
    sent + w.env.taken n k < n ∧ target (sent + w.env.taken n (k + 1)) ∧
    w.clock + w.env.elapsed (k + readings) < timer.endTime

/-- Some write will complete the packet. -/
abbrev World.Completes (w : World) (n : Nat) (timer : Timer) (sent : Nat) : Prop :=
  w.Reaches n timer (n = ·) 1 sent

/-- Some write will run past the end of the packet, and the timer has not run out after it. -/
abbrev World.Overshoots (w : World) (n : Nat) (timer : Timer) (sent : Nat) : Prop :=
  w.Reaches n timer (n < ·) 2 sent

/-- The time of a reading of the clock, counted from before or from after the first. -/
theorem World.tick_elapsed (w : World) (k : Nat) :
    w.tick.clock + w.tick.env.elapsed k = w.clock + w.env.elapsed (k + 1) := by
  cases ticks : w.env.ticks <;> simp [Env.elapsed, World.tick, ticks, Nat.add_assoc]

theorem World.tick_clock (w : World) : w.tick.clock = w.clock + w.env.elapsed 1 := by
  simpa [Env.elapsed] using w.tick_elapsed 0

theorem World.tick_tick_clock (w : World) : w.tick.tick.clock = w.clock + w.env.elapsed 2 := by
  rw [World.tick_clock w.tick, World.tick_elapsed]

section Reaches

variable {w : World} {n : Nat} {timer : Timer} {target : Nat → Prop} {readings sent : Nat}

theorem World.Reaches.short (reaches : w.Reaches n timer target readings sent) : sent < n := by
  obtain ⟨k, -, -, before, -⟩ := reaches
  omega

theorem World.not_reaches_of_expired (late : timer.endTime ≤ w.tick.clock) :
    ¬ w.Reaches n timer target (readings + 1) sent := by
  rintro ⟨k, -, -, -, -, early⟩
  have : w.tick.clock + _ = w.clock + w.env.elapsed (k + (readings + 1)) :=
    w.tick_elapsed (k + readings)
  omega

theorem World.not_reaches_of_failed (failed : w.env.nextWrite.rc ≠ qcloudRetSuccess) :
    ¬ w.Reaches n timer target readings sent := by
  rintro ⟨k, inside, succeed, -⟩
  cases pending : w.env.writes with
  | nil => simp [pending] at inside
  | cons o writes =>
    rw [Env.nextWrite, pending] at failed
    exact failed (succeed o (by simp [pending]))

/-- The first write reaches the target, or it succeeds and a later one does. -/
theorem World.reaches_cons {o : WriteOutcome} {writes : List WriteOutcome}
    (pending : w.env.writes = o :: writes) (short : sent < n) (bytes : List UInt8) :
    w.Reaches n timer target readings sent ↔ o.rc = qcloudRetSuccess ∧
      (target (sent + min o.written n) ∧ w.clock + w.env.elapsed readings < timer.endTime ∨
        (w.tick.transmit bytes).Reaches n timer target readings (sent + min o.written n)) := by
  have time : ∀ k, (w.tick.transmit bytes).clock + (w.tick.transmit bytes).env.elapsed k =
      w.clock + w.env.elapsed (k + 1) := w.tick_elapsed
  have rest : (w.tick.transmit bytes).env.writes = writes := by
    simp [World.tick, World.transmit, pending]
  have sum : ∀ k, sent + w.env.taken n (k + 1) =
      sent + min o.written n + (w.tick.transmit bytes).env.taken n k := by
    intro k
    simp [Env.taken, pending, Nat.add_assoc]
  have none : ∀ e : Env, e.taken n 0 = 0 := fun e => by simp [Env.taken]
  simp only [World.Reaches, rest, pending, time]
  constructor
  · rintro ⟨k, inside, succeed, before, reached, soon⟩
    simp only [List.take_succ_cons, List.mem_cons, forall_eq_or_imp] at succeed
    refine ⟨succeed.1, ?_⟩
    cases k with
    | zero =>
      rw [sum, none] at reached
      exact .inl ⟨reached, by simpa using soon⟩
    | succ k =>
      rw [sum] at before reached
      exact .inr ⟨k, by simpa using inside, succeed.2, before, reached,
        by rwa [Nat.add_right_comm] at soon⟩
  · rintro ⟨first, ⟨reached, soon⟩ | ⟨k, inside, succeed, before, reached, soon⟩⟩
    · refine ⟨0, by simp, by simpa using first, ?_, ?_, by simpa using soon⟩
      · rw [none]
        exact short
      · rw [sum, none]
        exact reached
    · refine ⟨k + 1, by simpa using inside, ?_, ?_, ?_, by rwa [Nat.add_right_comm]⟩
      · simpa only [List.take_succ_cons, List.mem_cons, forall_eq_or_imp] using ⟨first, succeed⟩
      · rw [sum]
        exact before
      · rw [sum]
        exact reached

end Reaches

/-- A write from offset `sent` that is asked for `length` bytes. -/
theorem wp_networkWrite_from (length sent : Nat) {Q : Int × Nat → World → Prop} {w : World}
    (c : Client) :
    (networkWrite ((c.writeBufFrom sent).take length)).wp Q w ↔
      ∀ count, count = min w.env.nextWrite.written
          (min length ((c.writeBuf ++ c.readBuf).length - sent)) →
        Q (w.env.nextWrite.rc, count) (w.transmit ((c.writeBufFrom sent).take count)) := by
  have asked : ((c.writeBufFrom sent).take length).length =
      min length ((c.writeBuf ++ c.readBuf).length - sent) := by
    simp only [Client.writeBufFrom, List.length_take, List.length_drop]
  simp only [wp_networkWrite, asked, List.take_take, forall_eq]
  have cut : min (min w.env.nextWrite.written (min length
      ((c.writeBuf ++ c.readBuf).length - sent))) length =
      min w.env.nextWrite.written (min length ((c.writeBuf ++ c.readBuf).length - sent)) := by
    omega
  rw [cut]

/-- A loop that has transmitted enough is left. -/
theorem sendLoop_done {length : Nat} {timer : Timer} {sent : Nat} (done : length ≤ sent)
    (fuel : Nat) {Q : Nat × Int → World → Prop} {w : World} :
    (sendLoop length timer fuel sent).wp Q w ↔ Q (sent, qcloudRetSuccess) w := by
  cases fuel with
  | zero => simp [sendLoop]
  | succ fuel => simp [sendLoop, Nat.not_lt.mpr done]

/-- How the loop of `send_mqtt_packet` is left: by a failed write, by the timer, or with at
    least `length` bytes transmitted. The bytes transmitted are those from `&write_buf[sent]`
    on. It is left with exactly `length` of them if it completes the packet, and with more,
    before the timer runs out, if it overshoots. The induction is on the rounds, each of which
    takes one write outcome. -/
theorem sendLoop_spec (length : Nat) (timer : Timer) (fuel sent : Nat) (w : World)
    (enough : w.env.writes.length < fuel) (fits : length < w.client.writeBufSize)
    (short : sent < length) :
    (sendLoop length timer fuel sent).wp (fun r w' =>
      (r.2 ≠ qcloudRetSuccess → r.1 < length) ∧
      (r.2 = qcloudRetSuccess →
        sent ≤ r.1 ∧ r.1 ≤ (w.client.writeBuf ++ w.client.readBuf).length ∧
        w'.net.tx = w.net.tx ++ (w.client.writeBufFrom sent).take (r.1 - sent) ∧
        (r.1 < length → timer.endTime ≤ w'.clock)) ∧
      (r.2 = qcloudRetSuccess ∧ length = r.1 ↔ w.Completes length timer sent) ∧
      (r.2 = qcloudRetSuccess ∧ length < r.1 ∧ w'.tick.clock < timer.endTime ↔
        w.Overshoots length timer sent)) w := by
  have memory : length < (w.client.writeBuf ++ w.client.readBuf).length := by
    simp only [Client.writeBufSize] at fits
    simp only [List.length_append]
    omega
  induction fuel generalizing sent w with
  | zero => omega
  | succ fuel ih =>
    rw [sendLoop, if_pos short]
    simp only [Prog.wp_bind, wp_expired, Prog.wp_ite, Prog.wp_pure, wp_client, wp_networkWrite_from,
      decide_eq_true_eq, World.tick_client]
    refine ⟨fun late => ?_, fun soon count counted => ⟨fun failed => ?_, fun succeeded => ?_⟩⟩
    · have never : ∀ target readings, ¬ w.Reaches length timer target (readings + 1) sent :=
        fun _ _ => World.not_reaches_of_expired late
      refine ⟨fun failed => absurd rfl failed,
        fun _ => ⟨Nat.le_refl _, by omega, by simp, fun _ => late⟩,
        ⟨fun h => by omega, fun h => absurd h (never _ 0)⟩,
        ⟨fun h => by omega, fun h => absurd h (never _ 1)⟩⟩
    · have never : ∀ target readings, ¬ w.Reaches length timer target readings sent :=
        fun _ _ => World.not_reaches_of_failed failed
      exact ⟨fun _ => short, fun succeeded => absurd succeeded failed,
        ⟨fun h => absurd h.1 failed, fun h => absurd h (never _ 1)⟩,
        ⟨fun h => absurd h.1 failed, fun h => absurd h (never _ 2)⟩⟩
    · -- the write goes out, and the next round starts behind its bytes
      obtain ⟨o, writes, pending⟩ : ∃ o writes, w.env.writes = o :: writes := by
        cases pending : w.env.writes with
        | nil => simp [World.tick, Env.nextWrite, pending] at succeeded
        | cons o writes => exact ⟨o, writes, rfl⟩
      have next : w.tick.env.nextWrite = o := by simp [World.tick, Env.nextWrite, pending]
      rw [next, not_not] at succeeded
      rw [next] at counted
      have cons := fun target readings => @World.reaches_cons w length timer target readings sent
        o writes pending short ((w.client.writeBufFrom sent).take count)
      by_cases done : length ≤ sent + count
      · rw [sendLoop_done done]
        refine ⟨fun failed => absurd rfl failed,
          fun _ => ⟨by omega, by omega, by simp [World.transmit], fun h => by omega⟩, ?_, ?_⟩
        · refine Iff.trans ?_ (cons (length = ·) 1).symm
          rw [← w.tick_clock]
          refine ⟨fun h => ⟨succeeded, .inl ⟨by omega, by omega⟩⟩, ?_⟩
          rintro ⟨-, h | h⟩
          · exact ⟨rfl, by omega⟩
          · have := h.short
            omega
        · refine Iff.trans ?_ (cons (length < ·) 2).symm
          rw [← w.tick_tick_clock]
          refine ⟨fun h => ⟨succeeded, .inl ⟨by omega, h.2.2⟩⟩, ?_⟩
          rintro ⟨-, h | h⟩
          · exact ⟨rfl, by omega, h.2⟩
          · have := h.short
            omega
      · have whole : count = min o.written length := by omega
        have step := ih (sent + count) (w.tick.transmit ((w.client.writeBufFrom sent).take count))
          (by simp [World.tick, World.transmit, pending] at enough ⊢; omega) fits (by omega) memory
        refine Prog.wp_mono step ?_
        rintro ⟨sent', rc⟩ w' ⟨failed, exits, completes, overshoots⟩
        have notExact : ¬ length = sent + count := by omega
        have notPast : ¬ length < sent + count := by omega
        refine ⟨failed, fun rcSuccess => ?_, ?_, ?_⟩
        · obtain ⟨more, inside', sentBytes, late⟩ := exits rcSuccess
          refine ⟨by omega, inside', ?_, late⟩
          have split : sent' - sent = count + (sent' - (sent + count)) := by omega
          simp only [World.transmit, World.tick_net, World.tick_client, Client.writeBufFrom]
            at sentBytes ⊢
          rw [sentBytes, split, List.take_add, List.drop_drop, List.append_assoc]
        · refine Iff.trans completes (Iff.trans ?_ (cons (length = ·) 1).symm)
          simp [succeeded, notExact, ← whole]
        · refine Iff.trans overshoots (Iff.trans ?_ (cons (length < ·) 2).symm)
          simp [succeeded, notPast, ← whole]

/-! ## The whole call -/

/-- The send of a packet of `n` bytes will succeed. -/
def World.Sends (w : World) (n : Nat) (timer : Timer) : Prop :=
  n < w.client.writeBufSize ∧
    (w.tick.Completes n timer 0 ∨ w.tick.Overshoots n timer 0)

theorem World.sends_congr {w v : World} {n : Nat} {timer : Timer}
    (size : w.client.writeBufSize = v.client.writeBufSize) (ticks : w.env.ticks = v.env.ticks)
    (writes : w.env.writes = v.env.writes) (clock : w.clock = v.clock) :
    w.Sends n timer ↔ v.Sends n timer := by
  simp only [World.Sends, World.Reaches, World.tick, Env.taken, Env.elapsed, size, ticks, writes,
    clock]

/-- When a send succeeds and what it has transmitted then: the packet and nothing else, or
    what follows it in memory as well. -/
theorem sendMqttPacket_spec (length : Nat) (timer : Timer) (w : World) (nonempty : 0 < length) :
    (sendMqttPacket length timer).wp (fun rc w' =>
      (rc = qcloudRetSuccess ↔ w.Sends length timer) ∧
      (rc = qcloudRetSuccess → ∃ sent, length ≤ sent ∧
        sent ≤ (w.client.writeBuf ++ w.client.readBuf).length ∧
        w'.net.tx = w.net.tx ++ (w.client.writeBuf ++ w.client.readBuf).take sent ∧
        (length < sent ↔ w.tick.Overshoots length timer 0))) w := by
  rw [sendMqttPacket]
  simp only [Prog.wp_bind, wp_client, Prog.wp_ite, wp_expired, Prog.wp_pure, Prog.wp_prim,
    decide_eq_true_eq]
  refine ⟨fun tooLong => ?_, fun fits => ⟨fun late => ?_, fun _ => ?_⟩⟩
  · refine ⟨⟨fun h => absurd h (by decide), fun h => ?_⟩, fun h => absurd h (by decide)⟩
    exact absurd h.1 (Nat.not_lt.mpr tooLong)
  · have never : ∀ target readings, ¬ w.tick.Reaches length timer target (readings + 1) 0 :=
      fun _ _ => World.not_reaches_of_expired (late.trans (Nat.le_add_right _ _))
    refine ⟨⟨fun h => absurd h (by decide), fun h => ?_⟩, fun h => absurd h (by decide)⟩
    rcases h.2 with h | h
    · exact absurd h (never _ 0)
    · exact absurd h (never _ 1)
  · replace fits : length < w.client.writeBufSize := Nat.not_le.mp fits
    refine Prog.wp_mono (sendLoop_spec length timer _ 0 w.tick (Nat.lt_succ_self _) fits
      nonempty) ?_
    rintro ⟨sent, rc⟩ w' ⟨failed, exits, completes, overshoots⟩
    simp only [Client.writeBufFrom, List.drop_zero, Nat.sub_zero, World.tick_client,
      World.tick_net] at failed exits completes overshoots
    simp only [Prog.wp_bind, Prog.wp_ite, Prog.wp_pure, wp_expired, decide_eq_true_eq,
      World.Sends, fits, true_and, ← completes, ← overshoots]
    refine ⟨fun exact => ?_, fun other => ⟨fun succeeded => ⟨fun late => ?_, fun soon => ?_⟩,
      fun failure => ?_⟩⟩
    · have succeeded : rc = qcloudRetSuccess := by
        by_contra failure
        have := failed failure
        omega
      obtain ⟨-, inside, sentBytes, -⟩ := exits succeeded
      exact ⟨by simp [succeeded, exact], fun _ => ⟨sent, by omega, inside, sentBytes,
        by simp [succeeded, exact]⟩⟩
    · refine ⟨⟨fun h => absurd h (by decide), ?_⟩, fun h => absurd h (by decide)⟩
      rintro (h | h)
      · exact absurd h.2.symm other
      · omega
    · obtain ⟨-, inside, sentBytes, late⟩ := exits succeeded
      have past : length < sent := by
        by_contra notPast
        have := w'.tick_clock
        have := late (by omega)
        omega
      have early : w'.tick.clock < timer.endTime := Nat.not_le.mp soon
      exact ⟨by simp [succeeded, past, early], fun _ => ⟨sent, Nat.le_of_lt past, inside, sentBytes,
        by simp [succeeded, past, early]⟩⟩
    · exact ⟨by simp [failure], fun h => absurd h failure⟩

/-- A send returns `QCLOUD_RET_SUCCESS` or an error code. -/
theorem sendLoop_nonpos (length : Nat) (timer : Timer) (fuel sent : Nat) (w : World) :
    (sendLoop length timer fuel sent).wp (fun r _ => r.2 ≤ 0) w := by
  induction fuel generalizing sent w with
  | zero => simp [sendLoop]
  | succ fuel ih =>
    simp only [sendLoop, Prog.wp_ite, Prog.wp_bind, wp_expired, Prog.wp_pure, wp_client,
      wp_networkWrite]
    exact ⟨fun _ => ⟨fun _ => Int.le_refl _, fun _ => ⟨fun _ => Env.nextWrite _ |>.nonpos,
      fun _ => ih _ _⟩⟩, fun _ => Int.le_refl _⟩

theorem sendMqttPacket_nonpos (length : Nat) (timer : Timer) (w : World) :
    (sendMqttPacket length timer).wp (fun rc _ => rc ≤ 0) w := by
  simp only [sendMqttPacket, Prog.wp_bind, wp_client, Prog.wp_ite, wp_expired, Prog.wp_pure,
    Prog.wp_prim]
  refine ⟨fun _ => by decide, fun _ => ⟨fun _ => by decide, fun _ => ?_⟩⟩
  refine Prog.wp_mono (sendLoop_nonpos _ _ _ _ _) ?_
  rintro ⟨sent, rc⟩ w' nonpos
  simp only [Prog.wp_ite, Prog.wp_bind, Prog.wp_pure, wp_expired]
  exact ⟨fun _ => Int.le_refl _, fun _ => ⟨fun _ => ⟨fun _ => by decide, fun _ => nonpos⟩,
    fun _ => nonpos⟩⟩

/-- A packet that was stored at the front of a buffer is the first of what is sent from it. -/
theorem prefix_take_overwrite {buf packet : List UInt8} (rest : List UInt8) {sent : Nat}
    (fits : packet.length ≤ buf.length) (enough : packet.length ≤ sent) :
    packet <+: (overwrite buf 0 packet ++ rest).take sent := by
  rw [overwrite_zero fits, List.append_assoc, List.take_append, List.take_of_length_le enough]
  exact List.prefix_append _ _

/-- The send of an empty packet transmits nothing. -/
theorem sendMqttPacket_zero (timer : Timer) (w : World) :
    (sendMqttPacket 0 timer).wp (fun _ w' => w'.net.tx = w.net.tx) w := by
  simp [sendMqttPacket, sendLoop_done]

/-- A send that overshoots reports success but has not transmitted the packet alone. -/
theorem World.not_exact_of_overshoots {w : World} {length : Nat} {timer : Timer}
    (fits : length < w.client.writeBufSize) (beyond : w.tick.Overshoots length timer 0) :
    ¬ (((sendMqttPacket length timer).run w).1 = qcloudRetSuccess →
      ((sendMqttPacket length timer).run w).2.net.tx =
        w.net.tx ++ w.client.writeBuf.take length) := by
  intro promised
  obtain ⟨sends, transmitted⟩ := sendMqttPacket_spec length timer w (by have := beyond.short; omega)
  have succeeded := sends.mpr ⟨fits, .inr beyond⟩
  obtain ⟨sent, -, inside, sentBytes, past⟩ := transmitted succeeded
  have := past.mpr beyond
  have := congrArg List.length (sentBytes.symm.trans (promised succeeded))
  simp only [List.length_append, List.length_take] at this inside
  omega

/-- A send that reports success has transmitted exactly the packet, unless a write overshoots. -/
theorem sendMqttPacket_exact_iff (length : Nat) (timer : Timer) (w : World)
    (fits : length < w.client.writeBufSize) :
    (((sendMqttPacket length timer).run w).1 = qcloudRetSuccess →
      ((sendMqttPacket length timer).run w).2.net.tx =
        w.net.tx ++ w.client.writeBuf.take length) ↔
      ¬ w.tick.Overshoots length timer 0 := by
  refine ⟨fun promised beyond => World.not_exact_of_overshoots fits beyond promised, ?_⟩
  intro never succeeded
  rcases Nat.eq_zero_or_pos length with rfl | nonempty
  · have unchanged : _ = w.net.tx := sendMqttPacket_zero timer w
    rw [unchanged, List.take_zero, List.append_nil]
  · obtain ⟨sent, enough, -, sentBytes, past⟩ :=
      (sendMqttPacket_spec length timer w nonempty).2 succeeded
    have exact : sent = length := by
      have := mt past.mp never
      omega
    rw [sentBytes, exact, List.take_append_of_le_length (Nat.le_of_lt fits)]

/-- A packet of 4 bytes that goes out in one write. -/
theorem sendMqttPacket_exact_one_write :
    let w := World.initial (qcloudIotMqttInit ⟨⟨[97], by decide⟩, 5000, 240000, 1, 1, none⟩ 0)
      { Env.exhausted with writes := [{ rc := 0, written := 4 }] }
    ((sendMqttPacket 4 ⟨5000000⟩).run w).1 = qcloudRetSuccess →
      ((sendMqttPacket 4 ⟨5000000⟩).run w).2.net.tx = w.net.tx ++ w.client.writeBuf.take 4 := by
  intro w
  refine (sendMqttPacket_exact_iff 4 ⟨5000000⟩ w (by simp [w, World.initial])).mpr ?_
  rintro ⟨k, inside, -, -, after, -⟩
  obtain rfl : k = 0 := by simpa [w, World.tick, World.initial, Env.exhausted] using inside
  revert after
  decide

/-- After a short write of 2 bytes of a packet of 4 the next write takes 4 bytes again. -/
theorem sendMqttPacket_runs_past :
    ¬ ∀ (length : Nat) (timer : Timer) (w : World), length < w.client.writeBufSize →
      (∀ o ∈ w.env.writes, o.rc = qcloudRetSuccess → 0 < o.written ∧ o.written ≤ length) →
      ((sendMqttPacket length timer).run w).1 = qcloudRetSuccess →
      ((sendMqttPacket length timer).run w).2.net.tx =
        w.net.tx ++ w.client.writeBuf.take length := by
  intro exact
  let w := World.initial (qcloudIotMqttInit ⟨⟨[97], by decide⟩, 5000, 240000, 1, 1, none⟩ 0)
    { Env.exhausted with writes := [{ rc := 0, written := 2 }, { rc := 0, written := 4 }] }
  have fits : 4 < w.client.writeBufSize := by simp [w, World.initial]
  have beyond : w.tick.Overshoots 4 ⟨5000000⟩ 0 := by
    refine ⟨1, by decide, ?_, by decide, by decide, by decide⟩
    simp [w, World.tick, World.initial]
  refine World.not_exact_of_overshoots fits beyond (exact 4 ⟨5000000⟩ w fits ?_)
  simp [w, World.initial]

end QcloudIot.Mqtt
