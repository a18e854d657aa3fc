import QcloudIot.Misc.Backoff
import QcloudIot.Mqtt.Application
import QcloudIot.Mqtt.Proofs.Link

/-!
# Reconnecting

When the connection is lost while auto reconnect is enabled, the main loop waits for one to two
seconds before it attempts to connect, and twice as long after every attempt that fails, until the
wait would be longer than `MAX_RECONNECT_WAIT_INTERVAL`.
-/

namespace QcloudIot.Mqtt

/-! ## Attempts -/

/-- An attempt to reconnect: the readings of the clock when the delay timer was found to have run
    out and when the attempt was over, and whether it has failed. -/
structure Attempt where
  span : Span
  failed : Bool
  deriving DecidableEq, Repr

/-- The attempt that starts in a world. -/
def World.attempted (w : World) : Attempt where
  span := ⟨w.clock, (qcloudIotMqttAttemptReconnect.run w).2.clock⟩
  failed := (qcloudIotMqttAttemptReconnect.run w).1 ≠ qcloudRetMqttReconnected &&
    !(qcloudIotMqttAttemptReconnect.run w).2.client.isConnected

/-- The attempt that a round of the main loop makes. -/
def World.roundAttempt (w : World) (timer : Timer) : Option Attempt :=
  if timer.endTime ≤ w.tick.clock then none
  else if w.client.isConnected then none
  else if w.client.currentReconnectWaitInterval > maxReconnectWaitInterval then none
  else if w.client.reconnectDelayTimer.endTime ≤ w.tick.tick.clock then some w.tick.tick.attempted
  else none

/-- The attempts of the main loop. -/
def World.loopAttempts : Nat → Int → Timer → World → List Attempt
  | 0, _, _, _ => []
  | fuel + 1, rc, timer, w =>
    let ((goesOn, rc', timer'), w') := (yieldRound rc timer).run w
    (w.roundAttempt timer).toList ++ if goesOn then loopAttempts fuel rc' timer' w' else []

/-- A call of the application, or what is left of the yield in which the connection was lost. -/
inductive OfflineCall where
  | rounds (fuel : Nat) (rc : Int) (timer : Timer)
  | api (call : ApiCall)
  deriving DecidableEq, Repr

/-- The function of a call. -/
def OfflineCall.prog : OfflineCall → Sdk Int
  | .rounds fuel rc timer => yieldLoop fuel rc timer
  | .api call => call.prog

/-- The attempts that the main loop makes during a call. -/
def World.attempts (w : World) : OfflineCall → List Attempt
  | .rounds fuel rc timer => w.loopAttempts fuel rc timer
  | .api (.yield fuel timeoutMs) =>
    if timeoutMs = 0 then []
    else if !w.client.isConnected && w.client.wasManuallyDisconnected then []
    else if !w.client.isConnected && w.client.options.autoConnectEnable = 0 then []
    else w.tick.loopAttempts fuel qcloudRetSuccess ⟨w.tick.clock + timeoutMs * 1000⟩
  | .api _ => []

/-- A client that is disconnected, and the attempts it has made since. -/
structure Offline where
  world : World
  spans : List Span

namespace Offline

/-- One call. -/
def after (st : Offline) (call : OfflineCall) : Offline where
  world := (call.prog.run st.world).2
  spans := st.spans ++ (st.world.attempts call).map Attempt.span

/-- The return code of a call. -/
def returns (st : Offline) (call : OfflineCall) : Int := (call.prog.run st.world).1

/-- Every attempt to connect that is made during a call fails. -/
def Fails (st : Offline) (call : OfflineCall) : Prop :=
  (∀ attempt ∈ st.world.attempts call, attempt.failed = true) ∧
    (st.after call).world.client.isConnected = false

end Offline

/-- A client that stays disconnected. -/
def offline : Machine Offline OfflineCall := ⟨Offline.after⟩

/-- The attempts back off: each waits for twice as long as the one before it, and there are no more
    of them after a bounded number, when the main loop returns that the wait has become too
    long. -/
def World.BacksOff (w : World) (calls : List OfflineCall) : Prop :=
  ∃ start limit, 0 < start ∧ limit ≤ Nat.log 2 maxReconnectWaitInterval + 1 ∧
    ∀ n, Spaced (start * 1000) w.clock (offline.exec ⟨w, []⟩ (calls.take n)).spans ∧
      (offline.exec ⟨w, []⟩ (calls.take n)).spans.length ≤ limit ∧
      ∀ call, calls[n]? = some call →
        (offline.exec ⟨w, []⟩ (calls.take n)).world.attempts call ≠ [] →
        ((offline.exec ⟨w, []⟩ (calls.take n)).returns call = qcloudErrMqttReconnectTimeout ↔
          ((offline.exec ⟨w, []⟩ (calls.take n)).after call).spans.length = limit)

/-! ## What becomes of the plan to reconnect -/

/-- When the client is going to reconnect does not change from `w` to `w'`. -/
structure World.KeepsWait (w w' : World) : Prop where
  interval : w'.client.currentReconnectWaitInterval = w.client.currentReconnectWaitInterval
  delayTimer : w'.client.reconnectDelayTimer = w.client.reconnectDelayTimer

instance : Std.Refl World.KeepsWait := ⟨fun _ => ⟨rfl, rfl⟩⟩

instance : IsTrans World World.KeepsWait where
  trans _ _ _ first second :=
    ⟨second.interval.trans first.interval, second.delayTimer.trans first.delayTimer⟩

theorem World.KeepsLink.keepsWait {w w' : World} (h : w.KeepsLink w') : w.KeepsWait w' :=
  ⟨h.interval, h.delayTimer⟩

theorem qcloudIotMqttConnect_keepsWait (params : ConnectParams) :
    Prog.Within World.KeepsWait (qcloudIotMqttConnect params) := by
  have tick : ∀ timeoutMs, Prog.Within World.KeepsWait (countdownMs timeoutMs) :=
    fun _ => (countdownMs_keepsPing _).mono fun _ _ h => h.toKeepsLink.keepsWait
  have serialize : Prog.Within World.KeepsWait serializeConnect := by
    refine .bind client_within fun c => .ite (.pure _) (.bind (fun _ => ⟨rfl, rfl⟩) fun _ => ?_)
    refine .ite (.pure _) (.bind (fun _ => ⟨rfl, rfl⟩) fun credentials => ?_)
    exact .bind (.ite (.pure _) fun _ => ⟨rfl, rfl⟩) fun _ => .ite (.pure _) (.pure _)
  have send : Prog.Within World.KeepsWait (sendConnect params) := by
    refine .bind client_within fun c => .bind (tick _) fun connectTimer => ?_
    refine .bind (fun _ => ⟨rfl, rfl⟩) fun _ => .bind (fun _ => ⟨rfl, rfl⟩) fun rc => ?_
    refine .ite (.pure _) (.bind serialize fun serialized => ?_)
    cases serialized with
    | error rc => exact .pure _
    | ok packet =>
      refine .bind (fun _ => ⟨rfl, rfl⟩) fun _ => .bind ?_ fun rc => .ite (.pure _) (.pure _)
      exact (sendMqttPacket_keepsPing _ _).mono fun _ _ h => h.toKeepsLink.keepsWait
  have accept : Prog.Within World.KeepsWait readConnack := by
    refine .bind client_within fun c => ?_
    cases deserializeConnackPacket c.readBuf with
    | error rc => exact .pure _
    | ok connackRc =>
      refine .ite (.pure _) (.bind ?_ fun _ => .pure _)
      refine .bind (fun _ => ⟨rfl, rfl⟩) fun _ => .bind client_within fun c => .bind ?_ fun _ => ?_
      · exact (countdown_keepsPing _).mono fun _ _ h => h.toKeepsLink.keepsWait
      · exact fun _ => ⟨rfl, rfl⟩
  have connect : Prog.Within World.KeepsWait (mqttConnect params) := by
    refine .bind send fun sent => ?_
    cases sent with
    | error rc => exact .pure _
    | ok connectTimer =>
      refine .bind ?_ fun _ => .ite (.pure _) accept
      exact (waitForRead_keepsLink _ _).mono fun _ _ h => h.keepsWait
  refine .bind (fun w => refl_of _ w) fun _ => .ite (.pure _) (.bind connect fun _ => ?_)
  exact .ite (.bind (fun _ => ⟨rfl, rfl⟩) fun _ => .pure _) (.pure _)

theorem qcloudIotMqttAttemptReconnect_keepsWait :
    Prog.Within World.KeepsWait qcloudIotMqttAttemptReconnect := by
  refine .bind (fun w => refl_of _ w) fun _ => .ite (.pure _) (.bind client_within fun c => ?_)
  refine .bind (qcloudIotMqttConnect_keepsWait _) fun _ => .bind (fun w => refl_of _ w) fun _ => ?_
  refine .ite (.pure _) (.bind ?_ fun _ => .ite (.pure _) (.pure _))
  exact qcloudIotMqttResubscribe_keepsPing.mono fun _ _ h => h.toKeepsLink.keepsWait

/-! ## A disconnected client -/

/-- A disconnected client whose attempts so far have failed. -/
structure World.BackedOff (start since : Nat) (w : World) (spans : List Span) : Prop where
  isOffline : w.client.isConnected = false
  interval : w.client.currentReconnectWaitInterval = start * 2 ^ spans.length
  spaced : Spaced (start * 1000) since spans
  few : spans.length ≤ doublings start maxReconnectWaitInterval
  waits : w.client.currentReconnectWaitInterval ≤ maxReconnectWaitInterval →
    lastEnd since spans + w.client.currentReconnectWaitInterval * 1000 ≤
      w.client.reconnectDelayTimer.endTime

variable {start since : Nat} {w w' : World} {spans : List Span}

/-- The first wait is between one and two seconds. -/
def FirstWait (start : Nat) : Prop := 0 < start ∧ start ≤ maxReconnectWaitInterval

theorem World.BackedOff.limit_le_iff (backedOff : w.BackedOff start since spans)
    (first : FirstWait start) : doublings start maxReconnectWaitInterval ≤ spans.length ↔
      maxReconnectWaitInterval < w.client.currentReconnectWaitInterval := by
  rw [backedOff.interval]
  exact doublings_le_iff first.1 first.2 spans.length

theorem World.BackedOff.keeps (backedOff : w.BackedOff start since spans)
    (isOffline : w'.client.isConnected = false) (keeps : w.KeepsWait w') :
    w'.BackedOff start since spans where
  isOffline := isOffline
  interval := keeps.interval.trans backedOff.interval
  spaced := backedOff.spaced
  few := backedOff.few
  waits := by
    rw [keeps.interval, keeps.delayTimer]
    exact backedOff.waits

theorem World.BackedOff.keepsLink (backedOff : w.BackedOff start since spans)
    (keeps : w.KeepsLink w') : w'.BackedOff start since spans :=
  backedOff.keeps (keeps.isConnected.trans backedOff.isOffline) keeps.keepsWait

/-- After an attempt that has failed the wait is doubled. -/
theorem World.BackedOff.postpone {span : Span} (first : FirstWait start)
    (backedOff : w.BackedOff start since spans)
    (waited : w.client.currentReconnectWaitInterval ≤ maxReconnectWaitInterval)
    (ranOut : w.client.reconnectDelayTimer.endTime ≤ span.began) (ended : span.ended ≤ w.clock) :
    postponeReconnect.wp (fun rc w' => w'.BackedOff start since (spans ++ [span]) ∧
      (rc = qcloudErrMqttReconnectTimeout ↔
        doublings start maxReconnectWaitInterval ≤ (spans ++ [span]).length)) w := by
  have spaced : Spaced (start * 1000) since (spans ++ [span]) := by
    refine backedOff.spaced.concat (le_trans ?_ ((backedOff.waits waited).trans ranOut))
    rw [backedOff.interval]
    exact Nat.add_le_add_left (Nat.le_of_eq (by ring)) _
  have few : (spans ++ [span]).length ≤ doublings start maxReconnectWaitInterval := by
    have above := mt (backedOff.limit_le_iff first).mp (Nat.not_lt.mpr waited)
    rw [List.length_append, List.length_singleton]
    omega
  have doubled : w.client.currentReconnectWaitInterval * 2 % 2 ^ 32 =
      start * 2 ^ (spans ++ [span]).length := by
    have limit : maxReconnectWaitInterval = 60000 := rfl
    rw [Nat.mod_eq_of_lt (by omega), backedOff.interval, List.length_append,
      List.length_singleton, pow_succ, Nat.mul_assoc]
  have isLimit := doublings_le_iff first.1 first.2 (spans ++ [span]).length
  rw [postponeReconnect]
  simp only [Prog.wp_bind, wp_setClient, wp_client, Prog.wp_ite, Prog.wp_pure, wp_countdownMs,
    World.setClient_client, doubled]
  refine ⟨fun above => ⟨⟨backedOff.isOffline, rfl, spaced, few, ?_⟩, ?_⟩,
    fun below => ⟨⟨backedOff.isOffline, rfl, spaced, few, fun _ => ?_⟩, ?_⟩⟩
  · exact fun below => absurd above (Nat.not_lt.mpr below)
  · exact iff_of_true trivial (isLimit.mpr above)
  · rw [lastEnd_concat]
    exact Nat.add_le_add_right (ended.trans (Nat.le_add_right _ _)) _
  · exact iff_of_false (by decide) (mt isLimit.mp below)

/-- The end of a call: what is known of the client, and of the return code if the call has made an
    attempt or began with a code of which the same was known. -/
def Settles (start since : Nat) (spans : List Span) (known : Prop) (attempts : List Attempt)
    (rc : Int) (w : World) : Prop :=
  w.BackedOff start since (spans ++ attempts.map Attempt.span) ∧
    (known ∨ attempts ≠ [] → (rc = qcloudErrMqttReconnectTimeout ↔
      doublings start maxReconnectWaitInterval ≤ (spans ++ attempts.map Attempt.span).length))

/-- No attempt is made. -/
theorem World.BackedOff.idle (backedOff : w.BackedOff start since spans) {known : Prop} {rc : Int}
    (isKnown : known → (rc = qcloudErrMqttReconnectTimeout ↔
      doublings start maxReconnectWaitInterval ≤ spans.length)) :
    Settles start since spans known [] rc w := by
  rw [Settles, List.map_nil, List.append_nil]
  exact ⟨backedOff, fun some => isKnown (some.resolve_right fun none => none rfl)⟩

/-- The attempt of a round fails. -/
theorem World.BackedOff.attempt (first : FirstWait start)
    (backedOff : w.BackedOff start since spans)
    (waited : w.client.currentReconnectWaitInterval ≤ maxReconnectWaitInterval)
    (ranOut : w.client.reconnectDelayTimer.endTime ≤ w.clock) (failed : w.attempted.failed = true)
    (known : Prop) :
    (do let rc ← qcloudIotMqttAttemptReconnect
        if rc = qcloudRetMqttReconnected then
          notify .reconnect .null
          return rc
        else
          postponeReconnect).wp (Settles start since spans known [w.attempted]) w := by
  rw [World.attempted, Bool.and_eq_true, Bool.not_eq_true', decide_eq_true_eq] at failed
  have keeps := qcloudIotMqttAttemptReconnect_keepsWait w
  rw [Prog.wp_bind]
  change Prog.wp _ _ (qcloudIotMqttAttemptReconnect.run w).2
  rw [if_neg failed.1]
  have attempted := backedOff.keeps failed.2 keeps
  refine Prog.wp_mono (@World.BackedOff.postpone _ _ _ _ w.attempted.span first attempted ?_ ?_
    (Nat.le_refl _)) fun rc w' settled => ⟨settled.1, fun _ => settled.2⟩
  · rw [keeps.interval]
    exact waited
  · rw [keeps.delayTimer]
    exact ranOut

/-- A round of the main loop while the client is disconnected. -/
theorem World.BackedOff.round (first : FirstWait start) (backedOff : w.BackedOff start since spans)
    {rc : Int} {timer : Timer}
    (fails : ∀ attempt ∈ (w.roundAttempt timer).toList, attempt.failed = true) :
    (yieldRound rc timer).wp (fun (goesOn, rc', _) w' => Settles start since spans
      (goesOn = true ∨ (rc = qcloudErrMqttReconnectTimeout ↔
        doublings start maxReconnectWaitInterval ≤ spans.length))
      (w.roundAttempt timer).toList rc' w') w := by
  have limit := backedOff.limit_le_iff first
  have ticked : w.tick.BackedOff start since spans := backedOff.keepsLink w.keepsLink_tick
  have twice : w.tick.tick.BackedOff start since spans :=
    ticked.keepsLink w.tick.keepsLink_tick
  have same : w.tick.client = w.client := rfl
  have notUp : ¬ w.client.isConnected = true := by rw [backedOff.isOffline]; decide
  rw [yieldRound]
  simp only [Prog.wp_bind, wp_expired, Prog.wp_ite, Prog.wp_pure, wp_getClientConnState, wp_client,
    same, backedOff.isOffline, decide_eq_true_eq]
  refine ⟨fun out => ?_, fun left => ⟨fun _ => ⟨fun above => ?_, fun below => ?_⟩,
    fun up => absurd rfl up⟩⟩
  · rw [World.roundAttempt, if_pos out]
    exact ticked.idle fun known => known.resolve_left (by decide)
  · rw [World.roundAttempt, if_neg left, if_neg notUp, if_pos above]
    exact ticked.idle fun _ => iff_of_true rfl (limit.mpr above)
  · rw [World.roundAttempt, if_neg left, if_neg notUp, if_neg below] at fails ⊢
    rw [handleReconnect]
    simp only [Prog.wp_bind, wp_client, wp_expired, Prog.wp_ite, Prog.wp_pure, same,
      Bool.not_eq_true', decide_eq_false_iff_not, not_not]
    refine ⟨fun early => ?_, fun ranOut => ?_⟩
    · rw [if_neg early]
      exact twice.idle fun _ => iff_of_false (by decide) (mt limit.mp below)
    · rw [if_pos ranOut] at fails ⊢
      exact twice.attempt first (Nat.not_lt.mp below) ranOut
        (fails _ (List.mem_singleton.mpr rfl)) _

/-- The main loop while the client is disconnected. Induction on the rounds. -/
theorem World.BackedOff.loop (first : FirstWait start) (backedOff : w.BackedOff start since spans)
    {fuel : Nat} {rc : Int} {timer : Timer}
    (fails : ∀ attempt ∈ w.loopAttempts fuel rc timer, attempt.failed = true) :
    (yieldLoop fuel rc timer).wp (Settles start since spans
      (rc = qcloudErrMqttReconnectTimeout ↔
        doublings start maxReconnectWaitInterval ≤ spans.length)
      (w.loopAttempts fuel rc timer)) w := by
  induction fuel generalizing w spans rc timer with
  | zero => exact backedOff.idle id
  | succ fuel ih =>
    rcases ran : (yieldRound rc timer).run w with ⟨⟨goesOn, rc', timer'⟩, w'⟩
    have unfolded : w.loopAttempts (fuel + 1) rc timer = (w.roundAttempt timer).toList ++
        if goesOn then w'.loopAttempts fuel rc' timer' else [] := by
      rw [World.loopAttempts, ran]
    rw [unfolded] at fails ⊢
    have settled := @World.BackedOff.round _ _ _ _ first backedOff rc timer
      fun attempt mem => fails attempt (List.mem_append_left _ mem)
    rw [Prog.wp, ran] at settled
    rw [yieldLoop, Prog.wp_bind, Prog.wp, ran]
    cases goesOn with
    | false =>
      rw [if_neg (by decide), List.append_nil]
      exact ⟨settled.1, fun some => settled.2 (some.imp_left .inr)⟩
    | true =>
      rw [if_pos rfl] at fails ⊢
      have rest := ih settled.1 fun attempt mem => fails attempt (List.mem_append_right _ mem)
      refine Prog.wp_mono rest fun rc'' w'' settled' => ?_
      rw [Settles, List.map_append, ← List.append_assoc]
      exact ⟨settled'.1, fun _ => settled'.2 (.inl (settled.2 (.inl (.inl rfl))))⟩

/-- A call while the client is disconnected. -/
theorem World.BackedOff.call (first : FirstWait start) (backedOff : w.BackedOff start since spans)
    {call : OfflineCall} (fails : Offline.Fails ⟨w, spans⟩ call) :
    call.prog.wp (Settles start since spans False (w.attempts call)) w := by
  obtain ⟨failed, down⟩ := fails
  have idle : ∀ {prog : Sdk Int}, Prog.Within World.KeepsPing prog →
      prog.wp (Settles start since spans False []) w :=
    fun keeps => (backedOff.keepsLink (keeps w).toKeepsLink).idle False.elim
  cases call with
  | rounds fuel rc timer =>
    refine Prog.wp_mono (backedOff.loop first failed) fun rc' w' settled => ?_
    exact ⟨settled.1, fun some => settled.2 (some.imp_left False.elim)⟩
  | api call =>
    cases call with
    | connect params =>
      exact (backedOff.keeps down (qcloudIotMqttConnect_keepsWait params w)).idle False.elim
    | disconnect =>
      have notUp : qcloudIotMqttDisconnect.run w = (qcloudErrMqttNoConn, w) := by
        rw [qcloudIotMqttDisconnect, Prog.run_bind, Prog.run_ite]
        exact if_pos (by rw [Bool.not_eq_true']; exact backedOff.isOffline)
      rw [OfflineCall.prog, ApiCall.prog, Prog.wp, notUp]
      exact backedOff.idle False.elim
    | setAutoreconnect value =>
      have kept : (w.setClient { w.client with options := { w.client.options with
          autoConnectEnable := if value then 1 else 0 } }).BackedOff start since spans :=
        backedOff.keeps backedOff.isOffline ⟨rfl, rfl⟩
      exact kept.idle False.elim
    | publish topicName params => exact idle (qcloudIotMqttPublish_keepsPing _ _)
    | subscribe topicFilter params => exact idle (qcloudIotMqttSubscribe_keepsPing _ _)
    | unsubscribe topicFilter => exact idle (qcloudIotMqttUnsubscribe_keepsPing _)
    | yield fuel timeoutMs =>
      rw [OfflineCall.prog, ApiCall.prog, qcloudIotMqttYield, World.attempts] at *
      simp only [Prog.wp_ite, Prog.wp_bind, Prog.wp_pure, wp_client, wp_countdownMs]
      refine ⟨fun zero => ?_, fun some => ⟨fun manual => ?_, fun lost => ⟨fun off => ?_,
        fun on => ?_⟩⟩⟩
      · rw [if_pos zero]
        exact backedOff.idle False.elim
      · rw [if_neg some, if_pos manual]
        exact backedOff.idle False.elim
      · rw [if_neg some, if_neg lost, if_pos off]
        exact backedOff.idle False.elim
      · rw [if_neg some, if_neg lost, if_neg on] at failed ⊢
        have ticked : w.tick.BackedOff start since spans :=
          backedOff.keepsLink w.keepsLink_tick
        refine Prog.wp_mono (ticked.loop first failed) fun rc' w' settled => ?_
        exact ⟨settled.1, fun some => settled.2 (some.imp_left False.elim)⟩

/-! ## Losing the connection -/

/-- The connection is lost in a round of the main loop that is entered in `w`. -/
structure World.Loses (w : World) (rc : Int) (timer : Timer) : Prop where
  up : w.client.isConnected = true
  lost : ((yieldRound rc timer).run w).2.client.isConnected = false

theorem getRandomInterval_spec (w : World) :
    getRandomInterval.wp (fun interval w' => FirstWait interval ∧ w'.client = w.client) w := by
  have limit : maxReconnectWaitInterval = 60000 := rfl
  refine ⟨⟨?_, ?_⟩, rfl⟩
  · change 0 < (w.env.randoms.headD 0 % 100 + 100) * 10
    omega
  · change (w.env.randoms.headD 0 % 100 + 100) * 10 ≤ _
    omega

/-- A round in which the connection is lost while auto reconnect is enabled. -/
theorem World.Loses.backedOff {rc : Int} {timer : Timer} (loses : w.Loses rc timer)
    (enabled : w.client.options.autoConnectEnable = 1) :
    ∃ start, FirstWait start ∧ ((yieldRound rc timer).run w).2.BackedOff start
      ((yieldRound rc timer).run w).2.clock [] := by
  have round : (yieldRound rc timer).wp (fun _ w' => w'.client.isConnected = true ∨
      ∃ start, FirstWait start ∧ w'.BackedOff start w'.clock []) w := by
    have same : w.tick.client = w.client := rfl
    rw [yieldRound]
    simp only [Prog.wp_bind, wp_expired, Prog.wp_ite, Prog.wp_pure, wp_getClientConnState, same,
      loses.up]
    refine ⟨fun _ => .inl trivial, fun _ => ⟨fun down => absurd down (by decide), fun _ => ?_⟩⟩
    refine Prog.wp_mono (readRound_spec (w := w.tick) loses.up timer) ?_
    rintro ⟨rc', timer'⟩ w₁ outcome
    have enabled₁ : w₁.client.options.autoConnectEnable = 1 := by
      rcases outcome with keeps | ⟨_, dropped⟩
      · rw [keeps.options]
        exact enabled
      · rw [dropped.options]
        exact enabled
    rw [afterRead]
    simp only [Prog.wp_bind, Prog.wp_ite, Prog.wp_pure, wp_setClient, wp_client,
      World.setClient_client]
    refine ⟨fun _ => ⟨fun _ => ?_, fun off => absurd enabled₁ off⟩, fun other => ?_⟩
    · refine Prog.wp_mono (getRandomInterval_spec _) ?_
      rintro interval w₂ ⟨first, same₂⟩
      simp only [Prog.wp_bind, Prog.wp_pure, wp_countdownMs, wp_setClient]
      have isConnected : w₂.client.isConnected = w₁.client.isConnected := by rw [same₂]; rfl
      rcases outcome with keeps | ⟨_, dropped⟩
      · exact .inl (isConnected.trans (keeps.isConnected.trans loses.up))
      · exact .inr ⟨interval, first, isConnected.trans dropped.isConnected, (Nat.mul_one _).symm,
          trivial, Nat.zero_le _, fun _ => Nat.le_refl _⟩
    · obtain keeps := outcome.resolve_right fun dropped => other dropped.1
      exact .inl (keeps.isConnected.trans loses.up)
  exact round.resolve_left (by rw [loses.lost]; decide)

/-! ## Whole runs -/

/-- When the connection is lost while auto reconnect is enabled, the attempts back off in every run in
    which they all fail. -/
theorem reconnects_backOff {w : World} {rc : Int} {timer : Timer} (loses : w.Loses rc timer)
    (enabled : w.client.options.autoConnectEnable = 1) {calls : List OfflineCall}
    (guarded : offline.Guarded Offline.Fails ⟨((yieldRound rc timer).run w).2, []⟩ calls) :
    ((yieldRound rc timer).run w).2.BacksOff calls := by
  obtain ⟨start, first, backedOff⟩ := loses.backedOff enabled
  have step : ∀ (st : Offline) (call : OfflineCall), st.Fails call →
      st.world.BackedOff start ((yieldRound rc timer).run w).2.clock st.spans →
        Settles start ((yieldRound rc timer).run w).2.clock st.spans False (st.world.attempts call)
          (st.returns call) (st.after call).world :=
    fun _ _ fails holds => holds.call first fails
  refine ⟨start, doublings start maxReconnectWaitInterval, first.1, doublings_le_log _ _,
    fun n => ?_⟩
  have holds := guarded.invariant_take
    (I := fun st => st.world.BackedOff start ((yieldRound rc timer).run w).2.clock st.spans)
    backedOff (fun st call fails holds => (step st call fails holds).1) n
  refine ⟨holds.spaced, holds.few, fun call found some => ?_⟩
  obtain ⟨after, outcome⟩ := step _ call (guarded.at found) holds
  rw [outcome (.inr some)]
  exact ⟨fun limit => Nat.le_antisymm after.few limit, fun limit => Nat.le_of_eq limit.symm⟩

/-- A connected client, with auto reconnect switched on or off, whose network fails from now on, and
    for which a second passes between two readings of the clock or no time at all. -/
def failingClient (autoConnectEnable : UInt8) (tick : Nat) : World :=
  let c := qcloudIotMqttInit ⟨⟨[65], by decide⟩, 1000, 0, 1, autoConnectEnable, none⟩ 0
  .initial { c with
      isConnected := true, options := { c.options with autoConnectEnable := autoConnectEnable } }
    { Env.exhausted with ticks := List.replicate 20 tick }

theorem failingClient_loses (tick : Nat) (isTick : tick = 0 ∨ tick = 1000000)
    (autoConnectEnable : UInt8) (isFlag : autoConnectEnable = 0 ∨ autoConnectEnable = 1) :
    (failingClient autoConnectEnable tick).Loses 0 ⟨2000000⟩ := by
  refine ⟨rfl, ?_⟩
  rcases isTick with rfl | rfl <;> rcases isFlag with rfl | rfl <;> decide +kernel

section Runs

-- the states of a run on fixed calls are compared without evaluating them
attribute [local irreducible] yieldRound Offline.after World.attempts

theorem reconnects_backOff_once :
    ((yieldRound 0 ⟨2000000⟩).run (failingClient 1 1000000)).2.BacksOff [.api (.yield 1 60000)] := by
  refine reconnects_backOff (failingClient_loses 1000000 (.inr rfl) 1 (.inr rfl)) rfl
    ⟨⟨?_, ?_⟩, trivial⟩
  · decide +kernel
  · decide +kernel

/-- The connection is lost while auto reconnect is switched off, and an attempt made after it has
    been switched on does not wait at all. -/
theorem reconnects_withoutWait : ¬ ∀ (w : World) (rc : Int) (timer : Timer), w.Loses rc timer →
    ∀ calls, offline.Guarded Offline.Fails ⟨((yieldRound rc timer).run w).2, []⟩ calls →
      ((yieldRound rc timer).run w).2.BacksOff calls := by
  intro all
  have fails : offline.Guarded Offline.Fails
      ⟨((yieldRound 0 ⟨2000000⟩).run (failingClient 0 0)).2, []⟩
      [.api (.setAutoreconnect true), .api (.yield 1 60000)] := by
    refine ⟨⟨?_, ?_⟩, ⟨?_, ?_⟩, trivial⟩ <;> decide +kernel
  obtain ⟨start, _, positive, _, holds⟩ := all (failingClient 0 0) 0 ⟨2000000⟩
    (failingClient_loses 0 (.inl rfl) 0 (.inl rfl)) _ fails
  have spaced := (holds 2).1
  have spans : (offline.exec ⟨((yieldRound 0 ⟨2000000⟩).run (failingClient 0 0)).2, []⟩
      [.api (.setAutoreconnect true), .api (.yield 1 60000)]).spans = [⟨0, 0⟩] := by
    decide +kernel
  have clock : ((yieldRound 0 ⟨2000000⟩).run (failingClient 0 0)).2.clock = 0 := by
    decide +kernel
  rw [List.take_of_length_le (by decide), spans, clock] at spaced
  have early : 0 + start * 1000 ≤ 0 := spaced.1
  omega

end Runs

end QcloudIot.Mqtt
