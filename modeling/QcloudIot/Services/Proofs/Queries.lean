import QcloudIot.Services.Proofs.RemoteConfig

/-!
# What a query that succeeds has been told

`result_recv_ok` is raised by every message that does not concern the remote shell, with or without a
time, and the time is what the last message with one has left. `IOT_Get_SysTime` tells the time of a
message that came since the request if the yield that raised the flag brought one.
-/

namespace QcloudIot.Services

open Http (atoi)
open Json (liteJsonValueOf liteJsonValueOf_allocated)
open Mqtt (CStr MqttEventType qcloudRetSuccess)
open Shadow (textOf)

namespace SysEvent

variable {event : SysEvent} {value : Int}

/-- The message has this time. -/
def HasTime (event : SysEvent) (value : Int) : Prop :=
  ∃ payload env text, event = .message payload env ∧
    liteJsonValueOf timeKey (textOf payload) true = .ok (some text) ∧ value = atol text

/-- The callback crashes. -/
def Fatal (event : SysEvent) : Prop := ∀ s : SysClient, ∃ crash, s.handle event = .error crash

/-- The event raises `result_recv_ok`. -/
def Raises : SysEvent → Prop
  | .message payload env => ∃ type,
      liteJsonValueOf typeKey (textOf (payload.take maxRecvLen)) env.typeAllocated = .ok type ∧
      type ≠ some ssh
  | .sub _ => False

/-- The time that is read from the first `MAX_RECV_LEN` bytes of a message. -/
def reading : SysEvent → Option Int
  | .message payload env =>
    match liteJsonValueOf typeKey (textOf (payload.take maxRecvLen)) env.typeAllocated,
      liteJsonValueOf timeKey (textOf (payload.take maxRecvLen)) env.timeAllocated with
    | .ok type, .ok value => if type = some ssh then none else value.map atol
    | _, _ => none
  | .sub _ => none

/-- The message is received as a whole. -/
def Whole : SysEvent → Prop
  | .message payload _ => payload.length ≤ maxRecvLen
  | .sub _ => False

/-- The time after some events. -/
def timeLeft (time : Int) (events : List SysEvent) : Int :=
  events.foldl (fun time event => event.reading.getD time) time

/-- The last message from which a time is read is whole. -/
def EndsWhole (events : List SysEvent) : Prop :=
  ∃ before event after value, events = before ++ event :: after ∧ event.reading = some value ∧
    event.Whole ∧ ∀ later ∈ after, later.reading = none

/-- A time is read from messages that raise the flag only. -/
theorem raises_of_reading (reads : event.reading = some value) : event.Raises := by
  cases event with
  | message payload env =>
    rw [reading] at reads
    split at reads
    · next type value foundType foundTime =>
      split_ifs at reads with isSsh
      exact ⟨type, foundType, isSsh⟩
    · cases reads
  | sub type => cases reads

/-- What is read from a whole message is its time. -/
theorem hasTime_of_reading (reads : event.reading = some value) (whole : event.Whole) :
    event.HasTime value := by
  cases event with
  | message payload env =>
    rw [Whole] at whole
    rw [reading, List.take_of_length_le whole] at reads
    split at reads
    · next type found foundType foundTime =>
      split_ifs at reads with isSsh
      obtain ⟨text, isText, isValue⟩ := Option.map_eq_some_iff.mp reads
      rw [isText] at foundTime
      exact ⟨payload, env, text, rfl, liteJsonValueOf_allocated foundTime, isValue.symm⟩
    · cases reads
  | sub type => cases reads

theorem timeLeft_silent {events : List SysEvent} (silent : ∀ event ∈ events, event.reading = none)
    (time : Int) : timeLeft time events = time := by
  induction events with
  | nil => rfl
  | cons event events ih =>
    rw [timeLeft, List.foldl_cons, silent event List.mem_cons_self]
    exact ih fun later mem => silent later (List.mem_cons_of_mem event mem)

/-- The last time read is what is left. -/
theorem EndsWhole.hasTime {events : List SysEvent} (whole : EndsWhole events) (time : Int) :
    ∃ event ∈ events, event.HasTime (timeLeft time events) := by
  obtain ⟨before, event, after, value, rfl, reads, isWhole, silent⟩ := whole
  refine ⟨event, List.mem_append_right _ List.mem_cons_self, ?_⟩
  have left : timeLeft time (before ++ event :: after) = value := by
    rw [timeLeft, List.foldl_append, List.foldl_cons, reads, Option.getD_some]
    exact timeLeft_silent silent value
  rw [left]
  exact hasTime_of_reading reads isWhole

end SysEvent

open SysEvent (timeLeft EndsWhole)

/-- In the first yield that raises the flag, the last message with a time is whole; or the time that
    is left is by chance that of a message that has come since the request. A crash ends the wait, and
    so does a yield that fails. -/
def TimeFirst (time : Int) : Nat → List SysEvent → (Nat → Round SysEvent) → Prop
  | 0, _, _ => True
  | left + 1, received, rounds =>
    (∃ event ∈ (rounds 0).events, event.Fatal) ∨
    (∃ event ∈ (rounds 0).events, event.Raises) ∧ (EndsWhole (rounds 0).events ∨
      ∃ event ∈ received ++ (rounds 0).events, event.HasTime (timeLeft time (rounds 0).events)) ∨
    (∀ event ∈ (rounds 0).events, ¬event.Raises) ∧ ((rounds 0).ret = qcloudRetSuccess →
      TimeFirst time left (received ++ (rounds 0).events) fun i => rounds (i + 1))

/-- What some events have done: the flag may be up, and the time is the last one that was read. -/
structure SysHandled (events : List SysEvent) (s after : SysClient) : Prop where
  resultRecvOk : after.resultRecvOk = true ↔
    s.resultRecvOk = true ∨ ∃ event ∈ events, event.Raises
  time : after.time = timeLeft s.time events
  received : after.received = s.received ++ events

namespace SysClient

/-- The callback crashes on the message, or it may raise the flag and may read a time. The cases are
    those of `_system_mqtt_message_callback`. -/
theorem systemMqttMessageCallback_cases (payload : List UInt8) (env : SysEnv) :
    (∃ crash, ∀ s : SysClient, s.systemMqttMessageCallback payload env = .error crash) ∨
      ∃ raised, (raised = true ↔ (SysEvent.message payload env).Raises) ∧
        ∀ s : SysClient, ∃ after, s.systemMqttMessageCallback payload env = .ok after ∧
          after.resultRecvOk = (s.resultRecvOk || raised) ∧
          after.time = (SysEvent.message payload env).reading.getD s.time ∧
          after.received = s.received := by
  unfold systemMqttMessageCallback SysEvent.reading SysEvent.Raises
  simp only
  generalize textOf (payload.take maxRecvLen) = text
  cases lookedType : liteJsonValueOf typeKey text env.typeAllocated with
  | error fault => exact .inl ⟨.text fault, fun s => rfl⟩
  | ok type =>
    by_cases isSsh : type = some ssh
    · have quiet : ¬∃ type', Except.ok (ε := Json.Fault) type = .ok type' ∧ type' ≠ some ssh := by
        rintro ⟨_, same, other⟩
        cases same
        exact other isSsh
      simp only [ofText, bind, Except.bind, if_pos isSsh, systemMqttSshMessageCallback]
      cases lookedSwitch : liteJsonValueOf switchKey text env.switchAllocated with
      | error fault => exact .inl ⟨.text fault, fun s => rfl⟩
      | ok switch =>
        cases switch with
        | none => exact .inl ⟨.nullPointer, fun s => rfl⟩
        | some switch =>
          refine .inr ⟨false, iff_of_false Bool.false_ne_true quiet, fun s => ⟨_, rfl, ?_, ?_, rfl⟩⟩
          · exact (Bool.or_false _).symm
          · cases liteJsonValueOf timeKey text env.timeAllocated <;> simp only [if_pos isSsh] <;> rfl
    · have loud : ∃ type', Except.ok (ε := Json.Fault) type = .ok type' ∧ type' ≠ some ssh :=
        ⟨type, rfl, isSsh⟩
      simp only [ofText, bind, Except.bind, if_neg isSsh, resultRecv]
      cases lookedTime : liteJsonValueOf timeKey text env.timeAllocated with
      | error fault => exact .inl ⟨.text fault, fun s => rfl⟩
      | ok value =>
        cases lookedFirst : liteJsonValueOf ntptime1Key text env.ntptime1Allocated with
        | error fault => exact .inl ⟨.text fault, fun s => rfl⟩
        | ok first =>
          cases lookedSecond : liteJsonValueOf ntptime2Key text env.ntptime2Allocated with
          | error fault => exact .inl ⟨.text fault, fun s => rfl⟩
          | ok second =>
            refine .inr ⟨true, iff_of_true rfl loud, fun s => ⟨_, rfl, ?_, ?_, rfl⟩⟩
            · exact (Bool.or_true _).symm
            · simp only [if_neg isSsh]
              cases value <;> rfl

/-- An event crashes the client, or does what it is to do. -/
theorem handles : Handles handle SysEvent.Fatal (fun _ => True) SysHandled := by
  intro s event _
  cases event with
  | message payload env =>
    rcases systemMqttMessageCallback_cases payload env with ⟨crash, crashes⟩ | ⟨raised, raises, runs⟩
    · exact .inl ⟨fun t => ⟨crash, crashes _⟩, crash, crashes _⟩
    · obtain ⟨after, handled, flag, time, received⟩ :=
        runs { s with received := s.received ++ [.message payload env] }
      refine .inr ⟨?_, after, handled, trivial, ?_, time, received⟩
      · intro fatal
        obtain ⟨crash, crashes⟩ := fatal s
        exact nomatch handled.symm.trans crashes
      · rw [flag, Bool.or_eq_true, raises]
        simp only [List.mem_singleton, exists_eq_left]
  | sub type =>
    refine .inr ⟨fun fatal => ?_, _, rfl, trivial, ?_, rfl, rfl⟩
    · obtain ⟨crash, crashes⟩ := fatal s
      cases crashes
    · simp only [List.mem_singleton, exists_eq_left, SysEvent.Raises, or_false]
      rfl

/-- The events of a yield. -/
theorem handleAll (events : List SysEvent) (s : SysClient) :
    ((∃ event ∈ events, event.Fatal) ∧ ∃ crash, events.foldlM handle s = .error crash) ∨
      (∀ event ∈ events, ¬event.Fatal) ∧
        ∃ after, events.foldlM handle s = .ok after ∧ True ∧ SysHandled events s after := by
  refine handles.foldlM ?_ ?_ events trivial
  · exact fun s => ⟨by simp, rfl, (List.append_nil _).symm⟩
  · rintro event events s mid after ⟨flag, time, received⟩ ⟨flagLater, timeLater, receivedLater⟩
    simp only [List.mem_singleton, exists_eq_left] at flag
    refine ⟨?_, ?_, ?_⟩
    · rw [flagLater, flag, or_assoc, List.exists_mem_cons_iff]
    · rw [timeLater, time]
      rfl
    · rw [receivedLater, received, List.append_assoc]
      rfl

/-- The time is that of a message that has come since the request. -/
def Told (s : SysClient) : Prop := ∃ event ∈ s.received, event.HasTime s.time

/-- Induction on the rounds that are left: a time is what the first yield that raises the flag must
    bring. -/
theorem awaitResult_told (left : Nat) (rounds : Nat → Round SysEvent) {s : SysClient}
    (waiting : s.resultRecvOk = false) :
    (∀ after, s.awaitResult left rounds = .ok after → after.resultRecvOk = true → after.Told) ↔
      TimeFirst s.time left s.received rounds := by
  induction left generalizing s rounds with
  | zero =>
    refine iff_of_true ?_ trivial
    intro after ends raised
    cases ends
    rw [waiting] at raised
    cases raised
  | succ left ih =>
    rw [awaitResult, TimeFirst]
    rcases handleAll (rounds 0).events s with ⟨fatal, crash, failed⟩ | ⟨safe, mid, handled, _,
      flag, time, received⟩
    · refine iff_of_true ?_ (.inl fatal)
      intro after ends
      rw [failed] at ends
      cases ends
    rw [handled, or_iff_right fun ⟨event, mem, fatal⟩ => safe event mem fatal]
    by_cases raised : mid.resultRecvOk = true
    · have someRaises := (flag.mp raised).resolve_left (by rw [waiting]; exact Bool.false_ne_true)
      have stops : (do
          let s ← Except.ok mid
          if (rounds 0).ret = 0 ∧ s.resultRecvOk = false then
            awaitResult left (fun i => rounds (i + 1)) s
          else return s) = Except.ok mid :=
        if_neg fun again => Bool.false_ne_true (again.2.symm.trans raised)
      have told : mid.Told ↔ ∃ event ∈ s.received ++ (rounds 0).events,
          event.HasTime (timeLeft s.time (rounds 0).events) := by
        rw [Told, received, time]
      rw [stops]
      constructor
      · intro promised
        exact .inl ⟨someRaises, .inr (told.mp (promised mid rfl raised))⟩
      · rintro first after ends -
        cases ends
        rcases first with ⟨_, whole | chance⟩ | ⟨silent, _⟩
        · obtain ⟨event, mem, hasTime⟩ := whole.hasTime s.time
          exact told.mpr ⟨event, List.mem_append_right _ mem, hasTime⟩
        · exact told.mpr chance
        · obtain ⟨event, mem, raises⟩ := someRaises
          exact absurd raises (silent event mem)
    · have silent : ∀ event ∈ (rounds 0).events, ¬event.Raises :=
        fun event mem raises => raised (flag.mpr (.inr ⟨event, mem, raises⟩))
      have unread : ∀ event ∈ (rounds 0).events, event.reading = none := by
        intro event mem
        cases reads : event.reading with
        | none => rfl
        | some value => exact absurd (SysEvent.raises_of_reading reads) (silent event mem)
      rw [Bool.not_eq_true] at raised
      rw [SysEvent.timeLeft_silent unread] at time
      rw [or_iff_right fun ⟨⟨event, mem, raises⟩, _⟩ => silent event mem raises, and_iff_right silent]
      by_cases yields : (rounds 0).ret = qcloudRetSuccess
      · have goesOn : (do
            let s ← Except.ok mid
            if (rounds 0).ret = 0 ∧ s.resultRecvOk = false then
              awaitResult left (fun i => rounds (i + 1)) s
            else return s) = awaitResult left (fun i => rounds (i + 1)) mid :=
          if_pos ⟨yields, raised⟩
        rw [goesOn, imp_iff_right yields, ih _ raised, time, received]
      · have stops : (do
            let s ← Except.ok mid
            if (rounds 0).ret = 0 ∧ s.resultRecvOk = false then
              awaitResult left (fun i => rounds (i + 1)) s
            else return s) = Except.ok mid := if_neg fun again => yields again.1
        refine iff_of_true ?_ fun succeeds => absurd succeeds yields
        intro after ends flagAfter
        rw [stops] at ends
        cases ends
        exact absurd flagAfter (by rw [raised]; exact Bool.false_ne_true)

/-- What `IOT_Get_SysTime` promises when it returns success. -/
def GetsTime (s : SysClient) (first second third : SubscribeTry) (published : Int)
    (rounds : Nat → Round SysEvent) : Prop :=
  ∀ time after, s.getSysTime first second third published rounds =
      .ok (qcloudRetSuccess, time, after) →
    ∃ value, time = some value ∧ ∃ event ∈ after.received, event.HasTime value

/-- The subscription and the publication, and then the yields. -/
def ToldFirst (s : SysClient) (first second third : SubscribeTry) (published : Int)
    (rounds : Nat → Round SysEvent) : Prop :=
  ∀ ready, s.subscribed first second third = .ok ready → ready.topicSubOk = true → 0 ≤ published →
    TimeFirst ready.time 20 [] rounds

theorem getSysTime_iff (s : SysClient) (first second third : SubscribeTry) (published : Int)
    (rounds : Nat → Round SysEvent) :
    s.GetsTime first second third published rounds ↔
      s.ToldFirst first second third published rounds := by
  unfold GetsTime ToldFirst getSysTime
  cases subscribes : s.subscribed first second third with
  | error crash => exact iff_of_true (fun _ _ ends => nomatch ends) fun _ ends => nomatch ends
  | ok ready =>
    simp only [Except.ok.injEq, forall_eq', bind, Except.bind]
    by_cases unsubscribed : ready.topicSubOk = false
    · refine iff_of_true ?_ fun subscribed => absurd (unsubscribed.symm.trans subscribed)
          Bool.false_ne_true
      intro time after ends
      rw [if_pos unsubscribed] at ends
      cases ends
    · rw [imp_iff_right (Bool.not_eq_false _ ▸ unsubscribed)]
      simp only [if_neg unsubscribed]
      by_cases negative : published < 0
      · refine iff_of_true ?_ fun positive => absurd positive (not_le.mpr negative)
        intro time after ends
        rw [if_pos negative] at ends
        have isZero : published = qcloudRetSuccess := congrArg Prod.fst (Except.ok.inj ends)
        exact absurd negative (by rw [isZero]; decide)
      · have told := @awaitResult_told 20 rounds { ready with resultRecvOk := false, received := []
            } rfl
        rw [imp_iff_right (not_lt.mp negative), ← told]
        simp only [if_neg negative]
        cases awaits : awaitResult 20 rounds { ready with resultRecvOk := false, received := [] } with
        | error crash =>
          refine iff_of_true ?_ ?_
          · intro time after ends
            cases ends
          · intro after ends
            cases ends
        | ok final =>
          by_cases raised : final.resultRecvOk = true
          · simp only [raised, if_true, pure, Except.pure]
            constructor
            · rintro promised after ends -
              cases ends
              obtain ⟨value, same, told⟩ := promised _ _ rfl
              cases same
              exact told
            · intro promised time after ends
              cases ends
              exact ⟨_, rfl, promised _ rfl raised⟩
          · simp only [if_neg raised, pure, Except.pure]
            refine iff_of_true ?_ ?_
            · intro time after ends
              cases ends
            · intro after ends flag
              cases ends
              exact absurd flag raised

end SysClient

/-! ## Both queries -/

/-- `{}` -/
def emptyMessage : SysEvent := .message [123, 125] ⟨true, true, true, true, true⟩

theorem emptyMessage_timeless (value : Int) : ¬emptyMessage.HasTime value := by
  rintro ⟨_, _, text, isMessage, found, _⟩
  cases isMessage
  have timeless : liteJsonValueOf timeKey (textOf [123, 125]) true = .ok none := by rfl
  rw [timeless] at found
  cases found

end QcloudIot.Services
