import QcloudIot.Json.Proofs.Token
import QcloudIot.Misc.Fold
import QcloudIot.Services.Queries

/-!
# What the remote configuration waits for

`get_reply_ok` is raised by the events of the subscription, and by a reply before its result is
looked for. `IOT_Get_Config` has an answer if the yield that raised the flag brought one.
-/

namespace QcloudIot.Services

open Http (atoi)
open Json (liteJsonValueOf liteJsonValueOf_allocated)
open Mqtt (CStr MqttEventType qcloudRetSuccess)
open Shadow (textOf)

/-- The message is a reply with a result. -/
def ConfigEvent.IsReply (event : ConfigEvent) (result text : List UInt8) : Prop :=
  ∃ payload env configPayload, event = .message payload env ∧
    liteJsonValueOf typeKey (textOf payload) true = .ok (some reply) ∧
    liteJsonValueOf resultKey (textOf payload) true = .ok (some result) ∧
    liteJsonValueOf payloadKey (textOf payload) true = .ok configPayload ∧
    text = configPayload.getD []

/-- The event is a reply with a result, and `on_config_proc` was called with that result and the
    text of its payload. -/
def Tells (entry : ConfigEvent × Option ConfigCall) : Prop :=
  ∃ result text, entry.1.IsReply result text ∧ entry.2 = some ⟨atoi result, text⟩

namespace ConfigClient

variable {s after : ConfigClient} {event : ConfigEvent} {len bufferSize : Nat} {published ret : Int}

/-- A reply with a result has come since the request, and the application was told of it. -/
def Answered (s : ConfigClient) : Prop := ∃ entry ∈ s.received, Tells entry

/-- What `IOT_Get_Config` promises when it returns success. -/
def GetsConfig (s : ConfigClient) (bufferSize : Nat) (published : Int)
    (rounds : List (Round ConfigEvent)) : Prop :=
  ∀ after, s.getConfig bufferSize published rounds = .ok (qcloudRetSuccess, after) → after.Answered

end ConfigClient

namespace ConfigEvent

/-- The callback crashes. -/
def Fatal (len : Nat) (event : ConfigEvent) : Prop :=
  ∀ s : ConfigClient, s.jsonBufferLen = len → ∃ crash, s.handle event = .error crash

/-- The event raises `get_reply_ok`. -/
def Raises (len : Nat) : ConfigEvent → Prop
  | .message payload env => payload.length < len ∧
      liteJsonValueOf typeKey (textOf payload) env.typeAllocated = .ok (some reply)
  | .sub type => topicSubOkAfter type ≠ none

/-- The event is a reply that has a result, and its strings are allocated. -/
def Answers (len : Nat) (event : ConfigEvent) : Prop :=
  event.Raises len ∧ ∃ payload env result configPayload, event = .message payload env ∧
    liteJsonValueOf resultKey (textOf payload) env.resultAllocated = .ok (some result) ∧
    liteJsonValueOf payloadKey (textOf payload) env.payloadAllocated = .ok configPayload ∧
    ∃ whole, liteJsonValueOf payloadKey (textOf payload) true = .ok whole ∧
      configPayload.getD [] = whole.getD []

end ConfigEvent

/-- In the first yield that raises the flag, unless a yield fails before, there is an answer. A crash
    ends the wait. -/
def AnswersFirst (len : Nat) : List (Round ConfigEvent) → Prop
  | [] => True
  | round :: rounds => round.ret = qcloudRetSuccess →
      (∃ event ∈ round.events, event.Fatal len ∨ event.Answers len) ∨
        (∀ event ∈ round.events, ¬event.Raises len) ∧ AnswersFirst len rounds

/-- What some events have done: the flag may be up, and the application may have been told of an
    answer. -/
structure ConfigHandled (events : List ConfigEvent) (s after : ConfigClient) : Prop where
  jsonBufferLen : after.jsonBufferLen = s.jsonBufferLen
  getReplyOk : after.getReplyOk = true ↔
    s.getReplyOk = true ∨ ∃ event ∈ events, event.Raises s.jsonBufferLen
  answered : after.Answered ↔ s.Answered ∨ ∃ event ∈ events, event.Answers s.jsonBufferLen

namespace ConfigClient

/-- The event and the call for it are put on record. -/
theorem answered_record (s : ConfigClient) (entry : ConfigEvent × Option ConfigCall) :
    Answered { s with received := s.received ++ [entry] } ↔ s.Answered ∨ Tells entry := by
  simp only [Answered, List.mem_append, List.mem_singleton, or_and_right, exists_or, exists_eq_left]

/-- Without a call nothing is told. -/
theorem not_tells_none (event : ConfigEvent) : ¬Tells (event, none) := by
  rintro ⟨_, _, _, noCall⟩
  cases noCall

/-- The callback crashes on the message, or it may make a call and may raise the flag: it raises the
    flag if the message does, and tells of an answer if the message is one. -/
def Outcome (len : Nat) (payload : List UInt8) (env : ConfigEnv) : Prop :=
  (∃ crash, ∀ s : ConfigClient, s.jsonBufferLen = len →
      s.configMqttMessageCallback payload env = .error crash) ∨
    ∃ call raised, (∀ s : ConfigClient, s.jsonBufferLen = len →
        s.configMqttMessageCallback payload env =
          .ok (call, { s with getReplyOk := s.getReplyOk || raised })) ∧
      (raised = true ↔ (ConfigEvent.message payload env).Raises len) ∧
      (Tells (.message payload env, call) ↔ (ConfigEvent.message payload env).Answers len)

section
variable {payload : List UInt8} {env : ConfigEnv}

/-- A message that does not raise the flag is no answer. -/
theorem outcome_quiet (call : Option ConfigCall)
    (silent : ¬(ConfigEvent.message payload env).Raises len)
    (untold : ¬Tells (.message payload env, call))
    (runs : ∀ s : ConfigClient, s.jsonBufferLen = len →
      s.configMqttMessageCallback payload env = .ok (call, s)) : Outcome len payload env := by
  refine .inr ⟨call, false, ?_, iff_of_false Bool.false_ne_true silent,
    iff_of_false untold fun answers => silent answers.1⟩
  intro s same
  rw [runs s same, Bool.or_false]

/-- The copy fits where its size is not `SIZE_MAX`. -/
theorem not_long_of_fits {payload : List UInt8} (fits : payload.length < len) :
    ¬payload.length > sizeSub len 1 := by
  rw [sizeSub_of_le (by omega)]
  omega

/-- A reply raises the flag before its result is looked for. -/
theorem outcome_reply (fits : payload.length < len)
    (isReply : liteJsonValueOf typeKey (textOf payload) env.typeAllocated = .ok (some reply)) :
    Outcome len payload env := by
  have short := not_long_of_fits fits
  have inside := not_le.mpr fits
  have raises : (ConfigEvent.message payload env).Raises len := ⟨fits, isReply⟩
  cases lookedResult : liteJsonValueOf resultKey (textOf payload) env.resultAllocated with
  | error fault =>
    refine .inl ⟨.text fault, ?_⟩
    rintro s rfl
    rw [configMqttMessageCallback, if_neg short, if_neg inside, isReply, lookedResult]
    rfl
  | ok result =>
    cases result with
    | none =>
      refine .inr ⟨none, true, ?_, iff_of_true rfl raises, iff_of_false (not_tells_none _) ?_⟩
      · rintro s rfl
        rw [configMqttMessageCallback, if_neg short, if_neg inside, isReply, lookedResult,
            Bool.or_true]
        rfl
      · rintro ⟨_, _, _, result, _, isMessage, found, _⟩
        cases isMessage
        rw [lookedResult] at found
        cases found
    | some result =>
      cases lookedPayload : liteJsonValueOf payloadKey (textOf payload) env.payloadAllocated with
      | error fault =>
        refine .inl ⟨.text fault, ?_⟩
        rintro s rfl
        rw [configMqttMessageCallback, if_neg short, if_neg inside, isReply, lookedResult]
        simp only [configProc, lookedPayload]
        rfl
      | ok configPayload =>
        refine .inr ⟨some ⟨atoi result, configPayload.getD []⟩, true, ?_, iff_of_true rfl raises,
          ?_, ?_⟩
        · rintro s rfl
          rw [configMqttMessageCallback, if_neg short, if_neg inside, isReply, lookedResult,
            Bool.or_true]
          simp only [configProc, lookedPayload]
          rfl
        · rintro ⟨other, text, ⟨_, _, whole, isMessage, _, found, foundWhole, isText⟩, told⟩
          cases isMessage
          rw [liteJsonValueOf_allocated lookedResult] at found
          cases found
          cases told
          exact ⟨raises, _, _, _, _, rfl, lookedResult, lookedPayload, whole, foundWhole, isText⟩
        · rintro ⟨_, _, _, other, _, isMessage, found, foundPayload, whole, foundWhole, isText⟩
          cases isMessage
          rw [lookedResult] at found
          cases found
          rw [lookedPayload] at foundPayload
          cases foundPayload
          exact ⟨result, _, ⟨_, _, whole, rfl, liteJsonValueOf_allocated isReply,
            liteJsonValueOf_allocated lookedResult, foundWhole, rfl⟩, by rw [isText]⟩

/-- A push is handed to the application, which waits on. -/
theorem outcome_push (fits : payload.length < len)
    (isPush : liteJsonValueOf typeKey (textOf payload) env.typeAllocated = .ok (some push)) :
    Outcome len payload env := by
  have short := not_long_of_fits fits
  have inside := not_le.mpr fits
  have other : push ≠ reply := by decide
  cases lookedPayload : liteJsonValueOf payloadKey (textOf payload) env.payloadAllocated with
  | error fault =>
    refine .inl ⟨.text fault, ?_⟩
    rintro s rfl
    rw [configMqttMessageCallback, if_neg short, if_neg inside, isPush]
    simp only [ofText, bind, Except.bind, if_neg other, if_true, configProc, lookedPayload]
  | ok configPayload =>
    refine outcome_quiet (some ⟨remoteConfigErrcodeSuccess, configPayload.getD []⟩) ?_ ?_ ?_
    · rintro ⟨_, isReply⟩
      rw [isPush] at isReply
      exact absurd isReply (by decide)
    · rintro ⟨_, _, ⟨_, _, _, isMessage, isReply, _⟩, _⟩
      cases isMessage
      rw [liteJsonValueOf_allocated isPush] at isReply
      exact absurd isReply (by decide)
    · rintro s rfl
      rw [configMqttMessageCallback, if_neg short, if_neg inside, isPush]
      simp only [ofText, bind, Except.bind, pure, Except.pure, if_neg other, if_true, configProc,
        lookedPayload]

/-- The cases are those of `_config_mqtt_message_callback`. -/
theorem outcome_message (len : Nat) (payload : List UInt8) (env : ConfigEnv) :
    Outcome len payload env := by
  by_cases long : payload.length > sizeSub len 1
  · refine outcome_quiet none (fun raises => not_long_of_fits raises.1 long) (not_tells_none _) ?_
    rintro s rfl
    rw [configMqttMessageCallback, if_pos long]
  by_cases beyond : len ≤ payload.length
  · refine .inl ⟨.overrun, ?_⟩
    rintro s rfl
    rw [configMqttMessageCallback, if_neg long, if_pos beyond]
  have fits : payload.length < len := not_le.mp beyond
  cases looked : liteJsonValueOf typeKey (textOf payload) env.typeAllocated with
  | error fault =>
    refine .inl ⟨.text fault, ?_⟩
    rintro s rfl
    rw [configMqttMessageCallback, if_neg long, if_neg beyond, looked]
    rfl
  | ok type =>
    by_cases isReply : type = some reply
    · exact outcome_reply fits (looked.trans (congrArg _ isReply))
    by_cases isPush : type = some push
    · exact outcome_push fits (looked.trans (congrArg _ isPush))
    refine outcome_quiet none ?_ (not_tells_none _) ?_
    · rintro ⟨_, found⟩
      rw [looked] at found
      cases found
      exact isReply rfl
    · rintro s rfl
      rw [configMqttMessageCallback, if_neg long, if_neg beyond, looked]
      cases type with
      | none => rfl
      | some type =>
        have other := fun same => isReply (congrArg some same)
        have another := fun same => isPush (congrArg some same)
        simp only [ofText, bind, Except.bind, pure, Except.pure, if_neg other, if_neg another]

end

/-- An event crashes the client, or does what it is to do. -/
theorem handles (len : Nat) :
    Handles handle (ConfigEvent.Fatal len) (·.jsonBufferLen = len) ConfigHandled := by
  rintro s event rfl
  cases event with
  | message payload env =>
    rcases outcome_message s.jsonBufferLen payload env with
      ⟨crash, crashes⟩ | ⟨call, raised, runs, raises, tells⟩
    · refine .inl ⟨fun t same => ⟨crash, ?_⟩, crash, ?_⟩
      · rw [handle, crashes t same]
        rfl
      · rw [handle, crashes s rfl]
        rfl
    · have handled : s.handle (.message payload env) =
          .ok { s with
            getReplyOk := s.getReplyOk || raised
            received := s.received ++ [(.message payload env, call)] } := by
        rw [handle, runs s rfl]
        rfl
      refine .inr ⟨?_, _, handled, rfl, rfl, ?_, ?_⟩
      · intro fatal
        obtain ⟨crash, crashes⟩ := fatal s rfl
        rw [handled] at crashes
        cases crashes
      · rw [Bool.or_eq_true, raises]
        simp only [List.mem_singleton, exists_eq_left]
      · simp only [List.mem_singleton, exists_eq_left, ← tells]
        exact answered_record { s with getReplyOk := s.getReplyOk || raised } _
  | sub type =>
    have untold : Tells (.sub type, none) ↔ (ConfigEvent.sub type).Answers s.jsonBufferLen := by
      refine iff_of_false (not_tells_none _) ?_
      rintro ⟨_, _, _, _, _, isMessage, _⟩
      cases isMessage
    refine .inr ⟨(fun fatal => nomatch fatal s rfl), _, rfl, ?_, ?_, ?_, ?_⟩
    · cases after : topicSubOkAfter type <;> simp only [configMqttSubEventHandler, after]
    · cases after : topicSubOkAfter type <;> simp only [configMqttSubEventHandler, after]
    · simp only [List.mem_singleton, exists_eq_left, ConfigEvent.Raises]
      cases after : topicSubOkAfter type <;> simp [configMqttSubEventHandler, after]
    · simp only [List.mem_singleton, exists_eq_left, ← untold]
      rw [← answered_record s]
      cases after : topicSubOkAfter type <;>
        simp only [configMqttSubEventHandler, after, Answered]

/-- The events of a yield. -/
theorem handleAll (events : List ConfigEvent) (s : ConfigClient) :
    ((∃ event ∈ events, event.Fatal s.jsonBufferLen) ∧
        ∃ crash, events.foldlM handle s = .error crash) ∨
      (∀ event ∈ events, ¬event.Fatal s.jsonBufferLen) ∧
        ∃ after, events.foldlM handle s = .ok after ∧ after.jsonBufferLen = s.jsonBufferLen ∧
          ConfigHandled events s after := by
  refine (handles s.jsonBufferLen).foldlM ?_ ?_ events rfl
  · intro s
    exact ⟨rfl, by simp, by simp⟩
  · rintro event events s mid after ⟨len, flag, answered⟩ ⟨lenLater, flagLater, answeredLater⟩
    simp only [List.mem_singleton, exists_eq_left, len] at flag answered lenLater
    simp only [len] at flagLater answeredLater
    refine ⟨lenLater, ?_, ?_⟩
    · rw [flagLater, flag, or_assoc, List.exists_mem_cons_iff]
    · rw [answeredLater, answered, or_assoc, List.exists_mem_cons_iff]

/-- Induction on the yields: an answer is what the first one that raises the flag must bring. -/
theorem awaitReply_answered (rounds : List (Round ConfigEvent)) {s : ConfigClient} {ret : Int}
    (waiting : s.getReplyOk = false) (unanswered : ¬s.Answered) :
    (∀ after, s.awaitReply ret rounds = .ok (qcloudRetSuccess, after) → after.Answered) ↔
      AnswersFirst s.jsonBufferLen rounds := by
  induction rounds generalizing s ret with
  | nil =>
    refine iff_of_true ?_ trivial
    intro after succeeded
    rw [awaitReply, waiting] at succeeded
    cases succeeded
  | cons round rounds ih =>
    have entered : s.awaitReply ret (round :: rounds) = (do
        let s ← round.events.foldlM handle s
        if round.ret ≠ qcloudRetSuccess then return (round.ret, s)
        else awaitReply round.ret rounds s) := by
      rw [awaitReply, waiting]
      rfl
    rw [entered, AnswersFirst]
    rcases handleAll round.events s with ⟨⟨event, mem, fatal⟩, crash, failed⟩ | ⟨safe, mid,
        handled, len,
      _, flag, answered⟩
    · refine iff_of_true ?_ fun _ => .inl ⟨event, mem, .inl fatal⟩
      intro after succeeded
      rw [failed] at succeeded
      cases succeeded
    rw [handled]
    by_cases yields : round.ret = qcloudRetSuccess
    · have goesOn : (do
          let s ← Except.ok mid
          if round.ret ≠ qcloudRetSuccess then return (round.ret, s)
          else awaitReply round.ret rounds s) = awaitReply round.ret rounds mid :=
        if_neg (not_not.mpr yields)
      rw [goesOn]
      by_cases raised : mid.getReplyOk = true
      · have ends : awaitReply round.ret rounds mid = .ok (round.ret, mid) := by
          rw [awaitReply.eq_def]
          exact if_pos raised
        have someRaises := (flag.mp raised).resolve_left (by rw [waiting]; exact Bool.false_ne_true)
        obtain ⟨event, mem, raises⟩ := someRaises
        rw [ends, yields]
        have answers : mid.Answered ↔ ∃ event ∈ round.events, event.Answers s.jsonBufferLen :=
          answered.trans (or_iff_right unanswered)
        constructor
        · intro promised _
          obtain ⟨event, mem, answer⟩ := answers.mp (promised mid rfl)
          exact .inl ⟨event, mem, .inr answer⟩
        · intro first after succeeded
          cases succeeded
          rcases first rfl with ⟨event, mem, fatal | answer⟩ | ⟨silent, _⟩
          · exact absurd fatal (safe event mem)
          · exact answers.mpr ⟨event, mem, answer⟩
          · exact absurd raises (silent event mem)
      · have silent : ∀ event ∈ round.events, ¬event.Raises s.jsonBufferLen :=
          fun event mem raises => raised (flag.mpr (.inr ⟨event, mem, raises⟩))
        have still : ¬mid.Answered := by
          rw [answered, not_or]
          exact ⟨unanswered, fun ⟨event, mem, answer⟩ => silent event mem answer.1⟩
        rw [ih (Bool.not_eq_true _ ▸ raised) still, len]
        constructor
        · exact fun later _ => .inr ⟨silent, later⟩
        · intro first
          rcases first yields with ⟨event, mem, fatal | answer⟩ | ⟨_, later⟩
          · exact absurd fatal (safe event mem)
          · exact absurd answer.1 (silent event mem)
          · exact later
    · refine iff_of_true ?_ fun succeeds => absurd succeeds yields
      have stops : (do
          let s ← Except.ok mid
          if round.ret ≠ qcloudRetSuccess then return (round.ret, s)
          else awaitReply round.ret rounds s) = Except.ok (round.ret, mid) := if_pos yields
      intro after succeeded
      rw [stops] at succeeded
      exact absurd (congrArg Prod.fst (Except.ok.inj succeeded)) yields

/-- The buffer of the request, the subscription and the publication, and then the yields. -/
def AnsweredFirst (s : ConfigClient) (bufferSize : Nat) (published : Int)
    (rounds : List (Round ConfigEvent)) : Prop :=
  s.topicSubOk = true → getRequest.length < bufferSize → 0 ≤ published →
    AnswersFirst s.jsonBufferLen rounds

theorem getConfig_iff (s : ConfigClient) (bufferSize : Nat) (published : Int)
    (rounds : List (Round ConfigEvent)) :
    s.GetsConfig bufferSize published rounds ↔ s.AnsweredFirst bufferSize published rounds := by
  unfold GetsConfig AnsweredFirst getConfig
  cases subscribed : s.topicSubOk with
  | false =>
    refine iff_of_true ?_ fun isTrue => nomatch isTrue
    intro after succeeded
    cases succeeded
  | true =>
    rw [if_neg Bool.noConfusion, imp_iff_right rfl]
    by_cases room : getRequest.length < bufferSize
    · rw [if_neg (not_le.mpr room), imp_iff_right room]
      by_cases negative : published < 0
      · refine iff_of_true ?_ fun positive => absurd positive (not_le.mpr negative)
        intro after succeeded
        rw [if_pos negative] at succeeded
        cases succeeded
        exact absurd negative (lt_irrefl 0)
      · rw [imp_iff_right (not_lt.mp negative)]
        simp only [if_neg negative]
        exact awaitReply_answered rounds rfl fun ⟨_, mem, _⟩ => List.not_mem_nil mem
    · refine iff_of_true ?_ fun fits => absurd fits room
      intro after succeeded
      rw [if_pos (not_lt.mp room)] at succeeded
      cases succeeded

end ConfigClient

end QcloudIot.Services
