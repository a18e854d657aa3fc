import QcloudIot.Gateway.Proofs.Replies
import QcloudIot.Misc.Run

/-!
# Sessions of devices

What messages and calls do to the list of sessions, and what holds of it over runs of calls, while
messages are handled that may free all sessions at once.
-/

namespace QcloudIot.Gateway

open Mqtt (CStr qcloudRetSuccess qcloudErrFailure)
open Ota (utf8)
open Json (bind_ok)
open Shadow (textOf typeField resultField)

/-! ## Messages -/

/-- The message asks to free all sessions. -/
def UnbindsAll (message : Message) (env : MessageEnv) : Prop :=
  message.Taken ∧ ∃ type, getJsonString typeField message.received env.type = .ok (some type) ∧
    isType type unbindAllOp = true

/-- The message is the answer to an operation on a device. -/
structure Answers (message : Message) (env : MessageEnv) (op : Operation) (reply : Reply) : Prop where
  taken : message.Taken
  type : ∃ type, getJsonString typeField message.received env.type = .ok (some type) ∧
    operationOf type = some op
  devices : ∃ devices,
    getJsonString payloadDevices message.received env.devices = .ok (some devices) ∧
    getJsonInt32 resultField (devicesStrip devices) env.result = .ok (some reply.result) ∧
    getJsonString productIdField (devicesStrip devices) env.productId =
      .ok (some reply.productId) ∧
    getJsonString deviceNameField (devicesStrip devices) env.deviceName =
      .ok (some reply.deviceName)

/-- The sessions and the results are kept. -/
structure Keeps (g g' : Gateway) : Prop where
  sessionList : g'.sessionList = g.sessionList
  allocated : g'.allocated = g.allocated
  reply : ∀ op, g'.gatewayData.reply op = g.gatewayData.reply op

theorem Keeps.refl (g : Gateway) : Keeps g g := ⟨rfl, rfl, fun _ => rfl⟩

theorem search_keeps {g g' : Gateway} {json : CStr} {env : MessageEnv}
    (handled : g.search json env = .ok g') : Keeps g g' := by
  obtain ⟨status, _, handled⟩ := bind_ok handled
  cases status with
  | none =>
    cases handled
    exact .refl g
  | some status =>
    cases handled
    exact ⟨rfl, rfl, fun _ => rfl⟩

theorem describe_keeps {g g' : Gateway} {devices : CStr} {env : MessageEnv}
    (handled : g.describe devices env = .ok g') : Keeps g g' := by
  obtain ⟨pass, _, handled⟩ := bind_ok handled
  cases handled
  exact ⟨rfl, rfl, fun op => by cases op <;> rfl⟩

theorem change_keeps {g g' : Gateway} {json devices : CStr} {env : MessageEnv}
    (handled : g.change json devices env = .ok g') : Keeps g g' := by
  obtain ⟨status, _, handled⟩ := bind_ok handled
  obtain ⟨bindList, _, handled⟩ := bind_ok handled
  obtain ⟨reply, _, handled⟩ := bind_ok handled
  cases handled
  exact ⟨rfl, rfl, fun _ => rfl⟩

/-- What an answer changes: a result at most, and only if it begins the client id there. -/
structure Takes (g g' : Gateway) (op : Operation) (reply : Reply) : Prop where
  sessionList : g'.sessionList = g.sessionList
  allocated : g'.allocated = g.allocated
  begins : (clientIdText reply.productId reply.deviceName).bytes <+:
    (g.gatewayData.reply op).clientId.bytes
  data : g'.gatewayData =
    g.gatewayData.setReply { g.gatewayData.reply op with result := reply.result } op

theorem takeResult_cases (g : Gateway) (type : CStr) (reply : Reply) :
    Keeps g (g.takeResult type (clientIdText reply.productId reply.deviceName) reply.result) ∨
      ∃ op, operationOf type = some op ∧
        Takes g (g.takeResult type (clientIdText reply.productId reply.deviceName) reply.result) op
          reply := by
  unfold Gateway.takeResult
  cases found : operationOf type with
  | none => exact .inl (.refl g)
  | some op =>
    dsimp only
    split
    · rename_i same
      refine .inr ⟨op, rfl, rfl, rfl, ?_, rfl⟩
      rw [strncmpEq, decide_eq_true_iff, CStr.length, List.take_length] at same
      rw [same]
      exact List.take_prefix _ _
    · exact .inl (.refl g)

/-- A message keeps everything, frees all sessions, or is an answer. -/
theorem messageHandler_cases {g g' : Gateway} {message : Message} {env : MessageEnv}
    (handled : g.messageHandler message env = .ok g') :
    Keeps g g' ∨ UnbindsAll message env ∧ g' = g.unbindAll ∨
      ∃ op reply, Answers message env op reply ∧ Takes g g' op reply := by
  unfold Gateway.messageHandler at handled
  by_cases taken : message.Taken
  · rw [if_pos taken] at handled
    obtain ⟨type, typed, handled⟩ := bind_ok handled
    cases type with
    | none =>
      cases handled
      exact .inl (.refl g)
    | some type =>
      dsimp only at handled
      split at handled
      · rename_i isUnbindAll
        cases handled
        exact .inr (.inl ⟨⟨taken, type, typed, isUnbindAll⟩, rfl⟩)
      split at handled
      · exact .inl (search_keeps handled)
      obtain ⟨devices, listed, handled⟩ := bind_ok handled
      cases devices with
      | none =>
        cases handled
        exact .inl (.refl g)
      | some devices =>
        dsimp only at handled
        split at handled
        · exact .inl (describe_keeps handled)
        split at handled
        · exact .inl (change_keeps handled)
        unfold Gateway.answer at handled
        obtain ⟨result, resulted, handled⟩ := bind_ok handled
        cases result with
        | none =>
          cases handled
          exact .inl (.refl g)
        | some result =>
          obtain ⟨productId, identified, handled⟩ := bind_ok handled
          cases productId with
          | none =>
            cases handled
            exact .inl (.refl g)
          | some productId =>
            obtain ⟨deviceName, named, handled⟩ := bind_ok handled
            cases deviceName with
            | none =>
              cases handled
              exact .inl (.refl g)
            | some deviceName =>
              dsimp only at handled
              split at handled
              · cases handled
                exact .inl (.refl g)
              · cases handled
                rcases takeResult_cases g type ⟨result, productId, deviceName⟩ with
                  keeps | ⟨op, found, takes⟩
                · exact .inl keeps
                · exact .inr (.inr ⟨op, ⟨result, productId, deviceName⟩,
                    ⟨taken, ⟨type, typed, found⟩, devices, listed, resulted, identified, named⟩,
                    takes⟩)
  · rw [if_neg taken] at handled
    cases handled
    exact .inl (.refl g)

/-! ## Waiting -/

/-- What the handling of messages has done: it has kept the client ids, kept the sessions unless one
    of the messages freed them all, and kept each result unless one of them answered. -/
structure Waited (messages : List (Message × MessageEnv)) (g g' : Gateway) : Prop where
  allocated : g'.allocated = g.allocated
  clientId : ∀ op, (g'.gatewayData.reply op).clientId = (g.gatewayData.reply op).clientId
  sessionList : g'.sessionList = g.sessionList ∨
    g'.sessionList = [] ∧ ∃ message ∈ messages, UnbindsAll message.1 message.2
  result : ∀ op, (g'.gatewayData.reply op).result = (g.gatewayData.reply op).result ∨
    ∃ message ∈ messages, ∃ reply, Answers message.1 message.2 op reply ∧
      reply.result = (g'.gatewayData.reply op).result ∧
      (clientIdText reply.productId reply.deviceName).bytes <+:
        (g.gatewayData.reply op).clientId.bytes

theorem Waited.nil (g : Gateway) : Waited [] g g :=
  ⟨rfl, fun _ => rfl, .inl rfl, fun _ => .inl rfl⟩

/-- One message. -/
theorem messageHandler_waited {g g' : Gateway} {message : Message × MessageEnv}
    (handled : g.messageHandler message.1 message.2 = .ok g') : Waited [message] g g' := by
  rcases messageHandler_cases handled with keeps | ⟨unbinds, rfl⟩ | ⟨op, reply, answers, takes⟩
  · exact ⟨keeps.allocated, fun op => by rw [keeps.reply], .inl keeps.sessionList,
      fun op => .inl (by rw [keeps.reply])⟩
  · exact ⟨rfl, fun _ => rfl, .inr ⟨rfl, message, List.mem_singleton_self _, unbinds⟩,
      fun _ => .inl rfl⟩
  · refine ⟨takes.allocated, fun other => ?_, .inl takes.sessionList, fun other => ?_⟩
    · rw [takes.data]
      by_cases same : other = op
      · rw [same, GatewayData.reply_setReply]
      · rw [GatewayData.reply_setReply_ne same]
    · by_cases same : other = op
      · subst same
        refine .inr ⟨message, List.mem_singleton_self _, reply, answers, ?_, takes.begins⟩
        rw [takes.data, GatewayData.reply_setReply]
      · left
        rw [takes.data, GatewayData.reply_setReply_ne same]

theorem Waited.append {first second : List (Message × MessageEnv)} {g g' g'' : Gateway}
    (before : Waited first g g') (after : Waited second g' g'') :
    Waited (first ++ second) g g'' where
  allocated := after.allocated.trans before.allocated
  clientId op := (after.clientId op).trans (before.clientId op)
  sessionList := by
    rcases after.sessionList with kept | ⟨freed, message, mem, unbinds⟩
    · rcases before.sessionList with same | ⟨none, message, mem, unbinds⟩
      · exact .inl (kept.trans same)
      · exact .inr ⟨kept.trans none, message, List.mem_append_left _ mem, unbinds⟩
    · exact .inr ⟨freed, message, List.mem_append_right _ mem, unbinds⟩
  result op := by
    rcases after.result op with kept | ⟨message, mem, reply, answers, is, begins⟩
    · rcases before.result op with same | ⟨message, mem, reply, answers, is, begins⟩
      · exact .inl (kept.trans same)
      · exact .inr ⟨message, List.mem_append_left _ mem, reply, answers, is.trans kept.symm, begins⟩
    · refine .inr ⟨message, List.mem_append_right _ mem, reply, answers, is, ?_⟩
      rw [before.clientId] at begins
      exact begins

theorem yield_waited {messages : List (Message × MessageEnv)} {g g' : Gateway}
    (handled : g.yield messages = .ok g') : Waited messages g g' := by
  induction messages generalizing g with
  | nil =>
    cases handled
    exact .nil _
  | cons message messages ih =>
    rw [Gateway.yield, List.foldlM_cons] at handled
    obtain ⟨g₁, first, rest⟩ := bind_ok handled
    exact (messageHandler_waited first).append (ih rest)

/-- The messages of `n` rounds from round `k` on. -/
def rounds (yields : Nat → List (Message × MessageEnv)) (k n : Nat) : List (Message × MessageEnv) :=
  (List.range' k n).flatMap yields

/-- The message answers the operation with a result, and begins the client id. -/
def AnswersWith (message : Message × MessageEnv) (op : Operation) (clientId : CStr) (result : Int) :
    Prop :=
  ∃ reply, Answers message.1 message.2 op reply ∧ reply.result = result ∧
    (clientIdText reply.productId reply.deviceName).bytes <+: clientId.bytes

/-- A wait handles the messages of some rounds; if the result has changed, then by a message of the
    last one of them. Induction on the rounds that are left. -/
theorem awaitResult_cases {op : Operation} {res : Int} {yields : Nat → List (Message × MessageEnv)}
    {left : Nat} {g g' : Gateway} {changed : Bool} (within : left ≤ gatewayLoopMaxCount + 1)
    (unchanged : (g.gatewayData.reply op).result = res)
    (waited : Gateway.awaitResult op res yields left g = .ok (changed, g')) :
    (changed = true ∧ ∃ last < left,
        Waited (rounds yields (gatewayLoopMaxCount + 1 - left) (last + 1)) g g' ∧
        (∃ message ∈ yields (gatewayLoopMaxCount + 1 - left + last),
          AnswersWith message op (g.gatewayData.reply op).clientId
            (g'.gatewayData.reply op).result)) ∨
      changed = false ∧ (g'.gatewayData.reply op).result = res ∧
        Waited (rounds yields (gatewayLoopMaxCount + 1 - left) left) g g' := by
  induction left generalizing g with
  | zero =>
    rw [Gateway.awaitResult, if_neg (not_not.mpr unchanged)] at waited
    cases waited
    exact .inr ⟨rfl, unchanged, .nil _⟩
  | succ left ih =>
    rw [Gateway.awaitResult, if_neg (not_not.mpr unchanged)] at waited
    obtain ⟨g₁, yielded, waited⟩ := bind_ok waited
    have first := yield_waited yielded
    have round : gatewayLoopMaxCount + 1 - (left + 1) = gatewayLoopMaxCount - left := by omega
    have next : gatewayLoopMaxCount + 1 - left = gatewayLoopMaxCount - left + 1 := by omega
    rw [round]
    by_cases still : (g₁.gatewayData.reply op).result = res
    · rcases ih (by omega) still waited with ⟨rfl, last, below, rest, answered⟩ | ⟨rfl, same, rest⟩
      · rw [next] at rest answered
        refine .inl ⟨rfl, last + 1, by omega, ?_, ?_⟩
        · rw [rounds, List.range'_succ, List.flatMap_cons]
          exact first.append rest
        · have place : gatewayLoopMaxCount - left + (last + 1) =
              gatewayLoopMaxCount - left + 1 + last := by omega
          rw [place, ← first.clientId]
          exact answered
      · rw [next] at rest
        refine .inr ⟨rfl, same, ?_⟩
        rw [rounds, List.range'_succ, List.flatMap_cons]
        exact first.append rest
    · have ends : Gateway.awaitResult op res yields left g₁ = .ok (true, g₁) := by
        cases left <;> rw [Gateway.awaitResult, if_pos still]
      rw [ends] at waited
      cases waited
      refine .inl ⟨rfl, 0, Nat.succ_pos _, ?_, ?_⟩
      · rw [rounds, List.range'_one, List.flatMap_singleton]
        exact first
      · rcases first.result op with same | ⟨message, mem, reply, answers, is, begins⟩
        · exact absurd (same.trans unchanged) still
        · exact ⟨message, mem, reply, answers, is, begins⟩

/-- In no wait a message frees the sessions before, or in the same round in which, another one
    answers with the result 0. -/
def Apart (op : Operation) (param : GatewayParam) (env : CallEnv) : Prop :=
  ∀ last ≤ gatewayLoopMaxCount,
    (∃ message ∈ env.yields last, AnswersWith message op
      (cut (clientIdText param.subdevProductId param.subdevDeviceName) (maxSizeOfClientId - 1)) 0) →
    ∀ round ≤ last, ∀ message ∈ env.yields round, ¬ UnbindsAll message.1 message.2

/-- What a published request has led to. -/
structure Published (op : Operation) (env : CallEnv) (rc : Int) (g g' : Gateway) : Prop where
  waited : ∃ n, Waited (rounds env.yields 0 n) g g'
  success : rc = qcloudRetSuccess → ∃ last ≤ gatewayLoopMaxCount,
    Waited (rounds env.yields 0 (last + 1)) g g' ∧
    ∃ message ∈ env.yields last, AnswersWith message op (g.gatewayData.reply op).clientId 0
  failure : rc ≠ qcloudRetSuccess → (g'.gatewayData.reply op).result ≠ 0

theorem publishSync_cases {g g' : Gateway} {op : Operation} {env : CallEnv} {rc : Int}
    (begins : (g.gatewayData.reply op).result ≠ 0)
    (published : g.publishSync op env = .ok (rc, g')) : Published op env rc g g' := by
  unfold Gateway.publishSync at published
  split at published
  · cases published
    exact ⟨⟨0, .nil _⟩, fun success => absurd success (by decide), fun _ => begins⟩
  · obtain ⟨⟨changed, g₁⟩, waited, published⟩ := bind_ok published
    rcases awaitResult_cases (le_refl _) rfl waited with
      ⟨rfl, last, below, handled, answered⟩ | ⟨rfl, same, handled⟩
    · rw [Nat.sub_self] at handled answered
      rw [Nat.zero_add] at answered
      dsimp only at published
      rw [if_neg (not_not.mpr rfl)] at published
      split at published
      · rename_i nonzero
        cases published
        exact ⟨⟨_, handled⟩, fun success => absurd success (by decide), fun _ => nonzero⟩
      · rename_i zero
        rw [not_not.mp zero] at answered
        cases published
        exact ⟨⟨_, handled⟩, fun _ => ⟨last, Nat.le_of_lt_succ below, handled, answered⟩,
          fun failure => absurd rfl failure⟩
    · rw [Nat.sub_self] at handled
      dsimp only at published
      rw [if_pos Bool.false_ne_true] at published
      cases published
      refine ⟨⟨_, handled⟩, fun success => absurd success (by decide), fun _ => ?_⟩
      rw [same]
      exact begins

/-! ## Lists of sessions -/

/-- The device of a session. -/
def SubdevSession.device (session : SubdevSession) : CStr × CStr :=
  (session.productId, session.deviceName)

theorem isDevice_iff {session : SubdevSession} {productId deviceName : CStr} :
    session.isDevice productId deviceName = true ↔ session.device = (productId, deviceName) := by
  rw [SubdevSession.isDevice, Bool.and_eq_true, decide_eq_true_iff, decide_eq_true_iff,
    SubdevSession.device, Prod.mk.injEq]

/-- No two sessions are for one device, none is listed twice, and later allocations are others. -/
structure OneEach (g : Gateway) : Prop where
  devices : (g.sessionList.map SubdevSession.device).Nodup
  refs : (g.sessionList.map SubdevSession.ref).Nodup
  below : ∀ session ∈ g.sessionList, session.ref < g.allocated

theorem OneEach.of_sublist {g g' : Gateway} (oneEach : OneEach g)
    (sublist : g'.sessionList.Sublist g.sessionList) (allocated : g'.allocated = g.allocated) :
    OneEach g' where
  devices := oneEach.devices.sublist (sublist.map _)
  refs := oneEach.refs.sublist (sublist.map _)
  below session mem := by
    rw [allocated]
    exact oneEach.below session (sublist.subset mem)

theorem Waited.oneEach {messages : List (Message × MessageEnv)} {g g' : Gateway}
    (waited : Waited messages g g') (oneEach : OneEach g) : OneEach g' := by
  refine oneEach.of_sublist ?_ waited.allocated
  rcases waited.sessionList with same | ⟨none, _⟩
  · rw [same]
  · rw [none]
    exact List.nil_sublist _

theorem OneEach.removeSession {g : Gateway} (oneEach : OneEach g) (productId deviceName : CStr) :
    OneEach (g.removeSession productId deviceName) :=
  @OneEach.of_sublist g (g.removeSession productId deviceName) oneEach List.eraseP_sublist rfl

/-- The sessions of a device. -/
def Gateway.sessionsOf (g : Gateway) (productId deviceName : CStr) : List SubdevSession :=
  g.sessionList.filter (·.isDevice productId deviceName)

theorem OneEach.length_sessionsOf {g : Gateway} (oneEach : OneEach g)
    (productId deviceName : CStr) : (g.sessionsOf productId deviceName).length ≤ 1 := by
  have same : (g.sessionsOf productId deviceName).map SubdevSession.device =
      List.replicate (g.sessionsOf productId deviceName).length (productId, deviceName) := by
    apply List.eq_replicate_iff.mpr
    refine ⟨List.length_map _, ?_⟩
    intro device mem
    obtain ⟨session, isListed, rfl⟩ := List.mem_map.mp mem
    exact isDevice_iff.mp (List.mem_filter.mp isListed).2
  have distinct := oneEach.devices.sublist
    ((List.filter_sublist (p := (·.isDevice productId deviceName))).map SubdevSession.device)
  change ((g.sessionsOf productId deviceName).map SubdevSession.device).Nodup at distinct
  rw [same] at distinct
  exact List.nodup_replicate.mp distinct

/-- The session of a device is the only one. -/
theorem OneEach.sessionsOf {g : Gateway} (oneEach : OneEach g) {productId deviceName : CStr}
    {session : SubdevSession} (mem : session ∈ g.sessionList)
    (isDevice : session.isDevice productId deviceName = true) :
    g.sessionsOf productId deviceName = [session] := by
  have short := oneEach.length_sessionsOf productId deviceName
  have found : session ∈ g.sessionsOf productId deviceName :=
    List.mem_filter.mpr ⟨mem, isDevice⟩
  match sessions : g.sessionsOf productId deviceName, short, found with
  | [only], _, found => rw [List.mem_singleton.mp found]

/-- No session of the device is left. -/
theorem OneEach.sessionsOf_removeSession {g : Gateway} (oneEach : OneEach g)
    (productId deviceName : CStr) :
    (g.removeSession productId deviceName).sessionsOf productId deviceName = [] := by
  have erased : (g.removeSession productId deviceName).sessionsOf productId deviceName =
      (g.sessionsOf productId deviceName).eraseP (·.isDevice productId deviceName) := by
    unfold Gateway.sessionsOf Gateway.removeSession
    rw [List.eraseP_filter]
    simp only [Bool.and_self]
  have short := oneEach.length_sessionsOf productId deviceName
  rw [erased]
  match sessions : g.sessionsOf productId deviceName, short with
  | [], _ => rfl
  | [only], _ =>
    have isDevice : only.isDevice productId deviceName = true :=
      (List.mem_filter.mp (sessions ▸ List.mem_singleton_self only :
        only ∈ g.sessionsOf productId deviceName)).2
    exact List.eraseP_cons_of_pos isDevice

/-- What is found is listed, and is a session of the device. -/
theorem findSession_some {g : Gateway} {productId deviceName : CStr} {session : SubdevSession}
    (found : g.findSession productId deviceName = some session) :
    session ∈ g.sessionList ∧ session.isDevice productId deviceName = true :=
  ⟨List.mem_of_find?_eq_some found, List.find?_some found⟩

/-- A session is added for a device that has none. -/
theorem OneEach.addSession {g g' : Gateway} (oneEach : OneEach g) {productId deviceName : CStr}
    {allocated : Bool} {ref : Nat} (none : g.findSession productId deviceName = none)
    (added : g.addSession productId deviceName allocated = .ok (some (ref, g'))) :
    OneEach g' ∧ g'.gatewayData = g.gatewayData ∧
      ∃ session ∈ g'.sessionList, session.ref = ref ∧
        session.isDevice productId deviceName = true := by
  unfold Gateway.addSession at added
  split at added
  · cases added
  split at added
  · cases added
  · cases added
    refine ⟨⟨?_, ?_, ?_⟩, rfl, _, List.mem_cons_self, rfl, isDevice_iff.mpr rfl⟩
    · refine List.nodup_cons.mpr ⟨?_, oneEach.devices⟩
      intro mem
      obtain ⟨session, isListed, isDevice⟩ := List.mem_map.mp mem
      exact List.find?_eq_none.mp none session isListed (isDevice_iff.mpr isDevice)
    · refine List.nodup_cons.mpr ⟨?_, oneEach.refs⟩
      intro mem
      obtain ⟨session, isListed, same⟩ := List.mem_map.mp mem
      exact Nat.lt_irrefl _ (same ▸ oneEach.below session isListed)
    · intro session mem
      rcases List.mem_cons.mp mem with rfl | before
      · exact Nat.lt_succ_self _
      · exact Nat.lt_succ_of_lt (oneEach.below session before)

/-- The status is written to a session that is listed. -/
theorem OneEach.setStatus {g : Gateway} (oneEach : OneEach g) {session : SubdevSession}
    (mem : session ∈ g.sessionList) (status : SessionStatus) :
    ∃ g', g.setStatus session.ref status = .ok g' ∧ OneEach g' ∧
      { session with sessionStatus := status } ∈ g'.sessionList := by
  have isListed : g.sessionList.any (·.ref = session.ref) = true :=
    List.any_eq_true.mpr ⟨session, mem, decide_eq_true rfl⟩
  refine ⟨_, if_pos isListed, ⟨?_, ?_, ?_⟩, ?_⟩
  · have same : (SubdevSession.device ∘ fun s : SubdevSession =>
        if s.ref = session.ref then { s with sessionStatus := status } else s) =
        SubdevSession.device := by
      funext s
      dsimp only [Function.comp]
      split <;> rfl
    rw [List.map_map, same]
    exact oneEach.devices
  · have same : (SubdevSession.ref ∘ fun s : SubdevSession =>
        if s.ref = session.ref then { s with sessionStatus := status } else s) =
        SubdevSession.ref := by
      funext s
      dsimp only [Function.comp]
      split <;> rfl
    rw [List.map_map, same]
    exact oneEach.refs
  · intro s written
    obtain ⟨before, isBefore, rfl⟩ := List.mem_map.mp written
    split
    · exact oneEach.below before isBefore
    · exact oneEach.below before isBefore
  · exact List.mem_map.mpr ⟨session, mem, if_pos rfl⟩

/-! ## Calls -/

/-- A request leaves the sessions alone; when it fits, nothing has been answered yet. -/
theorem request_cases {g g' : Gateway} {op : Operation} {param : GatewayParam} {fits : Bool}
    (requested : g.request op param = (fits, g')) :
    g'.sessionList = g.sessionList ∧ g'.allocated = g.allocated ∧
      (fits = true → (g'.gatewayData.reply op).result = -1001 ∧
        (g'.gatewayData.reply op).clientId =
          cut (clientIdText param.subdevProductId param.subdevDeviceName)
            (maxSizeOfClientId - 1)) := by
  unfold Gateway.request at requested
  split at requested
  · cases requested
    exact ⟨rfl, rfl, nofun⟩
  split at requested
  · cases requested
    exact ⟨rfl, rfl, nofun⟩
  · unfold ReplyData.request at requested
    dsimp only at requested
    split at requested
    · cases requested
      exact ⟨rfl, rfl, nofun⟩
    · cases requested
      refine ⟨rfl, rfl, fun _ => ?_⟩
      rw [GatewayData.reply_setReply]
      exact ⟨rfl, rfl⟩

theorem OneEach.congr {g g' : Gateway} (oneEach : OneEach g)
    (sessionList : g'.sessionList = g.sessionList) (allocated : g'.allocated = g.allocated) :
    OneEach g' :=
  oneEach.of_sublist (sessionList ▸ List.Sublist.refl _) allocated

/-- The sessions are kept by a request that succeeds. -/
theorem Published.kept {g g' : Gateway} {op : Operation} {param : GatewayParam} {env : CallEnv}
    {rc : Int} (published : Published op env rc g g') (apart : Apart op param env)
    (clientId : (g.gatewayData.reply op).clientId =
      cut (clientIdText param.subdevProductId param.subdevDeviceName) (maxSizeOfClientId - 1))
    (success : rc = qcloudRetSuccess) : g'.sessionList = g.sessionList := by
  obtain ⟨last, within, waited, answered⟩ := published.success success
  rcases waited.sessionList with same | ⟨_, message, mem, unbinds⟩
  · exact same
  · obtain ⟨round, inRange, mem⟩ := List.mem_flatMap.mp mem
    have before : round ≤ last := by
      rw [List.mem_range'_1] at inRange
      omega
    exact absurd unbinds (apart last within (clientId ▸ answered) round before message mem)

/-- A call, or the messages that are handled between two calls. -/
inductive Call where
  | online (param : GatewayParam) (env : CallEnv)
  | offline (param : GatewayParam) (env : CallEnv)
  | yield (messages : List (Message × MessageEnv)) (rc : Int)

/-- What a call does, and what it returns. -/
def Gateway.call (g : Gateway) : Call → Except CallFault (Int × Gateway)
  | .online param env => g.subdevOnline param env
  | .offline param env => g.subdevOffline param env
  | .yield messages rc => (ofWait (g.yield messages)).map fun g => (rc, g)

/-- The ids fit into a session, and all sessions are not freed in a wait that ends well. -/
def Call.Careful : Call → Prop
  | .online param env =>
    (param.subdevProductId.length ≤ maxSizeOfProductId ∧
      param.subdevDeviceName.length ≤ maxSizeOfDeviceName) ∧ Apart .online param env
  | .offline param env => Apart .offline param env
  | .yield _ _ => True

/-- What a call promises when it succeeds. -/
def Call.Kept (rc : Int) (g : Gateway) : Call → Prop
  | .online param _ => rc = qcloudRetSuccess →
    ∃ session, g.sessionsOf param.subdevProductId param.subdevDeviceName = [session] ∧
      session.sessionStatus = .online
  | .offline param _ => rc = qcloudRetSuccess →
    g.sessionsOf param.subdevProductId param.subdevDeviceName = []
  | .yield _ _ => True

/-- The outcome of a call: it has written only to sessions that are listed and to their arrays,
    there is at most one session for a device, and what it promises holds. -/
def Call.Sound (call : Call) : Except CallFault (Int × Gateway) → Prop
  | .ok (rc, g) => OneEach g ∧ call.Kept rc g
  | .error (.message _) => True
  | .error .sessionOverrun => False
  | .error .freedSession => False

theorem onlineSession_sound {g : Gateway} {session : SubdevSession} {param : GatewayParam}
    {env : CallEnv} (oneEach : OneEach g) (mem : session ∈ g.sessionList)
    (isDevice : session.isDevice param.subdevProductId param.subdevDeviceName = true)
    (apart : Apart .online param env) :
    (Call.online param env).Sound (g.onlineSession session.ref param env) := by
  unfold Gateway.onlineSession
  rcases requested : g.request .online param with ⟨fits, g₁⟩
  obtain ⟨sessions, allocated, waits⟩ := request_cases requested
  have oneEach₁ := oneEach.congr sessions allocated
  dsimp only
  by_cases isFit : fits = true
  · obtain ⟨result, clientId⟩ := waits isFit
    rw [if_neg (not_not.mpr isFit)]
    cases synced : g₁.publishSync .online env with
    | error fault => exact trivial
    | ok outcome =>
      obtain ⟨rc, g₂⟩ := outcome
      have published := publishSync_cases (by rw [result]; decide) synced
      obtain ⟨n, waited⟩ := published.waited
      have oneEach₂ := waited.oneEach oneEach₁
      change Call.Sound _ (if rc ≠ qcloudRetSuccess then _ else _)
      by_cases success : rc = qcloudRetSuccess
      · rw [if_neg (not_not.mpr success)]
        have listed : session ∈ g₂.sessionList := by
          rw [published.kept apart clientId success, sessions]
          exact mem
        obtain ⟨g₃, written, oneEach₃, online⟩ := oneEach₂.setStatus listed .online
        rw [written]
        exact ⟨oneEach₃, fun _ => ⟨_, oneEach₃.sessionsOf online isDevice, rfl⟩⟩
      · rw [if_pos success]
        exact ⟨oneEach₂.removeSession _ _, fun zero => absurd zero (published.failure success)⟩
  · rw [if_pos isFit]
    exact ⟨oneEach₁, fun zero => absurd zero (by decide)⟩

theorem offlineSession_sound {g : Gateway} {session : SubdevSession} {param : GatewayParam}
    {env : CallEnv} (oneEach : OneEach g) (mem : session ∈ g.sessionList)
    (apart : Apart .offline param env) :
    (Call.offline param env).Sound (g.offlineSession session.ref param env) := by
  unfold Gateway.offlineSession
  rcases requested : g.request .offline param with ⟨fits, g₁⟩
  obtain ⟨sessions, allocated, waits⟩ := request_cases requested
  have oneEach₁ := oneEach.congr sessions allocated
  dsimp only
  by_cases isFit : fits = true
  · obtain ⟨result, clientId⟩ := waits isFit
    rw [if_neg (not_not.mpr isFit)]
    cases synced : g₁.publishSync .offline env with
    | error fault => exact trivial
    | ok outcome =>
      obtain ⟨rc, g₂⟩ := outcome
      have published := publishSync_cases (by rw [result]; decide) synced
      obtain ⟨n, waited⟩ := published.waited
      have oneEach₂ := waited.oneEach oneEach₁
      change Call.Sound _ (if rc ≠ qcloudRetSuccess then _ else _)
      by_cases success : rc = qcloudRetSuccess
      · rw [if_neg (not_not.mpr success)]
        have listed : session ∈ g₂.sessionList := by
          rw [published.kept apart clientId success, sessions]
          exact mem
        obtain ⟨g₃, written, oneEach₃, _⟩ := oneEach₂.setStatus listed .offline
        rw [written]
        exact ⟨oneEach₃.removeSession _ _, fun _ => oneEach₃.sessionsOf_removeSession _ _⟩
      · rw [if_pos success]
        exact ⟨oneEach₂, fun zero => absurd zero (published.failure success)⟩
  · rw [if_pos isFit]
    exact ⟨oneEach₁, fun zero => absurd zero (by decide)⟩

/-- A careful call is sound. -/
theorem call_sound {g : Gateway} (oneEach : OneEach g) {call : Call} (careful : call.Careful) :
    call.Sound (g.call call) := by
  cases call with
  | online param env =>
    obtain ⟨⟨productIdFits, deviceNameFits⟩, apart⟩ := careful
    change Call.Sound _ (g.subdevOnline param env)
    unfold Gateway.subdevOnline
    split
    · exact ⟨oneEach, fun zero => absurd zero (by decide)⟩
    cases found : g.findSession param.subdevProductId param.subdevDeviceName with
    | some session =>
      obtain ⟨mem, isDevice⟩ := findSession_some found
      dsimp only
      split
      · exact ⟨oneEach, fun zero => absurd zero (by decide)⟩
      · exact onlineSession_sound oneEach mem isDevice apart
    | none =>
      dsimp only
      cases added : g.addSession param.subdevProductId param.subdevDeviceName
          env.sessionAllocated with
      | error fault =>
        unfold Gateway.addSession at added
        rw [if_neg (by omega : ¬ (maxSizeOfProductId < param.subdevProductId.length ∨
          maxSizeOfDeviceName < param.subdevDeviceName.length))] at added
        split at added <;> cases added
      | ok outcome =>
        cases outcome with
        | none => exact ⟨oneEach, fun zero => absurd zero (by decide)⟩
        | some outcome =>
          obtain ⟨ref, g₁⟩ := outcome
          obtain ⟨oneEach₁, _, session, mem, rfl, isDevice⟩ := oneEach.addSession found added
          exact onlineSession_sound oneEach₁ mem isDevice apart
  | offline param env =>
    change Call.Sound _ (g.subdevOffline param env)
    unfold Gateway.subdevOffline
    split
    · exact ⟨oneEach, fun zero => absurd zero (by decide)⟩
    cases found : g.findSession param.subdevProductId param.subdevDeviceName with
    | none => exact ⟨oneEach, fun zero => absurd zero (by decide)⟩
    | some session =>
      obtain ⟨mem, _⟩ := findSession_some found
      dsimp only
      split
      · exact ⟨oneEach.removeSession _ _, fun zero => absurd zero (by decide)⟩
      · exact offlineSession_sound oneEach mem careful
  | yield messages rc =>
    change Call.Sound _ ((ofWait (g.yield messages)).map fun g => (rc, g))
    cases handled : g.yield messages with
    | error fault => exact trivial
    | ok g' => exact ⟨(yield_waited handled).oneEach oneEach, trivial⟩

/-! ## Runs -/

/-- The gateway taking one call after the other. -/
def calls : Machine (Except CallFault Gateway) Call where
  step s call := s.bind fun g => (g.call call).map Prod.snd

/-- The state between two calls. -/
def Reached : Except CallFault Gateway → Prop
  | .ok g => OneEach g
  | .error (.message _) => True
  | .error .sessionOverrun => False
  | .error .freedSession => False

theorem step_reached {s : Except CallFault Gateway} {call : Call} (careful : call.Careful)
    (reached : Reached s) : Reached (calls.step s call) := by
  match s, reached with
  | .error (.message fault), _ => exact trivial
  | .ok g, oneEach =>
    have sound := call_sound oneEach careful
    change Reached ((g.call call).map Prod.snd)
    match g.call call, sound with
    | .ok (rc, g'), sound => exact sound.1
    | .error (.message fault), _ => exact trivial

/-- A gateway without sessions. -/
def idle : Gateway where
  sessionList := []
  bindList := ⟨[], 0⟩
  gatewayData := ⟨.idle, .idle, .idle, .idle, .idle⟩
  allocated := 0
  history := []

/-- The device `dev1` goes online while these messages are handled. -/
def goOnline (messages : List (Message × MessageEnv)) : Call :=
  .online ⟨productP, dev10, productP, dev1⟩
    { sessionAllocated := true, published := 0, yields := fun k => if k = 0 then messages else [] }

def unbindAllMessage : Message where
  topicLen := 1
  payload := utf8 "\x7b\"type\":\"unbind_all\"\x7d"

theorem not_unbindsAll_onlineReply : ¬ UnbindsAll onlineReply .ample := by
  rintro ⟨_, type, typed, isUnbindAll⟩
  have isOnline : getJsonString typeField onlineReply.received true =
      .ok (some ⟨Operation.online.text, by with_unfolding_all decide⟩) := by
    decide +kernel
  have same := typed.symm.trans isOnline
  cases same
  exact absurd isUnbindAll (by with_unfolding_all decide)

end QcloudIot.Gateway
