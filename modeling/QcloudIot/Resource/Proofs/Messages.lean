import QcloudIot.Json.Proofs.InPlace
import QcloudIot.Mqtt.Codec
import QcloudIot.Ota.Proofs.Firmware
import QcloudIot.Resource.Client

/-!
# Messages and the bytes behind them

A payload lies in `read_buf` in front of what earlier packets have left there. The lookups take
it for a C string: the payload decides alone what a message does as long as every lookup ends
inside it.
-/

namespace QcloudIot.Resource

open Mqtt (CStr MqttMessage deserializePublishPacket)
open Shadow (textOf)
open Json (Fault Overrun dot liteJsonValueAt liteJsonValueAt_extend liteJsonValueOf ofCopy ofMessage
  liteJsonValueAt_nul liteJsonValueAt_returns strlen cString_append_stale NeverOpensAtEnd memory)
open Ota (OtaStruct idleClient textAt utf8)

/-! ## Own bytes -/

/-- What is computed from `read_buf` with a packet at its front never leaves the packet, and is the
    same whatever lies behind. -/
def OwnBytes {σ : Type} (deliver : List UInt8 → Except Overrun σ) (packet : List UInt8) : Prop :=
  (∀ fault, deliver packet ≠ .error (.message fault)) ∧
    ∀ stale, deliver (packet ++ stale) = deliver packet

section OwnBytes

variable {σ τ : Type} {packet : List UInt8}

/-- A computation that does not look at the memory. -/
theorem ownBytes_const {call : Except Overrun σ} :
    OwnBytes (fun _ => call) packet ↔ ∀ fault, call ≠ .error (.message fault) :=
  ⟨fun own => own.1, fun quiet => ⟨quiet, fun _ => rfl⟩⟩

theorem ownBytes_ok (value : σ) : OwnBytes (fun _ => .ok value) packet :=
  ownBytes_const.mpr fun _ => nofun

theorem ofCopy_quiet (call : Except Fault σ) (fault : Fault) :
    ofCopy call ≠ .error (.message fault) := by
  cases call <;> simp [ofCopy]

/-- Behind a first step that ends inside the packet it is the rest that counts. -/
theorem ownBytes_bind {step : List UInt8 → Except Overrun σ}
    {next : List UInt8 → σ → Except Overrun τ} {value : σ}
    (inside : ∀ stale, step (packet ++ stale) = .ok value) :
    OwnBytes (fun readBuf => step readBuf >>= next readBuf) packet ↔
      OwnBytes (fun readBuf => next readBuf value) packet := by
  have alone : step packet = .ok value := by
    have first := inside []
    rwa [List.append_nil] at first
  simp only [OwnBytes, bind, Except.bind, alone, inside]

/-- A first step that leaves the packet settles it. -/
theorem not_ownBytes_bind {step : List UInt8 → Except Overrun σ}
    {next : List UInt8 → σ → Except Overrun τ} {fault : Fault}
    (leaves : step packet = .error (.message fault)) :
    ¬ OwnBytes (fun readBuf => step readBuf >>= next readBuf) packet := by
  intro own
  apply own.1 fault
  simp only [leaves, bind, Except.bind]

/-- What becomes of the result does not matter, as long as results are told apart. -/
theorem ownBytes_map {call : List UInt8 → Except Overrun σ} {f : σ → τ}
    (apart : Function.Injective f) :
    OwnBytes (fun readBuf => call readBuf >>= fun value => .ok (f value)) packet ↔
      OwnBytes call packet := by
  constructor
  · intro ⟨quiet, same⟩
    constructor
    · intro fault leaves
      apply quiet fault
      simp only [leaves, bind, Except.bind]
    · intro stale
      have mapped := same stale
      cases long : call (packet ++ stale) <;> cases short : call packet <;>
        simp only [long, short, bind, Except.bind, Except.ok.injEq, Except.error.injEq,
          reduceCtorEq] at mapped ⊢
      · exact mapped
      · exact apart mapped
  · intro ⟨quiet, same⟩
    constructor
    · intro fault leaves
      cases short : call packet with
      | ok value => simp only [short, bind, Except.bind, reduceCtorEq] at leaves
      | error overrun =>
        simp only [short, bind, Except.bind, Except.error.injEq] at leaves
        exact quiet fault (short.trans (congrArg _ leaves))
    · intro stale
      simp only [same stale]

/-- The payload of the message that ends a packet goes on in what lies behind the packet. -/
theorem ownBytes_payload {deliver : List UInt8 → Except Overrun σ} {message : MqttMessage}
    (ends : message.payload + message.payloadLen = packet.length) :
    OwnBytes (fun readBuf => deliver (readBuf.drop message.payload)) packet ↔
      OwnBytes deliver (packet.drop message.payload) := by
  have behind : ∀ stale, (packet ++ stale).drop message.payload =
      packet.drop message.payload ++ stale := by
    intro stale
    rw [List.drop_append_of_le_length (by omega)]
  simp only [OwnBytes, behind]

end OwnBytes

/-! ## Lookups -/

section Lookups

variable {payload : List UInt8} {key : CStr} {allocated : Bool}

/-- The lookups of a message, one after another as long as values are found, end inside it. -/
def EndInside (payload : List UInt8) : List (CStr × Bool) → Prop
  | [] => True
  | (key, allocated) :: lookups =>
    ∃ value, liteJsonValueAt key payload allocated = .ok value ∧
      (value.isSome → EndInside payload lookups)

theorem getJsonKeyValueAt_extend {value : Option (List UInt8)}
    (ends : liteJsonValueAt key payload allocated = .ok value) (stale : List UInt8) :
    getJsonKeyValueAt (payload ++ stale) key allocated = .ok (value.map textOf) := by
  simp only [getJsonKeyValueAt, liteJsonValueAt_extend stale ends, ofMessage, bind, Except.bind, pure,
    Except.pure]

theorem getJsonKeyValueAt_leaves {fault : Fault}
    (leaves : liteJsonValueAt key payload allocated = .error fault) :
    getJsonKeyValueAt payload key allocated = .error (.message fault) := by
  simp only [getJsonKeyValueAt, leaves, ofMessage, bind, Except.bind]

/-- A lookup ends inside the payload, and so does what is done with the value. -/
theorem ownBytes_lookup {τ : Type} {next : List UInt8 → Option CStr → Except Overrun τ} :
    OwnBytes (fun readBuf => getJsonKeyValueAt readBuf key allocated >>= next readBuf) payload ↔
      ∃ value, liteJsonValueAt key payload allocated = .ok value ∧
        OwnBytes (fun readBuf => next readBuf (value.map textOf)) payload := by
  cases lookup : liteJsonValueAt key payload allocated with
  | error fault =>
    constructor
    · intro own
      exact absurd own (not_ownBytes_bind (getJsonKeyValueAt_leaves lookup))
    · intro ⟨value, ends, _⟩
      cases ends
  | ok value =>
    rw [ownBytes_bind (getJsonKeyValueAt_extend lookup)]
    constructor
    · intro own
      exact ⟨value, rfl, own⟩
    · intro ⟨_, same, own⟩
      cases same
      exact own

/-- The same for a handler that ends when nothing is found. -/
theorem ownBytes_step {τ : Type} {next : List UInt8 → Option CStr → Except Overrun τ}
    {lookups : List (CStr × Bool)} (ends : ∃ missing, ∀ readBuf, next readBuf none = .ok missing)
    (goesOn : ∀ text, OwnBytes (fun readBuf => next readBuf (some text)) payload ↔
      EndInside payload lookups) :
    OwnBytes (fun readBuf => getJsonKeyValueAt readBuf key allocated >>= next readBuf) payload ↔
      EndInside payload ((key, allocated) :: lookups) := by
  obtain ⟨missing, ends⟩ := ends
  rw [ownBytes_lookup, EndInside]
  apply exists_congr
  intro value
  apply and_congr_right
  intro _
  cases value with
  | none =>
    simp only [Option.map_none, ends, ownBytes_ok, Option.isSome_none, Bool.false_eq_true,
      false_implies]
  | some value =>
    rw [Option.map_some, goesOn]
    simp only [Option.isSome_some, true_implies]

end Lookups

/-! ## The resource callback -/

section Resource

variable {payload : List UInt8} (r : Context) (env : CallbackEnv)

/-- The lookups of `_qcloud_iot_resource_cb_proc_download` and
    `_qcloud_iot_resource_cb_proc_upload`. -/
def Info.lookups (info : Info) (env : CallbackEnv) : List (CStr × Bool) :=
  if info.state.started then []
  else [(sizeKey, env.size), (nameKey, env.name), (md5sumKey, env.md5sum), (urlKey, env.url)]

theorem procTask_ownBytes (info : Info) :
    OwnBytes (fun readBuf => info.procTask readBuf env) payload ↔
      EndInside payload (info.lookups env) := by
  unfold Info.procTask Info.lookups
  by_cases started : info.state.started = true
  · simp only [if_pos started, EndInside, iff_true]
    exact ownBytes_ok info
  · simp only [if_neg started]
    refine ownBytes_step ?_ fun size => ?_
    · exact ⟨_, fun _ => rfl⟩
    refine ownBytes_step ?_ fun name => ?_
    · exact ⟨_, fun _ => rfl⟩
    refine ownBytes_step ?_ fun md5sum => ?_
    · exact ⟨_, fun _ => rfl⟩
    refine ownBytes_step ?_ fun url => ?_
    · exact ⟨_, fun _ => rfl⟩
    simp only [EndInside, iff_true]
    exact ownBytes_ok _

/-- The lookups that follow that of the type. -/
def Context.lookups (r : Context) (env : CallbackEnv) : Option MessageType → List (CStr × Bool)
  | some .download => r.download.lookups env
  | some .createUploadTask => r.upload.lookups env
  | some .uploadResult => [(reportKey, env.report)]
  | some (.progress _) => [(resultCodeKey, env.resultCode)]
  | none => []

theorem setResultCode_ownBytes (d : Direction) :
    OwnBytes (fun readBuf => r.cbProcProgress d readBuf env) payload ↔
      EndInside payload [(resultCodeKey, env.resultCode)] := by
  unfold Context.cbProcProgress
  refine ownBytes_step ?_ fun value => ?_
  · exact ⟨_, fun _ => rfl⟩
  · simp only [EndInside, iff_true]
    exact ownBytes_ok _

theorem getJsonKeyValue_quiet (json key : CStr) (allocated : Bool) (fault : Fault) :
    getJsonKeyValue json key allocated ≠ .error (.message fault) := by
  unfold getJsonKeyValue
  cases liteJsonValueOf key json allocated <;> simp [ofCopy, bind, Except.bind, pure, Except.pure]

/-- The values inside a report are looked up in copies. -/
theorem cbProcUploadresult_ownBytes :
    OwnBytes (fun readBuf => r.cbProcUploadresult readBuf env) payload ↔
      EndInside payload [(reportKey, env.report)] := by
  unfold Context.cbProcUploadresult
  refine ownBytes_step ?_ fun report => ?_
  · exact ⟨_, fun _ => rfl⟩
  simp only [EndInside, iff_true, bind, Except.bind, pure, Except.pure]
  rw [ownBytes_const]
  intro fault
  cases outer : getJsonKeyValue report progressKey env.progress with
  | error overrun =>
    intro same
    cases same
    exact getJsonKeyValue_quiet _ _ _ fault outer
  | ok progress =>
    cases progress with
    | none => nofun
    | some progress =>
      cases inner : getJsonKeyValue progress resultCodeKey env.resultCode with
      | error overrun =>
        simp only [inner]
        intro same
        cases same
        exact getJsonKeyValue_quiet _ _ _ fault inner
      | ok value =>
        simp only [inner]
        cases value <;> nofun

theorem dispatch_ownBytes :
    OwnBytes (fun readBuf => r.dispatch readBuf env) payload ↔
      ∃ jsonType, liteJsonValueAt typeKey payload env.type = .ok jsonType ∧
        EndInside payload (r.lookups env ((jsonType.map textOf).bind fun text =>
          messageType text.bytes)) := by
  unfold Context.dispatch
  rw [ownBytes_lookup]
  apply exists_congr
  intro jsonType
  apply and_congr_right
  intro _
  cases jsonType with
  | none =>
    simp only [Option.map_none, Option.bind_none, Context.lookups, EndInside, iff_true]
    exact ownBytes_ok r
  | some jsonType =>
    simp only [Option.map_some, Option.bind_some]
    cases messageType (textOf jsonType).bytes with
    | none =>
      simp only [Context.lookups, EndInside, iff_true]
      exact ownBytes_ok r
    | some type =>
      cases type with
      | download =>
        refine (ownBytes_map ?_).trans (procTask_ownBytes env r.download)
        intro info info' same
        exact congrArg Context.download same
      | createUploadTask =>
        refine (ownBytes_map ?_).trans (procTask_ownBytes env r.upload)
        intro info info' same
        exact congrArg Context.upload same
      | uploadResult => exact cbProcUploadresult_ownBytes r env
      | progress d => exact setResultCode_ownBytes r env d

/-- A message ends inside its payload when there is none, or when its lookups do. -/
def Context.Ends (r : Context) (payload : List UInt8) (env : CallbackEnv) : Prop :=
  payload = [] ∨ ∃ jsonType, liteJsonValueAt typeKey payload env.type = .ok jsonType ∧
    EndInside payload (r.lookups env ((jsonType.map textOf).bind fun text =>
      messageType text.bytes))

theorem ends_nul (ends : r.Ends payload env) : payload = [] ∨ 0 ∈ payload := by
  apply ends.imp_right
  intro ⟨_, found, _⟩
  exact liteJsonValueAt_nul (by decide) found

/-- A lookup ends at the zero byte unless a string is opened in front of it. -/
theorem liteJsonValueAt_ends {key : CStr} (plain : dot ∉ key.bytes) (nul : 0 ∈ payload)
    (never : NeverOpensAtEnd .object (textOf payload)) (allocated : Bool) :
    ∃ value, liteJsonValueAt key payload allocated = .ok value := by
  obtain ⟨text, behind, rfl, noNul⟩ := List.eq_append_cons_of_mem nul
  have front : memory (textOf (text ++ 0 :: behind)) = text ++ [0] :=
    congrArg (· ++ [0]) (cString_nul noNul behind)
  obtain ⟨value, found⟩ := liteJsonValueAt_returns plain never allocated
  rw [front] at found
  have longer := liteJsonValueAt_extend behind found
  rw [List.append_assoc, List.singleton_append] at longer
  exact ⟨value, longer⟩

theorem endInside_of_nul (nul : 0 ∈ payload) (never : NeverOpensAtEnd .object (textOf payload))
    {lookups : List (CStr × Bool)} (plain : ∀ lookup ∈ lookups, dot ∉ lookup.1.bytes) :
    EndInside payload lookups := by
  induction lookups with
  | nil => trivial
  | cons lookup lookups ih =>
    obtain ⟨value, found⟩ :=
      liteJsonValueAt_ends (plain lookup List.mem_cons_self) nul never lookup.2
    exact ⟨value, found, fun _ => ih fun later mem => plain later (List.mem_cons_of_mem _ mem)⟩

theorem task_plain (info : Info) : ∀ lookup ∈ info.lookups env, dot ∉ lookup.1.bytes := by
  unfold Info.lookups
  split
  · nofun
  · simp only [List.forall_mem_cons]
    exact ⟨by decide, by decide, by decide, by decide, nofun⟩

theorem lookups_plain (type : Option MessageType) :
    ∀ lookup ∈ r.lookups env type, dot ∉ lookup.1.bytes := by
  match type with
  | none => nofun
  | some .download => exact task_plain env r.download
  | some .createUploadTask => exact task_plain env r.upload
  | some .uploadResult =>
    simp only [Context.lookups, List.forall_mem_singleton]
    decide
  | some (.progress _) =>
    simp only [Context.lookups, List.forall_mem_singleton]
    decide

theorem ends_of_nul (nul : 0 ∈ payload) (never : NeverOpensAtEnd .object (textOf payload)) :
    r.Ends payload env := by
  have plain : dot ∉ typeKey.bytes := by decide
  obtain ⟨jsonType, found⟩ := liteJsonValueAt_ends plain nul never env.type
  exact .inr ⟨jsonType, found, endInside_of_nul nul never (lookups_plain r env _)⟩

end Resource

/-! ## The OTA callback -/

section Ota

variable {payload : List UInt8} (h : OtaStruct) (env : Ota.CallbackEnv)

/-- A zero byte in the payload, a document that is not looked at, or none. -/
def OtaEnds (h : OtaStruct) (payload : List UInt8) (env : Ota.CallbackEnv) : Prop :=
  payload = [] ∨ h.state.started ∨ ¬ env.firmwareType.keyAllocated ∨ 0 ∈ payload

theorem textAt_extend (nul : 0 ∈ payload) (stale : List UInt8) :
    ofMessage (textAt (payload ++ stale)) = .ok (textOf payload) := by
  have longer : 0 ∈ payload ++ stale := List.mem_append_left stale nul
  have same : textOf (payload ++ stale) = textOf payload := by
    unfold textOf
    congr 1
    exact cString_append_stale stale nul
  simp only [textAt, strlen, if_pos longer, ofMessage, bind, Except.bind, pure, Except.pure, same]

theorem otaCallback_ownBytes (some : payload ≠ []) :
    OwnBytes (fun memory => h.otaCallback memory payload.length env) payload ↔
      OtaEnds h payload env := by
  have long : ¬ payload.length = 0 := fun none => some (List.length_eq_zero_iff.mp none)
  by_cases silent : h.state.started ∨ ¬ env.firmwareType.keyAllocated
  · have keeps : ∀ memory, h.otaCallback memory payload.length env = .ok h := by
      intro memory
      rw [OtaStruct.otaCallback, if_neg long]
      split
      · rfl
      · rw [if_pos (silent.resolve_left ‹_›)]
        rfl
    simp only [keeps]
    exact iff_of_true (ownBytes_ok h) (.inr (silent.imp_right .inl))
  · obtain ⟨started, allocated⟩ := not_or.mp silent
    have reads : ∀ memory, h.otaCallback memory payload.length env =
        ofMessage (textAt memory) >>= fun json => ofCopy (h.dispatch json env) := by
      intro memory
      rw [OtaStruct.otaCallback, if_neg started, if_neg long, if_neg allocated]
    simp only [reads]
    by_cases nul : 0 ∈ payload
    · rw [ownBytes_bind (textAt_extend nul)]
      exact iff_of_true (ownBytes_const.mpr (ofCopy_quiet _)) (.inr (.inr (.inr nul)))
    · have leaves : ofMessage (textAt payload) = .error (.message .outOfBounds) := by
        simp only [textAt, strlen, if_neg nul, ofMessage, bind, Except.bind]
      refine iff_of_false (not_ownBytes_bind leaves) ?_
      rintro (none | busy | full | nul')
      · exact some none
      · exact started busy
      · exact allocated full
      · exact nul nul'

end Ota

/-! ## Packets -/

section Packets

variable {packet : List UInt8} {message : MqttMessage}

theorem otamqttUpgrageCb_ownBytes (ends : message.payload + message.payloadLen = packet.length)
    (fits : message.payloadLen < 2 ^ 32) (h : OtaStruct) (env : Ota.CallbackEnv) :
    OwnBytes (fun readBuf => h.otamqttUpgrageCb readBuf message env) packet ↔
      OtaEnds h (packet.drop message.payload) env := by
  have length : message.payloadLen % 2 ^ 32 = (packet.drop message.payload).length := by
    rw [Nat.mod_eq_of_lt fits, List.length_drop]
    omega
  unfold OtaStruct.otamqttUpgrageCb
  rw [length, @ownBytes_payload _ _ (fun memory => h.otaCallback memory
    (packet.drop message.payload).length env) _ ends]
  by_cases none : packet.drop message.payload = []
  · rw [none]
    refine iff_of_true ?_ (.inl rfl)
    have keeps : ∀ memory, h.otaCallback memory ([] : List UInt8).length env = .ok h := by
      intro memory
      rw [OtaStruct.otaCallback, List.length_nil, if_pos rfl]
      exact ite_self _
    simp only [keeps]
    exact ownBytes_ok h
  · exact otaCallback_ownBytes h env none

theorem resourceMqttCb_ownBytes (ends : message.payload + message.payloadLen = packet.length)
    (fits : message.payloadLen < 2 ^ 32) (r : Context) (env : CallbackEnv) :
    OwnBytes (fun readBuf => r.resourceMqttCb readBuf message env) packet ↔
      r.Ends (packet.drop message.payload) env := by
  have length : message.payloadLen % 2 ^ 32 = (packet.drop message.payload).length := by
    rw [Nat.mod_eq_of_lt fits, List.length_drop]
    omega
  unfold Context.resourceMqttCb
  rw [length, @ownBytes_payload _ _ (fun memory => r.resourceCallback memory
    (packet.drop message.payload).length env) _ ends]
  by_cases none : packet.drop message.payload = []
  · rw [none]
    refine iff_of_true ?_ (.inl rfl)
    have keeps : ∀ memory, r.resourceCallback memory ([] : List UInt8).length env = .ok r := by
      intro memory
      rw [Context.resourceCallback, List.length_nil, if_pos rfl]
      rfl
    simp only [keeps]
    exact ownBytes_ok r
  · have long : ¬ (packet.drop message.payload).length = 0 :=
      fun empty => none (List.length_eq_zero_iff.mp empty)
    have dispatches : ∀ memory, r.resourceCallback memory (packet.drop message.payload).length env =
        r.dispatch memory env := by
      intro memory
      rw [Context.resourceCallback, if_neg long]
    simp only [dispatches]
    rw [dispatch_ownBytes, Context.Ends]
    simp only [none, false_or]

/-- A message acts through its own bytes alone, exactly if it ends inside its payload: OTA takes a
    zero byte for that, the resource client a lookup of every key it asks for. Such a payload has a
    zero byte, and one with a zero byte does, unless a string is opened in front of it. -/
theorem message_ownBytes (ends : message.payload + message.payloadLen = packet.length)
    (fits : message.payloadLen < 2 ^ 32) :
    (∀ (h : OtaStruct) (env : Ota.CallbackEnv),
      OwnBytes (fun readBuf => h.otamqttUpgrageCb readBuf message env) packet ↔
        OtaEnds h (packet.drop message.payload) env) ∧
    (∀ (r : Context) (env : CallbackEnv),
      OwnBytes (fun readBuf => r.resourceMqttCb readBuf message env) packet ↔
        r.Ends (packet.drop message.payload) env) ∧
    (∀ (r : Context) (env : CallbackEnv), r.Ends (packet.drop message.payload) env →
      packet.drop message.payload = [] ∨ 0 ∈ packet.drop message.payload) ∧
    (0 ∈ packet.drop message.payload →
      NeverOpensAtEnd .object (textOf (packet.drop message.payload)) →
        ∀ (r : Context) (env : CallbackEnv), r.Ends (packet.drop message.payload) env) := by
  refine ⟨?_, ?_, ?_, ?_⟩
  · exact otamqttUpgrageCb_ownBytes ends fits
  · exact resourceMqttCb_ownBytes ends fits
  · intro r env inside
    exact ends_nul r env inside
  · intro nul never r env
    exact ends_of_nul r env nul never

end Packets

/-- The packet of a message of QoS 0, whose topic and payload together have less than 126 bytes. -/
def shortPublish (topic payload : List UInt8) : List UInt8 :=
  [0x30, UInt8.ofNat (2 + topic.length + payload.length), 0, UInt8.ofNat topic.length] ++ topic ++
    payload

/-- What the parser makes of it. -/
def shortMessage (topic payload : List UInt8) : MqttMessage where
  qos := 0
  retained := 0
  dup := 0
  id := 0
  ptopic := []
  topicLen := 0
  payload := 4 + topic.length
  payloadLen := payload.length

/-- The answer to a version report, whose result code is missing. -/
def versionAnswer : List UInt8 := utf8 "\x7b\"type\":\"report_version_rsp\"\x7d"
def versionTopic : List UInt8 := utf8 "$ota/update/p/d"

/-- The answer to a progress report, whose result code is missing. -/
def progressAnswer : List UInt8 := utf8 "\x7b\"type\":\"report_upload_progress_rsp\"\x7d"
def progressTopic : List UInt8 := utf8 "$resource/down/service/p/d"

/-- What an earlier message may have left behind it. -/
def leftOver : List UInt8 := utf8 ",\"result_code\":\"0\"\x7d" ++ [0]
def leftOver' : List UInt8 := utf8 ",\"result_code\":5\x7d" ++ [0]

def allGranted : Ota.CallbackEnv :=
  let granted : Ota.LookupEnv := ⟨true, true, true⟩
  ⟨granted, granted, granted, granted, granted, granted, granted⟩

def allAllocated : CallbackEnv := ⟨true, true, true, true, true, true, true, true⟩

theorem message_ownBytes_terminated :
    OtaEnds idleClient (versionAnswer ++ [0]) allGranted ∧
      OwnBytes (fun readBuf => idleClient.otamqttUpgrageCb readBuf
        (shortMessage versionTopic (versionAnswer ++ [0])) allGranted)
        (shortPublish versionTopic (versionAnswer ++ [0])) := by
  have payload : (shortPublish versionTopic (versionAnswer ++ [0])).drop
      (shortMessage versionTopic (versionAnswer ++ [0])).payload = versionAnswer ++ [0] := by
    decide +kernel
  have terminated : OtaEnds idleClient (versionAnswer ++ [0]) allGranted :=
    .inr (.inr (.inr (List.mem_append_right _ (List.mem_singleton_self _))))
  have own := (@message_ownBytes (shortPublish versionTopic (versionAnswer ++ [0]))
    (shortMessage versionTopic (versionAnswer ++ [0])) (by decide +kernel) (by decide +kernel)).1
    idleClient allGranted
  rw [payload] at own
  exact ⟨terminated, own.mpr terminated⟩

theorem OwnBytes.same {σ : Type} {deliver : List UInt8 → Except Overrun σ} {packet : List UInt8}
    (own : OwnBytes deliver packet) (stale stale' : List UInt8) :
    deliver (packet ++ stale) = deliver (packet ++ stale') := by
  rw [own.2, own.2]

/-- The bytes behind an answer supply its result code. -/
theorem message_staleBytes :
    (deserializePublishPacket (shortPublish versionTopic versionAnswer) 0).map (·.1) =
      .ok (shortMessage versionTopic versionAnswer) ∧
    (deserializePublishPacket (shortPublish progressTopic progressAnswer) 0).map (·.1) =
      .ok (shortMessage progressTopic progressAnswer) ∧
    ¬ OwnBytes (fun readBuf => idleClient.otamqttUpgrageCb readBuf
      (shortMessage versionTopic versionAnswer) allGranted)
      (shortPublish versionTopic versionAnswer) ∧
    ¬ OwnBytes (fun readBuf => Context.initial.resourceMqttCb readBuf
      (shortMessage progressTopic progressAnswer) allAllocated)
      (shortPublish progressTopic progressAnswer) := by
  refine ⟨by decide +kernel, by decide +kernel, ?_, ?_⟩
  · intro own
    have same := congrArg (fun result => result.toOption.map (·.err)) (own.same [0] leftOver)
    exact absurd same (by decide +kernel)
  · intro own
    have same := congrArg (fun result => result.toOption.map (·.upload.resultCode))
      (own.same [0] leftOver')
    exact absurd same (by decide +kernel)

end QcloudIot.Resource
