import QcloudIot.Gateway.Subdev
import QcloudIot.Json.Proofs.Token

/-!
# Replies and the devices they are about

A reply is matched with the call that waits for it by the front of a printed client id. When the
result of the call is changed by a reply for its device, and by that for another one.
-/

namespace QcloudIot.Gateway

open Mqtt (CStr)
open Ota (utf8)
open Json (bind_ok liteJsonValueOf liteJsonValueOf_lost)
open Shadow (textOf typeField resultField)

/-! ## Allocations -/

/-- A string that is found is copied if it can be allocated. -/
theorem getJsonString_copied {field json : CStr} {value : Option CStr}
    (found : getJsonString field json true = .ok value) (allocated : Bool) :
    getJsonString field json allocated = .ok (if allocated then value else none) := by
  cases allocated with
  | true => exact found
  | false =>
    unfold getJsonString at found ⊢
    cases looked : liteJsonValueOf field json true with
    | error fault =>
      rw [looked] at found
      cases found
    | ok text =>
      rw [liteJsonValueOf_lost looked]
      rfl

theorem getJsonInt32_copied {field json : CStr} {value : Option Int}
    (found : getJsonInt32 field json true = .ok value) (allocated : Bool) :
    getJsonInt32 field json allocated = .ok (if allocated then value else none) := by
  cases allocated with
  | true => exact found
  | false =>
    unfold getJsonInt32 at found ⊢
    cases looked : liteJsonValueOf field json true with
    | error fault =>
      rw [looked] at found
      cases found
    | ok text =>
      rw [liteJsonValueOf_lost looked]
      rfl

/-! ## What a reply says -/

/-- A result for a device. -/
structure Reply where
  result : Int
  productId : CStr
  deviceName : CStr
  deriving DecidableEq, Repr

/-- The result in a text, and the device that it is for. -/
def replyOf (json : CStr) : Except Fault (Option Reply) := do
  match ← getJsonString payloadDevices json true with
  | none => return none
  | some devices =>
    match ← getJsonInt32 resultField (devicesStrip devices) true with
    | none => return none
    | some result =>
      match ← getJsonString productIdField (devicesStrip devices) true with
      | none => return none
      | some productId =>
        match ← getJsonString deviceNameField (devicesStrip devices) true with
        | none => return none
        | some deviceName => return some ⟨result, productId, deviceName⟩

/-- The message is of the type of an operation, and this is the reply in it, if there is one. -/
structure IsReply (message : Message) (op : Operation) (reply : Option Reply) : Prop where
  type : ∃ type : CStr, getJsonString typeField message.received true = .ok (some type) ∧
    type.bytes = op.text
  reply : replyOf message.received = .ok reply

/-- The strings that the handler copies out of a reply can be allocated. -/
def MessageEnv.Copies (env : MessageEnv) : Prop :=
  env.type ∧ env.devices ∧ env.result ∧ env.productId ∧ env.deviceName

instance (env : MessageEnv) : Decidable env.Copies :=
  inferInstanceAs (Decidable (_ ∧ _ ∧ _ ∧ _ ∧ _))

/-! ## The handler -/

theorem operationOf_text {type : CStr} {op : Operation} (isText : type.bytes = op.text) :
    isType type unbindAllOp = false ∧ isType type searchOp = false ∧
      isType type describeOp = false ∧ isType type changeOp = false ∧
      operationOf type = some op := by
  unfold operationOf isType
  rw [isText]
  cases op <;> with_unfolding_all decide

/-- An answer is handed on if the strings in it can be copied and its client id is not too
    long. -/
theorem answer_reply {type devices : CStr} {reply : Option Reply} (env : MessageEnv) (g : Gateway)
    (replied : (do
      match ← getJsonInt32 resultField (devicesStrip devices) true with
      | none => return none
      | some result =>
        match ← getJsonString productIdField (devicesStrip devices) true with
        | none => return none
        | some productId =>
          match ← getJsonString deviceNameField (devicesStrip devices) true with
          | none => return none
          | some deviceName => return some ⟨result, productId, deviceName⟩) = Except.ok reply) :
    g.answer type devices env =
      .ok (match reply with
        | none => g
        | some reply =>
          if (env.result ∧ env.productId ∧ env.deviceName) ∧
              (clientIdText reply.productId reply.deviceName).length ≤ maxSizeOfClientId then
            g.takeResult type (clientIdText reply.productId reply.deviceName) reply.result
          else g) := by
  unfold Gateway.answer
  dsimp only
  obtain ⟨result, resulted, replied⟩ := bind_ok replied
  rw [getJsonInt32_copied resulted]
  cases result with
  | none =>
    cases replied
    cases env.result <;> rfl
  | some result =>
    obtain ⟨productId, identified, replied⟩ := bind_ok replied
    rw [getJsonString_copied identified]
    cases productId with
    | none =>
      cases replied
      cases env.result <;> cases env.productId <;> rfl
    | some productId =>
      obtain ⟨deviceName, named, replied⟩ := bind_ok replied
      rw [getJsonString_copied named]
      cases deviceName with
      | none =>
        cases replied
        cases env.result <;> cases env.productId <;> cases env.deviceName <;> rfl
      | some deviceName =>
        cases replied
        by_cases hasResult : env.result = true
        · by_cases hasProductId : env.productId = true
          · by_cases hasDeviceName : env.deviceName = true
            · rw [if_pos hasResult, if_pos hasProductId, if_pos hasDeviceName]
              dsimp only [bind, Except.bind, pure, Except.pure]
              by_cases long : (clientIdText productId deviceName).length > maxSizeOfClientId
              · rw [if_pos long, if_neg fun both => Nat.not_lt.mpr both.2 long]
              · rw [if_neg long,
                  if_pos ⟨⟨hasResult, hasProductId, hasDeviceName⟩, Nat.not_lt.mp long⟩]
            · rw [if_pos hasResult, if_pos hasProductId, if_neg hasDeviceName]
              exact congrArg Except.ok (if_neg fun both => hasDeviceName both.1.2.2).symm
          · rw [if_pos hasResult, if_neg hasProductId]
            exact congrArg Except.ok (if_neg fun both => hasProductId both.1.2.1).symm
        · rw [if_neg hasResult]
          exact congrArg Except.ok (if_neg fun both => hasResult both.1.1).symm

/-- A reply is handed on if everything in it can be copied and its client id is not too long. -/
theorem handleText_reply {message : Message} {op : Operation} {reply : Option Reply}
    (isReply : IsReply message op reply) (g : Gateway) (env : MessageEnv) :
    ∃ type : CStr, type.bytes = op.text ∧
      g.handleText message.received env =
        .ok (match reply with
          | none => g
          | some reply =>
            if env.Copies ∧
                (clientIdText reply.productId reply.deviceName).length ≤ maxSizeOfClientId then
              g.takeResult type (clientIdText reply.productId reply.deviceName) reply.result
            else g) := by
  obtain ⟨⟨type, typed, isText⟩, replied⟩ := isReply
  obtain ⟨noUnbindAll, noSearch, noDescribe, noChange, _⟩ := operationOf_text isText
  refine ⟨type, isText, ?_⟩
  unfold Gateway.handleText
  unfold replyOf at replied
  obtain ⟨devices, listed, replied⟩ := bind_ok replied
  by_cases hasType : env.type = true
  · rw [getJsonString_copied typed, if_pos hasType]
    dsimp only [bind, Except.bind]
    rw [noUnbindAll, noSearch, if_neg Bool.false_ne_true, if_neg Bool.false_ne_true,
      getJsonString_copied listed]
    by_cases hasDevices : env.devices = true
    · rw [if_pos hasDevices]
      dsimp only
      cases devices with
      | none =>
        cases replied
        rfl
      | some devices =>
        dsimp only
        rw [noDescribe, noChange, if_neg Bool.false_ne_true, if_neg Bool.false_ne_true,
          answer_reply env g replied]
        cases reply with
        | none => rfl
        | some reply =>
          have copies : env.Copies ↔ env.result ∧ env.productId ∧ env.deviceName :=
            ⟨fun all => all.2.2, fun rest => ⟨hasType, hasDevices, rest⟩⟩
          simp only [copies]
    · rw [if_neg hasDevices]
      cases reply with
      | none => rfl
      | some reply => exact congrArg Except.ok (if_neg fun both => hasDevices both.1.2.1).symm
  · rw [getJsonString_copied typed, if_neg hasType]
    cases reply with
    | none => rfl
    | some reply => exact congrArg Except.ok (if_neg fun both => hasType both.1.1).symm

/-! ## Matching -/

/-- A call of the operation waits for the answer about a device: what it has printed is in the reply
    data. -/
def Waits (data : GatewayData) (op : Operation) (productId deviceName : CStr) : Prop :=
  ∃ before : ReplyData, (before.request productId deviceName).1 = true ∧
    (data.reply op).clientId = (before.request productId deviceName).2.clientId

/-- The reply is for the device. -/
def Reply.IsFor (reply : Reply) (productId deviceName : CStr) : Prop :=
  reply.productId = productId ∧ reply.deviceName = deviceName

instance (reply : Reply) (productId deviceName : CStr) :
    Decidable (reply.IsFor productId deviceName) :=
  inferInstanceAs (Decidable (_ ∧ _))

/-- The result of the operation is changed by a reply for the device, and nothing else is. -/
def Matched (before after : GatewayData) (op : Operation) (productId deviceName : CStr) :
    Option Reply → Prop
  | none => after = before
  | some reply =>
    after =
      if reply.IsFor productId deviceName then
        before.setReply { before.reply op with result := reply.result } op
      else before

/-- The printed ids of a reply are the front of what has been kept of those waited for. -/
def Reply.Begins (reply : Reply) (productId deviceName : CStr) : Prop :=
  (clientIdText reply.productId reply.deviceName).bytes <+:
    (cut (clientIdText productId deviceName) (maxSizeOfClientId - 1)).bytes

/-- A message that is looked at, and all strings of which can be copied. -/
def Read (message : Message) (env : MessageEnv) : Prop := message.Taken ∧ env.Copies

instance (message : Message) (env : MessageEnv) : Decidable (Read message env) :=
  inferInstanceAs (Decidable (_ ∧ _))

/-- A reply for the device is read, and its client id has been kept whole; and one for another
    device does not begin the client id. A reply with the result that is there already makes no
    difference. -/
def Distinguished (data : GatewayData) (message : Message) (env : MessageEnv) (op : Operation)
    (productId deviceName : CStr) (reply : Reply) : Prop :=
  reply.result = (data.reply op).result ∨
    if reply.IsFor productId deviceName then
      Read message env ∧ (clientIdText productId deviceName).length < maxSizeOfClientId
    else Read message env → ¬ reply.Begins productId deviceName

theorem Waits.eq {data : GatewayData} {op : Operation} {productId deviceName : CStr}
    (waits : Waits data op productId deviceName) :
    (clientIdText productId deviceName).length ≤ maxSizeOfClientId ∧
      (data.reply op).clientId = cut (clientIdText productId deviceName) (maxSizeOfClientId - 1) := by
  obtain ⟨before, prints, kept⟩ := waits
  unfold ReplyData.request at prints kept
  dsimp only at prints kept
  by_cases long : (clientIdText productId deviceName).length > maxSizeOfClientId
  · rw [if_pos long] at prints
    cases prints
  · rw [if_neg long] at kept
    exact ⟨Nat.not_lt.mp long, kept⟩

/-- When the ids waited for contain no slash and have been kept whole, what begins them is the same
    product id with the front of the device name. -/
theorem Reply.begins_iff {reply : Reply} {productId deviceName : CStr}
    (plainProductId : 47 ∉ productId.bytes) (plainDeviceName : 47 ∉ deviceName.bytes)
    (kept : (clientIdText productId deviceName).length < maxSizeOfClientId) :
    reply.Begins productId deviceName ↔
      reply.productId = productId ∧ reply.deviceName.bytes <+: deviceName.bytes := by
  have whole : cut (clientIdText productId deviceName) (maxSizeOfClientId - 1) =
      clientIdText productId deviceName := cut_of_le (Nat.le_pred_of_lt kept)
  rw [Begins, whole, bytes_clientIdText, bytes_clientIdText]
  constructor
  · rintro ⟨rest, same⟩
    rw [List.append_assoc, List.cons_append] at same
    obtain ⟨sameId, _, front⟩ :=
      (List.append_cons_inj_of_notMem plainProductId plainDeviceName).mp same.symm
    exact ⟨CStr.ext_bytes sameId.symm, rest, front.symm⟩
  · rintro ⟨rfl, rest, front⟩
    refine ⟨rest, ?_⟩
    rw [← front, List.append_assoc, List.cons_append]

instance (reply : Reply) (productId deviceName : CStr) :
    Decidable (reply.Begins productId deviceName) :=
  inferInstanceAs (Decidable (_ <+: _))

/-- What the comparison of client ids does. -/
theorem takeResult_data {g : Gateway} {op : Operation} {productId deviceName type : CStr}
    (waits : Waits g.gatewayData op productId deviceName) (isText : type.bytes = op.text)
    (reply : Reply) :
    (g.takeResult type (clientIdText reply.productId reply.deviceName) reply.result).gatewayData =
      if reply.Begins productId deviceName then
        g.gatewayData.setReply { g.gatewayData.reply op with result := reply.result } op
      else g.gatewayData := by
  obtain ⟨_, _, _, _, found⟩ := operationOf_text isText
  unfold Gateway.takeResult
  rw [found]
  dsimp only
  have compared : strncmpEq (clientIdText reply.productId reply.deviceName)
      (g.gatewayData.reply op).clientId
      (clientIdText reply.productId reply.deviceName).length = true ↔
      reply.Begins productId deviceName := by
    rw [waits.eq.2, strncmpEq, decide_eq_true_iff, Reply.Begins, List.prefix_iff_eq_take,
      CStr.length, List.take_length]
  by_cases begins : reply.Begins productId deviceName
  · rw [if_pos (compared.mpr begins), if_pos begins]
  · rw [if_neg (compared.not.mpr begins), if_neg begins]

/-- What begins the client id waited for is not too long. -/
theorem Reply.Begins.length_le {reply : Reply} {productId deviceName : CStr}
    (begins : reply.Begins productId deviceName) :
    (clientIdText reply.productId reply.deviceName).length ≤ maxSizeOfClientId - 1 :=
  (List.IsPrefix.length_le begins).trans (List.length_take_le _ _)

/-- A reply is taken for the answer if it is read and begins the client id. -/
theorem messageHandler_reply {g : Gateway} {op : Operation} {productId deviceName : CStr}
    {message : Message} {env : MessageEnv} {reply : Option Reply}
    (waits : Waits g.gatewayData op productId deviceName) (isReply : IsReply message op reply) :
    ∃ g', g.messageHandler message env = .ok g' ∧
      g'.gatewayData = match reply with
        | none => g.gatewayData
        | some reply =>
          if Read message env ∧ reply.Begins productId deviceName then
            g.gatewayData.setReply { g.gatewayData.reply op with result := reply.result } op
          else g.gatewayData := by
  unfold Gateway.messageHandler
  by_cases taken : message.Taken
  · obtain ⟨type, isText, handled⟩ := handleText_reply isReply g env
    rw [if_pos taken, handled]
    refine ⟨_, rfl, ?_⟩
    cases reply with
    | none => rfl
    | some reply =>
      dsimp only
      by_cases begins : reply.Begins productId deviceName
      · have short := begins.length_le
        by_cases copies : env.Copies
        · rw [if_pos ⟨copies, by omega⟩, if_pos ⟨⟨taken, copies⟩, begins⟩,
            takeResult_data waits isText, if_pos begins]
        · rw [if_neg fun both => copies both.1, if_neg fun both => copies both.1.2]
      · have passed : ¬ (Read message env ∧ reply.Begins productId deviceName) :=
          fun both => begins both.2
        rw [if_neg passed]
        split
        · rw [takeResult_data waits isText, if_neg begins]
        · rfl
  · rw [if_neg taken]
    refine ⟨g, rfl, ?_⟩
    cases reply with
    | none => rfl
    | some reply => exact (if_neg fun both => taken both.1.1).symm

theorem setReply_eq_iff {data : GatewayData} {op : Operation} {result : Int} :
    data.setReply { data.reply op with result := result } op = data ↔
      result = (data.reply op).result := by
  constructor
  · intro same
    have reply := congrArg (fun data => (data.reply op).result) same
    dsimp only at reply
    rw [GatewayData.reply_setReply] at reply
    exact reply
  · rintro rfl
    exact data.setReply_self op

/-- The result 0 of going online, for the device `dev1`. -/
def onlineReply : Message where
  topicLen := 1
  payload := utf8 ("\x7b\"type\":\"online\",\"payload\":\x7b\"devices\":[\x7b\"product_id\":\"P\"," ++
    "\"device_name\":\"dev1\",\"result\":0\x7d]\x7d\x7d")

/-- Every allocation succeeds. -/
def MessageEnv.ample : MessageEnv where
  type := true
  status := true
  devices := true
  result := true
  productId := true
  deviceName := true
  processed := fun _ => ⟨true, true, true⟩
  acknowledged := fun _ => ⟨true, true, true⟩

def productP : CStr := ⟨utf8 "P", by decide +kernel⟩
def dev1 : CStr := ⟨utf8 "dev1", by decide +kernel⟩
def dev10 : CStr := ⟨utf8 "dev10", by decide +kernel⟩

/-- Nothing is waited for. -/
def ReplyData.idle : ReplyData := ⟨0, ⟨[], CStr.noNul_nil⟩⟩

/-- A gateway that waits for a device to go online. -/
def waiting (deviceName : CStr) : Gateway where
  sessionList := []
  bindList := ⟨[], 0⟩
  gatewayData :=
    { online := (ReplyData.idle.request productP deviceName).2
      offline := .idle
      bind := .idle
      unbind := .idle
      getBindlist := .idle }
  allocated := 0
  history := []

theorem isReply_onlineReply : IsReply onlineReply .online (some ⟨0, productP, dev1⟩) where
  type := ⟨⟨Operation.online.text, by decide +kernel⟩, by decide +kernel, rfl⟩
  reply := by decide +kernel

end QcloudIot.Gateway
