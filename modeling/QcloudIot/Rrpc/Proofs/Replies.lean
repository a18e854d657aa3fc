import QcloudIot.Rrpc.Client

/-!
# Replies and their requests

Several clients take requests and reply to them in any order. The one buffer for process ids holds
the id of the request taken last, so that a reply is right as long as no client takes a request
while another one has still to reply to a different id.
-/

namespace QcloudIot.Rrpc

open Json (Fault)
open Mqtt (CStr fixTopic handleMatches maxSizeOfCloudTopic overwrite_zero slash qcloudRetSuccess
  qcloudErrFailure)
open Shadow (ascii strncpy strncpy_length textOf textOf_nuls)

/-! ## Clients that take requests and reply -/

/-- A process id is one level of a topic. -/
structure ProcessId where
  bytes : List UInt8
  level : slash ∉ bytes
  deriving DecidableEq, Repr

/-- The topic of a request. -/
def Client.requestTopic (client : Client) (id : ProcessId) : List UInt8 :=
  client.deviceInfo.topicFront rxd ++ id.bytes

/-- The topic of the reply to a request. -/
def Client.replyTopic (client : Client) (id : ProcessId) : List UInt8 :=
  client.deviceInfo.topicFront txd ++ id.bytes

/-- The subscription of the client covers the topic that it is shown. -/
def Client.Receives (client : Client) (id : ProcessId) : Prop :=
  handleMatches (fixTopic (client.requestTopic id) 0 (client.requestTopic id).length).1
    (fixTopic (client.requestTopic id) 0 (client.requestTopic id).length).2 client.subHandle = true

instance decidableReceives (client : Client) (id : ProcessId) : Decidable (client.Receives id) :=
  inferInstanceAs (Decidable (_ = _))

variable {ι : Type} [DecidableEq ι]

/-- A request arrives on a client, or the application replies on one. -/
inductive Event (ι : Type) where
  | request (client : ι) (id : ProcessId) (payload : List UInt8)
  | reply (client : ι) (jsonDoc : CStr) (published : Int)

/-- The buffer, and what each client has handed to its callback and has not replied to. -/
structure Replies (ι : Type) where
  buffer : ProcessIdBuffer
  pending : ι → Option ProcessId
  fault : Bool

namespace Replies

/-- Nothing has arrived yet. -/
def initial : Replies ι where
  buffer := .zero
  pending := fun _ => none
  fault := false

/-- A request that has been handed to the callback is pending. -/
def taken (st : Replies ι) (client : ι) (id : ProcessId) :
    Except Fault (Option Invocation × ProcessIdBuffer) → Replies ι
  | .error _ => { st with fault := true }
  | .ok (none, buffer) => { st with buffer := buffer }
  | .ok (some _, buffer) =>
    { st with buffer := buffer, pending := Function.update st.pending client (some id) }

/-- A request to which a reply has succeeded is not pending any longer. -/
def replied (st : Replies ι) (client : ι) (rc : Int) : Replies ι :=
  if rc = qcloudRetSuccess then { st with pending := Function.update st.pending client none }
  else st

/-- One event. -/
def after (clients : ι → Client) (st : Replies ι) : Event ι → Replies ι
  | .request client id payload => st.taken client id
    ((clients client).deliver st.buffer ((clients client).requestTopic id) payload)
  | .reply client jsonDoc published =>
    st.replied client ((clients client).reply st.buffer jsonDoc published).1

end Replies

/-- The clients of a process. -/
def rrpcClients (clients : ι → Client) : Machine (Replies ι) (Event ι) := ⟨Replies.after clients⟩

namespace Replies

/-- A client has one pending request at most, and replies to none that it does not have. -/
def InOrder (clients : ι → Client) (st : Replies ι) : Event ι → Prop
  | .request client id payload => ∀ call buffer,
    (clients client).deliver st.buffer ((clients client).requestTopic id) payload =
      .ok (some call, buffer) → st.pending client = none
  | .reply client _ _ => (st.pending client).isSome = true

/-- A request is handed to the callback only if its process id is not too long, and a reply goes to
    the topic of the pending request. -/
def Right (clients : ι → Client) (st : Replies ι) : Event ι → Prop
  | .request client id payload => ∃ call buffer,
    (clients client).deliver st.buffer ((clients client).requestTopic id) payload =
      .ok (call, buffer) ∧ (call.isSome = true → id.bytes.length ≤ maxRrpcProcessIdLen)
  | .reply client jsonDoc published => ∃ id, st.pending client = some id ∧
    ((clients client).reply st.buffer jsonDoc published).2 =
      some ⟨(clients client).replyTopic id, jsonDoc.bytes⟩

/-- The condition on an event: the topic does not fill the array to its last byte, and a process id
    that is not too long has no NUL and is that of every other pending request. -/
def Meets (clients : ι → Client) (st : Replies ι) : Event ι → Prop
  | .request client id _ => (clients client).Receives id →
    (((clients client).requestTopic id).length = maxSizeOfCloudTopic → 0 ∈ id.bytes) ∧
    (id.bytes.length ≤ maxRrpcProcessIdLen → 0 ∉ id.bytes ∧
      ∀ other waiting, other ≠ client → st.pending other = some waiting → waiting = id)
  | .reply _ _ _ => True

end Replies

/-! ## The process id of a topic -/

theorem DeviceInfo.topicFront_split (device : DeviceInfo) (direction : List UInt8) :
    ∃ names, device.topicFront direction = names ++ [slash] ∧
      names.length ≤ direction.length + 66 ∧ (0 ∉ direction → 0 ∉ names) := by
  refine ⟨_, rfl, ?_, ?_⟩
  · have productId : device.productId.bytes.length ≤ 10 := device.productIdFits
    have deviceName : device.deviceName.bytes.length ≤ 48 := device.deviceNameFits
    simp only [List.length_append, ascii, List.length_map, List.length_cons, List.length_nil]
    omega
  · intro noNul
    simp only [List.mem_append, not_or]
    exact ⟨⟨⟨⟨⟨by decide, noNul⟩, by decide⟩, device.productId.noNul⟩, by decide⟩,
      device.deviceName.noNul⟩

theorem ProcessIdBuffer.text_store (buffer : ProcessIdBuffer) {copy : List UInt8}
    (fits : copy.length ≤ maxRrpcProcessIdLen) (noNul : 0 ∉ copy) :
    (buffer.store copy fits).text = copy :=
  cString_nul noNul _

theorem strncpy_whole {level : List UInt8} (noNul : 0 ∉ level) (nuls : Nat) :
    strncpy level.length (textOf (level ++ List.replicate nuls 0)) = level := by
  have isLength (src : CStr) : src.length = src.bytes.length := rfl
  rw [strncpy, isLength, textOf_nuls noNul, List.take_length, Nat.sub_self]
  exact List.append_nil level

/-- The last level of a topic in an array that has a NUL behind its front. -/
theorem rrpcGetProcessId_level (buffer : ProcessIdBuffer) {front level : List UInt8} {nuls : Nat}
    (frontNoNul : 0 ∉ front) (isLevel : slash ∉ level)
    (terminated : 0 ∈ level ++ List.replicate nuls 0) :
    rrpcGetProcessId buffer ((front ++ [slash]) ++ (level ++ List.replicate nuls 0))
        ((front ++ [slash]).length + level.length) =
      if fits : level.length ≤ maxRrpcProcessIdLen then
        .ok (qcloudRetSuccess, buffer.store
          (strncpy level.length (textOf (level ++ List.replicate nuls 0)))
          (by rw [strncpy_length]; exact fits))
      else .ok (qcloudErrFailure, buffer) := by
  have hasNul : ¬ 0 ∉ (front ++ [slash]) ++ (level ++ List.replicate nuls 0) :=
    fun missing => missing (List.mem_append_right _ terminated)
  have headNoNul : 0 ∉ front ++ [slash] := by
    rw [List.mem_append, not_or]
    exact ⟨frontNoNul, by decide⟩
  have tail : slash ∉ cString (level ++ List.replicate nuls 0) := by
    intro mem
    rcases List.mem_append.mp ((List.takeWhile_sublist _).subset mem) with inLevel | inNuls
    · exact isLevel inLevel
    · exact absurd (List.eq_of_mem_replicate inNuls) (by decide)
  have found : strrchr slash (cString ((front ++ [slash]) ++ (level ++ List.replicate nuls 0))) =
      some front.length := by
    rw [cString_append headNoNul, List.append_assoc]
    exact strrchr_append tail front
  have length : (front ++ [slash]).length = front.length + 1 := List.length_append
  have behind : (front ++ [slash]).length + level.length - (front.length + 1) = level.length := by
    omega
  have notBelow : ¬ (front ++ [slash]).length + level.length < front.length + 1 := by omega
  have rest : ((front ++ [slash]) ++ (level ++ List.replicate nuls 0)).drop (front.length + 1) =
      level ++ List.replicate nuls 0 := by
    rw [← length]
    exact List.drop_left
  rw [rrpcGetProcessId, if_neg hasNul]
  simp only [found, if_neg notBelow, behind, rest]

/-! ## A request -/

/-- The array that a topic is copied to, when the cut is behind its front. -/
theorem fixTopic_front {front level : List UInt8} (room : front.length < maxSizeOfCloudTopic) :
    ∃ kept, fixTopic (front ++ level) 0 (front ++ level).length =
        (front ++ (level.take kept ++
            List.replicate (maxSizeOfCloudTopic - (front.length + (level.take kept).length)) 0),
          front.length + (level.take kept).length) ∧
      ((front ++ level).length ≤ maxSizeOfCloudTopic ∧ level.take kept = level ∨
        maxSizeOfCloudTopic < (front ++ level).length ∧
          front.length + (level.take kept).length = maxSizeOfCloudTopic - 1) := by
  by_cases long : (front ++ level).length > maxSizeOfCloudTopic
  · have cut : front.length + (level.take (maxSizeOfCloudTopic - 1 - front.length)).length =
        maxSizeOfCloudTopic - 1 := by
      rw [List.length_append] at long
      rw [List.length_take]
      omega
    refine ⟨maxSizeOfCloudTopic - 1 - front.length, ?_, .inr ⟨long, cut⟩⟩
    have copied : ((front ++ level).drop 0).take (maxSizeOfCloudTopic - 1) =
        front ++ level.take (maxSizeOfCloudTopic - 1 - front.length) := by
      rw [List.drop_zero, List.take_append, List.take_of_length_le (by omega)]
    rw [fixTopic, if_pos long, copied, overwrite_zero, List.drop_replicate, List.length_append, cut,
      List.append_assoc]
    rw [List.length_append, cut, List.length_replicate]
    omega
  · refine ⟨level.length, ?_, .inl ⟨Nat.not_lt.mp long, List.take_length⟩⟩
    rw [fixTopic, if_neg long, List.drop_zero, List.take_length, List.take_length, overwrite_zero,
      List.drop_replicate, List.length_append, List.append_assoc]
    rw [List.length_replicate]
    exact Nat.not_lt.mp long

/-- A request that the subscription covers: one with a short id is stored, and one with a long id is
    refused. -/
theorem Client.deliver_request {client : Client} (buffer : ProcessIdBuffer) {id : ProcessId}
    (payload : List UInt8) (receives : client.Receives id)
    (terminated : (client.requestTopic id).length = maxSizeOfCloudTopic → 0 ∈ id.bytes)
    (noNul : id.bytes.length ≤ maxRrpcProcessIdLen → 0 ∉ id.bytes) :
    ∃ call buffer', client.deliver buffer (client.requestTopic id) payload = .ok (call, buffer') ∧
      (id.bytes.length ≤ maxRrpcProcessIdLen →
        call = client.callback.map (Invocation.mk · payload) ∧ buffer'.text = id.bytes) ∧
      (maxRrpcProcessIdLen < id.bytes.length → call = none ∧ buffer' = buffer) := by
  have room : maxSizeOfCloudTopic = 128 := rfl
  have limit : maxRrpcProcessIdLen = 16 := rfl
  obtain ⟨names, isFront, short, namesNoNul⟩ := client.deviceInfo.topicFront_split rxd
  have frontShort : (names ++ [slash]).length ≤ 70 := by
    rw [List.length_append]
    exact Nat.succ_le_succ short
  have isTopic : client.requestTopic id = (names ++ [slash]) ++ id.bytes := by
    rw [requestTopic, isFront]
  rw [Receives] at receives
  rw [deliver]
  rw [isTopic] at receives terminated ⊢
  obtain ⟨kept, copied, whole⟩ := @fixTopic_front (names ++ [slash]) id.bytes (by omega)
  rw [copied] at receives ⊢
  have isLevel : slash ∉ id.bytes.take kept := fun mem => id.level (List.mem_of_mem_take mem)
  have hasNul : 0 ∈ id.bytes.take kept ++ List.replicate
      (maxSizeOfCloudTopic - ((names ++ [slash]).length + (id.bytes.take kept).length)) 0 := by
    by_cases full : (names ++ [slash]).length + (id.bytes.take kept).length = maxSizeOfCloudTopic
    · rcases whole with ⟨_, same⟩ | ⟨_, cut⟩
      · rw [same] at full ⊢
        rw [← List.length_append] at full
        exact List.mem_append_left _ (terminated full)
      · omega
    · refine List.mem_append_right _ (List.mem_replicate.mpr ⟨?_, rfl⟩)
      rcases whole with ⟨fits, same⟩ | ⟨_, cut⟩
      · rw [List.length_append] at fits
        rw [same] at full ⊢
        omega
      · omega
  simp only [receives, if_true, rrpcMessageCb,
    rrpcGetProcessId_level buffer (namesNoNul (by decide)) isLevel hasNul]
  by_cases fits : id.bytes.length ≤ maxRrpcProcessIdLen
  · have same : id.bytes.take kept = id.bytes := by
      rcases whole with ⟨_, same⟩ | ⟨long, _⟩
      · exact same
      · rw [List.length_append] at long
        omega
    have isText := strncpy_whole (noNul fits)
      (maxSizeOfCloudTopic - ((names ++ [slash]).length + id.bytes.length))
    rw [same]
    simp only [dif_pos fits, isText]
    refine ⟨_, _, rfl, fun _ => ⟨rfl, ?_⟩, fun long => absurd fits (Nat.not_le.mpr long)⟩
    exact buffer.text_store fits (noNul fits)
  · have long : ¬ (id.bytes.take kept).length ≤ maxRrpcProcessIdLen := by
      rcases whole with ⟨_, same⟩ | ⟨_, cut⟩
      · rw [same]
        exact fits
      · omega
    simp only [dif_neg long]
    exact ⟨none, buffer, rfl, fun short => absurd short fits, fun _ => ⟨rfl, rfl⟩⟩

/-- A message that the subscription does not cover. -/
theorem Client.deliver_other {client : Client} (buffer : ProcessIdBuffer) {id : ProcessId}
    (payload : List UInt8) (other : ¬ client.Receives id) :
    client.deliver buffer (client.requestTopic id) payload = .ok (none, buffer) := by
  rw [Receives] at other
  rw [deliver]
  generalize fixTopic (client.requestTopic id) 0 (client.requestTopic id).length = copied at other ⊢
  exact if_neg other

/-- The reply goes to the topic that ends in what the buffer holds. -/
theorem Client.reply_topic (client : Client) {buffer : ProcessIdBuffer} {id : ProcessId}
    (isText : buffer.text = id.bytes) (fits : id.bytes.length ≤ maxRrpcProcessIdLen)
    (jsonDoc : CStr) (published : Int) :
    (client.reply buffer jsonDoc published).2 = some ⟨client.replyTopic id, jsonDoc.bytes⟩ := by
  obtain ⟨names, isFront, short, _⟩ := client.deviceInfo.topicFront_split txd
  have room : ¬ (client.deviceInfo.topicFront txd ++ id.bytes).length > maxSizeOfCloudTopic - 1 := by
    have limit : maxRrpcProcessIdLen = 16 := rfl
    have size : maxSizeOfCloudTopic = 128 := rfl
    have direction : txd.length = 3 := rfl
    rw [isFront, List.length_append, List.length_append, List.length_singleton]
    omega
  rw [reply, publishRrpcToCloud, isText]
  simp only [if_neg room, replyTopic]
  split <;> rfl

/-! ## Runs -/

namespace Replies

variable {clients : ι → Client} {st : Replies ι}

/-- The buffer holds the process id of every pending request. -/
structure Agrees (clients : ι → Client) (st : Replies ι) : Prop where
  noFault : st.fault = false
  held : ∀ client id, st.pending client = some id → st.buffer.text = id.bytes
  short : ∀ client id, st.pending client = some id → id.bytes.length ≤ maxRrpcProcessIdLen
  handed : ∀ client, (st.pending client).isSome = true → (clients client).callback.isSome = true

omit [DecidableEq ι] in
theorem agrees_initial (clients : ι → Client) : (initial : Replies ι).Agrees clients where
  noFault := rfl
  held := nofun
  short := nofun
  handed := nofun

/-- A short id has been stored and handed to the callback, if there is one. -/
theorem Agrees.stored (agrees : st.Agrees clients) {client : ι} {id : ProcessId}
    {buffer : ProcessIdBuffer} (isText : buffer.text = id.bytes)
    (fits : id.bytes.length ≤ maxRrpcProcessIdLen) (handed : (clients client).callback.isSome = true)
    (same : ∀ other waiting, other ≠ client → st.pending other = some waiting → waiting = id) :
    Agrees clients { st with
      buffer := buffer, pending := Function.update st.pending client (some id) } := by
  have waits : ∀ other waiting, Function.update st.pending client (some id) other = some waiting →
      waiting = id := by
    intro other waiting isPending
    by_cases here : other = client
    · rw [here, Function.update_self] at isPending
      exact (Option.some.inj isPending).symm
    · rw [Function.update_of_ne here] at isPending
      exact same other waiting here isPending
  refine ⟨agrees.noFault, ?_, ?_, ?_⟩
  · intro other waiting isPending
    rw [waits other waiting isPending]
    exact isText
  · intro other waiting isPending
    rw [waits other waiting isPending]
    exact fits
  · intro other isPending
    by_cases here : other = client
    · rw [here]
      exact handed
    · simp only [Function.update_of_ne here] at isPending
      exact agrees.handed other isPending

/-- A request arrives. -/
theorem Agrees.request (agrees : st.Agrees clients) {client : ι} {id : ProcessId}
    {payload : List UInt8} (inOrder : st.InOrder clients (.request client id payload))
    (meets : st.Meets clients (.request client id payload)) :
    st.Right clients (.request client id payload) ∧
      (st.after clients (.request client id payload)).Agrees clients := by
  by_cases receives : (clients client).Receives id
  · obtain ⟨terminated, short⟩ := meets receives
    obtain ⟨call, buffer, delivered, ofShort, ofLong⟩ := Client.deliver_request st.buffer payload
      receives terminated (fun fits => (short fits).1)
    rw [Replies.after, delivered]
    by_cases fits : id.bytes.length ≤ maxRrpcProcessIdLen
    · obtain ⟨rfl, isText⟩ := ofShort fits
      obtain ⟨_, same⟩ := short fits
      refine ⟨⟨_, buffer, delivered, fun _ => fits⟩, ?_⟩
      rcases callback : (clients client).callback with _ | fn
      · refine ⟨agrees.noFault, ?_, agrees.short, agrees.handed⟩
        intro other waiting isPending
        have waits : st.pending other = some waiting := isPending
        have elsewhere : other ≠ client := by
          rintro rfl
          have handed := agrees.handed other (by rw [waits]; rfl)
          rw [callback] at handed
          exact absurd handed nofun
        rw [same other waiting elsewhere isPending]
        exact isText
      · exact agrees.stored isText fits (by rw [callback]; rfl) same
    · obtain ⟨rfl, rfl⟩ := ofLong (Nat.not_le.mp fits)
      exact ⟨⟨none, st.buffer, delivered, nofun⟩, agrees⟩
  · have delivered := Client.deliver_other st.buffer payload receives
    rw [Replies.after, delivered]
    exact ⟨⟨none, st.buffer, delivered, nofun⟩, agrees⟩

/-- The application replies. -/
theorem Agrees.reply (agrees : st.Agrees clients) {client : ι} {jsonDoc : CStr} {published : Int}
    (inOrder : st.InOrder clients (.reply client jsonDoc published)) :
    st.Right clients (.reply client jsonDoc published) ∧
      (st.after clients (.reply client jsonDoc published)).Agrees clients := by
  obtain ⟨id, isPending⟩ := Option.isSome_iff_exists.mp inOrder
  refine ⟨⟨id, isPending, (clients client).reply_topic (agrees.held client id isPending)
    (agrees.short client id isPending) jsonDoc published⟩, ?_⟩
  rw [Replies.after, Replies.replied]
  split
  · have left : ∀ other, (Function.update st.pending client none other) = st.pending other ∨
        (Function.update st.pending client none other) = none := by
      intro other
      by_cases here : other = client
      · exact .inr (by rw [here, Function.update_self])
      · exact .inl (Function.update_of_ne here none st.pending)
    refine ⟨agrees.noFault, ?_, ?_, ?_⟩
    · intro other waiting waits
      rcases left other with same | gone
      · exact agrees.held other waiting (same.symm.trans waits)
      · exact absurd (gone.symm.trans waits) nofun
    · intro other waiting waits
      rcases left other with same | gone
      · exact agrees.short other waiting (same.symm.trans waits)
      · exact absurd (gone.symm.trans waits) nofun
    · intro other waits
      rcases left other with same | gone
      · exact agrees.handed other (same ▸ waits)
      · simp only [gone] at waits
        exact absurd waits nofun
  · exact agrees

/-- One event. -/
theorem Agrees.after (agrees : st.Agrees clients) {event : Event ι}
    (inOrder : st.InOrder clients event) (meets : st.Meets clients event) :
    st.Right clients event ∧ (st.after clients event).Agrees clients := by
  cases event with
  | request client id payload => exact agrees.request inOrder meets
  | reply client jsonDoc published => exact agrees.reply inOrder

end Replies

/-- In every run in order that meets the condition, every reply goes to the request that its client
    has pending, and no process id that is too long is handed to a callback. -/
theorem replies_right (clients : ι → Client) (events : List (Event ι))
    (guarded : (rrpcClients clients).Guarded
      (fun st event => st.InOrder clients event ∧ st.Meets clients event) .initial events)
    {n : Nat} {event : Event ι} (found : events[n]? = some event) :
    ((rrpcClients clients).exec .initial (events.take n)).Right clients event := by
  have agrees := guarded.invariant_take (I := fun st => st.Agrees clients)
    (Replies.agrees_initial clients) (fun _ _ both agrees => (agrees.after both.1 both.2).2) n
  obtain ⟨inOrder, meets⟩ := guarded.at found
  exact (agrees.after inOrder meets).1

/-- A device of the product `P`. -/
def deviceOf (name : UInt8) (noNul : 0 ∉ [name]) : DeviceInfo where
  productId := ⟨ascii ['P'], by decide⟩
  deviceName := ⟨[name], noNul⟩
  productIdFits := by decide
  deviceNameFits := Nat.le_add_left 1 47

/-- Two clients with a callback. -/
def twoClients : Bool → Client
  | false => ⟨deviceOf 65 CStr.noNul_upperA, some 1⟩
  | true => ⟨deviceOf 66 (by decide), some 2⟩

/-- A process id of one digit. -/
def idOne : ProcessId := ⟨ascii ['1'], by decide⟩

/-- Another one. -/
def idTwo : ProcessId := ⟨ascii ['2'], by decide⟩

/-- The reply `ok`. -/
def okDoc : CStr := ⟨ascii ['o', 'k'], by decide⟩

section Runs

-- the states of a run on fixed events are compared without evaluating them
attribute [local irreducible] Replies.after

theorem replies_right_turns :
    ((rrpcClients twoClients).exec .initial
      ([.request false idOne [], .reply false okDoc 0, .request true idTwo [],
        .reply true okDoc 0].take 3)).Right twoClients (.reply true okDoc 0) := by
  refine replies_right twoClients [.request false idOne [], .reply false okDoc 0,
    .request true idTwo [], .reply true okDoc 0] ?_ rfl
  have first : (((rrpcClients twoClients).exec .initial
      [.request false idOne []]).pending false).isSome = true := by decide +kernel
  have answered : ((rrpcClients twoClients).exec .initial
      [.request false idOne [], .reply false okDoc 0]).pending = fun _ => none := by
    decide +kernel
  have second : (((rrpcClients twoClients).exec .initial [.request false idOne [],
      .reply false okDoc 0, .request true idTwo []]).pending true).isSome = true := by
    decide +kernel
  refine ⟨⟨fun _ _ _ => rfl, fun _ => ⟨by decide +kernel, fun _ => ⟨by decide, nofun⟩⟩⟩,
    ⟨first, trivial⟩, ⟨fun _ _ _ => congrFun answered true, fun _ => ⟨by decide +kernel, fun _ =>
      ⟨by decide, fun other waiting _ waits => ?_⟩⟩⟩, ⟨second, trivial⟩, trivial⟩
  exact absurd ((congrFun answered other).symm.trans waits) nofun

/-- Both clients take a request before the first of them replies. -/
theorem replies_mixedUp : ¬ ∀ (clients : Bool → Client) (events : List (Event Bool)),
    (rrpcClients clients).Guarded (fun st event => st.InOrder clients event) .initial events →
    ∀ n event, events[n]? = some event →
      ((rrpcClients clients).exec .initial (events.take n)).Right clients event := by
  intro all
  have first : ((rrpcClients twoClients).exec .initial
      [.request false idOne []]).pending true = none := by decide +kernel
  have waits : ((rrpcClients twoClients).exec .initial
      [.request false idOne [], .request true idTwo []]).pending false = some idOne := by
    decide +kernel
  have inOrder : (rrpcClients twoClients).Guarded (fun st event => st.InOrder twoClients event)
      .initial [.request false idOne [], .request true idTwo [], .reply false okDoc 0] :=
    ⟨fun _ _ _ => rfl, fun _ _ _ => first, Option.isSome_iff_exists.mpr ⟨idOne, waits⟩, trivial⟩
  obtain ⟨id, isPending, published⟩ := all twoClients _ inOrder 2 (.reply false okDoc 0) rfl
  obtain rfl := Option.some.inj (waits.symm.trans isPending)
  exact absurd published (by decide +kernel)

end Runs

end QcloudIot.Rrpc
