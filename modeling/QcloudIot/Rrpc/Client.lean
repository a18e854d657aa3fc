import QcloudIot.Gateway.Types
import QcloudIot.Misc.Run
import QcloudIot.Misc.Text
import QcloudIot.Mqtt.Handlers
import QcloudIot.Shadow.Manager

/-!
# The RRPC client

`rrpc_client.c`: a request arrives on a topic whose last level is its process id, and the reply is
published on a topic that ends in the same id. The id waits for the reply in a buffer that all
clients of the process share. The parameters of `IOT_RRPC_Reply` that it does not read are left out.
-/

namespace QcloudIot.Rrpc

open Gateway (maxSizeOfProductId maxSizeOfDeviceName)
open Json (Fault)
open Mqtt (CStr FnPtr SubTopicHandle fixTopic handleMatches maxSizeOfCloudTopic slash
  qcloudRetSuccess qcloudErrFailure qcloudErrInval)
open Shadow (ascii strncpy strncpy_length textOf)

/-! ## Constants -/

/-- `QCLOUD_ERR_RRPC_REPLY_ERR` -/
abbrev qcloudErrRrpcReplyErr : Int := -231

/-- `MAX_RRPC_PROCESS_ID_LEN` -/
abbrev maxRrpcProcessIdLen : Nat := 16

/-! ## Data -/

/-- The members of `DeviceInfo` that make up a topic. -/
structure DeviceInfo where
  productId : CStr
  deviceName : CStr
  productIdFits : productId.length ≤ maxSizeOfProductId
  deviceNameFits : deviceName.length ≤ maxSizeOfDeviceName
  deriving Repr

instance : DecidableEq DeviceInfo := fun a b =>
  decidable_of_iff (a.productId = b.productId ∧ a.deviceName = b.deviceName)
    (by cases a; cases b; simp)

/-- `$rrpc/rxd/%s/%s/` or `$rrpc/txd/%s/%s/` with the names of the device. -/
def DeviceInfo.topicFront (device : DeviceInfo) (direction : List UInt8) : List UInt8 :=
  ascii ['$', 'r', 'r', 'p', 'c', '/'] ++ direction ++ [slash] ++ device.productId.bytes ++ [slash] ++
    device.deviceName.bytes ++ [slash]

/-- The direction of requests. -/
def rxd : List UInt8 := ascii ['r', 'x', 'd']

/-- The direction of replies. -/
def txd : List UInt8 := ascii ['t', 'x', 'd']

/-- `sg_process_id_buffer`, of `MAX_RRPC_PROCESS_ID_LEN + 1` bytes. -/
structure ProcessIdBuffer where
  bytes : List UInt8
  whole : bytes.length = maxRrpcProcessIdLen + 1
  terminated : bytes[maxRrpcProcessIdLen]? = some 0
  deriving DecidableEq, Repr

/-- The buffer as it is initialised. -/
def ProcessIdBuffer.zero : ProcessIdBuffer :=
  ⟨List.replicate (maxRrpcProcessIdLen + 1) 0, rfl, rfl⟩

/-- `strncpy` of at most `MAX_RRPC_PROCESS_ID_LEN` bytes, and the NUL stored behind them. -/
def ProcessIdBuffer.store (buffer : ProcessIdBuffer) (copy : List UInt8)
    (fits : copy.length ≤ maxRrpcProcessIdLen) : ProcessIdBuffer where
  bytes := copy ++ 0 :: buffer.bytes.drop (copy.length + 1)
  whole := by
    rw [List.length_append, List.length_cons, List.length_drop, buffer.whole]
    omega
  terminated := by
    rw [List.getElem?_append_right fits]
    cases behind : maxRrpcProcessIdLen - copy.length with
    | zero => rfl
    | succ n =>
      rw [List.getElem?_cons_succ, List.getElem?_drop,
        show copy.length + 1 + n = maxRrpcProcessIdLen by omega]
      exact buffer.terminated

/-- The buffer as `%s` prints it. -/
def ProcessIdBuffer.text (buffer : ProcessIdBuffer) : List UInt8 := cString buffer.bytes

/-- A client on which `IOT_RRPC_Init` has succeeded: its device, and the callback of the
    application. -/
structure Client where
  deviceInfo : DeviceInfo
  callback : Option FnPtr
  deriving DecidableEq, Repr

/-- A call of the callback. -/
structure Invocation where
  callback : FnPtr
  msg : List UInt8
  deriving DecidableEq, Repr

/-- What is handed to `IOT_MQTT_Publish`; the QoS is 0. -/
structure Publication where
  topic : List UInt8
  payload : List UInt8
  deriving DecidableEq, Repr

/-! ## Requests -/

/-- The topic filter of `IOT_RRPC_Init` (`rrpc_client.c:141-143`). -/
def Client.rrpcTopic (client : Client) : CStr :=
  textOf ((client.deviceInfo.topicFront rxd ++ ascii ['+']).take (maxSizeOfCloudTopic - 1))

/-- The entry of the subscription in the table of the client. -/
def Client.subHandle (client : Client) : SubTopicHandle :=
  { SubTopicHandle.zero with topicFilter := some ⟨0, client.rrpcTopic⟩ }

/-- `_rrpc_get_process_id` (`rrpc_client.c:57-78`) on the array `topic`, with
    `MAX_RRPC_PROCESS_ID_LEN` for the size of the buffer. `strrchr` needs a NUL in the array. -/
def rrpcGetProcessId (buffer : ProcessIdBuffer) (topic : List UInt8) (topicLen : Nat) :
    Except Fault (Int × ProcessIdBuffer) :=
  if 0 ∉ topic then .error .outOfBounds
  else
    match strrchr slash (cString topic) with
    | none => .ok (qcloudErrInval, buffer)
    | some ch =>
      let p := ch + 1
      -- a difference below zero is a large `size_t`
      if topicLen < p then .ok (qcloudErrFailure, buffer)
      else if fits : topicLen - p ≤ maxRrpcProcessIdLen then
        .ok (qcloudRetSuccess, buffer.store (strncpy (topicLen - p) (textOf (topic.drop p)))
          (by rw [strncpy_length]; exact fits))
      else .ok (qcloudErrFailure, buffer)

/-- `_rrpc_message_cb` (`rrpc_client.c:80-97`): what the callback is called with, and the buffer. -/
def Client.rrpcMessageCb (client : Client) (buffer : ProcessIdBuffer) (topic : List UInt8)
    (topicLen : Nat) (payload : List UInt8) :
    Except Fault (Option Invocation × ProcessIdBuffer) := do
  let (rc, buffer) ← rrpcGetProcessId buffer topic topicLen
  if rc ≠ qcloudRetSuccess then
    return (none, buffer)
  else
    return (client.callback.map (Invocation.mk · payload), buffer)

/-- A message arrives on the client: `_handle_publish_packet` copies its topic, and
    `_deliver_message` compares the copy with the filter. -/
def Client.deliver (client : Client) (buffer : ProcessIdBuffer) (topic payload : List UInt8) :
    Except Fault (Option Invocation × ProcessIdBuffer) :=
  let (fixTopic, topicLen) := fixTopic topic 0 topic.length
  if handleMatches fixTopic topicLen client.subHandle then
    client.rrpcMessageCb buffer fixTopic topicLen payload
  else .ok (none, buffer)

/-! ## Replies -/

/-- `_publish_rrpc_to_cloud` (`rrpc_client.c:31-55`); `published` is what `IOT_MQTT_Publish`
    returns. -/
def Client.publishRrpcToCloud (client : Client) (processId : List UInt8) (jsonDoc : CStr)
    (published : Int) : Int × Option Publication :=
  let topic := client.deviceInfo.topicFront txd ++ processId
  if topic.length > maxSizeOfCloudTopic - 1 then (qcloudErrFailure, none)
  else (published, some ⟨topic, jsonDoc.bytes⟩)

/-- `IOT_RRPC_Reply` (`rrpc_client.c:168-178`) -/
def Client.reply (client : Client) (buffer : ProcessIdBuffer) (jsonDoc : CStr) (published : Int) :
    Int × Option Publication :=
  let (rc, publication) := client.publishRrpcToCloud buffer.text jsonDoc published
  if rc < 0 then (qcloudErrRrpcReplyErr, publication) else (qcloudRetSuccess, publication)

end QcloudIot.Rrpc
