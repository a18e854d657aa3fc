import QcloudIot.Ota.Client
import QcloudIot.Shadow.Manager

/-!
# The gateway client

The data of `gateway_common.h`. A session is known by its allocation, for the calls keep pointers
to it; a list is that of its nodes, in the order of their pointers.
-/

namespace QcloudIot.Gateway

open Mqtt (CStr)
open Ota (utf8)

abbrev gatewayPayloadBufferLen : Nat := 1024
abbrev gatewayReceiveBufferLen : Nat := 1024
abbrev gatewayLoopMaxCount : Nat := 100

abbrev maxSizeOfClientId : Nat := 80
abbrev maxSizeOfProductId : Nat := 10
abbrev maxSizeOfDeviceName : Nat := 48

/-! ## Sessions -/

/-- `SubdevSessionStatus`. -/
inductive SessionStatus where
  | init
  | online
  | offline
  deriving DecidableEq, Repr

/-- `SubdevSession`, and which allocation it is. -/
structure SubdevSession where
  ref : Nat
  productId : CStr
  deviceName : CStr
  sessionStatus : SessionStatus
  deriving DecidableEq, Repr

/-! ## Bound devices -/

/-- `SubdevBindInfo` (`qcloud_iot_export_gateway.h:187-191`). -/
structure SubdevBindInfo where
  productId : CStr
  deviceName : CStr
  productIdFits : productId.length ≤ maxSizeOfProductId
  deviceNameFits : deviceName.length ≤ maxSizeOfDeviceName
  deriving DecidableEq, Repr

/-- `SubdevBindList`. -/
structure SubdevBindList where
  bindlistHead : List SubdevBindInfo
  bindNum : Int
  deriving DecidableEq, Repr

/-! ## Replies -/

/-- The operations on a device that are answered by a result. -/
inductive Operation where
  | online
  | offline
  | bind
  | unbind
  deriving DecidableEq, Repr

/-- `GATEWAY_ONLINE_OP_STR`, `GATEWAY_OFFLIN_OP_STR`, `GATEWAY_BIND_OP_STR`,
    `GATEWAY_UNBIND_OP_STR`. -/
def Operation.text : Operation → List UInt8
  | .online => utf8 "online"
  | .offline => utf8 "offline"
  | .bind => utf8 "bind"
  | .unbind => utf8 "unbind"

/-- `ReplyData`: the array `client_id` is known by its string. -/
structure ReplyData where
  result : Int
  clientId : CStr
  deriving DecidableEq, Repr

/-- `GatewayData` without the status of subscriptions. -/
structure GatewayData where
  online : ReplyData
  offline : ReplyData
  bind : ReplyData
  unbind : ReplyData
  getBindlist : ReplyData
  deriving DecidableEq, Repr

/-- The reply data of an operation. -/
def GatewayData.reply (data : GatewayData) : Operation → ReplyData
  | .online => data.online
  | .offline => data.offline
  | .bind => data.bind
  | .unbind => data.unbind

/-- The reply data of an operation are changed. -/
def GatewayData.setReply (data : GatewayData) (reply : ReplyData) : Operation → GatewayData
  | .online => { data with online := reply }
  | .offline => { data with offline := reply }
  | .bind => { data with bind := reply }
  | .unbind => { data with unbind := reply }

@[simp] theorem GatewayData.reply_setReply (data : GatewayData) (reply : ReplyData)
    (op : Operation) : (data.setReply reply op).reply op = reply := by
  cases op <;> rfl

theorem GatewayData.reply_setReply_ne {data : GatewayData} {reply : ReplyData}
    {op other : Operation} (different : other ≠ op) :
    (data.setReply reply op).reply other = data.reply other := by
  cases op <;> cases other <;> first | rfl | exact absurd rfl different

@[simp] theorem GatewayData.setReply_self (data : GatewayData) (op : Operation) :
    data.setReply (data.reply op) op = data := by
  cases op <;> rfl

@[simp] theorem GatewayData.getBindlist_setReply (data : GatewayData) (reply : ReplyData)
    (op : Operation) : (data.setReply reply op).getBindlist = data.getBindlist := by
  cases op <;> rfl

/-- What the client does to the outside. -/
inductive Event where
  | published (payload : List UInt8)
  | unbindAll
  | search (status : Int)
  deriving DecidableEq, Repr

/-- `Gateway`. Allocations are numbered by `allocated`. -/
structure Gateway where
  sessionList : List SubdevSession
  bindList : SubdevBindList
  gatewayData : GatewayData
  allocated : Nat
  history : List Event
  deriving DecidableEq, Repr

/-- `strncmp(a, b, n) == 0`. -/
def strncmpEq (a b : CStr) (n : Nat) : Bool := a.bytes.take n = b.bytes.take n

theorem noNul_slash : (0 : UInt8) ∉ utf8 "/" := by with_unfolding_all decide

/-- `GATEWAY_CLIENT_ID_FMT`. -/
def clientIdText (productId deviceName : CStr) : CStr where
  bytes := productId.bytes ++ utf8 "/" ++ deviceName.bytes
  noNul := by
    rw [List.mem_append, List.mem_append]
    rintro ((inId | inSlash) | inName)
    · exact productId.noNul inId
    · exact noNul_slash inSlash
    · exact deviceName.noNul inName

theorem bytes_clientIdText (productId deviceName : CStr) :
    (clientIdText productId deviceName).bytes = productId.bytes ++ 47 :: deviceName.bytes := by
  have slash : utf8 "/" = [47] := by with_unfolding_all decide
  change productId.bytes ++ utf8 "/" ++ deviceName.bytes = _
  rw [slash, List.append_assoc, List.singleton_append]

/-- The string up to its first `n` bytes. -/
def cut (s : CStr) (n : Nat) : CStr where
  bytes := s.bytes.take n
  noNul := fun mem => s.noNul (List.mem_of_mem_take mem)

@[simp] theorem bytes_cut (s : CStr) (n : Nat) : (cut s n).bytes = s.bytes.take n := rfl

theorem cut_of_le {s : CStr} {n : Nat} (short : s.length ≤ n) : cut s n = s :=
  CStr.ext_bytes (List.take_of_length_le short)

end QcloudIot.Gateway
