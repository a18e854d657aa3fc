import QcloudIot.Misc.Prog

/-!
# Data model of the MQTT client

The constants, enumerations and records of `sdk_src/internal_inc/mqtt_client.h`,
`include/exports/qcloud_iot_export_mqtt.h` and `include/exports/qcloud_iot_export_error.h`
that the modelled functions use.

A `char *` owned by the SDK is a `StoredFilter`: the identity `HAL_Malloc` gave it together
with the text copied into it. Function pointers and user contexts are opaque numbers, a
`NULL` pointer is `none`. `write_buf_size` and `read_buf_size` are the lengths of the two
arrays, which is what `qcloud_iot_mqtt_init` sets them to.
-/

namespace QcloudIot.Mqtt

/-! ## Constants -/

abbrev maxPacketId : UInt16 := 65535
abbrev maxMessageHandlers : Nat := 10
abbrev maxRepubNum : Nat := 20
/-- `MAX_SIZE_OF_CLOUD_TOPIC`: `MAX_SIZE_OF_DEVICE_NAME + MAX_SIZE_OF_PRODUCT_ID + 64 + 6`. -/
abbrev maxSizeOfCloudTopic : Nat := 48 + 10 + 64 + 6
abbrev mqttMaxRepeatBufLen : Nat := 10

instance : NeZero mqttMaxRepeatBufLen := ⟨by decide⟩

abbrev qcloudIotMqttTxBufLen : Nat := 2048
abbrev qcloudIotMqttRxBufLen : Nat := 2048
abbrev minCommandTimeout : Nat := 500
abbrev maxCommandTimeout : Nat := 20000
abbrev maxReconnectWaitInterval : Nat := 60 * 1000
abbrev maxNoOfRemainingLengthBytes : Nat := 4
abbrev mqttPingRetryTimes : Nat := 2

/-! ## Return codes (`qcloud_iot_export_error.h`) -/

abbrev qcloudRetMqttAlreadyConnected : Int := 4
abbrev qcloudRetMqttConnackConnectionAccepted : Int := 3
abbrev qcloudRetMqttManuallyDisconnected : Int := 2
abbrev qcloudRetMqttReconnected : Int := 1
abbrev qcloudRetSuccess : Int := 0
abbrev qcloudErrFailure : Int := -1001
abbrev qcloudErrInval : Int := -1002
abbrev qcloudErrMalloc : Int := -1004
abbrev qcloudErrMqttNoConn : Int := -103
abbrev qcloudErrMqttUnknown : Int := -104
abbrev qcloudErrMqttAttemptingReconnect : Int := -105
abbrev qcloudErrMqttReconnectTimeout : Int := -106
abbrev qcloudErrMqttMaxSubscriptions : Int := -107
abbrev qcloudErrMqttSub : Int := -108
abbrev qcloudErrMqttNothingToRead : Int := -109
abbrev qcloudErrMqttPacketRead : Int := -110
abbrev qcloudErrMqttRequestTimeout : Int := -111
abbrev qcloudErrMqttConnackUnknown : Int := -112
abbrev qcloudErrMqttConnackUnacceptableProtocolVersion : Int := -113
abbrev qcloudErrMqttConnackIdentifierRejected : Int := -114
abbrev qcloudErrMqttConnackServerUnavailable : Int := -115
abbrev qcloudErrMqttConnackBadUserdata : Int := -116
abbrev qcloudErrMqttConnackNotAuthorized : Int := -117
abbrev qcloudErrRxMessageInval : Int := -118
abbrev qcloudErrBufTooShort : Int := -119
abbrev qcloudErrMqttQosNotSupport : Int := -120
abbrev qcloudErrMqttUnsubFail : Int := -121
abbrev qcloudErrMaxTopicLength : Int := -138
abbrev qcloudErrTcpConnect : Int := -603
abbrev qcloudErrTcpReadTimeout : Int := -604
abbrev qcloudErrTcpWriteTimeout : Int := -605
abbrev qcloudErrTcpReadFail : Int := -606
abbrev qcloudErrTcpWriteFail : Int := -607
abbrev qcloudErrTcpPeerShutdown : Int := -608
abbrev qcloudErrTcpNothingToRead : Int := -609
abbrev qcloudErrSslReadTimeout : Int := -707
abbrev qcloudErrSslRead : Int := -708
abbrev qcloudErrSslNothingToRead : Int := -709

/-! ## Enumerations -/

/-- `enum _QoS`. -/
inductive QoS where
  | qos0
  | qos1
  | qos2
  deriving DecidableEq, Repr

/-- The value of the enumerator, as it is put into a packet. -/
def QoS.code : QoS → UInt8
  | .qos0 => 0
  | .qos1 => 1
  | .qos2 => 2

/-- `enum msgTypes`. -/
inductive MessageType where
  | reserved
  | connect
  | connack
  | publish
  | puback
  | pubrec
  | pubrel
  | pubcomp
  | subscribe
  | suback
  | unsubscribe
  | unsuback
  | pingreq
  | pingresp
  | disconnect
  deriving DecidableEq, Repr

/-- The value of the enumerator, as it stands in the upper half of a fixed header. -/
def MessageType.code : MessageType → UInt8
  | .reserved => 0
  | .connect => 1
  | .connack => 2
  | .publish => 3
  | .puback => 4
  | .pubrec => 5
  | .pubrel => 6
  | .pubcomp => 7
  | .subscribe => 8
  | .suback => 9
  | .unsubscribe => 10
  | .unsuback => 11
  | .pingreq => 12
  | .pingresp => 13
  | .disconnect => 14

/-- `MQTTEventType`. -/
inductive MqttEventType where
  | undef
  | disconnect
  | reconnect
  | subcribeSuccess
  | subcribeTimeout
  | subcribeNack
  | unsubcribeSuccess
  | unsubcribeTimeout
  | unsubcribeNack
  | publishSuccess
  | publishTimeout
  | publishNack
  | publishRecveived
  | clientDestroy
  | unsubscribe
  deriving DecidableEq, Repr

/-- `MQTTNodeState`. -/
inductive MqttNodeState where
  | normanl
  | invalid
  deriving DecidableEq, Repr

/-! ## Strings and pointers -/

/-- A C string: the bytes before the terminating NUL. -/
structure CStr where
  bytes : List UInt8
  noNul : 0 ∉ bytes
  deriving DecidableEq, Repr

theorem CStr.ext_bytes {a b : CStr} (h : a.bytes = b.bytes) : a = b := by
  cases a; cases b; simpa using h

@[simp] theorem CStr.bytes_inj {a b : CStr} : a.bytes = b.bytes ↔ a = b :=
  ⟨CStr.ext_bytes, fun h => h ▸ rfl⟩

/-! Short texts without a zero byte. -/

theorem CStr.noNul_nil : (0 : UInt8) ∉ ([] : List UInt8) := List.not_mem_nil

theorem CStr.noNul_upperA : (0 : UInt8) ∉ [65] := by decide

theorem CStr.noNul_a : (0 : UInt8) ∉ [97] := by decide

theorem CStr.noNul_d : (0 : UInt8) ∉ [100] := by decide

theorem CStr.noNul_p : (0 : UInt8) ∉ [112] := by decide

/-- `strlen`. -/
def CStr.length (s : CStr) : Nat := s.bytes.length

/-- `strstr(haystack, needle) != NULL`. -/
def CStr.strstr (haystack : CStr) (needle : List UInt8) : Bool :=
  haystack.bytes.tails.any fun tail => needle.isPrefixOf tail

abbrev FnPtr := Nat
abbrev Ptr := Nat

/-- A string the SDK allocated for a topic filter: the identity of the allocation and the
    text that was copied into it. -/
structure StoredFilter where
  ident : Nat
  text : CStr
  deriving DecidableEq, Repr

/-! ## Records -/

/-- `struct Timer`: the instant, in microseconds, at which it runs out. -/
structure Timer where
  endTime : Nat
  deriving DecidableEq, Repr

/-- `SubTopicHandle`. -/
structure SubTopicHandle where
  topicFilter : Option StoredFilter
  messageHandler : Option FnPtr
  subEventHandler : Option FnPtr
  handlerUserData : Ptr
  qos : QoS
  deriving DecidableEq, Repr

/-- The all-zero `SubTopicHandle` of `memset` and of `qcloud_iot_mqtt_init`. -/
def SubTopicHandle.zero : SubTopicHandle where
  topicFilter := none
  messageHandler := none
  subEventHandler := none
  handlerUserData := 0
  qos := .qos0

/-- `QcloudIotPubInfo`. -/
structure PubInfo where
  pubStartTime : Timer
  nodeState : MqttNodeState
  msgId : UInt16
  len : Nat
  buf : List UInt8
  deriving DecidableEq, Repr

/-- `QcloudIotSubInfo`. -/
structure SubInfo where
  type : MessageType
  msgId : UInt16
  subStartTime : Timer
  nodeState : MqttNodeState
  handler : SubTopicHandle
  len : Nat
  buf : List UInt8
  deriving DecidableEq, Repr

/-- `MQTTMessage` as filled in by the parser: the payload is the slice of `read_buf` that
    starts at offset `payload`, its length a `size_t`. -/
structure MqttMessage where
  qos : UInt8
  retained : UInt8
  dup : UInt8
  id : UInt16
  ptopic : List UInt8
  topicLen : Nat
  payload : Nat
  payloadLen : Nat
  deriving DecidableEq, Repr

/-- `PublishParams`, the fields a publish call reads. -/
structure PublishParams where
  qos : QoS
  retained : UInt8
  id : UInt16
  payload : List UInt8
  deriving DecidableEq, Repr

/-- `SubscribeParams`. -/
structure SubscribeParams where
  qos : QoS
  onMessageHandler : Option FnPtr
  onSubEventHandler : Option FnPtr
  userData : Ptr
  deriving DecidableEq, Repr

/-- `MQTTConnectParams`, the fields a connected client reads. -/
structure ConnectParams where
  clientId : CStr
  mqttVersion : UInt8
  keepAliveInterval : UInt16
  cleanSession : UInt8
  autoConnectEnable : UInt8
  deriving DecidableEq, Repr

/-- `Qcloud_IoT_Client`. `eventHandle` is the callback `event_handle.h_fp`. -/
structure Client where
  isConnected : Bool
  wasManuallyDisconnected : Bool
  isPingOutstanding : Nat
  nextPacketId : UInt16
  commandTimeoutMs : Nat
  currentReconnectWaitInterval : Nat
  counterNetworkDisconnected : Nat
  writeBuf : List UInt8
  readBuf : List UInt8
  listPubWaitAck : List PubInfo
  listSubWaitAck : List SubInfo
  eventHandle : Option FnPtr
  options : ConnectParams
  pingTimer : Timer
  reconnectDelayTimer : Timer
  subHandles : Fin maxMessageHandlers → SubTopicHandle
  repeatPacketIdBuf : Fin mqttMaxRepeatBufLen → UInt16
  currentPacketIdCnt : Fin mqttMaxRepeatBufLen

/-- `write_buf_size`. -/
def Client.writeBufSize (c : Client) : Nat := c.writeBuf.length

/-- `read_buf_size`. -/
def Client.readBufSize (c : Client) : Nat := c.readBuf.length

/-! ## A new client -/

/-- `MQTTInitParams`, the fields a client without a transport of its own reads. -/
structure MqttInitParams where
  clientId : CStr
  commandTimeout : Nat
  keepAliveIntervalMs : Nat
  cleanSession : UInt8
  autoConnectEnable : UInt8
  eventHandle : Option FnPtr
  deriving DecidableEq, Repr

/-- The parameters with which `IOT_MQTT_Construct` connects (`mqtt_client.c:80-85`). -/
def MqttInitParams.connectParams (params : MqttInitParams) : ConnectParams where
  clientId := params.clientId
  mqttVersion := 4
  keepAliveInterval := UInt16.ofNat (min (params.keepAliveIntervalMs / 1000) 690)
  cleanSession := params.cleanSession
  autoConnectEnable := params.autoConnectEnable

/-- `qcloud_iot_mqtt_init` (`mqtt_client.c:355-503`) with the value of `rand()` it gets. -/
def qcloudIotMqttInit (params : MqttInitParams) (random : Nat) : Client where
  isConnected := false
  wasManuallyDisconnected := false
  isPingOutstanding := 0
  -- random from [1 - 65536], cut to 16 bits
  nextPacketId := UInt16.ofNat (random % 65536 + 1)
  commandTimeoutMs := min (max params.commandTimeout minCommandTimeout) maxCommandTimeout
  currentReconnectWaitInterval := 0
  counterNetworkDisconnected := 0
  writeBuf := List.replicate qcloudIotMqttTxBufLen 0
  readBuf := List.replicate qcloudIotMqttRxBufLen 0
  listPubWaitAck := []
  listSubWaitAck := []
  eventHandle := params.eventHandle
  options := { clientId := ⟨[], by simp⟩, mqttVersion := 0, keepAliveInterval := 0,
               cleanSession := 0, autoConnectEnable := 0 }
  pingTimer := ⟨0⟩
  reconnectDelayTimer := ⟨0⟩
  subHandles := fun _ => .zero
  repeatPacketIdBuf := fun _ => 0
  currentPacketIdCnt := 0

@[simp] theorem qcloudIotMqttInit_writeBufSize (params : MqttInitParams) (random : Nat) :
    (qcloudIotMqttInit params random).writeBufSize = 2048 := by
  simp [Client.writeBufSize, qcloudIotMqttInit]

end QcloudIot.Mqtt
