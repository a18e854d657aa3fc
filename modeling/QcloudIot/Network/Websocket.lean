import QcloudIot.Misc.Run
import QcloudIot.Mqtt.Types
import QcloudIot.Utils.RingBuff

/-!
# MQTT over websocket

`network_websocket_mqtt_read` of `network_socket.c` with the callbacks that it hands to the
websocket client. What `wslay_event_recv` does in a call (the messages that are complete, the errors
reported, the value returned) is decided outside.
-/

namespace QcloudIot.Network

open QcloudIot.Utils
open QcloudIot.Mqtt (qcloudRetSuccess qcloudErrFailure qcloudErrTcpReadFail
  qcloudErrTcpNothingToRead)

/-- `QCLOUD_IOT_MQTT_RX_BUF_LEN` (`qcloud_iot_export_variables.h:34`). -/
abbrev qcloudIotMqttRxBufLen : Nat := 2048

/-- `QcloudWebsocketMqtt` (`network_socket.c:141-146`). `received` records the payloads of the
    messages received so far, one behind the other. -/
structure WebsocketMqtt where
  recvRingBuff : RingBuff
  disconnected : Bool
  received : List UInt8

/-- One call of `Utils_WSClient_recv`. -/
structure WsRecv where
  /-- `wslay_event_get_close_received` -/
  closeReceived : Bool
  /-- the messages that are complete, in order -/
  msgs : List (List UInt8)
  /-- `recv_data_err` or `send_data_err` is called -/
  dataErr : Bool
  /-- the value returned by `wslay_event_recv` -/
  ret : Int

namespace WebsocketMqtt

/-- `network_websocket_mqtt_connect` (`network_socket.c:180-214`). -/
def connected : WebsocketMqtt := ⟨.init qcloudIotMqttRxBufLen (by decide), false, []⟩

/-- `_websocket_mqtt_recv_msg_callback` (`network_socket.c:164-172`): the code of the push is only
    logged. -/
def recvMsgCallback (wsMqtt : WebsocketMqtt) (data : List UInt8) (datalen : Int) :
    WebsocketMqtt :=
  { wsMqtt with recvRingBuff := (wsMqtt.recvRingBuff.ringBuffPushData data datalen).2 }

/-- `_websocket_on_msg_recv_callback` (`utils_websocket_client.c:150-164`). -/
def onMsgRecvCallback (wsMqtt : WebsocketMqtt) (msg : List UInt8) : WebsocketMqtt :=
  let called := if msg.length ≤ 0 then wsMqtt else wsMqtt.recvMsgCallback msg (toInt msg.length)
  { called with received := wsMqtt.received ++ msg }

/-- `_websocket_mqtt_recv_data_error` and `_websocket_mqtt_send_data_error`
    (`network_socket.c:148-162`). -/
def dataError (wsMqtt : WebsocketMqtt) : WebsocketMqtt := { wsMqtt with disconnected := true }

/-- `Utils_WSClient_recv` (`utils_websocket_client.c:314-328`). -/
def utilsWsClientRecv (wsMqtt : WebsocketMqtt) (recv : WsRecv) : Int × WebsocketMqtt :=
  if recv.closeReceived then (qcloudErrFailure, wsMqtt.dataError)
  else
    let wsMqtt := recv.msgs.foldl onMsgRecvCallback wsMqtt
    (recv.ret, if recv.dataErr then wsMqtt.dataError else wsMqtt)

end WebsocketMqtt

/-- Bytes are written from an address on. -/
def writeBytes (data : Int → UInt8) (address : Int) : List UInt8 → Int → UInt8
  | [] => data
  | byte :: rest => writeBytes (Function.update data address byte) (address + 1) rest

/-- The first `n` bytes of a buffer. -/
def readBytes (data : Int → UInt8) (n : Nat) : List UInt8 :=
  (List.range n).map fun i : Nat => data i

namespace WebsocketMqtt

/-- The loop of `network_websocket_mqtt_read` (`network_socket.c:228-250`): the code, the bytes
    around `data`, and the connection. `recv` answers the next call of `Utils_WSClient_recv`, `later`
    the ones that follow until the timer has expired. The total is an int, and the length that is
    left is computed as a size_t. -/
def readLoop (datalen : Nat) : WebsocketMqtt → (Int → UInt8) → Int → WsRecv → List WsRecv →
    Int × (Int → UInt8) × WebsocketMqtt
  | wsMqtt, data, readTotalLen, recv, later =>
    let popped := wsMqtt.recvRingBuff.ringBuffPopData (toInt ((datalen - readTotalLen) % 2 ^ 64))
    let data := writeBytes data readTotalLen popped.2.1
    let wsMqtt := { wsMqtt with recvRingBuff := popped.2.2 }
    let readTotalLen := readTotalLen + popped.1
    if datalen = readTotalLen % 2 ^ 64 then (qcloudRetSuccess, data, wsMqtt)
    else
      let received := wsMqtt.utilsWsClientRecv recv
      if received.1 ≠ qcloudRetSuccess then (qcloudErrTcpReadFail, data, received.2)
      else
        match later with
        | [] =>
          (if received.2.disconnected then qcloudErrTcpReadFail else qcloudErrTcpNothingToRead,
            data, received.2)
        | next :: rest => readLoop datalen received.2 data readTotalLen next rest
  termination_by structural _ _ _ _ later => later

/-- `network_websocket_mqtt_read` (`network_socket.c:216-256`). -/
def networkWebsocketMqttRead (wsMqtt : WebsocketMqtt) (data : Int → UInt8) (datalen : Nat)
    (recv : WsRecv) (later : List WsRecv) : Int × (Int → UInt8) × WebsocketMqtt :=
  readLoop datalen wsMqtt data 0 recv later

end WebsocketMqtt

/-! ## Runs -/

/-- What happens on a connection: a read, or an error while something is sent. -/
inductive WsCall where
  | read (data : Int → UInt8) (datalen : Nat) (recv : WsRecv) (later : List WsRecv)
  | sendDataErr

/-- A connection, the bytes that its successful reads have returned, and whether a read has failed
    with `QCLOUD_ERR_TCP_READ_FAIL`. -/
structure Connection where
  wsMqtt : WebsocketMqtt
  returned : List UInt8
  failed : Bool

namespace Connection

def call (c : Connection) : WsCall → Connection
  | .read data datalen recv later =>
    let read := c.wsMqtt.networkWebsocketMqttRead data datalen recv later
    { wsMqtt := read.2.2
      returned := c.returned ++
        if read.1 = qcloudRetSuccess then readBytes read.2.1 datalen else []
      failed := c.failed || decide (read.1 = qcloudErrTcpReadFail) }
  | .sendDataErr => { c with wsMqtt := c.wsMqtt.dataError }

/-- A new connection. -/
def initial : Connection := ⟨.connected, [], false⟩

/-- The stream is kept: what the reads have returned is a prefix of what was received, and the rest
    is stored, unless a read has failed. -/
def Stream (c : Connection) : Prop :=
  c.failed ∨ c.returned ++ c.wsMqtt.recvRingBuff.contents = c.wsMqtt.received

end Connection

/-- The machine of the calls on a connection. -/
def connection : Machine Connection WsCall := ⟨Connection.call⟩

/-! ## The condition -/

/-- The payload of the messages received. -/
def WsRecv.bytes (recv : WsRecv) : List UInt8 :=
  if recv.closeReceived then [] else recv.msgs.flatten

/-- `Utils_WSClient_recv` reports a failure. -/
def WsRecv.Fails (recv : WsRecv) : Prop := recv.closeReceived ∨ recv.ret ≠ qcloudRetSuccess

/-- A read that fits the ring: `available` bytes have been received since it started or stood in
    the ring. Unless they are enough the ring is empty, and the next messages have to fit it; when
    the timer expires, nothing may have been taken. -/
def FitsRing (size datalen available : Nat) (disconnected : Bool) (recv : WsRecv) :
    List WsRecv → Prop
  | [] => datalen ≤ available ∨ recv.Fails ∨
      (recv.bytes.length ≤ size - 1 ∧ (available = 0 ∨ disconnected ∨ recv.dataErr))
  | next :: rest => datalen ≤ available ∨ recv.Fails ∨
      (recv.bytes.length ≤ size - 1 ∧
        FitsRing size datalen (available + recv.bytes.length) (disconnected || recv.dataErr)
          next rest)

/-- A read longer than the ring takes nothing: the messages have to fit beside what is stored. -/
def FitsBeside (size stored : Nat) (recv : WsRecv) : List WsRecv → Prop
  | [] => recv.Fails ∨ stored + recv.bytes.length ≤ size - 1
  | next :: rest => recv.Fails ∨
      (stored + recv.bytes.length ≤ size - 1 ∧
        FitsBeside size (stored + recv.bytes.length) next rest)

/-- The calls that keep the stream. Once a read has failed there is nothing to keep. -/
def Keeps (c : Connection) : WsCall → Prop
  | .read _ datalen recv later =>
    c.failed ∨
      if datalen ≤ c.wsMqtt.recvRingBuff.size then
        FitsRing c.wsMqtt.recvRingBuff.size datalen c.wsMqtt.recvRingBuff.contents.length
          c.wsMqtt.disconnected recv later
      else
        datalen + 5 * (later.length + 1) < 2 ^ 32 ∧
          FitsBeside c.wsMqtt.recvRingBuff.size c.wsMqtt.recvRingBuff.contents.length recv later
  | .sendDataErr => True

instance (recv : WsRecv) : Decidable recv.Fails :=
  inferInstanceAs (Decidable (_ ∨ _))

instance decidableFitsRing (size datalen : Nat) :
    ∀ (available : Nat) (disconnected : Bool) (recv : WsRecv) (later : List WsRecv),
      Decidable (FitsRing size datalen available disconnected recv later)
  | available, disconnected, recv, [] =>
    inferInstanceAs (Decidable (datalen ≤ available ∨ recv.Fails ∨
      (recv.bytes.length ≤ size - 1 ∧ (available = 0 ∨ disconnected ∨ recv.dataErr))))
  | available, disconnected, recv, next :: rest =>
    have := decidableFitsRing size datalen (available + recv.bytes.length)
      (disconnected || recv.dataErr) next rest
    inferInstanceAs (Decidable (datalen ≤ available ∨ recv.Fails ∨
      (recv.bytes.length ≤ size - 1 ∧ FitsRing size datalen (available + recv.bytes.length)
        (disconnected || recv.dataErr) next rest)))

instance decidableFitsBeside (size : Nat) :
    ∀ (stored : Nat) (recv : WsRecv) (later : List WsRecv),
      Decidable (FitsBeside size stored recv later)
  | stored, recv, [] =>
    inferInstanceAs (Decidable (recv.Fails ∨ stored + recv.bytes.length ≤ size - 1))
  | stored, recv, next :: rest =>
    have := decidableFitsBeside size (stored + recv.bytes.length) next rest
    inferInstanceAs (Decidable (recv.Fails ∨ (stored + recv.bytes.length ≤ size - 1 ∧
      FitsBeside size (stored + recv.bytes.length) next rest)))

instance (c : Connection) : ∀ call, Decidable (Keeps c call)
  | .read _ _ _ _ => inferInstanceAs (Decidable (_ ∨ ite _ _ _))
  | .sendDataErr => .isTrue trivial

end QcloudIot.Network
