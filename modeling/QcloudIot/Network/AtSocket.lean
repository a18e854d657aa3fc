import QcloudIot.Misc.Run
import QcloudIot.Mqtt.Types
import QcloudIot.Utils.RingBuff

/-!
# Sockets of an AT module

`at_socket_inf.c`: the table of sockets, the callbacks that the driver of the module makes, and
the calls of the application. What the driver returns and which callbacks it makes meanwhile is
decided outside, as are the outcomes of the allocations.
-/

namespace QcloudIot.Network

open QcloudIot.Utils (toInt)
open QcloudIot.Mqtt (qcloudRetSuccess qcloudErrFailure qcloudErrInval qcloudErrTcpReadFail
  qcloudErrTcpPeerShutdown)

/-! ## The table -/

/-- `UNUSED_SOCKET` -/
abbrev unusedSocket : Int := -1

/-- `MAX_AT_SOCKET_NUM` -/
abbrev maxAtSocketNum : Nat := 5

/-- `AT_SOCKET_SEND_TIMEOUT_MS` and `AT_SOCKET_RECV_TIMEOUT_MS` -/
abbrev atSocketTimeoutMs : Nat := 1000

/-- `MAX_RECV_PKT_PER_CHAIN` -/
abbrev maxRecvPktPerChain : Nat := 10

/-- `eSocketState` -/
inductive SocketState where
  | alloced
  | connected
  | closed
  deriving DecidableEq, Repr

/-- The members of `eNetProto` that the table uses: the zero of a static array, and
    `eNET_DEFAULT`. -/
inductive NetProto where
  | zero
  | default
  deriving DecidableEq, Repr

/-- A buffer that the driver has allocated. -/
structure Block where
  ident : Nat
  bytes : List UInt8
  deriving DecidableEq, Repr

/-- `at_recv_pkt` -/
structure AtRecvPkt where
  bfszTotle : Nat
  bfszIndex : Nat
  buff : Block
  deriving DecidableEq, Repr

/-- The functions of `at_device_op_t` that may be missing. -/
structure AtDeviceOp where
  connect : Bool
  recvTimeout : Bool
  close : Bool
  deriving DecidableEq, Repr

/-- `at_socket_ctx_t`; a list or a lock that is `NULL` is absent. -/
structure AtSocketCtx where
  fd : Int
  recvpktList : Option (List AtRecvPkt)
  sendTimeoutMs : Nat
  recvTimeoutMs : Nat
  recvLock : Bool
  devOp : Option AtDeviceOp
  netType : NetProto
  state : SocketState
  deriving DecidableEq, Repr

/-- The static data of `at_socket_inf.c`. `released` lists the buffers given to `HAL_Free`, and
    `fault` says that a `NULL` pointer has been followed. -/
structure AtSockets where
  atSocketCtxs : Fin maxAtSocketNum → AtSocketCtx
  sgAtDeviceOps : Option AtDeviceOp
  released : List Nat
  fault : Bool

namespace AtSockets

/-- The entry of a socket is replaced. -/
def setCtx (s : AtSockets) (i : Fin maxAtSocketNum) (ctx : AtSocketCtx) : AtSockets :=
  { s with atSocketCtxs := Function.update s.atSocketCtxs i ctx }

/-- `at_socket_init` (`at_socket_inf.c:245-276`) on the zeroed table, with a driver that has been
    registered or not. -/
def atSocketInit (deviceOp : Option AtDeviceOp) : AtSockets where
  atSocketCtxs := fun _ =>
    { fd := unusedSocket
      recvpktList := none
      sendTimeoutMs := 0
      recvTimeoutMs := 0
      recvLock := false
      devOp := none
      netType := .zero
      state := .closed }
  sgAtDeviceOps := deviceOp
  released := []
  fault := false

end AtSockets

/-- `_at_socket_ctx_free` (`at_socket_inf.c:47-66`). `list_destroy` frees the records of the list,
    not the buffers that they point to. -/
def AtSocketCtx.atSocketCtxFree (ctx : AtSocketCtx) : AtSocketCtx :=
  { ctx with fd := unusedSocket, netType := .default, recvpktList := none, recvLock := false }

namespace AtSockets

variable (s : AtSockets)

/-- The first entry that is closed. -/
def firstClosed : Option (Fin maxAtSocketNum) :=
  (List.finRange maxAtSocketNum).find? fun i => decide ((s.atSocketCtxs i).state = .closed)

/-- `_at_socket_ctx_alloc` (`at_socket_inf.c:68-103`); `lock` and `list` tell whether they could be
    allocated. -/
def atSocketCtxAlloc (lock list : Bool) : Option (Fin maxAtSocketNum) × AtSockets :=
  match s.firstClosed with
  | none => (none, s)
  | some i =>
    let ctx := { s.atSocketCtxs i with
      netType := .default
      sendTimeoutMs := atSocketTimeoutMs
      recvTimeoutMs := atSocketTimeoutMs
      devOp := s.sgAtDeviceOps
      recvLock := lock }
    if !lock then (none, s.setCtx i ctx.atSocketCtxFree)
    else if !list then (none, s.setCtx i { ctx with recvpktList := none }.atSocketCtxFree)
    else (some i, s.setCtx i { ctx with recvpktList := some [], state := .alloced })

/-- `_at_socket_find` (`at_socket_inf.c:105-116`) -/
def atSocketFind (fd : Int) : Option (Fin maxAtSocketNum) :=
  (List.finRange maxAtSocketNum).find? fun i => decide ((s.atSocketCtxs i).fd = fd)

end AtSockets

/-! ## The receive list -/

/-- `_at_recvpkt_put` (`at_socket_inf.c:119-149`); `pkt` and `node` tell whether they could be
    allocated. -/
def atRecvpktPut (rlist : List AtRecvPkt) (buff : Block) (pkt node : Bool) :
    Int × List AtRecvPkt :=
  if rlist.length > maxRecvPktPerChain then (qcloudErrFailure, rlist)
  else if !pkt then (qcloudErrFailure, rlist)
  else if !node then (qcloudErrFailure, rlist)
  else (toInt buff.bytes.length, rlist ++ [⟨buff.bytes.length, 0, buff⟩])

/-- The loop of `_at_recvpkt_get`, with `want` for `len - readlen`: the bytes copied, the list
    left, and the buffers released. -/
def recvpktLoop : List AtRecvPkt → Nat → List UInt8 × List AtRecvPkt × List Nat
  | [], _ => ([], [], [])
  | pkt :: rest, want =>
    let pageLen := pkt.bfszTotle - pkt.bfszIndex
    if pageLen ≥ want then
      ((pkt.buff.bytes.drop pkt.bfszIndex).take want,
        { pkt with bfszIndex := pkt.bfszIndex + want } :: rest, [])
    else
      let (bytes, list, released) := recvpktLoop rest (want - pageLen)
      ((pkt.buff.bytes.drop pkt.bfszIndex).take pageLen ++ bytes, list,
        pkt.buff.ident :: released)

/-- `_at_recvpkt_get` (`at_socket_inf.c:152-197`): the return code as well; `iter` tells whether
    the iterator could be allocated. -/
def atRecvpktGet (pktList : List AtRecvPkt) (len : Nat) (iter : Bool) :
    Int × List UInt8 × List AtRecvPkt × List Nat :=
  if pktList.length = 0 then (0, [], pktList, [])
  else if !iter then (qcloudErrTcpReadFail, [], pktList, [])
  else
    let (bytes, list, released) := recvpktLoop pktList len
    (toInt bytes.length, bytes, list, released)

/-! ## The callbacks of the driver -/

/-- A callback that the driver makes. -/
inductive AtSocketEvt where
  | recv (fd : Int) (buff : Option Block) (pkt node : Bool)
  | closed (fd : Int)
  deriving DecidableEq, Repr

namespace AtSockets

/-- `_at_socket_recv_cb` (`at_socket_inf.c:199-213`) -/
def atSocketRecvCb (s : AtSockets) (fd : Int) (buff : Option Block) (pkt node : Bool) :
    AtSockets :=
  match buff with
  | none => s
  | some buff =>
    match s.atSocketFind (fd + maxAtSocketNum) with
    | none => { s with fault := true }
    | some i =>
      match (s.atSocketCtxs i).recvpktList with
      | none => { s with fault := true }
      | some rlist =>
        let (rc, rlist) := atRecvpktPut rlist buff pkt node
        let put := s.setCtx i { s.atSocketCtxs i with recvpktList := some rlist }
        if rc < 0 then { put with released := put.released ++ [buff.ident] } else put

/-- `_at_socket_closed_cb` (`at_socket_inf.c:215-226`) -/
def atSocketClosedCb (s : AtSockets) (fd : Int) : AtSockets :=
  match s.atSocketFind (fd + maxAtSocketNum) with
  | none => s
  | some i => s.setCtx i { s.atSocketCtxs i with state := .closed }.atSocketCtxFree

/-- One callback. -/
def handle (s : AtSockets) : AtSocketEvt → AtSockets
  | .recv fd buff pkt node => s.atSocketRecvCb fd buff pkt node
  | .closed fd => s.atSocketClosedCb fd

/-- The callbacks that the driver makes during one of its functions; none follow a fault. -/
def handleAll (s : AtSockets) : List AtSocketEvt → AtSockets
  | [] => s
  | event :: events => if s.fault then s else (s.handle event).handleAll events

/-! ## The calls of the application -/

/-- The first part of `at_socket_connect`: the entry that is going to be connected, and the table
    when the driver is called. -/
def connecting (s : AtSockets) (lock list : Bool) : Option (Fin maxAtSocketNum) × AtSockets :=
  match s.atSocketCtxAlloc lock list with
  | (none, s) => (none, s)
  | (some i, s) =>
    match (s.atSocketCtxs i).devOp with
    | none => (none, s)
    | some devOp => if !devOp.connect then (none, s) else (some i, s)

/-- `at_socket_connect` (`at_socket_inf.c:303-328`); the driver makes the callbacks `events` and
    returns `fd`. -/
def atSocketConnect (s : AtSockets) (lock list : Bool) (events : List AtSocketEvt) (fd : Int) :
    Int × AtSockets :=
  match s.connecting lock list with
  | (none, s) => (qcloudErrFailure, s)
  | (some i, s) =>
    let s := s.handleAll events
    if fd < 0 then
      let s := s.setCtx i (s.atSocketCtxs i).atSocketCtxFree
      ((s.atSocketCtxs i).fd, s)
    else
      let s := s.setCtx i
        { s.atSocketCtxs i with fd := fd + maxAtSocketNum, state := .connected }
      ((s.atSocketCtxs i).fd, s)

/-- `at_socket_close` (`at_socket_inf.c:330-346`); the driver makes the callbacks `events` and
    returns `closed`. -/
def atSocketClose (s : AtSockets) (fd : Int) (events : List AtSocketEvt) (closed : Int) :
    Int × AtSockets :=
  match s.atSocketFind fd with
  | none => (qcloudErrTcpPeerShutdown, s)
  | some i =>
    match (s.atSocketCtxs i).devOp with
    | none => (qcloudErrFailure, s)
    | some devOp =>
      if (s.atSocketCtxs i).state = .connected ∧ devOp.close = true then
        (closed, s.handleAll events)
      else (qcloudErrFailure, s)

/-- `at_socket_recv` (`at_socket_inf.c:365-395`): the return code and the bytes copied. If the list
    is empty the driver is called and makes the callbacks `events`; what it returns is only
    logged. -/
def atSocketRecv (s : AtSockets) (fd : Int) (len : Nat) (events : List AtSocketEvt)
    (iter : Bool) : Int × List UInt8 × AtSockets :=
  match s.atSocketFind fd with
  | none => (qcloudErrInval, [], s)
  | some i =>
    match (s.atSocketCtxs i).devOp with
    | none => (qcloudErrInval, [], s)
    | some devOp =>
      if !devOp.recvTimeout then (qcloudErrInval, [], s)
      else if (s.atSocketCtxs i).state ≠ .connected then (qcloudErrTcpReadFail, [], s)
      else
        match (s.atSocketCtxs i).recvpktList with
        | none => (qcloudErrTcpReadFail, [], { s with fault := true })
        | some queued =>
          let s := if queued.length = 0 then s.handleAll events else s
          match (s.atSocketCtxs i).recvpktList with
          | none => (qcloudErrTcpReadFail, [], { s with fault := true })
          | some pktList =>
            let (rc, bytes, pktList, released) := atRecvpktGet pktList len iter
            let s := s.setCtx i { s.atSocketCtxs i with recvpktList := some pktList }
            (rc, bytes, { s with released := s.released ++ released })

end AtSockets

end QcloudIot.Network
