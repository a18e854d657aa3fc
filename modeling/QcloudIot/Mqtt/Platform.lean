import QcloudIot.Mqtt.Types

/-!
# The client and its surroundings

The state every modelled function works on: the client record, the allocator, the network
connection, the clock, and what the surroundings will answer next. Each list in `Env` holds
the outcomes of one kind of platform call in the order in which they will be asked for; a
run is a statement about every such list. An exhausted list answers with the outcome named
at its primitive.

Callbacks are recorded in `trace` in the order in which they are made. They are taken not
to call back into the client.
-/

namespace QcloudIot.Mqtt

/-- The outcome of one `network_stack.write`: its return code, which every driver takes from
    `QCLOUD_RET_SUCCESS` and the negative error codes, and how many bytes went out
    (`HAL_TCP_Write`, `HAL_TCP_linux.c:131-202`, may succeed with fewer than asked for). -/
structure WriteOutcome where
  rc : Int
  written : Nat
  nonpos : rc ≤ 0 := by decide
  deriving DecidableEq, Repr

/-- The outcome of one `network_stack.read`: how many of the requested bytes arrive before
    the driver gives up, and the code it returns if that is not all of them
    (`HAL_TCP_Read`, `HAL_TCP_linux.c:204-274`). No driver returns the code
    `QCLOUD_ERR_MQTT_NOTHING_TO_READ` of the layer above it. -/
structure ReadOutcome where
  avail : Nat
  err : Int
  negative : err < 0 := by decide
  driver : err ≠ qcloudErrMqttNothingToRead := by decide
  deriving Repr

instance : DecidableEq ReadOutcome := fun a b =>
  decidable_of_iff (a.avail = b.avail ∧ a.err = b.err) (by cases a; cases b; simp)

theorem qcloudRetSuccess_nonpos : qcloudRetSuccess ≤ 0 := by decide

theorem qcloudErrTcpReadFail_negative : qcloudErrTcpReadFail < 0 := by decide

theorem qcloudErrTcpReadFail_driver : qcloudErrTcpReadFail ≠ qcloudErrMqttNothingToRead := by
  decide

/-- The outcome of one `network_stack.connect`: its return code and, when it succeeds, the
    bytes the peer will send on the new connection. -/
structure ConnectOutcome where
  rc : Int
  stream : List UInt8
  nonpos : rc ≤ 0 := by decide
  deriving DecidableEq, Repr

/-- What the surroundings will answer. `ticks` are the microseconds that pass before each
    reading of the clock, `randoms` the values of `rand()`, `credentials` the user name and
    password formatted for each CONNECT, `stack` the contents of the uninitialised locals. -/
structure Env where
  mallocs : List Bool
  ticks : List Nat
  writes : List WriteOutcome
  reads : List ReadOutcome
  connects : List ConnectOutcome
  randoms : List Nat
  credentials : List (CStr × Option CStr)
  stack : List SubTopicHandle

/-- The allocator: the identity the next allocation gets and the identities passed to
    `HAL_Free` so far. -/
structure Heap where
  next : Nat
  released : List Nat
  deriving DecidableEq, Repr

/-- The network connection: which connection this is, whether it is open, what the peer
    sends on it and how much of that was consumed, and the bytes transmitted on it. -/
structure Net where
  conn : Nat
  handle : Bool
  stream : List UInt8
  consumed : Nat
  tx : List UInt8
  deriving DecidableEq, Repr

/-- The bytes of the stream not yet consumed. -/
def Net.rx (n : Net) : List UInt8 := n.stream.drop n.consumed

/-- `MQTTEventMsg.msg`. -/
inductive EventMsg where
  | null
  | packetId (id : UInt16)
  | message (msg : MqttMessage)
  deriving DecidableEq, Repr

/-- A callback made by the client. -/
inductive Event where
  /-- `event_handle.h_fp(pClient, context, &msg)` -/
  | mqtt (type : MqttEventType) (msg : EventMsg)
  /-- `sub_event_handler(pClient, type, handler_user_data)` -/
  | sub (handler : FnPtr) (type : MqttEventType) (userData : Ptr)
  /-- `message_handler(pClient, message, handler_user_data)` -/
  | message (handler : FnPtr) (msg : MqttMessage) (userData : Ptr)
  /-- a call through a `NULL` function pointer -/
  | nullCall
  deriving DecidableEq, Repr

/-- The state of the client and of its surroundings. -/
structure World where
  client : Client
  heap : Heap
  net : Net
  clock : Nat
  env : Env
  trace : List Event

/-- The world around a client that has not made a platform call yet. -/
def World.initial (c : Client) (env : Env) : World where
  client := c
  heap := { next := 0, released := [] }
  net := { conn := 0, handle := false, stream := [], consumed := 0, tx := [] }
  clock := 0
  env := env
  trace := []

/-- Surroundings that answer every call with the outcome of an exhausted list. -/
def Env.exhausted : Env where
  mallocs := []
  ticks := []
  writes := []
  reads := []
  connects := []
  randoms := []
  credentials := []
  stack := []

/-- A function of the SDK. -/
abbrev Sdk := Prog World

section

variable {w : World}

/-! ## Client fields and callbacks -/

/-- `pClient->...`. -/
def client : Sdk Client := .prim fun w => (w.client, w)

@[simp] theorem wp_client {Q : Client → World → Prop} : client.wp Q w ↔ Q w.client w := ⟨id, id⟩

theorem client_within {R : World → World → Prop} [Std.Refl R] : Prog.Within R client :=
  .prim fun w => refl_of R w

/-- The world with another client record. -/
@[simps client heap net clock env trace]
def World.setClient (w : World) (c : Client) : World := { w with client := c }

/-- An assignment to fields of `*pClient`. -/
def setClient (f : Client → Client) : Sdk Unit := .change fun w => w.setClient (f w.client)

@[simp] theorem wp_setClient {Q : Unit → World → Prop} (f : Client → Client) :
    (setClient f).wp Q w ↔ Q () (w.setClient (f w.client)) := ⟨id, id⟩

/-- The world after some callbacks. -/
@[simps client heap net clock env trace]
def World.called (w : World) (events : List Event) : World := { w with trace := w.trace ++ events }

@[simp] theorem World.called_nil (w : World) : w.called [] = w := by simp [World.called]

/-- A callback is made. -/
def emit (e : Event) : Sdk Unit := .change fun w => w.called [e]

@[simp] theorem wp_emit {Q : Unit → World → Prop} (e : Event) :
    (emit e).wp Q w ↔ Q () (w.called [e]) := ⟨id, id⟩

/-- `if (NULL != pClient->event_handle.h_fp) h_fp(pClient, context, &msg)`. -/
def notify (type : MqttEventType) (msg : EventMsg) : Sdk Unit := do
  let c ← client
  if c.eventHandle ≠ none then emit (.mqtt type msg)

/-- The callbacks made by `notify`. -/
def Client.notifications (c : Client) (type : MqttEventType) (msg : EventMsg) : List Event :=
  if c.eventHandle = none then [] else [.mqtt type msg]

@[simp] theorem wp_notify {Q : Unit → World → Prop} (type : MqttEventType) (msg : EventMsg) :
    (notify type msg).wp Q w ↔ Q () (w.called (w.client.notifications type msg)) := by
  by_cases registered : w.client.eventHandle = none <;>
    simp [notify, Client.notifications, registered]

/-- `if (NULL != handler) handler(pClient, type, user_data)`. -/
def notifySub (handler : Option FnPtr) (type : MqttEventType) (userData : Ptr) : Sdk Unit :=
  match handler with
  | none => pure ()
  | some fn => emit (.sub fn type userData)

/-- The callbacks made by `notifySub`. -/
def subNotifications (handler : Option FnPtr) (type : MqttEventType) (userData : Ptr) :
    List Event :=
  match handler with
  | none => []
  | some fn => [.sub fn type userData]

@[simp] theorem wp_notifySub {Q : Unit → World → Prop} (handler : Option FnPtr)
    (type : MqttEventType) (userData : Ptr) :
    (notifySub handler type userData).wp Q w ↔
      Q () (w.called (subNotifications handler type userData)) := by
  cases handler <;> simp [notifySub, subNotifications]

/-! ## Memory -/

/-- The world after an allocation. -/
@[simps client heap net clock trace env_mallocs env_ticks env_writes env_reads env_connects
  env_randoms env_credentials env_stack]
def World.popMalloc (w : World) : World :=
  { w with env := { w.env with mallocs := w.env.mallocs.tail } }

/-- The world with another state of the allocator. -/
@[simps client heap net clock env trace]
def World.setHeap (w : World) (heap : Heap) : World := { w with heap := heap }

/-- `HAL_Malloc` of a block whose identity does not matter; succeeds when exhausted. -/
def halMalloc : Sdk Bool := .prim fun w => (w.env.mallocs.headD true, w.popMalloc)

@[simp] theorem wp_halMalloc {Q : Bool → World → Prop} : halMalloc.wp Q w ↔
    Q (w.env.mallocs.headD true) w.popMalloc := ⟨id, id⟩

/-- `HAL_Malloc` of a fresh string and `strcpy` of `text` into it. -/
def halMallocString (text : CStr) : Sdk (Option StoredFilter) := do
  if ← halMalloc then
    .prim fun w => (some ⟨w.heap.next, text⟩,
      w.setHeap { w.heap with next := w.heap.next + 1 })
  else
    return none

@[simp] theorem wp_halMallocString {Q : Option StoredFilter → World → Prop} (text : CStr) :
    (halMallocString text).wp Q w ↔
      (w.env.mallocs.headD true = true → Q (some ⟨w.heap.next, text⟩)
        (w.popMalloc.setHeap { w.heap with next := w.heap.next + 1 })) ∧
      (w.env.mallocs.headD true = false → Q none w.popMalloc) := by
  simp [halMallocString]

/-- `HAL_Free` of a string; `NULL` is left alone. -/
def halFree : Option StoredFilter → Sdk Unit
  | none => pure ()
  | some s => .change fun w =>
      w.setHeap { w.heap with released := w.heap.released ++ [s.ident] }

/-- The identities released by `halFree`. -/
def freed : Option StoredFilter → List Nat
  | none => []
  | some s => [s.ident]

@[simp] theorem wp_halFree {Q : Unit → World → Prop} (s : Option StoredFilter) :
    (halFree s).wp Q w ↔
      Q () (w.setHeap { w.heap with released := w.heap.released ++ freed s }) := by
  cases s <;> simp [halFree, freed, World.setHeap]

/-- The world after an uninitialised local has come into scope. -/
@[simps client heap net clock trace env_mallocs env_ticks env_writes env_reads env_connects
  env_randoms env_credentials env_stack]
def World.popStack (w : World) : World :=
  { w with env := { w.env with stack := w.env.stack.tail } }

/-- The contents of an uninitialised local `SubTopicHandle`; all zero when exhausted. -/
def uninitialised : Sdk SubTopicHandle := .prim fun w => (w.env.stack.headD .zero, w.popStack)

@[simp] theorem wp_uninitialised {Q : SubTopicHandle → World → Prop} :
    uninitialised.wp Q w ↔ Q (w.env.stack.headD .zero) w.popStack := ⟨id, id⟩

/-! ## Clock -/

/-- The world after the time before the next reading of the clock has passed. -/
@[simps client heap net trace env_mallocs env_ticks env_writes env_reads env_connects env_randoms
  env_credentials env_stack]
def World.tick (w : World) : World :=
  { w with clock := w.clock + w.env.ticks.headD 0,
           env := { w.env with ticks := w.env.ticks.tail } }

/-- A reading of the clock; it stands still when exhausted and never runs backwards. -/
def now : Sdk Nat := .prim fun w => (w.tick.clock, w.tick)

@[simp] theorem wp_now {Q : Nat → World → Prop} : now.wp Q w ↔ Q w.tick.clock w.tick := ⟨id, id⟩

/-- `expired` (`HAL_Timer_linux.c:25-31`). -/
def expired (timer : Timer) : Sdk Bool := do
  return timer.endTime ≤ (← now)

@[simp] theorem wp_expired {Q : Bool → World → Prop} (timer : Timer) :
    (expired timer).wp Q w ↔ Q (timer.endTime ≤ w.tick.clock) w.tick := by simp [expired]

/-- `left_ms` (`HAL_Timer_linux.c:49-55`). -/
def leftMs (timer : Timer) : Sdk Nat := do
  return (timer.endTime - (← now)) / 1000

@[simp] theorem wp_leftMs {Q : Nat → World → Prop} (timer : Timer) :
    (leftMs timer).wp Q w ↔ Q ((timer.endTime - w.tick.clock) / 1000) w.tick := by simp [leftMs]

/-- `countdown_ms`: the timer that runs out `timeoutMs` from now. -/
def countdownMs (timeoutMs : Nat) : Sdk Timer := do
  return ⟨(← now) + timeoutMs * 1000⟩

@[simp] theorem wp_countdownMs {Q : Timer → World → Prop} (timeoutMs : Nat) :
    (countdownMs timeoutMs).wp Q w ↔ Q ⟨w.tick.clock + timeoutMs * 1000⟩ w.tick := by
  simp [countdownMs]

/-- `countdown`: the timer that runs out `timeout` seconds from now. -/
def countdown (timeout : Nat) : Sdk Timer := do
  return ⟨(← now) + timeout * 1000000⟩

@[simp] theorem wp_countdown {Q : Timer → World → Prop} (timeout : Nat) :
    (countdown timeout).wp Q w ↔ Q ⟨w.tick.clock + timeout * 1000000⟩ w.tick := by
  simp [countdown]

/-- `rand()`; 0 when exhausted. -/
def rand : Sdk Nat := .prim fun w =>
  (w.env.randoms.headD 0, { w with env := { w.env with randoms := w.env.randoms.tail } })

/-- The user name and password formatted for the next CONNECT. -/
def nextCredentials : Sdk (CStr × Option CStr) := .prim fun w =>
  (w.env.credentials.headD (⟨[], CStr.noNul_nil⟩, none),
    { w with env := { w.env with credentials := w.env.credentials.tail } })

/-! ## Network -/

/-- `network_stack.write` of `bytes`: the return code and the number of bytes written; a
    write fails when exhausted. -/
def networkWrite (bytes : List UInt8) : Sdk (Int × Nat) := .prim fun w =>
  let outcome := w.env.writes.headD { rc := qcloudErrTcpWriteFail, written := 0 }
  let sent := min outcome.written bytes.length
  ((outcome.rc, sent),
    { w with net := { w.net with tx := w.net.tx ++ bytes.take sent },
             env := { w.env with writes := w.env.writes.tail } })

/-- The outcome of the next write. -/
def Env.nextWrite (e : Env) : WriteOutcome :=
  e.writes.headD { rc := qcloudErrTcpWriteFail, written := 0 }

/-- The world after a write that transmits `bytes`. -/
@[simps client heap net clock trace env_mallocs env_ticks env_writes env_reads env_connects
  env_randoms env_credentials env_stack]
def World.transmit (w : World) (bytes : List UInt8) : World :=
  { w with net := { w.net with tx := w.net.tx ++ bytes },
           env := { w.env with writes := w.env.writes.tail } }

@[simp] theorem wp_networkWrite {Q : Int × Nat → World → Prop} (bytes : List UInt8) :
    (networkWrite bytes).wp Q w ↔
      Q (w.env.nextWrite.rc, min w.env.nextWrite.written bytes.length)
        (w.transmit (bytes.take (min w.env.nextWrite.written bytes.length))) := ⟨id, id⟩

/-- `network_stack.read` of `len` bytes: `QCLOUD_RET_SUCCESS` with exactly the bytes asked
    for, or an error code with a strict part of them; a read fails when exhausted. -/
def networkRead (len : Nat) : Sdk (Int × List UInt8) := .prim fun w =>
  let outcome := w.env.reads.headD { avail := 0, err := qcloudErrTcpReadFail }
  let got := w.net.rx.take (min outcome.avail len)
  ((if got.length = len then qcloudRetSuccess else outcome.err, got),
    { w with net := { w.net with consumed := w.net.consumed + got.length },
             env := { w.env with reads := w.env.reads.tail } })

/-- `network_stack.connect`; refused when exhausted. -/
def networkConnect : Sdk Int := .prim fun w =>
  let outcome := w.env.connects.headD { rc := qcloudErrTcpConnect, stream := [] }
  let net : Net :=
    if outcome.rc = qcloudRetSuccess then
      { conn := w.net.conn + 1, handle := true, stream := outcome.stream, consumed := 0, tx := [] }
    else w.net
  (outcome.rc, { w with net := net, env := { w.env with connects := w.env.connects.tail } })

/-- `network_stack.disconnect`. -/
def networkDisconnect : Sdk Unit :=
  .change fun w => { w with net := { w.net with handle := false } }

end

end QcloudIot.Mqtt
