import QcloudIot.Misc.Ledger
import QcloudIot.Network.AtSocket
import QcloudIot.Network.Proofs.AtSocketTable
import QcloudIot.Network.Proofs.Websocket

/-!
# The byte stream of a socket

The blocks that a socket has received wait in its list until `at_socket_recv` has copied all their
bytes. While no block arrives at a list of eleven and no size is too large for an `int`, what the
calls have returned and what is in the list make up what was delivered.
-/

namespace QcloudIot.Network

open QcloudIot.Utils (toInt toInt_small)

/-! ## A socket and what has been seen of it -/

/-- The table, the blocks that the driver has delivered for one socket, and the bytes that
    `at_socket_recv` has returned for it. The buffers are numbered as they are delivered. -/
structure AtStream where
  sockets : AtSockets
  delivered : List (List UInt8)
  returned : List UInt8

/-- The driver delivers a block, or the application reads, during which the driver, if it is
    called, delivers blocks. -/
inductive AtStreamCall where
  | block (bytes : List UInt8)
  | recv (len : Nat) (blocks : List (List UInt8))
  deriving DecidableEq, Repr

/-- The blocks that the driver delivers. -/
def AtStreamCall.blocks : AtStreamCall → List (List UInt8)
  | .block bytes => [bytes]
  | .recv _ blocks => blocks

/-- The callbacks by which blocks are delivered, with buffers numbered from `n` on. -/
def blockEvents (fd : Int) : Nat → List (List UInt8) → List AtSocketEvt
  | _, [] => []
  | n, bytes :: blocks =>
    .recv fd (some ⟨n, bytes⟩) true true :: blockEvents fd (n + 1) blocks

namespace AtStream

/-- The list of the socket that the driver knows as `fd`. -/
def queued (st : AtStream) (fd : Int) : List AtRecvPkt :=
  match st.sockets.atSocketFind (fd + maxAtSocketNum) with
  | none => []
  | some i => ((st.sockets.atSocketCtxs i).recvpktList).getD []

/-- Blocks are delivered one behind the other. -/
def deliver (st : AtStream) (fd : Int) (blocks : List (List UInt8)) : AtStream where
  sockets := st.sockets.handleAll (blockEvents fd st.delivered.length blocks)
  delivered := st.delivered ++ blocks
  returned := st.returned

/-- One call, every allocation of which succeeds. What `at_socket_recv` returns are the bytes at the
    front of the buffer, as many as its return code says. -/
def after (fd : Int) (st : AtStream) : AtStreamCall → AtStream
  | .block bytes => st.deliver fd [bytes]
  | .recv len blocks =>
    let (rc, bytes, sockets) := st.sockets.atSocketRecv (fd + maxAtSocketNum) len
      (blockEvents fd st.delivered.length blocks) true
    { sockets := sockets
      delivered := if st.queued fd = [] then st.delivered ++ blocks else st.delivered
      returned := st.returned ++ bytes.take rc.toNat }

end AtStream

/-- A socket at work. -/
def atStream (fd : Int) : Machine AtStream AtStreamCall := ⟨AtStream.after fd⟩

/-- The bytes of a block that have not been copied yet. -/
def AtRecvPkt.left (pkt : AtRecvPkt) : List UInt8 := pkt.buff.bytes.drop pkt.bfszIndex

/-- The record of a block that has just been delivered. -/
def AtRecvPkt.new (buff : Block) : AtRecvPkt := ⟨buff.bytes.length, 0, buff⟩

namespace AtStream

/-- What has been returned is the front of what was delivered, and no buffer has been released
    twice. -/
structure Intact (st : AtStream) : Prop where
  stream : st.returned <+: st.delivered.flatten
  once : st.sockets.released.Nodup

/-- Blocks arrive at a list of at most ten, and their sizes are no negative `int`. -/
def Arrive (st : AtStream) (fd : Int) (blocks : List (List UInt8)) : Prop :=
  (∀ bytes ∈ blocks, bytes.length < 2 ^ 31) ∧
    (st.queued fd).length + blocks.length ≤ maxRecvPktPerChain + 1

/-- The condition on a call. -/
def Meets (fd : Int) (st : AtStream) : AtStreamCall → Prop
  | .block bytes => st.Arrive fd [bytes]
  | .recv len blocks =>
    (st.queued fd = [] → st.Arrive fd blocks ∧ min len blocks.flatten.length < 2 ^ 31) ∧
    (st.queued fd ≠ [] →
      min len ((st.queued fd).flatMap AtRecvPkt.left).length < 2 ^ 31)

instance decidableArrive (st : AtStream) (fd : Int) (blocks : List (List UInt8)) :
    Decidable (st.Arrive fd blocks) :=
  inferInstanceAs (Decidable (_ ∧ _))

instance decidableMeets (fd : Int) (st : AtStream) : ∀ call, Decidable (st.Meets fd call)
  | .block bytes => inferInstanceAs (Decidable (st.Arrive fd [bytes]))
  | .recv _ _ => inferInstanceAs (Decidable (_ ∧ _))

/-- A socket that has just been connected, with a driver that can receive. -/
structure Opened (fd : Int) (st : AtStream) : Prop where
  sound : st.sockets.SoundBut none
  connected : st.sockets.ConnectedFd fd
  driver : ∀ i, st.sockets.atSocketFind (fd + maxAtSocketNum) = some i →
    ∃ devOp, (st.sockets.atSocketCtxs i).devOp = some devOp ∧ devOp.recvTimeout = true
  empty : st.queued fd = []
  delivered : st.delivered = []
  returned : st.returned = []
  released : st.sockets.released = []

end AtStream

/-! ## Reading from the list -/

/-- A record that tells how much of its block is left. -/
structure AtRecvPkt.Good (pkt : AtRecvPkt) : Prop where
  total : pkt.bfszTotle = pkt.buff.bytes.length
  index : pkt.bfszIndex ≤ pkt.bfszTotle

theorem AtRecvPkt.new_good (buff : Block) : (AtRecvPkt.new buff).Good := ⟨rfl, Nat.zero_le _⟩

theorem AtRecvPkt.Good.length_left {pkt : AtRecvPkt} (good : pkt.Good) :
    pkt.left.length = pkt.bfszTotle - pkt.bfszIndex := by
  rw [left, List.length_drop, good.total]

/-- What is copied and what is left make up the list, and every block is released or left. Induction
    on the list. -/
theorem recvpktLoop_spec {queue : List AtRecvPkt} (good : ∀ pkt ∈ queue, pkt.Good) (want : Nat) :
    (recvpktLoop queue want).1 ++ (recvpktLoop queue want).2.1.flatMap AtRecvPkt.left =
        queue.flatMap AtRecvPkt.left ∧
      (recvpktLoop queue want).1.length = min want (queue.flatMap AtRecvPkt.left).length ∧
      (recvpktLoop queue want).2.2 ++ (recvpktLoop queue want).2.1.map (·.buff.ident) =
        queue.map (·.buff.ident) ∧
      ∀ pkt ∈ (recvpktLoop queue want).2.1, pkt.Good := by
  induction queue generalizing want with
  | nil => exact ⟨rfl, by simp [recvpktLoop], rfl, good⟩
  | cons pkt queue ih =>
    obtain ⟨goodPkt, goodRest⟩ := List.forall_mem_cons.mp good
    have length := goodPkt.length_left
    rw [recvpktLoop]
    by_cases enough : pkt.bfszTotle - pkt.bfszIndex ≥ want
    · simp only [if_pos enough, List.flatMap_cons]
      refine ⟨?_, ?_, rfl, ?_⟩
      · have rest : AtRecvPkt.left { pkt with bfszIndex := pkt.bfszIndex + want } =
            pkt.left.drop want := by
          rw [AtRecvPkt.left, AtRecvPkt.left, List.drop_drop]
        rw [rest, ← List.append_assoc]
        exact congrArg (· ++ _) (List.take_append_drop want pkt.left)
      · change (pkt.left.take want).length = _
        rw [List.length_take, List.length_append]
        omega
      · refine List.forall_mem_cons.mpr ⟨⟨goodPkt.total, ?_⟩, goodRest⟩
        have index := goodPkt.index
        change pkt.bfszIndex + want ≤ pkt.bfszTotle
        omega
    · obtain ⟨stream, amount, blocks, goodLeft⟩ :=
        ih goodRest (want - (pkt.bfszTotle - pkt.bfszIndex))
      have all : (pkt.buff.bytes.drop pkt.bfszIndex).take (pkt.bfszTotle - pkt.bfszIndex) =
          pkt.left :=
        List.take_of_length_le (Nat.le_of_eq length)
      simp only [if_neg enough, List.flatMap_cons, all]
      refine ⟨?_, ?_, ?_, goodLeft⟩
      · rw [List.append_assoc, stream]
      · rw [List.length_append, List.length_append, amount]
        omega
      · rw [List.cons_append, blocks, List.map_cons]

/-! ## A connected socket -/

namespace AtStream

/-- The socket is connected, its list has good records, and what has been returned and what is left
    in the list make up what was delivered. -/
structure Good (fd : Int) (st : AtStream) (i : Fin maxAtSocketNum) (queue : List AtRecvPkt) :
    Prop where
  found : st.sockets.atSocketFind (fd + maxAtSocketNum) = some i
  connected : (st.sockets.atSocketCtxs i).state = .connected
  driver : ∃ devOp, (st.sockets.atSocketCtxs i).devOp = some devOp ∧ devOp.recvTimeout = true
  list : (st.sockets.atSocketCtxs i).recvpktList = some queue
  noFault : st.sockets.fault = false
  pkts : ∀ pkt ∈ queue, pkt.Good
  bytes : st.delivered.flatten = st.returned ++ queue.flatMap AtRecvPkt.left
  ledger : Ledger (st.sockets.released ++ queue.map (·.buff.ident)) st.delivered.length

variable {fd : Int} {st : AtStream} {i : Fin maxAtSocketNum} {queue : List AtRecvPkt}

theorem Good.queued (good : st.Good fd i queue) : st.queued fd = queue := by
  rw [AtStream.queued, good.found]
  simp only [good.list, Option.getD_some]

theorem Good.intact (good : st.Good fd i queue) : st.Intact where
  stream := by
    rw [good.bytes]
    exact List.prefix_append _ _
  once := (List.nodup_append.mp good.ledger.once).1

/-- The descriptors of a table stay when a list is replaced. -/
theorem find_setList (s : AtSockets) (i : Fin maxAtSocketNum) (rlist : List AtRecvPkt) (fd : Int) :
    (s.setCtx i { s.atSocketCtxs i with recvpktList := some rlist }).atSocketFind fd =
      s.atSocketFind fd := by
  have same : ∀ j, ((s.setCtx i { s.atSocketCtxs i with
      recvpktList := some rlist }).atSocketCtxs j).fd = (s.atSocketCtxs j).fd := by
    intro j
    by_cases here : j = i
    · subst here
      rw [AtSockets.setCtx_self]
    · rw [AtSockets.setCtx_other here]
  rw [AtSockets.atSocketFind, AtSockets.atSocketFind]
  simp only [same]

/-- The world after the list of the socket has been replaced and buffers have been released. -/
theorem Good.setList (good : st.Good fd i queue) {queue' : List AtRecvPkt} {released : List Nat}
    {delivered : List (List UInt8)} {returned : List UInt8}
    (pkts : ∀ pkt ∈ queue', pkt.Good)
    (bytes : delivered.flatten = returned ++ queue'.flatMap AtRecvPkt.left)
    (ledger : Ledger (released ++ queue'.map (·.buff.ident)) delivered.length) :
    Good fd ⟨{ st.sockets.setCtx i { st.sockets.atSocketCtxs i with recvpktList := some queue' } with
      released := released }, delivered, returned⟩ i queue' where
  found := (find_setList st.sockets i queue' _).trans good.found
  connected := by
    change ((st.sockets.setCtx i _).atSocketCtxs i).state = _
    rw [AtSockets.setCtx_self]
    exact good.connected
  driver := by
    change ∃ devOp, ((st.sockets.setCtx i _).atSocketCtxs i).devOp = some devOp ∧ _
    rw [AtSockets.setCtx_self]
    exact good.driver
  list := by
    change ((st.sockets.setCtx i _).atSocketCtxs i).recvpktList = _
    rw [AtSockets.setCtx_self]
  noFault := good.noFault
  pkts := pkts
  bytes := bytes
  ledger := ledger

/-! ## Blocks arrive -/

/-- A block that arrives is put behind the others. -/
theorem Good.put (good : st.Good fd i queue) {bytes : List UInt8} (small : bytes.length < 2 ^ 31)
    (room : queue.length ≤ maxRecvPktPerChain) :
    Good fd ⟨st.sockets.handle (.recv fd (some ⟨st.delivered.length, bytes⟩) true true),
      st.delivered ++ [bytes], st.returned⟩ i (queue ++ [.new ⟨st.delivered.length, bytes⟩]) := by
  have put : st.sockets.handle (.recv fd (some ⟨st.delivered.length, bytes⟩) true true) =
      st.sockets.setCtx i { st.sockets.atSocketCtxs i with
        recvpktList := some (queue ++ [.new ⟨st.delivered.length, bytes⟩]) } := by
    have positive : ¬ toInt bytes.length < 0 := by
      rw [toInt_small small]
      omega
    rw [AtSockets.handle, AtSockets.atSocketRecvCb, good.found]
    simp only [good.list, atRecvpktPut, if_neg (Nat.not_lt.mpr room), Bool.not_true,
      Bool.false_eq_true, if_false, if_neg positive]
    rfl
  rw [put]
  refine good.setList ?_ ?_ ?_
  · intro pkt mem
    rcases List.mem_append.mp mem with old | new
    · exact good.pkts pkt old
    · rw [List.mem_singleton.mp new]
      exact AtRecvPkt.new_good _
  · rw [List.flatten_append, good.bytes, List.flatMap_append, List.append_assoc]
    simp [AtRecvPkt.left, AtRecvPkt.new]
  · rw [List.map_append, ← List.append_assoc, List.length_append]
    exact good.ledger.mint

/-- The blocks that arrive during a call. Induction on them. -/
theorem Good.deliver (good : st.Good fd i queue) {blocks : List (List UInt8)}
    (small : ∀ bytes ∈ blocks, bytes.length < 2 ^ 31)
    (room : queue.length + blocks.length ≤ maxRecvPktPerChain + 1) :
    ∃ queue', (st.deliver fd blocks).Good fd i queue' ∧
      queue'.flatMap AtRecvPkt.left = queue.flatMap AtRecvPkt.left ++ blocks.flatten := by
  induction blocks generalizing st queue with
  | nil =>
    refine ⟨queue, ?_, (List.append_nil _).symm⟩
    rw [AtStream.deliver, List.append_nil]
    exact good
  | cons bytes blocks ih =>
    rw [List.length_cons] at room
    obtain ⟨smallFirst, smallRest⟩ := List.forall_mem_cons.mp small
    have put := good.put smallFirst (by omega)
    have goesOn : ¬ st.sockets.fault = true := by rw [good.noFault]; decide
    obtain ⟨queue', good', stream⟩ := ih put smallRest
      (by rw [List.length_append, List.length_singleton]; omega)
    refine ⟨queue', ?_, ?_⟩
    · have same : st.deliver fd (bytes :: blocks) = AtStream.deliver
          ⟨st.sockets.handle (.recv fd (some ⟨st.delivered.length, bytes⟩) true true),
            st.delivered ++ [bytes], st.returned⟩ fd blocks := by
        rw [AtStream.deliver, AtStream.deliver, blockEvents, AtSockets.handleAll, if_neg goesOn,
          List.length_append, List.length_singleton, List.append_assoc, List.singleton_append]
      rw [same]
      exact good'
    · rw [stream, List.flatMap_append, List.flatten_cons, List.append_assoc]
      simp [AtRecvPkt.left, AtRecvPkt.new]

/-! ## The application reads -/

/-- What `_at_recvpkt_get` copies is returned, and the rest stays. -/
theorem Good.get (good : st.Good fd i queue) {len : Nat}
    (small : min len (queue.flatMap AtRecvPkt.left).length < 2 ^ 31) :
    ∃ queue', Good fd
      ⟨{ st.sockets.setCtx i { st.sockets.atSocketCtxs i with
            recvpktList := some (atRecvpktGet queue len true).2.2.1 } with
          released := st.sockets.released ++ (atRecvpktGet queue len true).2.2.2 },
        st.delivered,
        st.returned ++ (atRecvpktGet queue len true).2.1.take
          (atRecvpktGet queue len true).1.toNat⟩ i queue' := by
  by_cases none : queue.length = 0
  · refine ⟨queue, ?_⟩
    simp only [atRecvpktGet, if_pos none, List.take_nil, List.append_nil]
    exact good.setList good.pkts good.bytes good.ledger
  · obtain ⟨stream, amount, blocks, goodLeft⟩ := recvpktLoop_spec good.pkts len
    refine ⟨(recvpktLoop queue len).2.1, ?_⟩
    have whole : (recvpktLoop queue len).1.take
        (toInt (recvpktLoop queue len).1.length).toNat = (recvpktLoop queue len).1 := by
      rw [toInt_small (by rw [amount]; exact small), Int.toNat_natCast, List.take_length]
    simp only [atRecvpktGet, if_neg none, Bool.not_true, Bool.false_eq_true, if_false, whole]
    refine good.setList goodLeft ?_ ?_
    · rw [good.bytes, List.append_assoc, stream]
    · rw [List.append_assoc, blocks]
      exact good.ledger

/-! ## Whole runs -/

/-- A socket that has just been connected. -/
theorem Opened.good (opened : Opened fd st) : ∃ i, st.Good fd i [] := by
  obtain ⟨i, found, connected, _⟩ := opened.sound.find_connected opened.connected
  obtain ⟨list, isList⟩ := Option.isSome_iff_exists.mp connected.recvpktList
  have none : list = [] := by
    have empty := opened.empty
    rw [AtStream.queued, found] at empty
    simpa only [isList, Option.getD_some] using empty
  refine ⟨i, ?_⟩
  exact
    { found := found
      connected := connected.state
      driver := opened.driver i found
      list := none ▸ isList
      noFault := opened.sound.noFault
      pkts := nofun
      bytes := by rw [opened.delivered, opened.returned]; rfl
      ledger := by rw [opened.released]; exact ledger_nil _ }

/-- A read from a list that is not empty, or whose driver has been called. -/
theorem Good.recv (good : st.Good fd i queue) {len : Nat} {blocks : List (List UInt8)}
    (meets : st.Meets fd (.recv len blocks)) :
    ∃ queue', (st.after fd (.recv len blocks)).Good fd i queue' := by
  obtain ⟨devOp, isDriver, canRecv⟩ := good.driver
  have connected : ¬ (st.sockets.atSocketCtxs i).state ≠ .connected := not_not.mpr good.connected
  by_cases none : queue = []
  · subst none
    obtain ⟨arrive, small⟩ := meets.1 good.queued
    have room := arrive.2
    rw [good.queued] at room
    obtain ⟨queue', good', stream⟩ := good.deliver arrive.1 room
    rw [List.flatMap_nil, List.nil_append] at stream
    have got := @Good.get _ _ _ _ good' len (by rw [stream]; exact small)
    have isList : ((st.sockets.handleAll (blockEvents fd st.delivered.length blocks)).atSocketCtxs
        i).recvpktList = some queue' := good'.list
    rw [AtStream.after, AtSockets.atSocketRecv, good.found, good.queued]
    simp only [isDriver, canRecv, Bool.not_true, Bool.false_eq_true, if_false, if_neg connected,
      good.list, List.length_nil, if_true, isList]
    exact got
  · have waits : queue.length ≠ 0 := fun length => none (List.length_eq_zero_iff.mp length)
    have small := meets.2 (by rw [good.queued]; exact none)
    rw [good.queued] at small
    have got := good.get small
    rw [AtStream.after, AtSockets.atSocketRecv, good.found, good.queued]
    simp only [isDriver, canRecv, Bool.not_true, Bool.false_eq_true, if_false, if_neg connected,
      good.list, if_neg waits, if_neg none]
    rw [← isDriver]
    exact got

/-- One call. -/
theorem Good.after (good : st.Good fd i queue) {call : AtStreamCall} (meets : st.Meets fd call) :
    ∃ queue', (st.after fd call).Good fd i queue' := by
  cases call with
  | block bytes =>
    have room := meets.2
    rw [good.queued] at room
    obtain ⟨queue', good', _⟩ := good.deliver meets.1 room
    exact ⟨queue', good'⟩
  | recv len blocks => exact good.recv meets

end AtStream

/-- In every run that meets the condition, what has been returned is the front of what has been
    delivered, and no buffer is released twice. -/
theorem atStream_intact {fd : Int} {st : AtStream} (opened : st.Opened fd)
    {calls : List AtStreamCall} (guarded : (atStream fd).Guarded (AtStream.Meets fd) st calls)
    (n : Nat) : ((atStream fd).exec st (calls.take n)).Intact := by
  obtain ⟨i, good⟩ := opened.good
  obtain ⟨_, reached⟩ := guarded.invariant_take
    (I := fun st => ∃ queue, st.Good fd i queue) ⟨[], good⟩
    (fun _ _ meets ⟨_, good⟩ => good.after meets) n
  exact reached.intact

/-- A table with one socket, which has just been connected. -/
def openedStream : AtStream where
  sockets := ((AtSockets.atSocketInit (some fullDriver)).atSocketConnect true true [] 0).2
  delivered := []
  returned := []

theorem openedStream_opened : openedStream.Opened 0 where
  sound := (@AtSockets.SoundBut.after _
    (AtSockets.soundBut_init (some fullDriver)) (.connect true true [] 0)
    (by
      intro t isDuring _
      obtain ⟨rfl, _⟩ := Prod.mk.inj (Option.some.inj isDuring)
      decide)
    (fun _ => ⟨rfl, Int.le_refl 0, trivial⟩)).1
  connected := ⟨0, rfl, rfl⟩
  driver := by decide
  empty := rfl
  delivered := rfl
  returned := rfl
  released := rfl

/-- Two blocks arrive while the application waits, and are read in two pieces. -/
theorem atStream_intact_openedStream :
    ((atStream 0).exec openedStream
      ([.recv 3 [[1, 2], [3, 4]], .block [5], .recv 8 []].take 3)).Intact :=
  atStream_intact openedStream_opened (by decide +kernel) 3

/-- Twelve blocks arrive before the application reads, and the last of them is dropped; the next one
    is returned behind the eleventh. -/
theorem atStream_gap : ¬ ∀ (fd : Int) (st : AtStream), st.Opened fd →
    ∀ (calls : List AtStreamCall), (∀ call ∈ calls, ∀ bytes ∈ call.blocks, 1 ≤ bytes.length) →
      ∀ n, ((atStream fd).exec st (calls.take n)).Intact := by
  intro all
  have intact := (all 0 openedStream openedStream_opened
    ((List.range 12).map (fun k => .block [k.toUInt8]) ++
      [.recv 12 [], .block [12], .recv 1 []])
    (by decide) 15).stream
  exact absurd intact (by decide +kernel)

end QcloudIot.Network
