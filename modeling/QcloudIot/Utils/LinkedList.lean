import Mathlib

/-!
# Linked list

`utils_list.c`: the list and its nodes in a memory that has room for so many nodes. A pointer that
is not `NULL` is the place of a node. Reading a place where no node is allocated is undefined, and
the model stops there.
-/

namespace QcloudIot.Utils

/-- How many nodes the memory has room for, which an `unsigned int` can count. -/
structure NodeRoom where
  count : Nat
  count_lt : count < 2 ^ 32

/-- A `ListNode *`. -/
abbrev NodePtr (room : NodeRoom) := Option (Fin room.count)

variable {room : NodeRoom} {V : Type}

/-- `ListNode` (`utils_list.h:33-37`). -/
structure ListNode (room : NodeRoom) (V : Type) where
  prev : NodePtr room
  next : NodePtr room
  val : V
  deriving DecidableEq

/-- A `List` (`utils_list.h:42-48`) with the nodes in the memory; of the member `free` it is kept
    whether it is set, and the values that it has been called with. -/
@[ext] structure LinkedList (room : NodeRoom) (V : Type) where
  nodes : Fin room.count → Option (ListNode room V)
  head : NodePtr room
  tail : NodePtr room
  len : UInt32
  free : Bool
  freed : List V

namespace LinkedList

/-- `list_new` (`utils_list.c:28-41`). -/
def listNew (nodes : Fin room.count → Option (ListNode room V)) : LinkedList room V :=
  ⟨nodes, none, none, 0, false, []⟩

/-- A node is changed. -/
def modify (self : LinkedList room V) (node : Fin room.count)
    (change : ListNode room V → ListNode room V) : Option (LinkedList room V) :=
  (self.nodes node).map fun old =>
    { self with nodes := Function.update self.nodes node (some (change old)) }

/-- `list_node_new`: `HAL_Malloc` gives the place `node`. -/
def listNodeNew (self : LinkedList room V) (node : Fin room.count) (val : V) :
    LinkedList room V :=
  { self with nodes := Function.update self.nodes node (some ⟨none, none, val⟩) }

/-- `HAL_Free` of a node. -/
def halFree (self : LinkedList room V) (node : Fin room.count) : LinkedList room V :=
  { self with nodes := Function.update self.nodes node none }

/-- `list_rpush` (`utils_list.c:67-86`). -/
def listRpush (self : LinkedList room V) :
    NodePtr room → Option (NodePtr room × LinkedList room V)
  | none => some (none, self)
  | some node => do
    let self ← if self.len ≠ 0 then do
        let self ← self.modify node fun old => { old with prev := self.tail }
        let self ← self.modify node fun old => { old with next := none }
        let tail ← self.tail
        let self ← self.modify tail fun old => { old with next := some node }
        pure { self with tail := some node }
      else do
        let self := { self with head := some node, tail := some node }
        self.modify node fun old => { old with prev := none, next := none }
    return (some node, { self with len := self.len + 1 })

/-- `list_rpop` (`utils_list.c:91-108`). -/
def listRpop (self : LinkedList room V) : Option (NodePtr room × LinkedList room V) :=
  if self.len = 0 then some (none, self)
  else do
    let node ← self.tail
    let self := { self with len := self.len - 1 }
    let self ← if self.len ≠ 0 then do
        let old ← self.nodes node
        let self := { self with tail := old.prev }
        let tail ← self.tail
        self.modify tail fun old => { old with next := none }
      else pure { self with tail := none, head := none }
    let self ← self.modify node fun old => { old with next := none, prev := none }
    return (some node, self)

/-- `list_lpop` (`utils_list.c:113-130`). -/
def listLpop (self : LinkedList room V) : Option (NodePtr room × LinkedList room V) :=
  if self.len = 0 then some (none, self)
  else do
    let node ← self.head
    let self := { self with len := self.len - 1 }
    let self ← if self.len ≠ 0 then do
        let old ← self.nodes node
        let self := { self with head := old.next }
        let head ← self.head
        self.modify head fun old => { old with prev := none }
      else pure { self with head := none, tail := none }
    let self ← self.modify node fun old => { old with next := none, prev := none }
    return (some node, self)

/-- `list_lpush` (`utils_list.c:135-152`). -/
def listLpush (self : LinkedList room V) :
    NodePtr room → Option (NodePtr room × LinkedList room V)
  | none => some (none, self)
  | some node => do
    let self ← if self.len ≠ 0 then do
        let self ← self.modify node fun old => { old with next := self.head }
        let self ← self.modify node fun old => { old with prev := none }
        let head ← self.head
        let self ← self.modify head fun old => { old with prev := some node }
        pure { self with head := some node }
      else do
        let self := { self with head := some node, tail := some node }
        self.modify node fun old => { old with prev := none, next := none }
    return (some node, { self with len := self.len + 1 })

/-- `list_remove` (`utils_list.c:219-232`). -/
def listRemove (self : LinkedList room V) (node : Fin room.count) : Option (LinkedList room V) := do
  let old ← self.nodes node
  let self ← match old.prev with
    | some prev => self.modify prev fun before => { before with next := old.next }
    | none => pure { self with head := old.next }
  let old ← self.nodes node
  let self ← match old.next with
    | some next => self.modify next fun behind => { behind with prev := old.prev }
    | none => pure { self with tail := old.prev }
  let old ← self.nodes node
  let self := { self with freed := self.freed ++ if self.free then [old.val] else [] }
  let self := self.halFree node
  return { self with len := if self.len ≠ 0 then self.len - 1 else self.len }

end LinkedList

/-! ## Iterators -/

/-- `ListDirection` -/
inductive ListDirection
  | head
  | tail
  deriving DecidableEq, Repr

/-- `ListIterator` (`utils_list.h:53-56`). -/
structure ListIterator (room : NodeRoom) where
  next : NodePtr room
  direction : ListDirection

/-- `list_iterator_new` (`utils_list.c:237-256`). -/
def listIteratorNew (list : LinkedList room V) (direction : ListDirection) : ListIterator room :=
  ⟨match direction with
    | .head => list.head
    | .tail => list.tail, direction⟩

/-- `list_iterator_next` (`utils_list.c:261-268`): the node returned, and the iterator. -/
def listIteratorNext (list : LinkedList room V) (self : ListIterator room) :
    Option (NodePtr room × ListIterator room) :=
  match self.next with
  | none => some (none, self)
  | some curr => do
    let node ← list.nodes curr
    let next := match self.direction with
      | .head => node.next
      | .tail => node.prev
    return (some curr, { self with next })

end QcloudIot.Utils
