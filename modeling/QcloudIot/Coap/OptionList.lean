import QcloudIot.Coap.Message
import QcloudIot.Misc.Chain

/-!
# The list of options in memory

`coap_message_option_add` on the nodes and pointers of a `CoAPMsgOptionList`. A node is known by the
number of its allocation.
-/

namespace QcloudIot.Coap

/-- `CoAPMsgOptionList`, with the nodes that have been allocated for it. -/
structure CoapMsgOptionList where
  nodes : List (ChainNode CoapMsgOption)
  first : Option Nat
  last : Option Nat

/-- The list of a message that has been set to zero. -/
def CoapMsgOptionList.empty : CoapMsgOptionList := ⟨[], none, none⟩

/-- The loop of `coap_message_option_add` (`coap_client_common.c:188-197`) from `prev` on: the node
    behind which the option is inserted, or that `list->last` is reached. It has no result when a
    null pointer is followed. -/
def optionPlace (nodes : List (ChainNode CoapMsgOption)) (last : Option Nat) (optionNum : Nat) :
    Nat → Option Nat → Option (Option Nat)
  | 0, _ => none
  | fuel + 1, prev =>
    if prev = last then some none
    else do
      let node ← deref nodes prev
      if node.value.optionNum ≤ optionNum then
        let next ← deref nodes node.next
        if optionNum < next.value.optionNum then return prev
        else optionPlace nodes last optionNum fuel node.next
      else optionPlace nodes last optionNum fuel node.next

/-- `coap_message_option_add` (`coap_client_common.c:161-204`) with its allocations. -/
def optionListAdd (list : CoapMsgOptionList) (num : Nat) (val : List UInt8) :
    Option CoapMsgOptionList := do
  let option : CoapMsgOption := { optionNum := num % 2 ^ 16, val }
  let new := list.nodes.length
  let nodes := list.nodes ++ [⟨option, none⟩]
  match list.first with
  | none => return ⟨nodes, some new, some new⟩
  | some _ => do
    let first ← deref nodes list.first
    if option.optionNum < first.value.optionNum then
      return ⟨setNext nodes new list.first, some new, list.last⟩
    else do
      match ← optionPlace nodes list.last option.optionNum (list.nodes.length + 1) list.first with
      | some prev => do
        let node ← deref nodes (some prev)
        return ⟨setNext (setNext nodes new node.next) prev (some new), list.first, list.last⟩
      | none =>
        match list.last with
        | none => none
        | some last => return ⟨setNext nodes last (some new), list.first, some new⟩

/-- A sequence of calls. -/
def optionListAddAll (list : CoapMsgOptionList) : List (Nat × List UInt8) → Option CoapMsgOptionList
  | [] => some list
  | (num, val) :: adds => do
    let list ← optionListAdd list num val
    optionListAddAll list adds

end QcloudIot.Coap
