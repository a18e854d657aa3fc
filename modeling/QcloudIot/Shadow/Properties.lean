import QcloudIot.Misc.Run
import QcloudIot.Mqtt.Types

/-!
# Registered properties

`shadow_client.c:272-307` and `shadow_client_common.c`: a property is registered by a wrapper,
which the list of the shadow client stores; it is looked for with `list_find` of `utils_list.c`.
-/

namespace QcloudIot.Shadow

open Mqtt (FnPtr)

/-- `QCLOUD_ERR_SHADOW_PROPERTY_EXIST` -/
abbrev qcloudErrShadowPropertyExist : Int := -201
/-- `QCLOUD_ERR_SHADOW_NOT_PROPERTY_EXIST` -/
abbrev qcloudErrShadowNotPropertyExist : Int := -202

/-! ## Data -/

/-- The address of an object: a `DeviceProperty` of the program, or a `PropertyHandler` that the
    client has allocated. Two live objects do not share an address. -/
inductive Address where
  | property (n : Nat)
  | handler (n : Nat)
  deriving DecidableEq, Repr

/-- A pointer to a `DeviceProperty`: which one, and whether its key and its data are set. -/
structure PropertyPtr where
  property : Nat
  key : Bool
  data : Bool
  deriving DecidableEq, Repr

/-- `PropertyHandler`, and the allocation it is. -/
structure PropertyHandler where
  ref : Nat
  callback : FnPtr
  property : Nat
  deriving DecidableEq, Repr

/-- `property_handle_list` as `qcloud_iot_shadow_init` sets it up, without a `match` function, and
    the number of handlers allocated so far. -/
structure Registry where
  propertyHandleList : List PropertyHandler
  allocated : Nat
  deriving DecidableEq, Repr

def Registry.initial : Registry := ⟨[], 0⟩

/-! ## The list -/

/-- `list_find` (`utils_list.c:157-183`) from the head of the list: with the `match` function of the
    list, or else by the address of the value; `iterator` says whether its iterator is
    allocated. -/
def listFind {node : Type} (value : node → Address)
    (matchFn : Option (Option Address → Address → Bool)) (iterator : Bool) (list : List node)
    (val : Option Address) : Option node :=
  if ¬ iterator then none
  else list.find? fun node =>
    match matchFn with
    | some same => same val (value node)
    | none => val = some (value node)

/-- `list_find` on the registered properties. -/
def Registry.find (r : Registry) (pProperty : Option PropertyPtr) (iterator : Bool) :
    Option PropertyHandler :=
  listFind (fun handler => .handler handler.ref) none iterator r.propertyHandleList
    (pProperty.map fun p => .property p.property)

/-! ## Calls -/

/-- How the surroundings answer a call: whether the client is connected, and which allocations
    succeed. -/
structure RegistryEnv where
  connected : Bool
  existsIterator : Bool
  removeIterator : Bool
  handlerAllocated : Bool
  nodeAllocated : Bool
  deriving DecidableEq, Repr

/-- A connected client whose allocations succeed. -/
def RegistryEnv.granted : RegistryEnv := ⟨true, true, true, true, true⟩

/-- `_add_property_handle_to_list` (`shadow_client_common.c:24-46`). -/
def Registry.addPropertyHandleToList (r : Registry) (property : Nat) (callback : FnPtr)
    (env : RegistryEnv) : Int × Registry :=
  if ¬ env.handlerAllocated then (Mqtt.qcloudErrFailure, r)
  else
    let handler : PropertyHandler := ⟨r.allocated, callback, property⟩
    let r := { r with allocated := r.allocated + 1 }
    if ¬ env.nodeAllocated then (Mqtt.qcloudErrFailure, r)
    else (Mqtt.qcloudRetSuccess,
      { r with propertyHandleList := r.propertyHandleList ++ [handler] })

/-- `shadow_common_check_property_existence` (`shadow_client_common.c:48-57`). -/
def Registry.checkPropertyExistence (r : Registry) (pProperty : Option PropertyPtr)
    (env : RegistryEnv) : Bool :=
  (r.find pProperty env.existsIterator).isSome

/-- `shadow_common_remove_property` (`shadow_client_common.c:59-75`). -/
def Registry.removeProperty (r : Registry) (pProperty : Option PropertyPtr) (env : RegistryEnv) :
    Int × Registry :=
  match r.find pProperty env.removeIterator with
  | none => (qcloudErrShadowNotPropertyExist, r)
  | some node => (Mqtt.qcloudRetSuccess,
      { r with propertyHandleList := r.propertyHandleList.erase node })

/-- `shadow_common_register_property_on_delta` (`shadow_client_common.c:77-96`). -/
def Registry.registerPropertyOnDelta (r : Registry) (pProperty : Option PropertyPtr)
    (callback : Option FnPtr) (env : RegistryEnv) : Int × Registry :=
  match callback, pProperty with
  | some callback, some p =>
    if ¬ p.key ∨ ¬ p.data then (Mqtt.qcloudErrInval, r)
    else r.addPropertyHandleToList p.property callback env
  | _, _ => (Mqtt.qcloudErrInval, r)

/-- `IOT_Shadow_Register_Property` (`shadow_client.c:272-290`). -/
def Registry.registerProperty (r : Registry) (pProperty : Option PropertyPtr)
    (callback : Option FnPtr) (env : RegistryEnv) : Int × Registry :=
  if ¬ env.connected then (Mqtt.qcloudErrMqttNoConn, r)
  else if r.checkPropertyExistence pProperty env then (qcloudErrShadowPropertyExist, r)
  else r.registerPropertyOnDelta pProperty callback env

/-- `IOT_Shadow_UnRegister_Property` (`shadow_client.c:292-307`). -/
def Registry.unRegisterProperty (r : Registry) (pProperty : Option PropertyPtr)
    (env : RegistryEnv) : Int × Registry :=
  if ¬ env.connected then (Mqtt.qcloudErrMqttNoConn, r)
  else if ¬ r.checkPropertyExistence pProperty env then (qcloudErrShadowNotPropertyExist, r)
  else r.removeProperty pProperty env

/-! ## Runs -/

/-- A call on a client that is connected and gets its memory. -/
inductive RegistryCall where
  | register (pProperty : Option PropertyPtr) (callback : Option FnPtr)
  | unRegister (pProperty : Option PropertyPtr)
  deriving DecidableEq, Repr

def RegistryCall.pProperty : RegistryCall → Option PropertyPtr
  | .register pProperty _ => pProperty
  | .unRegister pProperty => pProperty

/-- The code returned, and the registry afterwards. -/
def Registry.call (r : Registry) : RegistryCall → Int × Registry
  | .register pProperty callback => r.registerProperty pProperty callback .granted
  | .unRegister pProperty => r.unRegisterProperty pProperty .granted

def registry : Machine Registry RegistryCall := ⟨fun r call => (r.call call).2⟩

end QcloudIot.Shadow
