import QcloudIot.Shadow.Properties

/-!
# The property registry

The list stores wrappers, and it is searched for the property itself: a registered property is
never found.
-/

namespace QcloudIot.Shadow

variable {r : Registry}

/-- The pointer is that of a registered property. -/
def Registry.Registered (r : Registry) (pProperty : Option PropertyPtr) : Prop :=
  ∃ p ∈ pProperty, ∃ handler ∈ r.propertyHandleList, handler.property = p.property

/-- No property is registered twice. -/
def Registry.Distinct (r : Registry) : Prop :=
  (r.propertyHandleList.map PropertyHandler.property).Nodup

/-- The handlers of the other properties. -/
def Registry.without (r : Registry) (pProperty : Option PropertyPtr) : List PropertyHandler :=
  r.propertyHandleList.filter fun handler => pProperty.map PropertyPtr.property ≠ some handler.property

/-- The call answers by what is registered: a property that is registered already is refused; one
    that is registered is removed, and no other. -/
def Registry.Exact (r : Registry) : RegistryCall → Prop
  | .register pProperty callback =>
    (r.call (.register pProperty callback)).1 = qcloudErrShadowPropertyExist ↔
      r.Registered pProperty
  | .unRegister pProperty =>
    ((r.call (.unRegister pProperty)).1 = Mqtt.qcloudRetSuccess ↔ r.Registered pProperty) ∧
      (r.call (.unRegister pProperty)).2.propertyHandleList = r.without pProperty

/-! ## Lookups -/

/-- The address of a wrapper is not that of a property. -/
theorem find_none (pProperty : Option PropertyPtr) (iterator : Bool) :
    r.find pProperty iterator = none := by
  unfold Registry.find listFind
  split
  · rfl
  · rw [List.find?_eq_none]
    intro handler _
    cases pProperty <;> simp

theorem checkPropertyExistence_false (pProperty : Option PropertyPtr) (env : RegistryEnv) :
    r.checkPropertyExistence pProperty env = false := by
  rw [Registry.checkPropertyExistence, find_none]
  rfl

theorem unRegister_refused (pProperty : Option PropertyPtr) :
    r.call (.unRegister pProperty) = (qcloudErrShadowNotPropertyExist, r) := by
  simp only [Registry.call, Registry.unRegisterProperty, checkPropertyExistence_false,
    RegistryEnv.granted, not_true_eq_false, if_false, Bool.false_eq_true, not_false_eq_true, if_true]

/-- A registration is refused for an argument that is missing, or appends a handler. -/
theorem register_cases (pProperty : Option PropertyPtr) (callback : Option Mqtt.FnPtr) :
    r.call (.register pProperty callback) = (Mqtt.qcloudErrInval, r) ∨
      ∃ p handler, pProperty = some p ∧ handler.property = p.property ∧
        r.call (.register pProperty callback) = (Mqtt.qcloudRetSuccess,
          ⟨r.propertyHandleList ++ [handler], r.allocated + 1⟩) := by
  have call : r.call (.register pProperty callback) =
      r.registerPropertyOnDelta pProperty callback .granted := by
    simp only [Registry.call, Registry.registerProperty, checkPropertyExistence_false,
      RegistryEnv.granted, not_true_eq_false, if_false, Bool.false_eq_true]
  rw [call]
  cases callback with
  | none => exact .inl (by cases pProperty <;> rfl)
  | some callback =>
    cases pProperty with
    | none => exact .inl rfl
    | some p =>
      by_cases unset : ¬ p.key ∨ ¬ p.data
      · exact .inl (if_pos unset)
      · exact .inr ⟨p, ⟨r.allocated, callback, p.property⟩, rfl, rfl, if_neg unset⟩

theorem register_code (pProperty : Option PropertyPtr) (callback : Option Mqtt.FnPtr) :
    (r.call (.register pProperty callback)).1 ≠ qcloudErrShadowPropertyExist := by
  rcases register_cases pProperty callback with refused | ⟨p, handler, _, _, pushed⟩
  · rw [refused]
    exact (by decide : Mqtt.qcloudErrInval ≠ qcloudErrShadowPropertyExist)
  · rw [pushed]
    exact (by decide : Mqtt.qcloudRetSuccess ≠ qcloudErrShadowPropertyExist)

theorem without_eq_self {pProperty : Option PropertyPtr} (other : ¬ r.Registered pProperty) :
    r.without pProperty = r.propertyHandleList := by
  rw [Registry.without, List.filter_eq_self]
  intro handler mem
  apply decide_eq_true
  intro same
  obtain ⟨p, isPointer, property⟩ := Option.map_eq_some_iff.mp same
  exact other ⟨p, isPointer, handler, mem, property.symm⟩

/-! ## Runs -/

/-- A call is exact when its property is not registered, and only then. -/
theorem exact_iff (call : RegistryCall) : r.Exact call ↔ ¬ r.Registered call.pProperty := by
  cases call with
  | register pProperty callback =>
    unfold Registry.Exact
    constructor
    · intro exact registered
      exact register_code pProperty callback (exact.mpr registered)
    · intro other
      exact iff_of_false (register_code pProperty callback) other
  | unRegister pProperty =>
    have code : (r.call (.unRegister pProperty)).1 ≠ Mqtt.qcloudRetSuccess := by
      rw [unRegister_refused]
      exact (by decide : qcloudErrShadowNotPropertyExist ≠ Mqtt.qcloudRetSuccess)
    unfold Registry.Exact
    constructor
    · intro exact registered
      exact code (exact.1.mpr registered)
    · intro other
      refine ⟨iff_of_false code other, ?_⟩
      rw [unRegister_refused]
      exact (without_eq_self other).symm

/-- Registering a property that is not registered keeps the properties distinct. -/
theorem Registry.Distinct.call {call : RegistryCall} (other : ¬ r.Registered call.pProperty)
    (distinct : r.Distinct) : (registry.step r call).Distinct := by
  change (r.call call).2.Distinct
  cases call with
  | unRegister pProperty =>
    rw [unRegister_refused]
    exact distinct
  | register pProperty callback =>
    rcases register_cases pProperty callback with refused | ⟨p, handler, isPointer, property, pushed⟩
    · rw [refused]
      exact distinct
    · rw [pushed]
      unfold Registry.Distinct
      rw [List.map_append, List.nodup_append]
      refine ⟨distinct, List.nodup_singleton _, ?_⟩
      intro a mem b new same
      obtain ⟨old, oldMem, isOld⟩ := List.mem_map.mp mem
      rw [List.map_singleton, List.mem_singleton] at new
      apply other
      refine ⟨p, isPointer, old, oldMem, ?_⟩
      rw [isOld, same, new, property]

/-- In a run of calls the properties registered are distinct in every state and every call is
    exact, if and only if no call names a property that is registered at the time. -/
theorem registry_exact_iff (calls : List RegistryCall) :
    (∀ n, (registry.exec .initial (calls.take n)).Distinct ∧
      ∀ call, calls[n]? = some call → (registry.exec .initial (calls.take n)).Exact call) ↔
    registry.Guarded (fun r call => ¬ r.Registered call.pProperty) .initial calls := by
  constructor
  · intro all
    rw [Machine.guarded_iff_at]
    intro n call made
    exact (exact_iff call).mp ((all n).2 call made)
  · intro guarded n
    constructor
    · have initial : Registry.initial.Distinct := List.nodup_nil
      refine guarded.invariant_take initial ?_ n
      intro r call other distinct
      exact distinct.call other
    · intro call made
      exact (exact_iff call).mpr (guarded.at made)

/-- A property with a key and data. -/
def someProperty : PropertyPtr := ⟨0, true, true⟩

/-- A property is registered twice, and is not removed. -/
theorem registered_notFound :
    (¬ ∀ n, (registry.exec .initial ([.register (some someProperty) (some 1),
        .register (some someProperty) (some 1)].take n)).Distinct) ∧
    ¬ ∀ n call, [RegistryCall.register (some someProperty) (some 1),
        .unRegister (some someProperty)][n]? = some call →
      (registry.exec .initial ([.register (some someProperty) (some 1),
        .unRegister (some someProperty)].take n)).Exact call := by
  constructor
  · intro distinct
    have twice := distinct 2
    unfold Registry.Distinct at twice
    exact absurd twice (by decide)
  · intro exact
    have removed := (exact 1 (.unRegister (some someProperty)) rfl).1.mpr
      ⟨someProperty, rfl, ⟨0, 1, 0⟩, by decide, rfl⟩
    exact absurd removed (by decide)

end QcloudIot.Shadow
