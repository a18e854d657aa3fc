import Mathlib

/-!
# Programs that return early

A function with `return` in the midst of its loops is a program over a state that throws what it
returns. These rules follow a run of such a program from one step to the next.
-/

namespace QcloudIot.Early

variable {ε σ α β : Type} {m : EStateM ε σ α} {f : α → EStateM ε σ β} {s s' : σ}

/-- A step that ends normally is followed by the rest. -/
theorem bind_ok {a : α} (step : m s = .ok a s') : (m >>= f) s = f a s' := by
  show EStateM.bind m f s = f a s'
  rw [EStateM.bind, step]

/-- A step that throws ends the program. -/
theorem bind_error {e : ε} (step : m s = .error e s') : (m >>= f) s = .error e s' := by
  show EStateM.bind m f s = .error e s'
  rw [EStateM.bind, step]

@[simp] theorem pure_run (a : α) : (pure a : EStateM ε σ α) s = .ok a s := rfl

@[simp] theorem throw_run (e : ε) : (throw e : EStateM ε σ α) s = .error e s := rfl

@[simp] theorem bind_pure (a : α) : ((pure a : EStateM ε σ α) >>= f) s = f a s := rfl

@[simp] theorem bind_get {f : σ → EStateM ε σ β} : (get >>= f) s = f s s := rfl

@[simp] theorem bind_set {f : PUnit → EStateM ε σ β} : (set s' >>= f) s = f () s' := rfl

@[simp] theorem bind_modify {f : PUnit → EStateM ε σ β} (g : σ → σ) :
    (modify g >>= f) s = f () (g s) := rfl

@[simp] theorem modify_run (g : σ → σ) : (modify g : EStateM ε σ PUnit) s = .ok () (g s) := rfl

@[simp] theorem ite_run {p : Prop} {_ : Decidable p} (a b : EStateM ε σ α) :
    (if p then a else b) s = if p then a s else b s := by
  split <;> rfl

end QcloudIot.Early
