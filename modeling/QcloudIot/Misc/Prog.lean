import Mathlib

/-!
# Programs over an explicit state

A C function that reads and writes shared state is rendered as a state-passing program
`Prog σ α`: a function from the state before the call to the value returned and the state
after it. Every program terminates by construction. The lemmas of this file are the rules
by which the run of a compound program is computed from the runs of its parts
(`run_bind`, `run_ite`, ...) and by which a preorder between the states before and after a
call, such as "this field is unchanged" or "this list only grows", is established part by
part (`Within`). `wp` is the weakest precondition; its rules turn a statement about a
compound program into one about its parts, each of which is then answered by the lemma that
says what that part does.

The run lemmas are deliberately not definitional for the simplifier: rewriting under a
condition has to carry the decidability instance of the condition along.
-/

namespace QcloudIot

/-- A program over the state `σ` that returns an `α`. -/
def Prog (σ α : Type) : Type := σ → α × σ

namespace Prog

variable {σ α β : Type}

/-- The value returned and the state left by a program started in state `s`. -/
def run (m : Prog σ α) (s : σ) : α × σ := m s

instance : Monad (Prog σ) where
  pure a := fun s => (a, s)
  bind m f := fun s => f (m s).1 (m s).2

/-- The current state. -/
def read : Prog σ σ := fun s => (s, s)

/-- Replace the state. -/
def change (f : σ → σ) : Prog σ Unit := fun s => ((), f s)

/-- A primitive that computes a value and a next state from the current one. -/
def prim (f : σ → α × σ) : Prog σ α := f

@[simp] theorem run_pure (a : α) (s : σ) : (pure a : Prog σ α).run s = (a, s) := (rfl)

@[simp] theorem run_bind (m : Prog σ α) (f : α → Prog σ β) (s : σ) :
    (m >>= f).run s = (f (m.run s).1).run (m.run s).2 := (rfl)

@[simp] theorem run_read (s : σ) : (read : Prog σ σ).run s = (s, s) := (rfl)

@[simp] theorem run_change (f : σ → σ) (s : σ) : (change f).run s = ((), f s) := (rfl)

@[simp] theorem run_prim (f : σ → α × σ) (s : σ) : (prim f).run s = f s := (rfl)

@[simp] theorem run_ite (c : Prop) {_ : Decidable c} (a b : Prog σ α) (s : σ) :
    (if c then a else b).run s = if c then a.run s else b.run s := by
  split <;> rfl

/-- `Q` holds of the value returned and the state left by `m` started in `s`. -/
def wp (m : Prog σ α) (Q : α → σ → Prop) (s : σ) : Prop := Q (m.run s).1 (m.run s).2

section Wp

variable {Q Q' : α → σ → Prop} {s : σ}

@[simp] theorem wp_pure (a : α) : (pure a : Prog σ α).wp Q s ↔ Q a s := ⟨id, id⟩

@[simp] theorem wp_bind (m : Prog σ β) (f : β → Prog σ α) :
    (m >>= f).wp Q s ↔ m.wp (fun b => (f b).wp Q) s := ⟨id, id⟩

@[simp] theorem wp_read {Q : σ → σ → Prop} : (read : Prog σ σ).wp Q s ↔ Q s s := ⟨id, id⟩

@[simp] theorem wp_change {Q : Unit → σ → Prop} (f : σ → σ) :
    (change f).wp Q s ↔ Q () (f s) := ⟨id, id⟩

@[simp] theorem wp_prim (f : σ → α × σ) : (prim f).wp Q s ↔ Q (f s).1 (f s).2 := ⟨id, id⟩

@[simp] theorem wp_ite (c : Prop) {_ : Decidable c} (a b : Prog σ α) :
    (if c then a else b).wp Q s ↔ (c → a.wp Q s) ∧ (¬ c → b.wp Q s) := by
  split <;> simp_all

theorem wp_mono {m : Prog σ α} (h : m.wp Q s) (sub : ∀ a s', Q a s' → Q' a s') : m.wp Q' s :=
  sub _ _ h

theorem wp_and {m : Prog σ α} (h : m.wp Q s) (h' : m.wp Q' s) :
    m.wp (fun a s' => Q a s' ∧ Q' a s') s := ⟨h, h'⟩

/-- What is known of the outcome, and that it is the outcome. -/
theorem wp_run {m : Prog σ α} (h : m.wp Q s) :
    m.wp (fun a s' => m.run s = (a, s') ∧ Q a s') s := ⟨rfl, h⟩

end Wp

/-- Every run of `m` relates the state before it to the state after it by `R`. -/
def Within (R : σ → σ → Prop) (m : Prog σ α) : Prop := ∀ s, R s (m.run s).2

theorem within_iff_wp {R : σ → σ → Prop} {m : Prog σ α} :
    Within R m ↔ ∀ s, m.wp (fun _ => R s) s := ⟨id, id⟩

namespace Within

variable {R S : σ → σ → Prop}

theorem pure [Std.Refl R] (a : α) : Within R (pure a : Prog σ α) := fun s => refl_of R s

theorem read [Std.Refl R] : Within R (Prog.read : Prog σ σ) := fun s => refl_of R s

theorem change {f : σ → σ} (h : ∀ s, R s (f s)) : Within R (Prog.change f) := h

theorem prim {f : σ → α × σ} (h : ∀ s, R s (f s).2) : Within R (Prog.prim f) := h

theorem bind [IsTrans σ R] {m : Prog σ α} {f : α → Prog σ β} (hm : Within R m)
    (hf : ∀ a, Within R (f a)) : Within R (m >>= f) := by
  intro s
  rw [run_bind]
  exact trans_of R (hm s) (hf _ _)

theorem ite {c : Prop} {_ : Decidable c} {a b : Prog σ α} (ha : Within R a) (hb : Within R b) :
    Within R (if c then a else b) := by
  split
  · exact ha
  · exact hb

theorem mono {m : Prog σ α} (h : Within R m) (sub : ∀ s s', R s s' → S s s') : Within S m :=
  fun s => sub _ _ (h s)

end Within

end Prog

end QcloudIot
