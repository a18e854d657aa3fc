import Mathlib

/-!
# Runs of labelled machines

A machine is a total step function on states, driven by labels that carry everything the
environment decides (which call is made, with which arguments, and how the outside world
answers it). A run is a list of labels. `Guarded C` says of a run that every label meets
the condition `C` in the state in which it is taken; an invariant that is preserved by
every step meeting `C` holds in every state of such a run.
-/

namespace QcloudIot

/-- A machine with states `σ` and labels `ℓ`. -/
structure Machine (σ ℓ : Type) where
  step : σ → ℓ → σ

namespace Machine

variable {σ ℓ : Type} (M : Machine σ ℓ)

/-- The state reached by a run. -/
def exec (s : σ) (labels : List ℓ) : σ := labels.foldl M.step s

@[simp] theorem exec_nil (s : σ) : M.exec s [] = s := rfl

@[simp] theorem exec_cons (s : σ) (l : ℓ) (labels : List ℓ) :
    M.exec s (l :: labels) = M.exec (M.step s l) labels := rfl

theorem exec_append (s : σ) (first second : List ℓ) :
    M.exec s (first ++ second) = M.exec (M.exec s first) second := by
  simp [exec]

@[simp] theorem exec_concat (s : σ) (labels : List ℓ) (l : ℓ) :
    M.exec s (labels ++ [l]) = M.step (M.exec s labels) l := by
  simp [exec_append]

/-- Every label of the run meets `C` in the state in which it is taken. -/
def Guarded (C : σ → ℓ → Prop) : σ → List ℓ → Prop
  | _, [] => True
  | s, l :: labels => C s l ∧ Guarded C (M.step s l) labels

instance decidableGuarded (C : σ → ℓ → Prop) [∀ s l, Decidable (C s l)] :
    ∀ (s : σ) (labels : List ℓ), Decidable (M.Guarded C s labels)
  | _, [] => .isTrue trivial
  | s, l :: labels =>
    have := decidableGuarded C (M.step s l) labels
    inferInstanceAs (Decidable (C s l ∧ M.Guarded C (M.step s l) labels))

variable {M} {C : σ → ℓ → Prop}

theorem guarded_append {s : σ} {first second : List ℓ} :
    M.Guarded C s (first ++ second) ↔
      M.Guarded C s first ∧ M.Guarded C (M.exec s first) second := by
  induction first generalizing s with
  | nil => simp [Guarded]
  | cons l labels ih => simp [Guarded, ih, and_assoc]

theorem guarded_concat {s : σ} {labels : List ℓ} {l : ℓ} :
    M.Guarded C s (labels ++ [l]) ↔ M.Guarded C s labels ∧ C (M.exec s labels) l := by
  simp [guarded_append, Guarded]

theorem Guarded.take {s : σ} {labels : List ℓ} (h : M.Guarded C s labels) (n : Nat) :
    M.Guarded C s (labels.take n) := by
  rw [← List.take_append_drop n labels, guarded_append] at h
  exact h.1

/-- The guard holds at each position of a guarded run. -/
theorem Guarded.at {s : σ} {labels : List ℓ} (h : M.Guarded C s labels) {n : Nat} {l : ℓ}
    (found : labels[n]? = some l) : C (M.exec s (labels.take n)) l := by
  induction labels generalizing s n with
  | nil => simp at found
  | cons head tail ih =>
    cases n with
    | zero =>
      simp only [List.getElem?_cons_zero, Option.some.injEq] at found
      subst found
      exact h.1
    | succ n => exact ih h.2 (by simpa using found)

/-- A run is guarded when the guard holds at each of its positions. -/
theorem guarded_iff_at {s : σ} {labels : List ℓ} :
    M.Guarded C s labels ↔
      ∀ n l, labels[n]? = some l → C (M.exec s (labels.take n)) l := by
  constructor
  · intro guarded n l found
    exact guarded.at found
  · intro all
    induction labels generalizing s with
    | nil => trivial
    | cons l labels ih =>
      refine ⟨all 0 l rfl, ih ?_⟩
      intro n later found
      exact all (n + 1) later found

/-- Induction over a guarded run from its last step: what holds of the empty run and is
    carried from a run to its extension by one guarded step holds of every guarded run. -/
theorem Guarded.induction {s : σ} {P : List ℓ → Prop} (nil : P [])
    (concat : ∀ labels l, M.Guarded C s labels → C (M.exec s labels) l → P labels →
      P (labels ++ [l])) {labels : List ℓ} (h : M.Guarded C s labels) : P labels := by
  induction labels using List.reverseRecOn with
  | nil => exact nil
  | append_singleton labels l ih =>
    obtain ⟨before, last⟩ := guarded_concat.mp h
    exact concat labels l before last (ih before)

/-- An invariant preserved by every guarded step holds in the last state of a guarded run. -/
theorem Guarded.invariant {s : σ} {I : σ → Prop} (init : I s)
    (step : ∀ t l, C t l → I t → I (M.step t l)) {labels : List ℓ}
    (h : M.Guarded C s labels) : I (M.exec s labels) := by
  refine Guarded.induction (P := fun labels => I (M.exec s labels)) init ?_ h
  intro labels l _ guard holds
  rw [exec_concat]
  exact step _ l guard holds

/-- The same in every state passed on the way. -/
theorem Guarded.invariant_take {s : σ} {I : σ → Prop} (init : I s)
    (step : ∀ t l, C t l → I t → I (M.step t l)) {labels : List ℓ}
    (h : M.Guarded C s labels) (n : Nat) : I (M.exec s (labels.take n)) :=
  (h.take n).invariant init step

/-- Two guards that mean the same wherever an invariant holds guard the same runs. -/
theorem guarded_congr {D : σ → ℓ → Prop} {I : σ → Prop}
    (same : ∀ t l, I t → (C t l ↔ D t l)) (step : ∀ t l, C t l → I t → I (M.step t l)) {s : σ}
    (init : I s) (labels : List ℓ) : M.Guarded C s labels ↔ M.Guarded D s labels := by
  induction labels generalizing s with
  | nil => exact Iff.rfl
  | cons l labels ih =>
    have here := same s l init
    constructor
    · rintro ⟨guard, later⟩
      exact ⟨here.mp guard, (ih (step s l guard init)).mp later⟩
    · rintro ⟨guard, later⟩
      exact ⟨here.mpr guard, (ih (step s l (here.mpr guard) init)).mpr later⟩

/-! ## Observations -/

section Observations

variable {ε β : Type} (event : σ → ℓ → Option ε)

/-- What is observed of the steps of a run, in their order. -/
def observed (M : Machine σ ℓ) (event : σ → ℓ → Option ε) : σ → List ℓ → List ε
  | _, [] => []
  | s, l :: labels => (event s l).toList ++ observed M event (M.step s l) labels

theorem observed_append (s : σ) (first second : List ℓ) :
    M.observed event s (first ++ second) =
      M.observed event s first ++ M.observed event (M.exec s first) second := by
  induction first generalizing s with
  | nil => rfl
  | cons l labels ih =>
    rw [List.cons_append, observed, observed, ih, exec_cons, List.append_assoc]

/-- A value that every step updates by what is observed of it is a fold of the observations. -/
theorem exec_observed {event : σ → ℓ → Option ε} {update : β → ε → β} (value : σ → β)
    (step : ∀ s l, value (M.step s l) = (event s l).elim (value s) (update (value s))) (s : σ)
    (labels : List ℓ) : value (M.exec s labels) = (M.observed event s labels).foldl update (value
        s) := by
  induction labels generalizing s with
  | nil => rfl
  | cons l labels ih =>
    rw [exec_cons, ih, step, observed, List.foldl_append]
    cases event s l with
    | none => rfl
    | some e => rfl

end Observations

end Machine

end QcloudIot
