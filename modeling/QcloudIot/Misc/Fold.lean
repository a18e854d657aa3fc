import Mathlib

/-!
# Events handled in turn

A list of events is handled one after the other, and a handler that fails ends it. Where every event
is either fatal or handled with some effect, the events of a list without a fatal one are handled with
their effects composed.
-/

namespace QcloudIot

variable {σ ε φ : Type} {handle : σ → ε → Except φ σ} {Fatal : ε → Prop} {I : σ → Prop}
  {Effect : List ε → σ → σ → Prop}

/-- An event is fatal, or it is handled, keeps the invariant and has its effect. -/
def Handles (handle : σ → ε → Except φ σ) (Fatal : ε → Prop) (I : σ → Prop)
    (Effect : List ε → σ → σ → Prop) : Prop :=
  ∀ s event, I s → (Fatal event ∧ ∃ fault, handle s event = .error fault) ∨
    ¬Fatal event ∧ ∃ after, handle s event = .ok after ∧ I after ∧ Effect [event] s after

/-- Induction on the events. -/
theorem Handles.foldlM (handles : Handles handle Fatal I Effect) (nil : ∀ s, Effect [] s s)
    (cons : ∀ event events s mid after, Effect [event] s mid → Effect events mid after →
      Effect (event :: events) s after) (events : List ε) {s : σ} (inv : I s) :
    ((∃ event ∈ events, Fatal event) ∧ ∃ fault, events.foldlM handle s = .error fault) ∨
      (∀ event ∈ events, ¬Fatal event) ∧
        ∃ after, events.foldlM handle s = .ok after ∧ I after ∧ Effect events s after := by
  induction events generalizing s with
  | nil => exact .inr ⟨fun _ mem => absurd mem List.not_mem_nil, s, rfl, inv, nil s⟩
  | cons event events ih =>
    simp only [List.foldlM_cons, List.exists_mem_cons_iff, List.forall_mem_cons]
    rcases handles s event inv with ⟨fatal, fault, failed⟩ | ⟨safe, mid, handled, inv, first⟩
    · rw [failed]
      exact .inl ⟨.inl fatal, fault, rfl⟩
    · rw [handled]
      rcases ih inv with ⟨fatal, fault, failed⟩ | ⟨rest, after, ends, inv, later⟩
      · exact .inl ⟨.inr fatal, fault, failed⟩
      · exact .inr ⟨⟨safe, rest⟩, after, ends, inv, cons event events s mid after first later⟩

end QcloudIot
