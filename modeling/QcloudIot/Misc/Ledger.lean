import Mathlib

/-!
# Ledgers of owned identities

An allocator mints identities in increasing order, and an identity it has minted has at most
one owner: a structure it is stored in, or the list of what was given back. The ledger lists
the identities with an owner. A step that only moves identities between owners, or loses
some, keeps the ledger; an allocation adds the next identity.
-/

namespace QcloudIot

/-- Every identity in `owned` has one owner and was minted before `next`. -/
structure Ledger (owned : List Nat) (next : Nat) : Prop where
  once : owned.Nodup
  minted : ∀ ident ∈ owned, ident < next

variable {owned owned' : List Nat} {next : Nat}

theorem ledger_nil (next : Nat) : Ledger [] next := ⟨List.nodup_nil, by simp⟩

/-- Identities are moved or lost. -/
theorem Ledger.move (ledger : Ledger owned next)
    (moved : ∀ ident, owned'.count ident ≤ owned.count ident) : Ledger owned' next := by
  refine ⟨List.nodup_iff_count_le_one.mpr fun ident => ?_, fun ident member => ?_⟩
  · exact (moved ident).trans (List.nodup_iff_count_le_one.mp ledger.once ident)
  · have counted := List.count_pos_iff.mpr member
    exact ledger.minted ident (List.count_pos_iff.mp (Nat.lt_of_lt_of_le counted (moved ident)))

/-- The next identity is minted. -/
theorem Ledger.mint (ledger : Ledger owned next) : Ledger (owned ++ [next]) (next + 1) where
  once := by
    rw [List.nodup_append_comm, List.singleton_append, List.nodup_cons]
    exact ⟨fun member => absurd (ledger.minted next member) (Nat.lt_irrefl next), ledger.once⟩
  minted := by
    intro ident member
    rcases List.mem_append.mp member with old | new
    · exact Nat.lt_succ_of_lt (ledger.minted ident old)
    · rw [List.mem_singleton.mp new]
      exact Nat.lt_succ_self next

/-- Two parts of the ledger have no identity in common. -/
theorem Ledger.apart {first second : List Nat} (ledger : Ledger (first ++ second) next)
    {ident : Nat} (member : ident ∈ first) : ident ∉ second :=
  fun other => (List.nodup_append.mp ledger.once).2.2 ident member ident other rfl

/-! ## Owners in slots -/

section Slots

variable {α : Type} {n : Nat}

/-- The slots that have a property. -/
def slotsWith (P : α → Prop) [DecidablePred P] (slots : Fin n → α) : Finset (Fin n) :=
  Finset.univ.filter fun i => P (slots i)

variable {P : α → Prop} [DecidablePred P]

theorem mem_slotsWith {slots : Fin n → α} {i : Fin n} : i ∈ slotsWith P slots ↔ P (slots i) := by
  rw [slotsWith, Finset.mem_filter]
  exact and_iff_right (Finset.mem_univ i)

/-- One slot is replaced. -/
theorem card_slotsWith_update (slots : Fin n → α) (i : Fin n) (slot : α) :
    (slotsWith P (Function.update slots i slot)).card + (if P (slots i) then 1 else 0) =
      (slotsWith P slots).card + if P slot then 1 else 0 := by
  have others : ∑ j ∈ Finset.univ.erase i, (if P (Function.update slots i slot j) then 1 else 0) =
      ∑ j ∈ Finset.univ.erase i, if P (slots j) then 1 else 0 := by
    apply Finset.sum_congr rfl
    intro j other
    rw [Function.update_of_ne (Finset.ne_of_mem_erase other)]
  have before := Finset.add_sum_erase Finset.univ (fun j => if P (slots j) then 1 else 0)
    (Finset.mem_univ i)
  have after := Finset.add_sum_erase Finset.univ
    (fun j => if P (Function.update slots i slot j) then 1 else 0) (Finset.mem_univ i)
  simp only [Function.update_self] at after
  rw [slotsWith, slotsWith, Finset.card_filter, Finset.card_filter]
  omega

theorem card_slotsWith_eq_zero {slots : Fin n → α} (none : ∀ i, ¬P (slots i)) :
    (slotsWith P slots).card = 0 := by
  rw [slotsWith, Finset.card_eq_zero, Finset.filter_eq_empty_iff]
  exact fun i _ => none i

/-- Where no slot but one has the property, none or one slot has it. -/
theorem card_slotsWith_single {slots : Fin n → α} {i : Fin n}
    (others : ∀ j, j ≠ i → ¬P (slots j)) :
    (slotsWith P slots).card = if P (slots i) then 1 else 0 := by
  by_cases here : P (slots i)
  · have only : slotsWith P slots = {i} := by
      ext j
      rw [mem_slotsWith, Finset.mem_singleton]
      constructor
      · intro there
        by_contra apart
        exact others j apart there
      · rintro rfl
        exact here
    rw [only, if_pos here, Finset.card_singleton]
  · rw [if_neg here]
    apply card_slotsWith_eq_zero
    intro j there
    by_cases same : j = i
    · exact here (same ▸ there)
    · exact others j same there

/-- The slot that is found is the first one. -/
theorem false_of_lt_find {test : Fin n → Bool} {i j : Fin n}
    (found : (List.finRange n).find? test = some i) (before : j < i) : test j = false := by
  obtain ⟨-, place, inside, isPlace, earlier⟩ := List.find?_eq_some_iff_getElem.mp found
  rw [List.getElem_finRange] at isPlace
  have same : place = i.val := congrArg Fin.val isPlace
  have tested := earlier j.val (by omega)
  rw [List.getElem_finRange] at tested
  simpa using tested

end Slots

end QcloudIot
