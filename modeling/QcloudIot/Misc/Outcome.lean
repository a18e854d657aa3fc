import Mathlib

/-!
# Requests and their outcomes

A history of requests that are opened under an identifier and of outcomes that carry one. An
identifier is pending from the request that opens it to the first outcome that carries it;
it may be opened again later. A history is answered if every outcome carries a pending
identifier; then a request has at most one outcome until its identifier is opened again.
-/

namespace QcloudIot

/-- An entry of a history. -/
inductive Mark (ι : Type) where
  | opened (id : ι)
  | outcome (id : ι)
  deriving DecidableEq, Repr

variable {ι : Type}

/-- `id` was opened and has had no outcome since. -/
def Pending (history : List (Mark ι)) (id : ι) : Prop :=
  ∃ before after, history = before ++ .opened id :: after ∧ .outcome id ∉ after

/-- Every outcome carries an identifier that is pending. -/
def Answered (history : List (Mark ι)) : Prop :=
  ∀ before id after, history = before ++ .outcome id :: after → Pending before id

theorem not_pending_nil (id : ι) : ¬ Pending [] id := by
  rintro ⟨before, after, split, -⟩
  exact absurd split (by simp)

theorem answered_nil : Answered ([] : List (Mark ι)) := by
  intro before id after split
  exact absurd split (by simp)

theorem pending_opened (history : List (Mark ι)) (id : ι) :
    Pending (history ++ [.opened id]) id :=
  ⟨history, [], rfl, by simp⟩

/-- A pending identifier stays pending while no outcome carries it. -/
theorem Pending.append {history more : List (Mark ι)} {id : ι} (pending : Pending history id)
    (spared : .outcome id ∉ more) : Pending (history ++ more) id := by
  obtain ⟨before, after, rfl, none⟩ := pending
  refine ⟨before, after ++ more, by simp, ?_⟩
  rw [List.mem_append, not_or]
  exact ⟨none, spared⟩

/-- An identifier that had an outcome is pending only if it was opened after it. -/
theorem Pending.opened_after {before after : List (Mark ι)} {id : ι}
    (pending : Pending (before ++ .outcome id :: after) id) : .opened id ∈ after := by
  obtain ⟨first, last, split, none⟩ := pending
  rcases List.append_eq_append_iff.mp split with ⟨between, rfl, rest⟩ | ⟨between, rfl, rest⟩
  · cases between with
    | nil => simp at rest
    | cons mark between =>
      obtain ⟨-, rfl⟩ := List.cons_eq_cons.mp rest
      simp
  · cases between with
    | nil => simp at rest
    | cons mark between =>
      obtain ⟨-, rfl⟩ := List.cons_eq_cons.mp rest
      simp at none

theorem Answered.append_left {history more : List (Mark ι)} (answered : Answered (history ++ more)) :
    Answered history := by
  intro before id after split
  exact answered before id (after ++ more) (by simp [split])

theorem Answered.concat {history : List (Mark ι)} (answered : Answered history) {mark : Mark ι}
    (pending : ∀ id, mark = .outcome id → Pending history id) : Answered (history ++ [mark]) := by
  intro before id after split
  rcases List.eq_nil_or_concat' after with rfl | ⟨after, last, rfl⟩
  · obtain ⟨rfl, same⟩ := List.append_inj' split rfl
    exact pending id (List.cons.inj same).1
  · rw [← List.cons_append, ← List.append_assoc] at split
    obtain ⟨rfl, -⟩ := List.append_inj' split rfl
    exact answered before id after rfl

/-- Outcomes of different pending identifiers, one after the other. -/
theorem Answered.append_outcomes {history : List (Mark ι)} (answered : Answered history)
    {ids : List ι} (distinct : ids.Nodup) (pending : ∀ id ∈ ids, Pending history id) :
    Answered (history ++ ids.map .outcome) := by
  induction ids generalizing history with
  | nil => simpa using answered
  | cons id ids ih =>
    obtain ⟨fresh, distinct⟩ := List.nodup_cons.mp distinct
    rw [List.map_cons, List.append_cons]
    refine ih (answered.concat ?_) distinct ?_
    · rintro _ ⟨⟩
      exact pending id (by simp)
    · intro id' member
      refine (pending id' (by simp [member])).append ?_
      simp only [List.mem_singleton, Mark.outcome.injEq]
      rintro rfl
      exact fresh member

/-- A request has at most one outcome before its identifier is opened again. -/
theorem Answered.count_outcome_le_one [DecidableEq ι] {before during after : List (Mark ι)} {id : ι}
    (answered : Answered (before ++ .opened id :: during ++ after)) (once : .opened id ∉ during) :
    during.count (.outcome id) ≤ 1 := by
  by_contra many
  replace answered := answered.append_left
  have some : .outcome id ∈ during := List.count_pos_iff.mp (by omega)
  obtain ⟨first, rest, rfl⟩ := List.append_of_mem some
  rw [List.count_append, List.count_cons_self] at many
  have more : .outcome id ∈ first ∨ .outcome id ∈ rest := by
    by_contra none
    rw [not_or] at none
    rw [List.count_eq_zero.mpr none.1, List.count_eq_zero.mpr none.2] at many
    omega
  have reopened : ∀ a b c : List (Mark ι),
      first ++ .outcome id :: rest = a ++ .outcome id :: b ++ .outcome id :: c → False := by
    intro a b c split
    have pending := answered (before ++ .opened id :: a ++ .outcome id :: b) id c
      (by simp only [split, List.append_assoc, List.cons_append])
    refine once ?_
    rw [split]
    have := Pending.opened_after pending
    simp [this]
  rcases more with early | late
  · obtain ⟨a, b, rfl⟩ := List.append_of_mem early
    exact reopened a b rest (by simp)
  · obtain ⟨b, c, rfl⟩ := List.append_of_mem late
    exact reopened first b c (by simp)

/-- What a component knows of a history it has answered so far: the identifiers it waits with
    are different and pending. -/
structure Tracks (waiting : List ι) (history : List (Mark ι)) : Prop where
  distinct : waiting.Nodup
  pending : ∀ id ∈ waiting, Pending history id
  answered : Answered history

theorem tracks_nil : Tracks ([] : List ι) [] :=
  ⟨List.nodup_nil, by simp, answered_nil⟩

/-- A request is opened under an identifier that is not waited with. -/
theorem Tracks.concat_opened {waiting : List ι} {history : List (Mark ι)}
    (tracks : Tracks waiting history) {id : ι} (fresh : id ∉ waiting) :
    Tracks (waiting ++ [id]) (history ++ [.opened id]) where
  distinct := by
    rw [List.nodup_append_comm, List.singleton_append, List.nodup_cons]
    exact ⟨fresh, tracks.distinct⟩
  pending := by
    intro id' member
    rcases List.mem_append.mp member with old | new
    · exact (tracks.pending id' old).append (by simp)
    · rw [List.mem_singleton.mp new]
      exact pending_opened history id
  answered := tracks.answered.concat (by rintro _ ⟨⟩)

/-- Some identifiers are no longer waited with, and an outcome is reported for each of them. -/
theorem Tracks.append_outcomes {waiting rest ids : List ι} {history : List (Mark ι)}
    (tracks : Tracks waiting history) (split : waiting.Perm (rest ++ ids)) :
    Tracks rest (history ++ ids.map .outcome) := by
  have distinct := split.nodup_iff.mp tracks.distinct
  rw [List.nodup_append] at distinct
  obtain ⟨distinctRest, distinctIds, apart⟩ := distinct
  refine ⟨distinctRest, fun id member => ?_, ?_⟩
  · refine (tracks.pending id (split.mem_iff.mpr (by simp [member]))).append ?_
    simp only [List.mem_map, Mark.outcome.injEq, exists_eq_right]
    exact fun reported => apart id member id reported rfl
  · refine tracks.answered.append_outcomes distinctIds fun id member => ?_
    exact tracks.pending id (split.mem_iff.mpr (by simp [member]))

/-- Some identifiers are no longer waited with, and nothing is reported. -/
theorem Tracks.forget {waiting rest ids : List ι} {history : List (Mark ι)}
    (tracks : Tracks waiting history) (split : waiting.Perm (rest ++ ids)) :
    Tracks rest history where
  distinct := (List.nodup_append.mp (split.nodup_iff.mp tracks.distinct)).1
  pending := fun id member => tracks.pending id (split.mem_iff.mpr (by simp [member]))
  answered := tracks.answered

end QcloudIot
