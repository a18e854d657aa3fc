import Mathlib

/-!
# The last items of a sequence

A sequence in which an item is not recorded again while it is among the last `n` items recorded.
A store of `n` places that drops the oldest item holds these, behind the places not yet used.
-/

namespace QcloudIot

variable {α : Type}

/-- The last `n` items, or all if there are fewer. -/
def lastOf (n : Nat) (items : List α) : List α := items.drop (items.length - n)

theorem length_lastOf (n : Nat) (items : List α) :
    (lastOf n items).length = min n items.length := by
  rw [lastOf, List.length_drop]
  omega

theorem lastOf_suffix (n : Nat) (items : List α) : lastOf n items <:+ items :=
  List.drop_suffix _ _

/-- One more item drops the oldest one if there are `n`. -/
theorem lastOf_concat (n : Nat) (items : List α) (x : α) :
    lastOf (n + 1) (items ++ [x]) =
      (if n + 1 ≤ items.length then (lastOf (n + 1) items).tail else items) ++ [x] := by
  rw [lastOf, List.length_append, List.length_singleton]
  split
  next full =>
    have next : items.length + 1 - (n + 1) = items.length - (n + 1) + 1 := by omega
    rw [lastOf, List.tail_drop, next, List.drop_append_of_le_length (by omega)]
  next short =>
    have all : items.length + 1 - (n + 1) = 0 := by omega
    rw [all, List.drop_zero]

/-- An item behind which there are fewer than `n` is among the last `n`. -/
theorem mem_lastOf {n : Nat} (before : List α) (x : α) {behind : List α}
    (fewer : behind.length < n) : x ∈ lastOf n (before ++ x :: behind) := by
  have length : (before ++ x :: behind).length - n ≤ before.length := by
    rw [List.length_append, List.length_cons]
    omega
  rw [lastOf, List.drop_append_of_le_length length]
  exact List.mem_append_right _ List.mem_cons_self

/-- The store of `n` places: the places not yet used, and the last items. -/
def paddedTo (n : Nat) (pad : α) (items : List α) : List α :=
  List.replicate (n - items.length) pad ++ lastOf n items

theorem paddedTo_nil (n : Nat) (pad : α) : paddedTo n pad [] = List.replicate n pad := by
  rw [paddedTo, lastOf, List.drop_nil, List.append_nil, List.length_nil, Nat.sub_zero]

theorem mem_paddedTo {n : Nat} {pad x : α} {items : List α} (other : x ≠ pad) :
    x ∈ paddedTo n pad items ↔ x ∈ lastOf n items := by
  rw [paddedTo, List.mem_append]
  exact ⟨fun mem => mem.resolve_left fun unused => other (List.eq_of_mem_replicate unused), .inr⟩

/-- The places in use. -/
theorem filter_paddedTo [DecidableEq α] {n : Nat} {pad : α} {items : List α}
    (others : ∀ x ∈ items, x ≠ pad) :
    (paddedTo n pad items).filter (· ≠ pad) = lastOf n items := by
  have unused : (List.replicate (n - items.length) pad).filter (· ≠ pad) = [] := by
    rw [List.filter_replicate, if_neg (by simp)]
  have used : (lastOf n items).filter (· ≠ pad) = lastOf n items :=
    List.filter_eq_self.mpr fun x mem =>
      decide_eq_true (others x ((lastOf_suffix n items).subset mem))
  rw [paddedTo, List.filter_append, unused, used, List.nil_append]

/-- The oldest place is used for one more item. -/
theorem paddedTo_concat (n : Nat) (pad : α) (items : List α) (x : α) :
    paddedTo (n + 1) pad (items ++ [x]) = (paddedTo (n + 1) pad items).tail ++ [x] := by
  rw [paddedTo, paddedTo, lastOf_concat, List.length_append, List.length_singleton]
  by_cases full : n + 1 ≤ items.length
  · have none : n + 1 - (items.length + 1) = 0 := by omega
    have none' : n + 1 - items.length = 0 := by omega
    rw [if_pos full, none, none', List.replicate_zero, List.nil_append, List.nil_append]
  · have fewer : n + 1 - items.length = (n + 1 - (items.length + 1)) + 1 := by omega
    have all : lastOf (n + 1) items = items := by
      rw [lastOf, Nat.sub_eq_zero_of_le (by omega), List.drop_zero]
    rw [if_neg full, fewer, List.replicate_succ, List.cons_append, List.tail_cons, all,
      List.append_assoc]

variable [DecidableEq α]

/-- The items recorded after one more has been seen. -/
def record (n : Nat) (items : List α) (x : α) : List α :=
  if x ∈ lastOf n items then items else items ++ [x]

/-- The items recorded of those seen. -/
def recordings (n : Nat) (seen : List α) : List α := seen.foldl (record n) []

theorem recordings_concat (n : Nat) (seen : List α) (x : α) :
    recordings n (seen ++ [x]) = record n (recordings n seen) x := by
  rw [recordings, List.foldl_append, List.foldl_cons, List.foldl_nil, recordings]

theorem recordings_subset (n : Nat) (seen : List α) : recordings n seen ⊆ seen := by
  induction seen using List.reverseRecOn with
  | nil => exact List.Subset.refl _
  | append_singleton seen x ih =>
    rw [recordings_concat, record]
    split
    · exact List.subset_append_of_subset_left _ ih
    · exact List.append_subset.mpr
        ⟨List.subset_append_of_subset_left _ ih, List.subset_append_right _ _⟩

/-- What has been recorded stays. -/
theorem recordings_grow (n : Nat) (seen more : List α) :
    recordings n seen <+: recordings n (seen ++ more) := by
  induction more using List.reverseRecOn with
  | nil => rw [List.append_nil]
  | append_singleton more x ih =>
    rw [← List.append_assoc, recordings_concat, record]
    split
    · exact ih
    · exact ih.trans (List.prefix_append _ _)

/-- The last items recorded are distinct. -/
theorem nodup_lastOf_recordings (n : Nat) (seen : List α) :
    (lastOf (n + 1) (recordings (n + 1) seen)).Nodup := by
  induction seen using List.reverseRecOn with
  | nil =>
    rw [recordings, List.foldl_nil, lastOf, List.drop_nil]
    exact List.nodup_nil
  | append_singleton seen x ih =>
    rw [recordings_concat, record]
    split
    next known => exact ih
    next new =>
      have apart : ∀ front, front <:+ lastOf (n + 1) (recordings (n + 1) seen) →
          (front ++ [x]).Nodup := by
        intro front isFront
        refine List.nodup_append.mpr ⟨ih.sublist isFront.sublist, List.nodup_singleton x, ?_⟩
        intro y mem z isLast same
        obtain rfl := List.mem_singleton.mp isLast
        exact new (same ▸ isFront.subset mem)
      rw [lastOf_concat]
      refine apart _ ?_
      split
      next full => exact List.tail_suffix _
      next short =>
        rw [lastOf, Nat.sub_eq_zero_of_le (by omega), List.drop_zero]

/-- An item that has been recorded is not recorded again until `n` others are. -/
theorem mem_lastOf_recordings {n : Nat} {seen more : List α} {x : α}
    (new : x ∉ lastOf n (recordings n seen))
    (fewer : (recordings n (seen ++ [x] ++ more)).length <
      (recordings n (seen ++ [x])).length + n) :
    x ∈ lastOf n (recordings n (seen ++ [x] ++ more)) := by
  obtain ⟨later, grown⟩ := recordings_grow n (seen ++ [x]) more
  rw [← grown, List.length_append] at fewer
  rw [← grown, recordings_concat, record, if_neg new, List.append_assoc, List.singleton_append]
  exact mem_lastOf _ x (by omega)

end QcloudIot
