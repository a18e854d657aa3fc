import Mathlib

/-!
# Progress in percent

Blocks go through one after the other, and on the way the part of the whole that has gone through
is reported in percent. A transfer computes it in words of `w` bits: the product by 100 is cut to
the width of a word. It is right exactly as long as the product fits.
-/

namespace QcloudIot.Progress

/-- The percentage of `size` that `bytes` are. -/
def percent (size bytes : Nat) : Nat := 100 * bytes / size

/-- The same in words of `w` bits. -/
def wordPercent (w size bytes : Nat) : Nat := bytes * 100 % 2 ^ w / size

theorem wordPercent_eq {w bytes : Nat} (fits : 100 * bytes < 2 ^ w) (size : Nat) :
    wordPercent w size bytes = percent size bytes := by
  rw [wordPercent, percent, Nat.mul_comm bytes, Nat.mod_eq_of_lt fits]

/-- A product that does not fit is cut by more than the size. -/
theorem wordPercent_lt {w size bytes : Nat} (positive : 0 < size) (small : size < 2 ^ w)
    (wraps : 2 ^ w ≤ 100 * bytes) : wordPercent w size bytes < percent size bytes := by
  have below : 100 * bytes % 2 ^ w + size ≤ 100 * bytes := by
    have lost := Nat.mod_add_div (100 * bytes) (2 ^ w)
    have once : 1 ≤ 100 * bytes / 2 ^ w := (Nat.one_le_div_iff (by positivity)).mpr wraps
    have much := Nat.le_mul_of_pos_right (2 ^ w) once
    omega
  calc wordPercent w size bytes
    _ = 100 * bytes % 2 ^ w / size := by rw [wordPercent, Nat.mul_comm bytes]
    _ < (100 * bytes % 2 ^ w + size) / size := by
      rw [Nat.add_div_right _ positive]
      exact Nat.lt_succ_self _
    _ ≤ percent size bytes := Nat.div_le_div_right below

theorem percent_mono {size bytes bytes' : Nat} (more : bytes ≤ bytes') :
    percent size bytes ≤ percent size bytes' :=
  Nat.div_le_div_right (Nat.mul_le_mul_left 100 more)

theorem percent_le {size bytes : Nat} (inside : bytes ≤ size) : percent size bytes ≤ 100 :=
  Nat.div_le_of_le_mul (by rw [Nat.mul_comm size]; exact Nat.mul_le_mul_left 100 inside)

/-- A product that does not fit stands for a percentage that is not zero. -/
theorem percent_pos {w size bytes : Nat} (small : size < 2 ^ w) (wraps : 2 ^ w ≤ 100 * bytes)
    (positive : 0 < size) : 0 < percent size bytes :=
  Nat.div_pos (Nat.le_of_lt (Nat.lt_of_lt_of_le small wraps)) positive

theorem wordPercent_le {size bytes : Nat} (w : Nat) (inside : bytes ≤ size) :
    wordPercent w size bytes ≤ 100 := by
  rw [wordPercent, Nat.mul_comm bytes]
  exact Nat.le_trans (Nat.div_le_div_right (Nat.mod_le _ _)) (percent_le inside)

/-! ## Reports -/

/-- What is reported at a block: at the first one that nothing has gone through, and then the
    percentage that has. -/
def told (bytes now : Nat) : List Nat := (if bytes = 0 then [0] else []) ++ [now]

/-- The percents reported while blocks go through, `bytes` of which had gone through before. -/
inductive Reported (size : Nat) : Nat → List Nat → List Nat → Prop
  | nil (bytes : Nat) : Reported size bytes [] []
  | cons {bytes block : Nat} {blocks now later : List Nat}
      (first : now.Sublist (told bytes (percent size (bytes + block))))
      (rest : Reported size (bytes + block) blocks later) :
      Reported size bytes (block :: blocks) (now ++ later)

/-- What is told is the percentage without the block or with it. -/
theorem mem_told {size bytes block p : Nat}
    (member : p ∈ told bytes (percent size (bytes + block))) :
    p = percent size bytes ∨ p = percent size (bytes + block) := by
  rw [told] at member
  rcases List.mem_append.mp member with begins | now
  · split at begins
    · next start =>
      rw [start, percent, Nat.mul_zero, Nat.zero_div]
      exact .inl (List.mem_singleton.mp begins)
    · exact absurd begins List.not_mem_nil
  · exact .inr (List.mem_singleton.mp now)

theorem told_sorted (bytes now : Nat) : (told bytes now).Pairwise (· ≤ ·) := by
  rw [told]
  split
  · exact List.pairwise_pair.mpr (Nat.zero_le now)
  · exact List.pairwise_singleton _ _

variable {size bytes : Nat} {blocks percents : List Nat}

theorem Reported.first_le (reported : Reported size bytes blocks percents) :
    ∀ p ∈ percents, percent size bytes ≤ p := by
  induction reported with
  | nil bytes => exact fun p member => absurd member List.not_mem_nil
  | cons first _ ih =>
    intro p member
    rcases List.mem_append.mp member with now | later
    · rcases mem_told (first.subset now) with rfl | rfl
      · exact Nat.le_refl _
      · exact percent_mono (Nat.le_add_right _ _)
    · exact Nat.le_trans (percent_mono (Nat.le_add_right _ _)) (ih p later)

/-- What is reported never decreases. -/
theorem Reported.sorted (reported : Reported size bytes blocks percents) :
    percents.Pairwise (· ≤ ·) := by
  induction reported with
  | nil bytes => exact .nil
  | cons first rest ih =>
    refine List.pairwise_append.mpr
      ⟨(told_sorted _ _).sublist first, ih, fun p isNow q isLater => ?_⟩
    refine Nat.le_trans ?_ (rest.first_le q isLater)
    rcases mem_told (first.subset isNow) with rfl | rfl
    · exact percent_mono (Nat.le_add_right _ _)
    · exact Nat.le_refl _

/-- Nothing beyond 100 percent is reported. -/
theorem Reported.le_hundred (reported : Reported size bytes blocks percents)
    (inside : bytes + blocks.sum ≤ size) : ∀ p ∈ percents, p ≤ 100 := by
  induction reported with
  | nil bytes => exact fun p member => absurd member List.not_mem_nil
  | cons first _ ih =>
    rw [List.sum_cons] at inside
    intro p member
    rcases List.mem_append.mp member with now | later
    · rcases mem_told (first.subset now) with rfl | rfl
      · exact percent_le (by omega)
      · exact percent_le (by omega)
    · exact ih (by omega) p later

/-! ## Transfers -/

/-- A transfer: the size announced, the bytes gone through, the calls that put a block through and
    those that divide by zero at one, and what percents are reported from one state to another. -/
structure Transfer (σ : Type) where
  size : σ → Nat
  bytes : σ → Nat
  yields : σ → Nat → σ → Prop
  divides : σ → Nat → Prop
  reports : σ → σ → List Nat → Prop

namespace Transfer

variable {σ : Type} (T : Transfer σ)

/-- Blocks go through one after the other. -/
inductive Run : σ → List Nat → σ → Prop
  | nil (s : σ) : Run s [] s
  | cons {s s' s'' : σ} {block : Nat} {blocks : List Nat} (first : T.yields s block s')
      (rest : Run s' blocks s'') : Run s (block :: blocks) s''

/-- The progress of a run is right: no next block that still fits divides by zero, and the percents
    reported are those of the bytes so far, from 0 to 100 and never decreasing. -/
def Right (s : σ) (blocks : List Nat) (s' : σ) : Prop :=
  (∀ block, T.bytes s + blocks.sum + block ≤ T.size s → ¬ T.divides s' block) ∧
    ∃ percents, T.reports s s' percents ∧ Reported (T.size s) (T.bytes s) blocks percents ∧
      (∀ p ∈ percents, p ≤ 100) ∧ percents.Pairwise (· ≤ ·)

/-- The progress is right in all runs for a size. -/
def RightFor (size : Nat) : Prop :=
  ∀ s s' blocks, T.size s = size → T.Run s blocks s' → T.bytes s + blocks.sum ≤ size →
    T.Right s blocks s'

/-- The progress is right in all runs in which the products fit. -/
def RightInside (w : Nat) : Prop :=
  ∀ s s' blocks, T.Run s blocks s' → 0 < T.size s → T.bytes s + blocks.sum ≤ T.size s →
    100 * (T.bytes s + blocks.sum) < 2 ^ w → T.Right s blocks s'

/-- The transfer computes its percents in words of `w` bits. It ends where nothing more can go
    through. -/
structure Lawful (w : Nat) : Prop where
  refl : ∀ s, T.reports s s []
  trans : ∀ s s' s'' now later,
    T.reports s s' now → T.reports s' s'' later → T.reports s s'' (now ++ later)
  divides : ∀ s block, T.divides s block → T.size s = 0
  step : ∀ s block s', T.yields s block s' → T.bytes s + block ≤ T.size s →
    (∃ now, T.reports s s' now ∧
      now.Sublist (told (T.bytes s) (wordPercent w (T.size s) (T.bytes s + block)))) ∧
    ((T.size s' = T.size s ∧ T.bytes s' = T.bytes s + block) ∨
      ∀ next, (∀ s'', ¬ T.yields s' next s'') ∧ ¬ T.divides s' next)

variable {T} {w : Nat}

/-- In every run in which the products fit the progress is right. -/
theorem Lawful.rightInside (lawful : T.Lawful w) : T.RightInside w := by
  intro s s' blocks run
  induction run with
  | nil s =>
    intro positive _ _
    refine ⟨fun block _ divides => ?_, [], lawful.refl s, .nil _, ?_, .nil⟩
    · exact absurd (lawful.divides s block divides) (Nat.ne_of_gt positive)
    · exact fun p member => absurd member List.not_mem_nil
  | @cons s s' s'' block blocks first rest ih =>
    intro positive inside fits
    have isSum : T.bytes s + (block :: blocks).sum = T.bytes s + block + blocks.sum := by
      rw [List.sum_cons, Nat.add_assoc]
    rw [isSum] at inside fits
    obtain ⟨⟨now, isNow, sublist⟩, next⟩ := lawful.step s block s' first (by omega)
    rw [wordPercent_eq (by omega)] at sublist
    have right : ∀ later, T.reports s' s'' later →
        Reported (T.size s) (T.bytes s + block) blocks later →
        ∃ percents, T.reports s s'' percents ∧
          Reported (T.size s) (T.bytes s) (block :: blocks) percents ∧
            (∀ p ∈ percents, p ≤ 100) ∧ percents.Pairwise (· ≤ ·) := by
      intro later isLater reported
      have whole := Reported.cons sublist reported
      exact ⟨now ++ later, lawful.trans _ _ _ _ _ isNow isLater, whole,
        whole.le_hundred (by omega), whole.sorted⟩
    rcases next with ⟨isSize, isBytes⟩ | ends
    · rw [isSize, isBytes] at ih
      obtain ⟨never, later, isLater, reported, -, -⟩ := ih positive inside fits
      refine ⟨fun more room => never more ?_, right later ?_ ?_⟩
      · rw [isSize, isBytes, ← isSum]
        exact room
      · exact isLater
      · rw [isSize, isBytes] at reported
        exact reported
    · cases rest with
      | nil => exact ⟨fun more _ => (ends more).2, right [] (lawful.refl _) (.nil _)⟩
      | cons again _ => exact absurd again ((ends _).1 _)

/-- So the progress is right in all runs for a size whose percents fit. -/
theorem Lawful.rightFor (lawful : T.Lawful w) {size : Nat} (positive : 0 < size)
    (fits : 100 * size < 2 ^ w) : T.RightFor size := by
  intro s s' blocks isSize run inside
  subst isSize
  exact lawful.rightInside s s' blocks run positive inside (by omega)

/-- A block that goes through in the middle of a transfer is reported with its percentage only. -/
theorem RightFor.reported {size block : Nat} {s s' : σ} (right : T.RightFor size)
    (isSize : T.size s = size) (begun : T.bytes s ≠ 0) (yields : T.yields s block s')
    (inside : T.bytes s + block ≤ size) : ∃ percents, T.reports s s' percents ∧
      percents.Sublist [percent size (T.bytes s + block)] := by
  have run : T.Run s [block] s' := .cons yields (.nil s')
  obtain ⟨-, percents, reports, reported, -, -⟩ :=
    right s s' [block] isSize run (by rw [List.sum_singleton]; exact inside)
  refine ⟨percents, reports, ?_⟩
  cases reported with
  | cons first rest =>
    cases rest with
    | nil bytes =>
      rw [List.append_nil]
      rw [isSize, told, if_neg begun, List.nil_append] at first
      exact first

end Transfer

end QcloudIot.Progress
