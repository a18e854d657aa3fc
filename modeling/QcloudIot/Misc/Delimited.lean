import QcloudIot.Misc.Text

/-!
# Cutting a text at its delimiters

The ends of the delimiters in a text, and the last of them below a limit that another one reaches. A
delimiter whose first element occurs in it only once cannot overlap with itself.
-/

namespace QcloudIot

section Delimited

variable {α : Type} [DecidableEq α] {needle text behind : List α} {start i e : Nat}

/-- The positions behind the occurrences of a delimiter in a text that begins at `start`. -/
def delimiterEnds (needle : List α) (start : Nat) : List α → List Nat
  | [] => []
  | b :: text =>
    if needle <+: b :: text then
      (start + needle.length) :: delimiterEnds needle (start + 1) text
    else delimiterEnds needle (start + 1) text

theorem delimiterEnds_cons (needle : List α) (start : Nat) (b : α) (text : List α) :
    delimiterEnds needle start (b :: text) =
      if needle <+: b :: text then
        (start + needle.length) :: delimiterEnds needle (start + 1) text
      else delimiterEnds needle (start + 1) text :=
  rfl

theorem delimiterEnds_short (short : text.length < needle.length) :
    delimiterEnds needle start text = [] := by
  induction text generalizing start with
  | nil => rfl
  | cons b text ih =>
    have missing : ¬ needle <+: b :: text := fun here => Nat.not_lt.mpr here.length_le short
    rw [delimiterEnds_cons, if_neg missing]
    exact ih (Nat.lt_of_succ_lt short)

/-- A delimiter ends behind each of its occurrences. -/
theorem exists_of_mem_delimiterEnds (mem : e ∈ delimiterEnds needle start text) :
    ∃ i, e = start + i + needle.length ∧ needle <+: text.drop i := by
  induction text generalizing start with
  | nil => cases mem
  | cons b text ih =>
    rw [delimiterEnds_cons] at mem
    have later : e ∈ delimiterEnds needle (start + 1) text →
        ∃ i, e = start + i + needle.length ∧ needle <+: (b :: text).drop i := by
      intro mem
      obtain ⟨i, isEnd, occurs⟩ := ih mem
      exact ⟨i + 1, by omega, occurs⟩
    split at mem
    · next here =>
      rcases List.mem_cons.mp mem with rfl | mem
      · exact ⟨0, rfl, here⟩
      · exact later mem
    · exact later mem

/-- What follows a text does not change the ends in it. -/
theorem delimiterEnds_append (needle text behind : List α) (start : Nat) :
    ∃ later, delimiterEnds needle start (text ++ behind) =
      delimiterEnds needle start text ++ later := by
  induction text generalizing start with
  | nil => exact ⟨_, rfl⟩
  | cons b text ih =>
    obtain ⟨later, same⟩ := ih (start + 1)
    rw [List.cons_append, delimiterEnds_cons, delimiterEnds_cons]
    by_cases here : needle <+: b :: text
    · have onward : needle <+: b :: (text ++ behind) :=
        here.trans (List.prefix_append (b :: text) behind)
      rw [if_pos here, if_pos onward, same]
      exact ⟨later, rfl⟩
    · by_cases onward : needle <+: b :: (text ++ behind)
      · have short : (b :: text).length < needle.length := by
          by_contra long
          exact here (List.prefix_of_prefix_length_le onward (List.prefix_append (b :: text) behind)
            (Nat.not_lt.mp long))
        rw [if_neg here, if_pos onward, delimiterEnds_short (Nat.lt_of_succ_lt short)]
        exact ⟨_, rfl⟩
      · rw [if_neg here, if_neg onward, same]
        exact ⟨later, rfl⟩

/-- The delimiter at the end of a text. -/
theorem length_mem_delimiterEnds (nonempty : needle ≠ []) (front : List α) :
    start + (front ++ needle).length ∈ delimiterEnds needle start (front ++ needle) := by
  induction front generalizing start with
  | nil =>
    obtain ⟨b, rest, rfl⟩ := List.exists_cons_of_ne_nil nonempty
    rw [List.nil_append, delimiterEnds_cons, if_pos List.prefix_rfl]
    exact List.mem_cons_self
  | cons b front ih =>
    have later : start + (b :: front ++ needle).length ∈
        delimiterEnds needle (start + 1) (front ++ needle) := by
      have shift : start + (b :: front ++ needle).length =
          start + 1 + (front ++ needle).length := by
        rw [List.cons_append, List.length_cons]
        omega
      rw [shift]
      exact ih
    rw [List.cons_append, delimiterEnds_cons]
    split
    · exact List.mem_cons_of_mem _ later
    · exact later

theorem delimiterEnds_of_strstr_none (none : strstr needle text = none) :
    delimiterEnds needle start text = [] := by
  induction text generalizing start with
  | nil => rfl
  | cons b text ih =>
    rw [strstr] at none
    split at none
    · cases none
    · next missing =>
      rw [delimiterEnds_cons, if_neg missing]
      exact ih (Option.map_eq_none_iff.mp none)

/-! ## Delimiters that do not overlap -/

section Single

variable {c : α} {rest : List α}

/-- No delimiter begins where its first element is missing. -/
theorem delimiterEnds_skip {front : List α} (missing : c ∉ front) :
    delimiterEnds (c :: rest) start (front ++ text) =
      delimiterEnds (c :: rest) (start + front.length) text := by
  induction front generalizing start with
  | nil => rfl
  | cons b front ih =>
    rw [List.mem_cons, not_or] at missing
    have other : ¬ c :: rest <+: b :: (front ++ text) :=
      fun here => missing.1 (List.cons_prefix_cons.mp here).1
    rw [List.cons_append, delimiterEnds_cons, if_neg other, ih missing.2, List.length_cons]
    congr 1
    omega

theorem delimiterEnds_here (single : c ∉ rest) :
    delimiterEnds (c :: rest) start (c :: rest ++ text) =
      (start + (c :: rest).length) ::
        delimiterEnds (c :: rest) (start + (c :: rest).length) text := by
  have here : c :: rest <+: c :: (rest ++ text) := List.prefix_append (c :: rest) text
  rw [List.cons_append, delimiterEnds_cons, if_pos here, delimiterEnds_skip single, List.length_cons]
  congr 2
  omega

/-- The first delimiter is where `strstr` finds it, and the others follow. -/
theorem delimiterEnds_of_strstr (single : c ∉ rest)
    (found : strstr (c :: rest) text = some i) :
    delimiterEnds (c :: rest) start text = (start + i + (c :: rest).length) ::
      delimiterEnds (c :: rest) (start + i + (c :: rest).length)
        (text.drop (i + (c :: rest).length)) := by
  induction text generalizing start i with
  | nil =>
    rw [strstr, if_neg (List.cons_ne_nil c rest)] at found
    cases found
  | cons b text ih =>
    rw [strstr] at found
    by_cases here : c :: rest <+: b :: text
    · rw [if_pos here] at found
      cases found
      obtain ⟨behind, isText⟩ := here
      rw [← isText, delimiterEnds_here single, Nat.add_zero, Nat.zero_add, List.drop_left]
    · rw [if_neg here] at found
      obtain ⟨j, later, rfl⟩ := Option.map_eq_some_iff.mp found
      rw [delimiterEnds_cons, if_neg here, ih later]
      have shift : start + 1 + j = start + (j + 1) := by omega
      have drop : j + 1 + (c :: rest).length = j + (c :: rest).length + 1 := by omega
      rw [shift, drop, List.drop_succ_cons]

/-- Between the ends of two delimiters there is room for the second one. -/
theorem delimiterEnds_pairwise (single : c ∉ rest) (start : Nat) (text : List α) :
    (start :: delimiterEnds (c :: rest) start text).Pairwise
      fun first second => first + (c :: rest).length ≤ second := by
  induction text generalizing start with
  | nil => exact List.pairwise_singleton _ _
  | cons b text ih =>
    by_cases here : c :: rest <+: b :: text
    · obtain ⟨behind, isText⟩ := here
      rw [List.cons_append, List.cons.injEq] at isText
      obtain ⟨rfl, rfl⟩ := isText
      have later := (ih (start + 1)).of_cons
      rw [delimiterEnds_skip single] at later
      rw [← List.cons_append, delimiterEnds_here single]
      have bound : ∀ e ∈ delimiterEnds (c :: rest) (start + (c :: rest).length) behind,
          start + (c :: rest).length + (c :: rest).length ≤ e := by
        intro e mem
        obtain ⟨i, rfl, _⟩ := exists_of_mem_delimiterEnds mem
        omega
      refine List.pairwise_cons.mpr ⟨?_, List.pairwise_cons.mpr ⟨bound, ?_⟩⟩
      · intro e mem
        rcases List.mem_cons.mp mem with rfl | mem
        · exact Nat.le_refl _
        · exact (Nat.le_add_right _ _).trans (bound e mem)
      · have same : start + 1 + rest.length = start + (c :: rest).length := by
          rw [List.length_cons]
          omega
        rw [← same]
        exact later
    · have later := ih (start + 1)
      rw [delimiterEnds_cons, if_neg here]
      refine List.pairwise_cons.mpr ⟨?_, later.of_cons⟩
      intro e mem
      have bound := (List.pairwise_cons.mp later).1 e mem
      omega

end Single

/-! ## The cut -/

/-- The last end below the limit, if the limit is reached by another one; `last` is the last end so
    far. -/
def cutBelow (limit : Nat) : Nat → List Nat → Option Nat
  | _, [] => none
  | last, e :: later => if e < limit then cutBelow limit e later else some last

section Cut

variable {limit last cut gap : Nat} {ends : List Nat}

theorem cutBelow_cons (limit last e : Nat) (later : List Nat) :
    cutBelow limit last (e :: later) = if e < limit then cutBelow limit e later else some last :=
  rfl

theorem cutBelow_append (found : cutBelow limit last ends = some cut) (later : List Nat) :
    cutBelow limit last (ends ++ later) = some cut := by
  induction ends generalizing last with
  | nil => cases found
  | cons e ends ih =>
    rw [cutBelow_cons] at found
    rw [List.cons_append, cutBelow_cons]
    split at found
    · next below =>
      rw [if_pos below]
      exact ih found
    · next reached =>
      rw [if_neg reached]
      exact found

theorem exists_cutBelow (mem : e ∈ ends) (reached : limit ≤ e) :
    ∃ cut, cutBelow limit last ends = some cut := by
  induction ends generalizing last with
  | nil => cases mem
  | cons first ends ih =>
    rw [cutBelow_cons]
    split
    · next below =>
      rcases List.mem_cons.mp mem with rfl | mem
      · exact absurd below (Nat.not_lt.mpr reached)
      · exact ih mem
    · exact ⟨last, rfl⟩

/-- The cut is one of the ends, and the one that reaches the limit is behind it. -/
theorem cutBelow_spec (spread : (last :: ends).Pairwise fun first second => first + gap ≤ second)
    (found : cutBelow limit last ends = some cut) :
    (cut = last ∨ cut ∈ ends) ∧ ∃ e ∈ ends, limit ≤ e ∧ cut + gap ≤ e := by
  induction ends generalizing last with
  | nil => cases found
  | cons first ends ih =>
    rw [cutBelow_cons] at found
    obtain ⟨front, later⟩ := List.pairwise_cons.mp spread
    split at found
    · obtain ⟨isEnd, e, mem, reached, room⟩ := ih later found
      refine ⟨?_, e, List.mem_cons_of_mem _ mem, reached, room⟩
      rcases isEnd with rfl | isEnd
      · exact .inr List.mem_cons_self
      · exact .inr (List.mem_cons_of_mem _ isEnd)
    · next reached =>
      cases found
      exact ⟨.inl rfl, first, List.mem_cons_self, Nat.not_lt.mp reached,
        front first List.mem_cons_self⟩

/-- The cut is not in front of an end below the limit. -/
theorem le_cutBelow (spread : (last :: ends).Pairwise fun first second => first + gap ≤ second)
    (found : cutBelow limit last ends = some cut) (mem : e ∈ ends) (below : e < limit) : e ≤ cut := by
  induction ends generalizing last with
  | nil => cases mem
  | cons first ends ih =>
    have later := (List.pairwise_cons.mp spread).2
    rw [cutBelow_cons] at found
    split at found
    · rcases List.mem_cons.mp mem with rfl | mem
      · rcases (cutBelow_spec later found).1 with rfl | isEnd
        · exact Nat.le_refl _
        · exact (Nat.le_add_right _ gap).trans ((List.pairwise_cons.mp later).1 cut isEnd)
      · exact ih later found mem
    · next reached =>
      rcases List.mem_cons.mp mem with rfl | mem
      · exact absurd below reached
      · have bound := (List.pairwise_cons.mp later).1 e mem
        omega

end Cut

end Delimited

end QcloudIot
