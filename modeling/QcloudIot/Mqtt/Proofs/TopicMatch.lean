import QcloudIot.Mqtt.Topic

/-!
# What `_is_topic_matched` decides

MQTT matches a topic filter with a topic name level by level (`levelsMatch`). The scan of
`_is_topic_matched` works on bytes instead and, when it stops early, decides by looking at
the one or two filter bytes where it stopped. The main lemma `matched_levels` follows the
scan level by level: it accepts every topic that matches, and in addition those described
by `overmatched`.
-/

namespace QcloudIot.Mqtt

/-- The bytes between two separators. -/
abbrev Level := List UInt8

/-- A topic filter or topic name split at `'/'`. -/
def levels (bytes : List UInt8) : List Level := bytes.splitOn slash

/-- A filter level stands for a topic level: `'+'` for any, another level for itself. -/
def levelMatches (f t : Level) : Bool := f == [plus] || f == t

/-- The levels of a filter match the levels of a topic name; a last level `'#'` stands for
    all the remaining levels, also for none. -/
def levelsMatch : List Level → List Level → Bool
  | [], [] => true
  | [], _ :: _ => false
  | f :: fs, [] => f == [hash] && fs.isEmpty
  | f :: fs, t :: ts => (f == [hash] && fs.isEmpty) || (levelMatches f t && levelsMatch fs ts)

/-- `'+'` takes a whole level and `'#'` the whole last level. -/
def WellFormedLevels : List Level → Prop
  | [] => True
  | f :: fs => (plus ∈ f → f = [plus]) ∧ (hash ∈ f → f = [hash] ∧ fs = []) ∧ WellFormedLevels fs

instance WellFormedLevels.decidable : (fs : List Level) → Decidable (WellFormedLevels fs)
  | [] => .isTrue trivial
  | _ :: fs =>
    have := WellFormedLevels.decidable fs
    inferInstanceAs (Decidable (_ ∧ _ ∧ _))

/-- A topic filter with its wildcards where MQTT allows them. -/
abbrev WellFormedFilter (topicFilter : CStr) : Prop := WellFormedLevels (levels topicFilter.bytes)

/-- The two ways in which the scan accepts a topic that the filter does not match. After a
    number of matching levels, either the filter ends in `literal/#` and the topic goes on
    with a level that properly extends `literal`, or the filter level is `'+'`, the topic
    ends in an empty level, and the filter goes on with more than `'#'`. -/
def overmatched : List Level → List Level → Bool
  | f :: fs, t :: ts =>
    (fs == [[hash]] && f != [plus] && f != t && f.isPrefixOf t) ||
    (f == [plus] && t == [] && ts == [] && fs != [] && fs != [[hash]]) ||
    (levelMatches f t && overmatched fs ts)
  | _, _ => false

/-- The topic filter matches the topic name. -/
def topicMatches (topicFilter : CStr) (topicName : List UInt8) : Bool :=
  levelsMatch (levels topicFilter.bytes) (levels topicName)

/-- The topic name is accepted although the topic filter does not match it. -/
def topicOvermatched (topicFilter : CStr) (topicName : List UInt8) : Bool :=
  overmatched (levels topicFilter.bytes) (levels topicName)

/-! ## Levels and bytes -/

/-- The bytes that follow a level: nothing, or a separator and the levels after it. -/
def afterLevel : List Level → List UInt8
  | [] => []
  | f :: fs => slash :: (f ++ afterLevel fs)

theorem intercalate_eq_afterLevel (f : Level) (fs : List Level) :
    [slash].intercalate (f :: fs) = f ++ afterLevel fs := by
  induction fs generalizing f with
  | nil => simp [afterLevel]
  | cons g gs ih => simp [afterLevel, ih g]

@[simp] theorem separators_distinct : (slash ≠ plus ∧ plus ≠ slash) ∧
    (slash ≠ hash ∧ hash ≠ slash) ∧ (plus ≠ hash ∧ hash ≠ plus) := by decide

@[simp] theorem slash_beq_wildcard : (slash == plus) = false ∧ (slash == hash) = false := by decide

/-- No level contains the separator. -/
theorem slash_not_mem_levels (bytes : List UInt8) : ∀ level ∈ levels bytes, slash ∉ level := by
  induction bytes with
  | nil => simp [levels]
  | cons b bytes ih =>
    simp only [levels] at ih ⊢
    obtain ⟨head, tail, split⟩ := List.exists_cons_of_ne_nil (List.splitOn_ne_nil slash bytes)
    rw [split] at ih
    rw [List.splitOn_cons_eq_if_modifyHead, split]
    by_cases sep : b = slash
    · simpa [sep] using ih
    · simp only [beq_iff_eq, sep, if_false, List.modifyHead_cons, List.mem_cons, forall_eq_or_imp,
        not_or] at ih ⊢
      exact ⟨⟨fun h => sep h.symm, ih.1⟩, ih.2⟩

/-- A string is its first level followed by the others. -/
theorem exists_levels (bytes : List UInt8) :
    ∃ f fs, levels bytes = f :: fs ∧ bytes = f ++ afterLevel fs := by
  obtain ⟨f, fs, split⟩ := List.exists_cons_of_ne_nil (List.splitOn_ne_nil slash bytes)
  refine ⟨f, fs, split, ?_⟩
  rw [← intercalate_eq_afterLevel, ← split, List.intercalate_splitOn]

/-! ## The scan, level by level -/

theorem topicScan_nil_right (curf : List UInt8) (before : Option UInt8) :
    topicScan curf before [] = ⟨curf, before, []⟩ := by
  cases curf <;> rfl

/-- A level without `'#'` is not followed by one, nor is anything else than a separator. -/
theorem head?_ne_hash (f : Level) (fs : List Level) (noHash : hash ∉ f) :
    ((f ++ afterLevel fs).head? == some hash) = false := by
  cases f with
  | nil => cases fs <;> simp [afterLevel]
  | cons c f =>
    simp only [List.mem_cons, not_or] at noHash
    simp [Ne.symm noHash.1]

/-- Where the scan stops inside a level without wildcards it rejects. -/
theorem matched_stopped {c : UInt8} {f : Level} (fs : List Level) (before : Option UInt8)
    (curn : List UInt8) (noPlus : plus ∉ c :: f) (noHash : hash ∉ c :: f) :
    (TopicCursor.mk (c :: (f ++ afterLevel fs)) before curn).matched = false := by
  simp only [List.mem_cons, not_or] at noPlus noHash
  rw [TopicCursor.matched, head?_ne_hash f fs noHash.2]
  simp [Ne.symm noHash.1, Ne.symm noPlus.1]

/-- The scan of a filter level without wildcards: an equal topic level is passed; a longer
    one is accepted when `'#'` follows; every other one is rejected. -/
theorem matched_literal (f t : Level) (fs ts : List Level) (before : Option UInt8)
    (noPlus : plus ∉ f) (noHash : hash ∉ f) (noSlash : slash ∉ f) (noSlash' : slash ∉ t) :
    ∃ before', (topicScan (f ++ afterLevel fs) before (t ++ afterLevel ts)).matched =
      if f = t then (topicScan (afterLevel fs) before' (afterLevel ts)).matched
      else f.isPrefixOf t && (afterLevel fs).tail.head? == some hash := by
  induction f generalizing t before with
  | nil =>
    refine ⟨before, ?_⟩
    cases t with
    | nil => simp
    | cons d t =>
      simp only [List.mem_cons, not_or] at noSlash'
      cases fs with
      | nil => simp [afterLevel, topicScan, TopicCursor.matched]
      | cons g gs =>
        simp [afterLevel, topicScan, TopicCursor.matched, Ne.symm noSlash'.1, noSlash'.1]
  | cons c f ih =>
    have stopped := fun curn => matched_stopped fs before curn noPlus noHash
    simp only [List.mem_cons, not_or] at noPlus noHash noSlash noSlash'
    cases t with
    | nil =>
      refine ⟨before, ?_⟩
      cases ts with
      | nil => simpa [afterLevel, topicScan_nil_right] using stopped []
      | cons u us =>
        simpa [afterLevel, topicScan, Ne.symm noSlash.1, Ne.symm noPlus.1] using stopped _
    | cons d t =>
      simp only [List.mem_cons, not_or] at noSlash'
      by_cases same : c = d
      · subst same
        obtain ⟨before', passed⟩ := ih t (some c) noPlus.2 noHash.2 noSlash.2 noSlash'.2
        refine ⟨before', ?_⟩
        simpa [topicScan, Ne.symm noSlash.1, Ne.symm noPlus.1, Ne.symm noHash.1] using passed
      · refine ⟨before, ?_⟩
        simpa [topicScan, Ne.symm noSlash'.1, Ne.symm noPlus.1, Ne.symm noHash.1, same,
          List.isPrefixOf, beq_eq_false_iff_ne.mpr same] using stopped (d :: (t ++ afterLevel ts))

/-- Skipping from inside a topic level ends at the end of that level. -/
theorem skipLevel_level (c : UInt8) (t : Level) (ts : List Level) (noSlash : slash ∉ t) :
    (skipLevel c (t ++ afterLevel ts)).2 = afterLevel ts := by
  induction t generalizing c with
  | nil => cases ts <;> simp [afterLevel, skipLevel]
  | cons d t ih =>
    simp only [List.mem_cons, not_or] at noSlash
    simp [skipLevel, Ne.symm noSlash.1, ih d noSlash.2]

/-- The scan of a filter level `'+'` passes a topic level that is not the empty rest. -/
theorem matched_plus (t : Level) (fs ts : List Level) (before : Option UInt8)
    (noSlash : slash ∉ t) (inside : t ≠ [] ∨ ts ≠ []) :
    ∃ before', (topicScan (plus :: afterLevel fs) before (t ++ afterLevel ts)).matched =
      (topicScan (afterLevel fs) before' (afterLevel ts)).matched := by
  cases t with
  | nil =>
    cases ts with
    | nil => simp at inside
    | cons u us => exact ⟨before, by simp [afterLevel, topicScan]⟩
  | cons c t =>
    simp only [List.mem_cons, not_or] at noSlash
    refine ⟨some (skipLevel c (t ++ afterLevel ts)).1, ?_⟩
    simp [topicScan, Ne.symm noSlash.1, skipLevel_level c t ts noSlash.2]

/-- The scan of a filter level `'#'` accepts whatever is left of the topic. -/
theorem matched_hash (curn : List UInt8) (before : Option UInt8) :
    (topicScan [hash] before curn).matched = true := by
  cases curn with
  | nil => simp [topicScan, TopicCursor.matched]
  | cons c curn => by_cases sep : c = slash <;> simp [topicScan, TopicCursor.matched, sep]

/-- A level that starts with `'#'` is the last one and nothing else. -/
theorem head?_hash {g : Level} {gs : List Level} (wf : WellFormedLevels (g :: gs)) :
    ((g ++ afterLevel gs).head? == some hash) = (g == [hash] && gs.isEmpty) := by
  by_cases isHash : hash ∈ g
  · obtain ⟨rfl, rfl⟩ := wf.2.1 isHash
    simp [afterLevel]
  · have other : g ≠ [hash] := fun h => isHash (by simp [h])
    rw [head?_ne_hash g gs isHash]
    simp [other]

/-- What the scan looks at behind a separator at which it stops. -/
theorem head?_behind_slash {fs : List Level} (wf : WellFormedLevels fs) :
    ((afterLevel fs).tail.head? == some hash) = (fs == [[hash]]) := by
  cases fs with
  | nil => rfl
  | cons g gs =>
    simp only [afterLevel, List.tail_cons, head?_hash wf]
    cases gs <;> simp

/-- The scan at the end of a level whose topic level was passed, given what it does from the
    start of the next level on. -/
theorem matched_levelEnd (fs ts : List Level) (before : Option UInt8)
    (wf : WellFormedLevels fs)
    (next : ∀ g gs u us, fs = g :: gs → ts = u :: us →
      (topicScan (g ++ afterLevel gs) (some slash) (u ++ afterLevel us)).matched =
        (levelsMatch fs ts || overmatched fs ts)) :
    (topicScan (afterLevel fs) before (afterLevel ts)).matched =
      (levelsMatch fs ts || overmatched fs ts) := by
  cases fs with
  | nil => cases ts <;> simp [afterLevel, topicScan, TopicCursor.matched, levelsMatch, overmatched]
  | cons g gs =>
    cases ts with
    | nil =>
      simp only [afterLevel, topicScan, TopicCursor.matched, levelsMatch, overmatched,
        head?_hash wf]
      simp
    | cons u us => simpa [afterLevel, topicScan] using next g gs u us rfl rfl

/-- The scan of one filter level, given what it does from the end of that level on. At `'+'`
    it matters whether the topic ends in an empty level, elsewhere whether the topic level
    is longer than the filter level. -/
theorem matched_level (f : Level) (fs : List Level) (t : Level) (ts : List Level)
    (before : Option UInt8) (wf : WellFormedLevels (f :: fs)) (noSlash : slash ∉ f)
    (noSlash' : slash ∉ t) (start : before = some slash ∨ t ≠ [] ∨ ts ≠ [])
    (levelEnd : ∀ before, (topicScan (afterLevel fs) before (afterLevel ts)).matched =
      (levelsMatch fs ts || overmatched fs ts)) :
    (topicScan (f ++ afterLevel fs) before (t ++ afterLevel ts)).matched =
      (levelsMatch (f :: fs) (t :: ts) || overmatched (f :: fs) (t :: ts)) := by
  by_cases isHash : hash ∈ f
  · obtain ⟨rfl, rfl⟩ := wf.2.1 isHash
    simpa [afterLevel, levelsMatch] using matched_hash _ before
  by_cases isPlus : plus ∈ f
  · obtain rfl := wf.1 isPlus
    by_cases inside : t ≠ [] ∨ ts ≠ []
    · obtain ⟨before', passed⟩ := matched_plus t fs ts before noSlash' inside
      rw [List.singleton_append, passed, levelEnd]
      simp only [levelsMatch, overmatched, levelMatches]
      rw [Bool.eq_iff_iff]
      simp only [Bool.or_eq_true, Bool.and_eq_true, beq_iff_eq, bne_iff_ne, List.cons.injEq,
        separators_distinct]
      grind
    · simp only [ne_eq, not_or, not_not] at inside
      obtain ⟨rfl, rfl⟩ := inside
      obtain rfl : before = some slash := by simpa using start
      have accepted : (topicScan (plus :: afterLevel fs) (some slash) []).matched = true := by
        simp [topicScan, TopicCursor.matched]
      rw [List.singleton_append, afterLevel, List.append_nil, accepted]
      simp only [levelsMatch, overmatched, levelMatches]
      cases fs with
      | nil => simp [levelsMatch]
      | cons g gs => by_cases last : g :: gs = [[hash]] <;> simp_all [levelsMatch, overmatched]
  · obtain ⟨before', scanned⟩ :=
      matched_literal f t fs ts before isPlus isHash noSlash noSlash'
    have notHash : (f == [hash]) = false := beq_eq_false_iff_ne.mpr fun h => isHash (by simp [h])
    have notPlus : (f == [plus]) = false := beq_eq_false_iff_ne.mpr fun h => isPlus (by simp [h])
    rw [scanned, levelEnd]
    by_cases same : f = t
    · subst same
      simp [levelsMatch, overmatched, levelMatches, notHash, notPlus]
    · rw [if_neg same, head?_behind_slash wf.2.2]
      have notSame : (f == t) = false := beq_eq_false_iff_ne.mpr same
      simp [levelsMatch, overmatched, levelMatches, bne, notSame, notHash, notPlus, Bool.and_comm]

/-- The scan from the start of a level on, unless the topic name is empty. The induction is
    on the filter levels. -/
theorem matched_levels (f : Level) (fs : List Level) (t : Level) (ts : List Level)
    (before : Option UInt8) (wf : WellFormedLevels (f :: fs))
    (noSlash : ∀ level ∈ f :: fs, slash ∉ level) (noSlash' : ∀ level ∈ t :: ts, slash ∉ level)
    (start : before = some slash ∨ t ≠ [] ∨ ts ≠ []) :
    (topicScan (f ++ afterLevel fs) before (t ++ afterLevel ts)).matched =
      (levelsMatch (f :: fs) (t :: ts) || overmatched (f :: fs) (t :: ts)) := by
  induction fs generalizing f t ts before with
  | nil =>
    refine matched_level f [] t ts before wf (noSlash f (by simp)) (noSlash' t (by simp)) start ?_
    intro before'
    exact matched_levelEnd [] ts before' trivial (by simp)
  | cons g gs ih =>
    refine matched_level f (g :: gs) t ts before wf (noSlash f (by simp)) (noSlash' t (by simp))
      start ?_
    intro before'
    refine matched_levelEnd (g :: gs) ts before' wf.2.2 ?_
    rintro g gs u us ⟨rfl, rfl⟩ rfl
    exact ih g u us (some slash) wf.2.2 (fun level member => noSlash level (by simp [member]))
      (fun level member => noSlash' level (by simp [member])) (.inl rfl)

/-- A topic that is overmatched is not matched. -/
theorem levelsMatch_of_overmatched {fs ts : List Level} (beyond : overmatched fs ts = true) :
    levelsMatch fs ts = false := by
  induction fs generalizing ts with
  | nil => simp [overmatched] at beyond
  | cons f fs ih =>
    cases ts with
    | nil => simp [overmatched] at beyond
    | cons t ts =>
      simp only [overmatched, Bool.or_eq_true, Bool.and_eq_true, beq_iff_eq, bne_iff_ne] at beyond
      rcases beyond with (⟨⟨⟨rfl, notPlus⟩, notSame⟩, -⟩ | ⟨⟨⟨⟨rfl, rfl⟩, rfl⟩, more⟩, notHash⟩) |
        ⟨-, beyond⟩
      · simp [levelsMatch, levelMatches, beq_eq_false_iff_ne.mpr notPlus,
          beq_eq_false_iff_ne.mpr notSame]
      · cases fs with
        | nil => simp at more
        | cons g gs => simpa [levelsMatch, levelMatches] using notHash
      · cases fs with
        | nil => simp [overmatched] at beyond
        | cons g gs => simp [levelsMatch, ih beyond]

/-- What `_is_topic_matched` decides on a well-formed filter and a non-empty topic name. -/
theorem isTopicMatched_eq (topicFilter : CStr) (topicName : List UInt8)
    (wf : WellFormedFilter topicFilter) (nonempty : topicName ≠ []) :
    isTopicMatched topicFilter topicName =
      (topicMatches topicFilter topicName || topicOvermatched topicFilter topicName) := by
  obtain ⟨f, fs, filterLevels, filterBytes⟩ := exists_levels topicFilter.bytes
  obtain ⟨t, ts, topicLevels, topicBytes⟩ := exists_levels topicName
  have noSlash := slash_not_mem_levels topicFilter.bytes
  have noSlash' := slash_not_mem_levels topicName
  rw [WellFormedFilter, filterLevels] at wf
  rw [filterLevels] at noSlash
  rw [topicLevels] at noSlash'
  have start : none = some slash ∨ t ≠ [] ∨ ts ≠ [] := by
    refine .inr (Classical.not_and_iff_not_or_not.mp ?_)
    rintro ⟨rfl, rfl⟩
    exact nonempty topicBytes
  have scanned := matched_levels f fs t ts none wf noSlash noSlash' start
  rw [← filterBytes, ← topicBytes] at scanned
  rw [isTopicMatched, scanned, topicMatches, topicOvermatched, filterLevels, topicLevels]

/-- `_is_topic_matched` agrees with the match level by level exactly on the topics that are
    not overmatched. -/
theorem isTopicMatched_iff_unless_overmatched (topicFilter : CStr) (topicName : List UInt8)
    (wf : WellFormedFilter topicFilter) (nonempty : topicName ≠ []) :
    (isTopicMatched topicFilter topicName = true ↔ topicMatches topicFilter topicName = true) ↔
      topicOvermatched topicFilter topicName = false := by
  rw [isTopicMatched_eq topicFilter topicName wf nonempty]
  cases beyond : topicOvermatched topicFilter topicName with
  | false => simp
  | true =>
    have unmatched : topicMatches topicFilter topicName = false := levelsMatch_of_overmatched beyond
    simp [unmatched]

/-- `a/#` and `a/b`. -/
theorem isTopicMatched_subtopic :
    isTopicMatched ⟨[97, 47, 35], by decide⟩ [97, 47, 98] = true ↔
      topicMatches ⟨[97, 47, 35], by decide⟩ [97, 47, 98] = true :=
  (isTopicMatched_iff_unless_overmatched ⟨[97, 47, 35], by decide⟩ [97, 47, 98] (by decide)
    (by decide)).mpr (by decide)

/-- `a/#` accepts `ab`. -/
theorem isTopicMatched_sibling :
    ¬ ∀ (topicFilter : CStr) (topicName : List UInt8), WellFormedFilter topicFilter →
      topicName ≠ [] → plus ∉ topicName ∧ hash ∉ topicName →
      (isTopicMatched topicFilter topicName = true ↔
        topicMatches topicFilter topicName = true) := by
  intro agrees
  have := agrees ⟨[97, 47, 35], by decide⟩ [97, 98] (by decide) (by decide) (by decide)
  revert this
  decide

end QcloudIot.Mqtt
