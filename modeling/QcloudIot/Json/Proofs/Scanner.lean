import QcloudIot.Json.Parser

/-!
# Memory safety of the scanner

Every loop of `json_get_next_object` stops at the terminating NUL at the latest, and the
value it finds ends before the NUL. The pointer it returns is computed from the value alone:
one byte more than `p_cValue + iValueLen` for a string. It lies behind the NUL exactly if
the string is opened by the last character of the text.
-/

namespace QcloudIot.Json

open Mqtt (CStr)

/-! ## The memory of a text -/

theorem length_memory (s : CStr) : (memory s).length = s.length + 1 := by
  rw [memory, List.length_append]
  rfl

/-- The bytes from a pointer into the text on. -/
theorem drop_memory (s : CStr) {p : Nat} (inside : p ≤ s.length) :
    (memory s).drop p = s.bytes.drop p ++ [0] := by
  rw [memory, List.drop_append_of_le_length inside]

theorem noNul_drop (s : CStr) (p : Nat) : (0 : UInt8) ∉ s.bytes.drop p :=
  fun mem => s.noNul (List.mem_of_mem_drop mem)

/-- A byte before the NUL is not NUL. -/
theorem memory_getElem? (s : CStr) {p : Nat} (inside : p < s.length) :
    ∃ b, (memory s)[p]? = some b ∧ b ≠ 0 := by
  have found : s.bytes[p]? = some (s.bytes.get ⟨p, inside⟩) := List.getElem?_eq_getElem inside
  refine ⟨s.bytes.get ⟨p, inside⟩, ?_, fun nul => s.noNul (nul ▸ List.get_mem s.bytes ⟨p, inside⟩)⟩
  rw [memory, List.getElem?_append_left inside, found]

theorem memory_getElem?_nul (s : CStr) : (memory s)[s.length]? = some 0 := by
  rw [memory, CStr.length, List.getElem?_concat_length]

theorem memory_getElem?_behind (s : CStr) {p : Nat} (behind : s.length < p) :
    (memory s)[p]? = none := by
  rw [List.getElem?_eq_none_iff, length_memory]
  exact behind

/-! ## Looking for a character -/

theorem strchr_append {c : UInt8} {skipped : List UInt8} (rest : List UInt8) (p : Nat)
    (other : c ∉ skipped) (noNul : (0 : UInt8) ∉ skipped) :
    strchr c (skipped ++ rest) p = strchr c rest (p + skipped.length) := by
  induction skipped generalizing p with
  | nil => rfl
  | cons b skipped ih =>
    rw [List.mem_cons, not_or] at other noNul
    rw [List.cons_append, strchr, if_neg (Ne.symm other.1), if_neg (Ne.symm noNul.1),
      ih (p + 1) other.2 noNul.2, List.length_cons]
    congr 1
    omega

/-- `strchr` finds the first occurrence. -/
theorem strchr_found {c : UInt8} {skipped : List UInt8} (rest : List UInt8) (p : Nat)
    (other : c ∉ skipped) (noNul : (0 : UInt8) ∉ skipped) :
    strchr c (skipped ++ c :: rest) p = .ok (some (p + skipped.length)) := by
  rw [strchr_append _ p other noNul, strchr, if_pos rfl]

/-- `strchr` stops at the NUL. -/
theorem strchr_absent {c : UInt8} {skipped : List UInt8} (rest : List UInt8) (p : Nat)
    (other : c ∉ skipped) (noNul : (0 : UInt8) ∉ skipped) (char : c ≠ 0) :
    strchr c (skipped ++ 0 :: rest) p = .ok none := by
  rw [strchr_append _ p other noNul, strchr, if_neg (Ne.symm char), if_pos rfl]

/-! ## The start of a value -/

/-- The characters at which the first loop of `json_get_next_object` stops. -/
def startsValue (b : UInt8) : Bool :=
  b = quote ∨ b = JsonType.object.opening ∨ b = JsonType.array.opening ∨ b = minus ∨ isDigit b ∨
    b = 116 ∨ b = 84 ∨ b = 102 ∨ b = 70 ∨ b = 110 ∨ b = 78

theorem findValue_skip {skipped : List UInt8} (rest : List UInt8) (p : Nat)
    (other : ∀ b ∈ skipped, startsValue b = false) (noNul : (0 : UInt8) ∉ skipped) :
    findValue (skipped ++ rest) p = findValue rest (p + skipped.length) := by
  induction skipped generalizing p with
  | nil => rfl
  | cons b skipped ih =>
    rw [List.mem_cons, not_or] at noNul
    have not_start := other b List.mem_cons_self
    simp only [startsValue, decide_eq_false_iff_not, not_or] at not_start
    obtain ⟨h₁, h₂, h₃, h₄, h₅, h₆, h₇, h₈, h₉, h₁₀, h₁₁⟩ := not_start
    have number : ¬ (b = minus ∨ isDigit b = true) := not_or.mpr ⟨h₄, h₅⟩
    have boolean : ¬ (b = 116 ∨ b = 84 ∨ b = 102 ∨ b = 70) := by
      simp only [not_or]
      exact ⟨h₆, h₇, h₈, h₉⟩
    have null : ¬ (b = 110 ∨ b = 78) := not_or.mpr ⟨h₁₀, h₁₁⟩
    rw [List.cons_append, findValue, if_neg (Ne.symm noNul.1), if_neg h₁, if_neg h₂, if_neg h₃,
      if_neg number, if_neg boolean, if_neg null,
      ih (p + 1) (fun c mem => other c (List.mem_cons_of_mem b mem)) noNul.2, List.length_cons]
    congr 1
    omega

/-- The text up to the first character that starts a value. -/
theorem exists_first_start (text : List UInt8) :
    (∀ b ∈ text, startsValue b = false) ∨
      ∃ skipped b rest, text = skipped ++ b :: rest ∧ startsValue b = true ∧
        ∀ b ∈ skipped, startsValue b = false := by
  induction text with
  | nil => exact .inl fun b mem => absurd mem List.not_mem_nil
  | cons b text ih =>
    by_cases start : startsValue b = true
    · exact .inr ⟨[], b, text, rfl, start, fun b mem => absurd mem List.not_mem_nil⟩
    · have not_start : startsValue b = false := by simpa using start
      rcases ih with none | ⟨skipped, c, rest, split, found, before⟩
      · exact .inl fun c mem => (List.mem_cons.mp mem).elim (fun eq => eq ▸ not_start) (none c)
      · refine .inr ⟨b :: skipped, c, rest, by rw [split]; rfl, found, fun c mem => ?_⟩
        exact (List.mem_cons.mp mem).elim (fun eq => eq ▸ not_start) (before c)

/-! ## The end of a value -/

/-- The byte by which the pointer returned for a string exceeds `p_cValue + iValueLen`. -/
def JsonType.extra (type : JsonType) : Nat := if type = .string then 1 else 0

/-- A prefix of bytes other than NUL lies before the NUL. -/
theorem isPrefixOf_le {text word : List UInt8} (noNul : (0 : UInt8) ∉ word)
    (isPrefix : word.isPrefixOf (text ++ [0]) = true) : word.length ≤ text.length := by
  rw [List.isPrefixOf_iff_prefix] at isPrefix
  by_contra long
  have whole : word = text ++ [0] := by
    refine isPrefix.eq_of_length_le ?_
    rw [List.length_append, List.length_singleton]
    omega
  exact noNul (by rw [whole]; exact List.mem_append_right _ List.mem_cons_self)

theorem booleanLen_le {text : List UInt8} {len : Nat} (found : booleanLen (text ++ [0]) = some len) :
    len ≤ text.length := by
  rw [booleanLen] at found
  split_ifs at found with isTrue isFalse
  · cases found
    rcases isTrue with lower | upper
    · exact isPrefixOf_le (by decide) lower
    · exact isPrefixOf_le (by decide) upper
  · cases found
    rcases isFalse with lower | upper
    · exact isPrefixOf_le (by decide) lower
    · exact isPrefixOf_le (by decide) upper

theorem nullLen_le {text : List UInt8} {len : Nat} (found : nullLen (text ++ [0]) = some len) :
    len ≤ text.length := by
  rw [nullLen] at found
  split_ifs at found with isNull
  cases found
  rcases isNull with lower | upper
  · exact isPrefixOf_le (by decide) lower
  · exact isPrefixOf_le (by decide) upper

/-- One round of the second loop for an object or an array. -/
theorem scanBrackets_step {type : JsonType} {value rest : List UInt8} {b : UInt8}
    {n iMarkDepth iValueLen room : Nat} {lastchr : UInt8}
    (next : ∀ depth last len, len + type.extra ≤ n + 1 + room →
      ∃ len', scanValue type value rest (n + 1) depth last len = .ok len' ∧
        len' + type.extra ≤ n + 1 + room)
    (bound : iValueLen + type.extra ≤ n + 1 + room) (brackets : type ≠ .string) :
    ∃ len, (if b = type.closing then
        if iMarkDepth = 0 then
          if type = .string ∧ lastchr = backslash then
            match rest with
            | [] => .error .outOfBounds
            | c :: _ => scanValue type value rest (n + 1) iMarkDepth c
                (n + if type = .string then 0 else 1)
          else .ok (n + if type = .string then 0 else 1)
        else scanValue type value rest (n + 1) (iMarkDepth - 1) b iValueLen
      else if b = type.opening then
        scanValue type value rest (n + 1) (iMarkDepth + 1) b iValueLen
      else scanValue type value rest (n + 1) iMarkDepth b iValueLen) = .ok len ∧
      len + type.extra ≤ n + 1 + room := by
  by_cases close : b = type.closing
  · by_cases depth : iMarkDepth = 0
    · refine ⟨n + 1, ?_, ?_⟩
      · rw [if_pos close, if_pos depth, if_neg (fun h => brackets h.1), if_neg brackets]
      · rw [JsonType.extra, if_neg brackets]
        omega
    · rw [if_pos close, if_neg depth]
      exact next _ b iValueLen bound
  · rw [if_neg close]
    split
    · exact next _ b iValueLen bound
    · exact next _ b iValueLen bound

/-- The second loop ends, and what it finds of the value lies before the NUL. -/
theorem scanValue_spec (type : JsonType) (value text : List UInt8) (n iMarkDepth : Nat)
    (lastchr : UInt8) (iValueLen : Nat) (noNul : (0 : UInt8) ∉ text)
    (boolean : ∀ len, booleanLen value = some len → len ≤ n + text.length)
    (null : ∀ len, nullLen value = some len → len ≤ n + text.length)
    (bound : iValueLen + type.extra ≤ n + text.length) :
    ∃ len, scanValue type value (text ++ [0]) n iMarkDepth lastchr iValueLen = .ok len ∧
      len + type.extra ≤ n + text.length := by
  induction text generalizing n iMarkDepth lastchr iValueLen with
  | nil => exact ⟨iValueLen, rfl, bound⟩
  | cons b text ih =>
    rw [List.mem_cons, not_or] at noNul
    have length : n + (b :: text).length = n + 1 + text.length := by
      rw [List.length_cons]
      omega
    rw [length] at boolean null bound ⊢
    have next := fun depth last len (within : len + type.extra ≤ n + 1 + text.length) =>
      ih (n + 1) depth last len noNul.2 boolean null within
    rw [List.cons_append, scanValue.eq_def]
    simp only [if_neg (Ne.symm noNul.1)]
    cases type with
    | none => exact ⟨iValueLen, rfl, bound⟩
    | boolean =>
      cases found : booleanLen value with
      | some len => exact ⟨len, rfl, boolean len found⟩
      | none => exact next iMarkDepth b iValueLen bound
    | null =>
      cases found : nullLen value with
      | some len => exact ⟨len, rfl, null len found⟩
      | none => exact next iMarkDepth b iValueLen bound
    | number =>
      by_cases stop : ¬ isDigit b ∧ b ≠ dot
      · simp only [if_pos stop]
        have extra : JsonType.number.extra = 0 := rfl
        exact ⟨n, rfl, by omega⟩
      · simp only [if_neg stop]
        exact next iMarkDepth b iValueLen bound
    | string =>
      by_cases close : b = JsonType.string.closing
      · simp only [if_pos close]
        have within : n + JsonType.string.extra ≤ n + 1 + text.length := by
          have extra : JsonType.string.extra = 1 := rfl
          omega
        by_cases depth : iMarkDepth = 0
        · simp only [if_pos depth, true_and, if_true, Nat.add_zero]
          by_cases escaped : lastchr = backslash
          · simp only [if_pos escaped]
            cases text with
            | nil => exact next iMarkDepth 0 n within
            | cons c text => exact next iMarkDepth c n within
          · simp only [if_neg escaped]
            exact ⟨n, rfl, within⟩
        · simp only [if_neg depth]
          exact next _ b iValueLen bound
      · by_cases opening : b = JsonType.string.opening
        · simp only [if_neg close, if_pos opening]
          exact next _ b iValueLen bound
        · simp only [if_neg close, if_neg opening]
          exact next _ b iValueLen bound
    | object => exact scanBrackets_step next bound (by decide)
    | array => exact scanBrackets_step next bound (by decide)

/-! ## One round -/

/-- What the first loop finds from `p` on: nothing, or a value that starts before the NUL, or a
    string whose quote is the last character. -/
theorem findValue_spec (text : List UInt8) (p : Nat) (noNul : (0 : UInt8) ∉ text) :
    (∃ pos, findValue (text ++ [0]) p = .ok (.none, none, pos)) ∨
      ∃ type value pos, findValue (text ++ [0]) p = .ok (type, some value, pos) ∧
        type ≠ .none ∧ p ≤ value ∧ value ≤ pos ∧ pos ≤ p + text.length ∧
        (type = .boolean ∨ type = .null → pos = value) ∧
        (value = p + text.length → type = .string ∧ ∃ skipped, text = skipped ++ [quote] ∧
          ∀ b ∈ skipped, startsValue b = false) := by
  rcases exists_first_start text with none | ⟨skipped, b, rest, split, start, before⟩
  · refine .inl ⟨p + text.length, ?_⟩
    rw [findValue_skip [0] p none noNul]
    rfl
  · have length : text.length = skipped.length + (rest.length + 1) := by
      rw [split, List.length_append, List.length_cons]
    have char : b ≠ 0 := by
      intro nul
      exact noNul (by rw [split, nul]; exact List.mem_append_right _ List.mem_cons_self)
    have noNul' : (0 : UInt8) ∉ skipped := by
      intro mem
      exact noNul (by rw [split]; exact List.mem_append_left _ mem)
    have found : findValue (text ++ [0]) p = findValue (b :: (rest ++ [0])) (p + skipped.length) := by
      rw [split, List.append_assoc, findValue_skip _ p before noNul', List.cons_append]
    have before_end : ¬ p + skipped.length = p + text.length := by omega
    refine .inr ?_
    rw [found, findValue, if_neg char]
    by_cases string : b = quote
    · refine ⟨.string, p + skipped.length + 1, _, if_pos string, by decide, by omega, le_rfl,
        by omega, fun h => by simp at h, fun last => ⟨rfl, skipped, ?_, before⟩⟩
      have rest_nil : rest = [] := List.eq_nil_of_length_eq_zero (by omega)
      rw [split, string, rest_nil]
    rw [if_neg string]
    by_cases object : b = JsonType.object.opening
    · exact ⟨.object, _, _, if_pos object, by decide, by omega, by omega, by omega,
        fun h => by simp at h, fun last => absurd last before_end⟩
    rw [if_neg object]
    by_cases array : b = JsonType.array.opening
    · exact ⟨.array, _, _, if_pos array, by decide, by omega, by omega, by omega,
        fun h => by simp at h, fun last => absurd last before_end⟩
    rw [if_neg array]
    by_cases number : b = minus ∨ isDigit b = true
    · exact ⟨.number, _, _, if_pos number, by decide, by omega, by omega, by omega,
        fun h => by simp at h, fun last => absurd last before_end⟩
    rw [if_neg number]
    by_cases boolean : b = 116 ∨ b = 84 ∨ b = 102 ∨ b = 70
    · exact ⟨.boolean, _, _, if_pos boolean, by decide, by omega, le_rfl, by omega, fun _ => rfl,
        fun last => absurd last before_end⟩
    rw [if_neg boolean]
    by_cases null : b = 110 ∨ b = 78
    · exact ⟨.null, _, _, if_pos null, by decide, by omega, le_rfl, by omega, fun _ => rfl,
        fun last => absurd last before_end⟩
    · simp only [startsValue, decide_eq_true_eq] at start
      rcases start with h | h | h | h | h | h | h | h | h | h | h
      all_goals simp_all

/-- The value from a pointer into the text on lies before the NUL, and so does the byte behind
    it unless it is a string opened by the last character. -/
theorem takeValue_spec (s : CStr) {pos : Nat} (inside : pos ≤ s.length) :
    takeValue (memory s) (some pos) = .ok (none, 0, .none) ∨
      ∃ value len type, takeValue (memory s) (some pos) = .ok (some value, len, type) ∧
        pos ≤ value ∧ value + len ≤ s.length ∧
        (value + len + type.extra ≤ s.length ∨
          value + len + type.extra = s.length + 1 ∧
            ∃ skipped, s.bytes.drop pos = skipped ++ [quote] ∧
              ∀ b ∈ skipped, startsValue b = false) := by
  have length : (s.bytes.drop pos).length = s.length - pos := List.length_drop
  rw [takeValue, drop_memory s inside]
  rcases findValue_spec (s.bytes.drop pos) pos (noNul_drop s pos) with
    ⟨p, found⟩ | ⟨type, value, p, found, some, after, upTo, before, literal, last⟩
  · exact .inl (by rw [found]; rfl)
  · have within : p ≤ s.length := by omega
    have valueLength : (s.bytes.drop value).length = s.length - value := List.length_drop
    have restLength : (s.bytes.drop p).length = s.length - p := List.length_drop
    have boolean : ∀ len, booleanLen (s.bytes.drop value ++ [0]) = .some len →
        len ≤ p - value + (s.bytes.drop p).length := by
      intro len h
      have := booleanLen_le h
      omega
    have null : ∀ len, nullLen (s.bytes.drop value ++ [0]) = .some len →
        len ≤ p - value + (s.bytes.drop p).length := by
      intro len h
      have := nullLen_le h
      omega
    refine .inr ?_
    by_cases atEnd : value = pos + (s.bytes.drop pos).length
    · obtain ⟨string, quoteLast⟩ := last atEnd
      have p_end : p = s.length := by omega
      have nothing : s.bytes.drop p = [] := List.eq_nil_of_length_eq_zero (by omega)
      refine ⟨value, 0, type, ?_, by omega, by omega, .inr ⟨?_, quoteLast⟩⟩
      · rw [found]
        simp only [bind, Except.bind, pure, Except.pure]
        rw [drop_memory s within, nothing]
        rfl
      · rw [string]
        have extra : JsonType.string.extra = 1 := rfl
        omega
    · have extra : type.extra ≤ 1 := by
        rw [JsonType.extra]
        split <;> omega
      obtain ⟨len, scanned, bound⟩ := scanValue_spec type (s.bytes.drop value ++ [0])
        (s.bytes.drop p) (p - value) 0 (if type = .string then quote else space) 0 (noNul_drop s p)
        boolean null (by omega)
      refine ⟨value, len, type, ?_, by omega, by omega, .inl (by omega)⟩
      rw [found]
      simp only [bind, Except.bind, pure, Except.pure]
      rw [drop_memory s within, drop_memory s (by omega : value ≤ s.length), scanned]

/-- What is left of a text behind a part of it. -/
theorem drop_behind {text after : List UInt8} {p : Nat} (before : List UInt8)
    (split : text.drop p = before ++ after) : text.drop (p + before.length) = after := by
  rw [← List.drop_drop, split, List.drop_left]

/-- `strchr` from a pointer into the text on. -/
theorem strchr_spec (s : CStr) {p : Nat} (inside : p ≤ s.length) (c : UInt8) (char : c ≠ 0) :
    strchr c ((memory s).drop p) p = .ok none ∨
      ∃ skipped rest, strchr c ((memory s).drop p) p = .ok (some (p + skipped.length)) ∧
        p + skipped.length < s.length ∧ s.bytes.drop p = skipped ++ c :: rest ∧ c ∉ skipped ∧
        s.bytes.drop (p + skipped.length) = c :: rest ∧
        s.bytes.drop (p + skipped.length + 1) = rest := by
  have noNul := noNul_drop s p
  rw [drop_memory s inside]
  by_cases occurs : c ∈ s.bytes.drop p
  · obtain ⟨skipped, rest, split, other⟩ := List.eq_append_cons_of_mem occurs
    have here := drop_behind _ split
    have behind : s.bytes.drop (p + skipped.length + 1) = rest :=
      drop_behind [c] here
    have length : s.length - p = skipped.length + (rest.length + 1) := by
      have := congrArg List.length split
      simpa [CStr.length] using this
    refine .inr ⟨skipped, rest, ?_, by omega, split, other, here, behind⟩
    rw [split] at noNul
    rw [split, List.append_assoc, List.cons_append, strchr_found _ p other
      (fun mem => noNul (List.mem_append_left _ mem))]
  · exact .inl (strchr_absent [] p occurs noNul char)

/-- The key found from a pointer into the text on, and the colon behind it. -/
theorem findKey_spec (s : CStr) {str : Nat} (inside : str ≤ s.length) :
    findKey (memory s) str = .ok none ∨
      ∃ key klen colonAt, findKey (memory s) str = .ok (some ((key, klen), colonAt)) ∧
        str < key ∧ key + klen ≤ s.length ∧
        ∀ pos, colonAt = some pos → key + klen < pos ∧ pos < s.length ∧
          ∃ gap keyText mid rest, s.bytes.drop str =
              gap ++ quote :: (keyText ++ quote :: (mid ++ colon :: rest)) ∧
            quote ∉ gap ∧ quote ∉ keyText ∧ colon ∉ mid ∧ s.bytes.drop pos = colon :: rest := by
  rw [findKey]
  rcases strchr_spec s inside quote (by decide) with none | ⟨gap, behind₁, found₁, in₁,
    split₁, other₁, _, next₁⟩
  · exact .inl (by rw [none]; rfl)
  rw [found₁]
  simp only [bind, Except.bind, pure, Except.pure]
  rcases @strchr_spec s (str + gap.length + 1) (by omega) quote (by decide) with
    none | ⟨keyText, behind₂, found₂, in₂, split₂, other₂, here₂, _⟩
  · exact .inl (by rw [none])
  rw [found₂]
  refine .inr ?_
  simp only [Nat.add_sub_cancel_left]
  rcases @strchr_spec s (str + gap.length + 1 + keyText.length) (by omega) colon
    (by decide) with none | ⟨mid, rest, found₃, in₃, split₃, other₃, here₃, _⟩
  · rw [none]
    exact ⟨_, _, _, rfl, by omega, by omega, fun pos h => by cases h⟩
  rw [found₃]
  refine ⟨_, _, _, rfl, by omega, by omega, fun pos h => ?_⟩
  cases h
  -- the search for the colon starts at the closing quote
  rw [here₂] at split₃
  cases mid with
  | nil => exact absurd (List.cons.inj split₃).1 (by decide)
  | cons b mid =>
    obtain ⟨rfl, behind⟩ := List.cons.inj split₃
    have between : colon ∉ mid := fun mem => other₃ (List.mem_cons_of_mem _ mem)
    rw [List.length_cons] at in₃ here₃ ⊢
    refine ⟨by omega, in₃, gap, keyText, mid, rest, ?_, other₁, other₂, between, here₃⟩
    rw [split₁, ← next₁, split₂, behind]
    rfl

/-- Behind `str` the scanner finds a string whose opening quote is the last character. -/
def OpensAtEnd (s : CStr) : Container → Nat → Prop
  | .object, str => ∃ gap key mid skipped,
      s.bytes.drop str = gap ++ quote :: (key ++ quote :: (mid ++ colon :: (skipped ++ [quote]))) ∧
        quote ∉ gap ∧ quote ∉ key ∧ colon ∉ mid ∧ ∀ b ∈ skipped, startsValue b = false
  | .array, str => ∃ skipped,
      s.bytes.drop str = skipped ++ [quote] ∧ ∀ b ∈ skipped, startsValue b = false

/-- The slices of an entry lie inside the text. -/
def NextObject.Inside (s : CStr) (found : NextObject) : Prop :=
  (∀ key klen, found.key = some (key, klen) → key + klen ≤ s.length) ∧
    ∀ val, found.val = some val → val + found.valLen ≤ s.length

/-- The key and the colon of a member, found from the text in front of it. -/
theorem findKey_found {mem gap key mid rest : List UInt8} {str : Nat}
    (text : mem.drop str = gap ++ quote :: (key ++ quote :: (mid ++ colon :: rest)))
    (noNul : (0 : UInt8) ∉ gap ++ key ++ mid) (gapOther : quote ∉ gap) (keyOther : quote ∉ key)
    (midOther : colon ∉ mid) :
    findKey mem str = .ok (some ((str + gap.length + 1, key.length),
      some (str + gap.length + 1 + key.length + 1 + mid.length))) := by
  simp only [List.mem_append, not_or] at noNul
  have name : mem.drop (str + gap.length + 1) = key ++ quote :: (mid ++ colon :: rest) :=
    drop_behind [quote] (drop_behind _ text)
  have closing := drop_behind _ name
  have split : quote :: (mid ++ colon :: rest) = (quote :: mid) ++ colon :: rest := rfl
  have other : colon ∉ quote :: mid := by
    rw [List.mem_cons, not_or]
    exact ⟨by decide, midOther⟩
  have nul : (0 : UInt8) ∉ quote :: mid := by
    rw [List.mem_cons, not_or]
    exact ⟨by decide, noNul.2⟩
  rw [findKey, text, strchr_found _ str gapOther noNul.1.1]
  simp only [bind, Except.bind, pure, Except.pure]
  rw [name, strchr_found _ _ keyOther noNul.1.2]
  simp only [Nat.add_sub_cancel_left]
  rw [closing, split, strchr_found _ _ other nul]
  simp only [List.length_cons]
  congr 4
  omega

/-- A string opened by the last character, found from the text in front of it. -/
theorem takeValue_openedAtEnd {mem skipped : List UInt8} {pos : Nat}
    (text : mem.drop pos = skipped ++ [quote, 0]) (noNul : (0 : UInt8) ∉ skipped)
    (other : ∀ b ∈ skipped, startsValue b = false) :
    takeValue mem (some pos) = .ok (some (pos + skipped.length + 1), 0, .string) := by
  have behind : mem.drop (pos + skipped.length + 1) = [0] :=
    drop_behind [quote] (drop_behind _ text)
  rw [takeValue, text, findValue_skip _ pos other noNul]
  simp only [findValue, bind, Except.bind, pure, Except.pure]
  rw [if_neg (by decide), if_pos (by decide)]
  simp only [behind]
  rfl

/-- What `json_get_next_object` returns for a key and a value. -/
def NextObject.of (key : Option (Nat × Nat)) (val : Option Nat) (valLen : Nat) (valType : JsonType) :
    NextObject where
  key := key
  val := val
  valLen := valLen
  valType := valType
  next := val.map fun val => val + valLen + valType.extra

theorem jsonGetNextObject_noKey {mem : List UInt8} {str : Nat} (none : findKey mem str = .ok none) :
    jsonGetNextObject .object mem str = .ok .none := by
  simp only [jsonGetNextObject, none, bind, Except.bind, pure, Except.pure]

theorem jsonGetNextObject_object {mem : List UInt8} {str : Nat} {key : Nat × Nat} {pos val : Option
    Nat}
    {valLen : Nat} {valType : JsonType} (foundKey : findKey mem str = .ok (some (key, pos)))
    (foundValue : takeValue mem pos = .ok (val, valLen, valType)) :
    jsonGetNextObject .object mem str = .ok (some (.of (some key) val valLen valType)) := by
  simp only [jsonGetNextObject, foundKey, bind, Except.bind, pure, Except.pure, foundValue]
  rfl

theorem jsonGetNextObject_array {mem : List UInt8} {str : Nat} {val : Option Nat} {valLen : Nat}
    {valType : JsonType} (foundValue : takeValue mem (some str) = .ok (val, valLen, valType)) :
    jsonGetNextObject .array mem str = .ok (some (.of none val valLen valType)) := by
  simp only [jsonGetNextObject, bind, Except.bind, pure, Except.pure, foundValue]
  rfl

/-- If the value found is a string opened by the last character, the pointer returned lies
    behind the NUL. -/
theorem jsonGetNextObject_openedAtEnd {type : Container} {s : CStr} {str : Nat}
    (inside : str ≤ s.length) (opens : OpensAtEnd s type str) :
    ∃ found, jsonGetNextObject type (memory s) str = .ok (some found) ∧
      found.next = some (s.length + 1) := by
  have noNul := noNul_drop s str
  have length : (s.bytes.drop str).length = s.length - str := List.length_drop
  cases type with
  | object =>
    obtain ⟨gap, key, mid, skipped, text, gapOther, keyOther, midOther, other⟩ := opens
    have mem_text : (memory s).drop str =
        gap ++ quote :: (key ++ quote :: (mid ++ colon :: (skipped ++ [quote, 0]))) := by
      rw [drop_memory s inside, text]
      simp
    rw [text] at noNul length
    simp only [List.mem_append, List.mem_cons, not_or] at noNul
    simp only [List.length_append, List.length_cons, List.length_nil] at length
    have keyFound := findKey_found mem_text
      (by simp only [List.mem_append, not_or]; exact ⟨⟨noNul.1, noNul.2.2.1⟩, noNul.2.2.2.2.1⟩)
      gapOther keyOther midOther
    have behind := drop_behind mid (drop_behind [quote]
      (drop_behind key (drop_behind [quote] (drop_behind gap mem_text))))
    have valueFound := @takeValue_openedAtEnd (memory s) (colon :: skipped) _ behind
      (by
        rw [List.mem_cons, not_or]
        exact ⟨by decide, noNul.2.2.2.2.2.2.1⟩)
      (by
        intro b mem
        rcases List.mem_cons.mp mem with rfl | mem
        · decide
        · exact other b mem)
    refine ⟨_, jsonGetNextObject_object keyFound valueFound, ?_⟩
    simp only [NextObject.of, JsonType.extra, Option.map_some, List.length_cons, List.length_nil,
      if_true]
    congr 1
    omega
  | array =>
    obtain ⟨skipped, text, other⟩ := opens
    have mem_text : (memory s).drop str = skipped ++ [quote, 0] := by
      rw [drop_memory s inside, text]
      simp
    rw [text] at noNul length
    have value := takeValue_openedAtEnd mem_text (fun mem => noNul (List.mem_append_left _ mem)) other
    refine ⟨_, jsonGetNextObject_array value, ?_⟩
    simp only [List.length_append, List.length_singleton] at length
    simp only [NextObject.of, JsonType.extra, Option.map_some, if_true]
    congr 1
    omega

/-- One call of `json_get_next_object` reads inside the text, and the pointer it returns is
    inside the text and behind `str`, or lies behind the NUL because the value is a string
    opened by the last character. -/
theorem jsonGetNextObject_spec (type : Container) (s : CStr) {str : Nat}
    (inside : str ≤ s.length) :
    jsonGetNextObject type (memory s) str = .ok none ∨
      ∃ found, jsonGetNextObject type (memory s) str = .ok (some found) ∧ found.Inside s ∧
        ∀ next, found.next = some next → str ≤ next ∧ (type = .object → str < next) ∧
          (next ≤ s.length ∨ next = s.length + 1 ∧ OpensAtEnd s type str) := by
  cases type with
  | object =>
    rcases findKey_spec s inside with none | ⟨key, klen, colonAt, keyFound, after, keyIn, colonIn⟩
    · exact .inl (jsonGetNextObject_noKey none)
    refine .inr ?_
    cases colonAt with
    | none =>
      refine ⟨_, jsonGetNextObject_object keyFound rfl, ⟨?_, fun val h => by cases h⟩,
        fun next h => by cases h⟩
      intro k l h
      cases h
      exact keyIn
    | some pos =>
      obtain ⟨behind, posIn, gap, keyText, mid, rest, text, gapOther, keyOther, midOther, here⟩ :=
        colonIn pos rfl
      rcases @takeValue_spec s pos (by omega) with
        none | ⟨value, len, type, valueFound, upTo, valueIn, bound⟩
      · refine ⟨_, jsonGetNextObject_object keyFound none, ⟨?_, fun val h => by cases h⟩,
          fun next h => by cases h⟩
        intro k l h
        cases h
        exact keyIn
      · refine ⟨_, jsonGetNextObject_object keyFound valueFound, ⟨?_, ?_⟩, ?_⟩
        · intro k l h
          cases h
          exact keyIn
        · intro val h
          cases h
          exact valueIn
        · intro next h
          obtain rfl : next = value + len + type.extra := (Option.some.inj h).symm
          refine ⟨by omega, fun _ => by omega, bound.imp id ?_⟩
          rintro ⟨atEnd, skipped, last, other⟩
          rw [here] at last
          cases skipped with
          | nil => exact absurd (List.cons.inj last).1 (by decide)
          | cons b skipped =>
            have restEq : rest = skipped ++ [quote] := (List.cons.inj last).2
            refine ⟨atEnd, gap, keyText, mid, skipped, ?_, gapOther, keyOther, midOther,
              fun c mem => other c (List.mem_cons_of_mem b mem)⟩
            rw [text, restEq]
  | array =>
    rcases takeValue_spec s inside with
      none | ⟨value, len, type, valueFound, upTo, valueIn, bound⟩
    · refine .inr ⟨_, jsonGetNextObject_array none, ⟨?_, ?_⟩, ?_⟩
      · intro k l h
        cases h
      · intro val h
        cases h
      · intro next h
        cases h
    · refine .inr ⟨_, jsonGetNextObject_array valueFound, ⟨?_, ?_⟩, ?_⟩
      · intro k l h
        cases h
      · intro val h
        cases h
        exact valueIn
      · intro next h
        obtain rfl : next = value + len + type.extra := (Option.some.inj h).symm
        exact ⟨by omega, fun h => absurd h (by decide), bound⟩

/-! ## The loops -/

theorem jsonGetObject_spec (type : Container) (text : List UInt8) (p : Nat)
    (noNul : (0 : UInt8) ∉ text) :
    ∃ pos, jsonGetObject type (text ++ [0]) p = .ok pos ∧
      ∀ at_, pos = some at_ → at_ < p + text.length := by
  induction text generalizing p with
  | nil => exact ⟨none, rfl, fun pos h => by cases h⟩
  | cons b text ih =>
    rw [List.mem_cons, not_or] at noNul
    obtain ⟨pos, found, bound⟩ := ih (p + 1) noNul.2
    rw [List.length_cons]
    by_cases isSpace : b = space
    · refine ⟨pos, ?_, fun q h => ?_⟩
      · rw [List.cons_append, jsonGetObject.eq_def]
        simp only [if_neg (Ne.symm noNul.1), if_pos isSpace, found]
      · have := bound q h
        omega
    · rw [List.cons_append, jsonGetObject.eq_def]
      simp only [if_neg (Ne.symm noNul.1), if_neg isSpace]
      refine ⟨_, rfl, fun q h => ?_⟩
      obtain ⟨_, here⟩ := Option.ite_none_right_eq_some.mp h
      cases here
      omega

/-- The positions at which the rounds of a loop begin. -/
inductive Reached (type : Container) (s : CStr) : Nat → Prop
  | start {pos : Nat} : jsonGetObject type (memory s) 0 = .ok (some pos) → Reached type s pos
  | next {pos next : Nat} {found : NextObject} : Reached type s pos → pos < s.length →
      jsonGetNextObject type (memory s) (type.resume pos) = .ok (some found) →
      found.next = some next → Reached type s next

/-- A body that keeps what it is given and does not break. -/
def collect (entries : List NextObject) (found : NextObject) : List NextObject × Bool :=
  (entries ++ [found], false)

/-- The loop over `s` ends, reads only bytes from the start of `s` to its NUL, and every key and
    value lies inside `s`. -/
def Safe (type : Container) (s : CStr) : Prop :=
  ∃ entries, forEach type (memory s) collect [] = .ok entries ∧ ∀ found ∈ entries, found.Inside s

/-- No round finds a string that is opened by the last character of the text. -/
def NeverOpensAtEnd (type : Container) (s : CStr) : Prop :=
  ∀ pos, Reached type s pos → pos < s.length → ¬ OpensAtEnd s type (type.resume pos)

theorem Container.resume_le (type : Container) {s : CStr} {pos : Nat} (inside : pos < s.length) :
    type.resume pos ≤ s.length := by
  cases type with
  | object => exact inside.le
  | array => exact inside

/-- Every round moves the position on. -/
theorem resume_lt {type : Container} {pos next : Nat} (upTo : type.resume pos ≤ next)
    (object : type = .object → type.resume pos < next) : pos < next := by
  cases type with
  | object => exact object rfl
  | array => exact upTo

/-- A round that finds an entry goes on behind it. -/
theorem forEachRound_next {type : Container} {s : CStr} {pos next : Nat} {found : NextObject}
    (fuel : Nat) (entries : List NextObject) (inside : pos < s.length)
    (call : jsonGetNextObject type (memory s) (type.resume pos) = .ok (some found))
    (resumes : found.next = some next) :
    forEachRound type (memory s) collect (fuel + 1) (some pos) entries =
      forEachRound type (memory s) collect fuel (some next) (entries ++ [found]) := by
  obtain ⟨b, byte, char⟩ := memory_getElem? s inside
  rw [forEachRound, byte]
  simp only [if_neg char, call, bind, Except.bind, resumes, collect]
  rfl

/-- The rounds end when no string opens at the end of the text, and what the body keeps for
    entries inside the text holds of their result. -/
theorem forEachRound_kept {σ : Type} {type : Container} {s : CStr}
    {body : σ → NextObject → σ × Bool} {kept : σ → Prop} (never : NeverOpensAtEnd type s)
    (keeps : ∀ st found, found.Inside s → kept st → kept (body st found).1) :
    ∀ (fuel pos : Nat) (st : σ), Reached type s pos → pos ≤ s.length →
      s.length < fuel + pos → kept st →
      ∃ result, forEachRound type (memory s) body fuel (some pos) st = .ok result ∧
        kept result := by
  intro fuel
  induction fuel with
  | zero => intro pos st _ upTo enough _; omega
  | succ fuel ih =>
    intro pos st reached upTo enough holds
    rcases Nat.lt_or_eq_of_le upTo with inside | atNul
    · obtain ⟨b, byte, char⟩ := memory_getElem? s inside
      rcases jsonGetNextObject_spec type s (type.resume_le inside) with
        none | ⟨found, call, slices, bound⟩
      · refine ⟨st, ?_, holds⟩
        rw [forEachRound, byte]
        simp only [if_neg char, none]
        rfl
      cases resumes : found.next with
      | none =>
        refine ⟨st, ?_, holds⟩
        rw [forEachRound, byte]
        simp only [if_neg char, call, bind, Except.bind, resumes]
        rfl
      | some next =>
        obtain ⟨after, object, inText⟩ := bound next resumes
        have advance := resume_lt after object
        have within : next ≤ s.length :=
          inText.resolve_right fun behind => never pos reached inside behind.2
        have holds' := keeps st found slices holds
        rw [forEachRound, byte]
        simp only [if_neg char, call, bind, Except.bind, resumes]
        split
        · exact ⟨_, rfl, holds'⟩
        · exact ih next _ (.next reached inside call resumes) within (by omega) holds'
    · refine ⟨st, ?_, holds⟩
      rw [forEachRound, atNul, memory_getElem?_nul]
      rfl

/-- The same for the whole loop. -/
theorem forEach_kept {σ : Type} {type : Container} {s : CStr}
    {body : σ → NextObject → σ × Bool} {kept : σ → Prop} (never : NeverOpensAtEnd type s)
    (keeps : ∀ st found, found.Inside s → kept st → kept (body st found).1) {st : σ}
    (holds : kept st) :
    ∃ result, forEach type (memory s) body st = .ok result ∧ kept result := by
  obtain ⟨pos, start, bound⟩ := jsonGetObject_spec type s.bytes 0 s.noNul
  have started : jsonGetObject type (memory s) 0 = .ok pos := start
  cases pos with
  | none =>
    refine ⟨st, ?_, holds⟩
    rw [forEach, started]
    rfl
  | some pos =>
    have inside := bound pos rfl
    rw [Nat.zero_add] at inside
    have run := forEachRound_kept never keeps ((memory s).length + 1) pos st (.start started)
      inside.le (by rw [length_memory]; omega) holds
    rw [forEach, started]
    exact run

/-- The loop comes by every position at which a round begins. -/
theorem forEach_reaches {type : Container} {s : CStr} {pos : Nat} (reached : Reached type s pos) :
    ∃ fuel entries, s.length + 2 ≤ fuel + pos ∧
      forEach type (memory s) collect [] =
        forEachRound type (memory s) collect fuel (some pos) entries := by
  induction reached with
  | start found =>
    refine ⟨(memory s).length + 1, [], by rw [length_memory]; omega, ?_⟩
    rw [forEach, found]
    rfl
  | @next pos next found reached inside call resumes ih =>
    obtain ⟨fuel, entries, enough, run⟩ := ih
    obtain ⟨fuel, rfl⟩ : ∃ k, fuel = k + 1 := ⟨fuel - 1, by omega⟩
    rcases jsonGetNextObject_spec type s (type.resume_le inside) with
      none | ⟨found', call', _, bound⟩
    · rw [none] at call
      cases call
    · obtain rfl : found' = found := Option.some.inj (Except.ok.inj (call'.symm.trans call))
      have advance := resume_lt (bound next resumes).1 (bound next resumes).2.1
      refine ⟨fuel, entries ++ [found'], by omega, ?_⟩
      rw [run, forEachRound_next fuel entries inside call resumes]

/-- A loop that stays inside the text never finds a string opened by the last character: the pointer
    resumed from lies behind the NUL then. -/
theorem neverOpensAtEnd_of_forEach {type : Container} {s : CStr} {entries : List NextObject}
    (result : forEach type (memory s) collect [] = .ok entries) : NeverOpensAtEnd type s := by
  intro pos reached inside opens
  obtain ⟨fuel, before, enough, run⟩ := forEach_reaches reached
  obtain ⟨fuel, rfl⟩ : ∃ k, fuel = k + 2 := ⟨fuel - 2, by omega⟩
  obtain ⟨found, call, behind⟩ := jsonGetNextObject_openedAtEnd (type.resume_le inside) opens
  rw [run, forEachRound_next _ before inside call behind, forEachRound,
    memory_getElem?_behind s (Nat.lt_succ_self _)] at result
  cases result

/-- The loops are safe exactly on the texts in which no round finds a string opened by the last
    character. -/
theorem safe_iff (type : Container) (s : CStr) : Safe type s ↔ NeverOpensAtEnd type s := by
  constructor
  · rintro ⟨entries, result, _⟩
    exact neverOpensAtEnd_of_forEach result
  · intro never
    refine @forEach_kept _ type s collect (fun entries => ∀ found ∈ entries, found.Inside s) never
        ?_ []
      (fun found mem => absurd mem List.not_mem_nil)
    intro entries found slices kept entry mem
    rcases List.mem_append.mp mem with old | new
    · exact kept entry old
    · rw [List.mem_singleton.mp new]
      exact slices

/-- The text `{"a":"`. -/
def unclosed : CStr := ⟨[123, 34, 97, 34, 58, 34], by decide⟩

/-- The loop over it reads behind the terminating NUL. -/
theorem unclosed_outOfBounds : ¬ ∀ (type : Container) (s : CStr), Safe type s := by
  intro safe
  obtain ⟨entries, result, _⟩ := safe .object unclosed
  have fault : forEach .object (memory unclosed) collect [] = .error .outOfBounds := by decide
  rw [fault] at result
  cases result

end QcloudIot.Json
