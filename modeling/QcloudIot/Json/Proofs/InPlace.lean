import QcloudIot.Json.InPlace
import QcloudIot.Json.Proofs.Scanner

/-!
# Lookups that stay in their memory

What is found in a memory without leaving it is found when the memory goes on behind its end.
A lookup stays in the memory when the text is terminated in it and no string is opened by the
last character of the text.
-/

namespace QcloudIot.Json

open Mqtt (CStr)

/-! ## The scanner in a longer memory -/

variable {mem : List UInt8} (stale : List UInt8)

theorem drop_append_of_ne_nil {n : Nat} (some : mem.drop n ≠ []) :
    (mem ++ stale).drop n = mem.drop n ++ stale := by
  have inside : n < mem.length := by
    by_contra behind
    exact some (List.drop_eq_nil_of_le (Nat.le_of_not_lt behind))
  exact List.drop_append_of_le_length inside.le

/-- The text at the front of a memory with a zero byte does not depend on what follows. -/
theorem cString_append_stale (nul : 0 ∈ mem) : cString (mem ++ stale) = cString mem := by
  obtain ⟨text, behind, rfl, noNul⟩ := List.eq_append_cons_of_mem nul
  rw [List.append_assoc, List.cons_append, cString_nul noNul, cString_nul noNul]

theorem strlen_extend {len : Nat} (ok : strlen mem = .ok len) :
    strlen (mem ++ stale) = .ok len := by
  unfold strlen at ok ⊢
  by_cases nul : 0 ∈ mem
  · rw [if_pos (List.mem_append_left stale nul), cString_append_stale stale nul]
    rwa [if_pos nul] at ok
  · rw [if_neg nul] at ok
    cases ok

theorem strchr_extend {c : UInt8} {p : Nat} {found : Option Nat}
    (ok : strchr c mem p = .ok found) : strchr c (mem ++ stale) p = .ok found := by
  induction mem generalizing p with
  | nil => cases ok
  | cons b mem ih =>
    rw [List.cons_append]
    unfold strchr at ok ⊢
    split at ok
    · rename_i here
      rw [if_pos here]
      exact ok
    · rename_i other
      rw [if_neg other]
      split at ok
      · rename_i nul
        rw [if_pos nul]
        exact ok
      · rename_i char
        rw [if_neg char]
        exact ih ok

theorem jsonGetObject_extend {type : Container} {p : Nat} {found : Option Nat}
    (ok : jsonGetObject type mem p = .ok found) :
    jsonGetObject type (mem ++ stale) p = .ok found := by
  induction mem generalizing p with
  | nil => cases ok
  | cons b mem ih =>
    rw [List.cons_append]
    unfold jsonGetObject at ok ⊢
    simp only at ok ⊢
    split at ok
    · rename_i nul
      rw [if_pos nul]
      exact ok
    · rename_i char
      rw [if_neg char]
      split at ok
      · rename_i blank
        rw [if_pos blank]
        exact ih ok
      · rename_i other
        rw [if_neg other]
        exact ok

theorem findValue_extend {p : Nat} {found : JsonType × Option Nat × Nat}
    (ok : findValue mem p = .ok found) : findValue (mem ++ stale) p = .ok found := by
  induction mem generalizing p with
  | nil => cases ok
  | cons b mem ih =>
    rw [List.cons_append]
    unfold findValue at ok ⊢
    repeat' split at ok
    all_goals rename_i c
    all_goals simp_all

/-- The position where the scan goes on is not in front of the value. -/
theorem findValue_le {p pos value : Nat} {type : JsonType}
    (ok : findValue mem p = .ok (type, some value, pos)) : value ≤ pos := by
  induction mem generalizing p with
  | nil => cases ok
  | cons b mem ih =>
    unfold findValue at ok
    repeat' split at ok
    all_goals first
      | exact ih ok
      | (cases ok; omega)
      | cases ok

/-- A word without a zero byte is found in front of one or not at all. -/
theorem isPrefixOf_extend {value word : List UInt8} (nul : 0 ∈ value) (noNul : 0 ∉ word) :
    word.isPrefixOf (value ++ stale) = word.isPrefixOf value := by
  rw [Bool.eq_iff_iff, List.isPrefixOf_iff_prefix, List.isPrefixOf_iff_prefix]
  constructor
  · intro occurs
    rcases List.prefix_or_prefix_of_prefix occurs (List.prefix_append value stale) with
      inside | beyond
    · exact inside
    · exact absurd (beyond.subset nul) noNul
  · intro occurs
    exact occurs.trans (List.prefix_append value stale)

theorem booleanLen_extend {value : List UInt8} (nul : 0 ∈ value) :
    booleanLen (value ++ stale) = booleanLen value := by
  unfold booleanLen
  rw [isPrefixOf_extend stale nul (by decide), isPrefixOf_extend stale nul (by decide),
    isPrefixOf_extend stale nul (by decide), isPrefixOf_extend stale nul (by decide)]

theorem nullLen_extend {value : List UInt8} (nul : 0 ∈ value) :
    nullLen (value ++ stale) = nullLen value := by
  unfold nullLen
  rw [isPrefixOf_extend stale nul (by decide), isPrefixOf_extend stale nul (by decide)]

theorem isPrefixOf_extend_of_le {value word : List UInt8} (room : word.length ≤ value.length) :
    word.isPrefixOf (value ++ stale) = word.isPrefixOf value := by
  rw [Bool.eq_iff_iff, List.isPrefixOf_iff_prefix, List.isPrefixOf_iff_prefix]
  constructor
  · intro occurs
    exact List.prefix_of_prefix_length_le occurs (List.prefix_append value stale) room
  · intro occurs
    exact occurs.trans (List.prefix_append value stale)

/-- A word that was found stays. -/
theorem booleanLen_found {value : List UInt8} {len : Nat} (found : booleanLen value = some len) :
    booleanLen (value ++ stale) = some len := by
  have four : 4 ≤ value.length := by
    unfold booleanLen at found
    split at found
    · rename_i word
      rcases word with lower | upper
      · exact (List.isPrefixOf_iff_prefix.mp lower).length_le
      · exact (List.isPrefixOf_iff_prefix.mp upper).length_le
    · split at found
      · rename_i word
        rcases word with lower | upper
        · have five := (List.isPrefixOf_iff_prefix.mp lower).length_le
          simp only [List.length_cons, List.length_nil] at five
          omega
        · have five := (List.isPrefixOf_iff_prefix.mp upper).length_le
          simp only [List.length_cons, List.length_nil] at five
          omega
      · cases found
  unfold booleanLen at found ⊢
  rw [@isPrefixOf_extend_of_le stale value [116, 114, 117, 101] four,
    @isPrefixOf_extend_of_le stale value [84, 82, 85, 69] four]
  split at found
  · rename_i word
    rw [if_pos word]
    exact found
  · rename_i other
    rw [if_neg other]
    split at found
    · rename_i word
      rw [if_pos]
      · exact found
      · simp only [List.isPrefixOf_iff_prefix] at word ⊢
        exact word.imp (·.trans (List.prefix_append value stale))
          (·.trans (List.prefix_append value stale))
    · cases found

theorem nullLen_found {value : List UInt8} {len : Nat} (found : nullLen value = some len) :
    nullLen (value ++ stale) = some len := by
  unfold nullLen at found ⊢
  split at found
  · rename_i word
    rw [if_pos]
    · exact found
    · simp only [List.isPrefixOf_iff_prefix] at word ⊢
      exact word.imp (·.trans (List.prefix_append value stale))
        (·.trans (List.prefix_append value stale))
  · cases found

/-- Without a word the scan only ends at a zero byte. -/
theorem scanValue_noWord {type : JsonType} {value rest : List UInt8} {n depth : Nat}
    {lastchr : UInt8} {iValueLen len : Nat}
    (noWord : type = .boolean ∧ booleanLen value = none ∨ type = .null ∧ nullLen value = none)
    (ok : scanValue type value rest n depth lastchr iValueLen = .ok len) : 0 ∈ rest := by
  induction rest generalizing n lastchr with
  | nil => cases ok
  | cons b rest ih =>
    by_cases nul : b = 0
    · rw [nul]
      exact List.mem_cons_self
    · rw [scanValue.eq_def] at ok
      simp only [if_neg nul] at ok
      rcases noWord with ⟨rfl, none⟩ | ⟨rfl, none⟩
      · simp only [none] at ok
        exact List.mem_cons_of_mem b (ih ok)
      · simp only [none] at ok
        exact List.mem_cons_of_mem b (ih ok)

theorem scanValue_extend {type : JsonType} {value rest : List UInt8} {n depth : Nat}
    {lastchr : UInt8} {iValueLen len : Nat} (inside : rest <:+ value)
    (ok : scanValue type value rest n depth lastchr iValueLen = .ok len) :
    scanValue type (value ++ stale) (rest ++ stale) n depth lastchr iValueLen = .ok len := by
  induction rest generalizing n depth lastchr iValueLen with
  | nil => cases ok
  | cons b rest ih =>
    have inside' : rest <:+ value := (List.suffix_cons b rest).trans inside
    have whole := ok
    rw [List.cons_append]
    rw [scanValue.eq_def] at ok ⊢
    simp only at ok ⊢
    by_cases nul : b = 0
    · rw [if_pos nul] at ok ⊢
      exact ok
    · rw [if_neg nul] at ok ⊢
      cases type with
      | none => exact ok
      | boolean =>
        simp only at ok ⊢
        cases word : booleanLen value with
        | some found =>
          rw [booleanLen_found stale word]
          rwa [word] at ok
        | none =>
          have mem : 0 ∈ value := inside.subset (scanValue_noWord (.inl ⟨rfl, word⟩) whole)
          rw [booleanLen_extend stale mem, word]
          rw [word] at ok
          exact ih inside' ok
      | null =>
        simp only at ok ⊢
        cases word : nullLen value with
        | some found =>
          rw [nullLen_found stale word]
          rwa [word] at ok
        | none =>
          have mem : 0 ∈ value := inside.subset (scanValue_noWord (.inr ⟨rfl, word⟩) whole)
          rw [nullLen_extend stale mem, word]
          rw [word] at ok
          exact ih inside' ok
      | number =>
        simp only at ok ⊢
        split at ok
        · rename_i ends
          rw [if_pos ends]
          exact ok
        · rename_i digit
          rw [if_neg digit]
          exact ih inside' ok
      | string | object | array =>
        simp only at ok ⊢
        repeat' split at ok
        all_goals simp_all

theorem findKey_extend {str : Nat} {found : Option ((Nat × Nat) × Option Nat)}
    (ok : findKey mem str = .ok found) : findKey (mem ++ stale) str = .ok found := by
  have there : ∀ {p : Nat} {c : UInt8} {at_ : Option Nat}, strchr c (mem.drop p) p = .ok at_ →
      strchr c ((mem ++ stale).drop p) p = .ok at_ := by
    intro p c at_ run
    have some : mem.drop p ≠ [] := by
      intro empty
      rw [empty] at run
      cases run
    rw [drop_append_of_ne_nil stale some]
    exact strchr_extend stale run
  unfold findKey at ok ⊢
  simp only [bind, Except.bind, pure, Except.pure] at ok ⊢
  cases first : strchr quote (mem.drop str) str with
  | error fault => simp [first] at ok
  | ok opening =>
    rw [there first]
    rw [first] at ok
    cases opening with
    | none => exact ok
    | some opening =>
      simp only at ok ⊢
      cases second : strchr quote (mem.drop (opening + 1)) (opening + 1) with
      | error fault => simp [second] at ok
      | ok closing =>
        rw [there second]
        rw [second] at ok
        cases closing with
        | none => exact ok
        | some closing =>
          simp only at ok ⊢
          cases third : strchr colon (mem.drop closing) closing with
          | error fault => simp [third] at ok
          | ok pos =>
            rw [there third]
            rwa [third] at ok

theorem takeValue_extend {pos : Option Nat} {found : Option Nat × Nat × JsonType}
    (ok : takeValue mem pos = .ok found) : takeValue (mem ++ stale) pos = .ok found := by
  cases pos with
  | none => exact ok
  | some pos =>
    unfold takeValue at ok ⊢
    simp only [bind, Except.bind, pure, Except.pure] at ok ⊢
    cases start : findValue (mem.drop pos) pos with
    | error fault => simp [start] at ok
    | ok value =>
      obtain ⟨type, value, behind⟩ := value
      have some : mem.drop pos ≠ [] := by
        intro empty
        rw [empty] at start
        cases start
      rw [drop_append_of_ne_nil stale some, findValue_extend stale start]
      rw [start] at ok
      cases value with
      | none => exact ok
      | some value =>
        have order := findValue_le start
        simp only at ok ⊢
        cases scanned : scanValue type (mem.drop value) (mem.drop behind) (behind - value) 0
            (if type = .string then quote else space) 0 with
        | error fault => simp [scanned] at ok
        | ok len =>
          have rest : mem.drop behind ≠ [] := by
            intro empty
            rw [empty] at scanned
            cases scanned
          have suffix : mem.drop behind <:+ mem.drop value := by
            rw [← Nat.add_sub_cancel' order, ← List.drop_drop]
            exact List.drop_suffix _ _
          have front : mem.drop value ≠ [] := by
            intro empty
            rw [empty] at suffix
            exact rest (List.suffix_nil.mp suffix)
          rw [drop_append_of_ne_nil stale rest, drop_append_of_ne_nil stale front,
            scanValue_extend stale suffix scanned]
          rwa [scanned] at ok

theorem jsonGetNextObject_extend {type : Container} {str : Nat} {found : Option NextObject}
    (ok : jsonGetNextObject type mem str = .ok found) :
    jsonGetNextObject type (mem ++ stale) str = .ok found := by
  unfold jsonGetNextObject at ok ⊢
  simp only [bind, Except.bind, pure, Except.pure] at ok ⊢
  cases type with
  | object =>
    simp only at ok ⊢
    cases name : findKey mem str with
    | error fault => simp [name] at ok
    | ok key =>
      rw [findKey_extend stale name]
      rw [name] at ok
      cases key with
      | none => exact ok
      | some key =>
        simp only at ok ⊢
        cases value : takeValue mem key.2 with
        | error fault => simp [value] at ok
        | ok taken =>
          rw [takeValue_extend stale value]
          rwa [value] at ok
  | array =>
    simp only at ok ⊢
    cases value : takeValue mem (some str) with
    | error fault => simp [value] at ok
    | ok taken =>
      rw [takeValue_extend stale value]
      rwa [value] at ok

/-! ## The loops in a longer memory -/

theorem strchr_inside {c : UInt8} {text : List UInt8} {p q : Nat}
    (ok : strchr c text p = .ok (some q)) : p ≤ q ∧ q < p + text.length := by
  induction text generalizing p with
  | nil => cases ok
  | cons b text ih =>
    rw [List.length_cons]
    unfold strchr at ok
    repeat' split at ok
    · cases ok
      omega
    · cases ok
    · have inside := ih ok
      omega

/-- The key of an entry lies inside the memory. -/
def NextObject.KeyInside (mem : List UInt8) (found : NextObject) : Prop :=
  ∀ key klen, found.key = some (key, klen) → key + klen ≤ mem.length

theorem findKey_inside {str key klen : Nat} {pos : Option Nat}
    (ok : findKey mem str = .ok (some ((key, klen), pos))) : key + klen ≤ mem.length := by
  unfold findKey at ok
  simp only [bind, Except.bind, pure, Except.pure] at ok
  repeat' split at ok
  all_goals cases ok
  rename_i _ _ opening _ _ _ closing second _ third
  have inside := strchr_inside second
  rw [List.length_drop] at inside
  omega

theorem jsonGetNextObject_keyInside {type : Container} {str : Nat} {found : NextObject}
    (ok : jsonGetNextObject type mem str = .ok (some found)) : found.KeyInside mem := by
  unfold jsonGetNextObject at ok
  simp only [bind, Except.bind, pure, Except.pure] at ok
  cases type with
  | object =>
    simp only at ok
    cases name : findKey mem str with
    | error fault => simp [name] at ok
    | ok key =>
      rw [name] at ok
      cases key with
      | none => cases ok
      | some key =>
        obtain ⟨⟨key, klen⟩, pos⟩ := key
        simp only at ok
        split at ok
        · cases ok
        · cases ok
          intro key' klen' same
          cases same
          exact findKey_inside name
  | array =>
    simp only at ok
    split at ok
    · cases ok
    · cases ok
      intro key klen same
      cases same

/-- The rounds of a loop whose body does the same to entries with a key inside the memory. -/
theorem forEachRound_extend {σ : Type} {type : Container} {body body' : σ → NextObject → σ × Bool}
    (agree : ∀ st found, found.KeyInside mem → body' st found = body st found) {fuel more : Nat}
    {pos : Option Nat} {st result : σ}
    (ok : forEachRound type mem body fuel pos st = .ok result) :
    forEachRound type (mem ++ stale) body' (fuel + more) pos st = .ok result := by
  induction fuel generalizing pos st with
  | zero => cases ok
  | succ fuel ih =>
    rw [Nat.succ_add]
    cases pos with
    | none => exact ok
    | some pos =>
      rw [forEachRound] at ok ⊢
      cases byte : mem[pos]? with
      | none => simp [byte] at ok
      | some b =>
        have inside : pos < mem.length := (List.getElem?_eq_some_iff.mp byte).1
        rw [List.getElem?_append_left inside, byte]
        simp only [byte, bind, Except.bind, pure, Except.pure] at ok ⊢
        by_cases nul : b = 0
        · rw [if_pos nul] at ok ⊢
          exact ok
        · rw [if_neg nul] at ok ⊢
          cases call : jsonGetNextObject type mem (type.resume pos) with
          | error fault => simp [call] at ok
          | ok entry =>
            rw [jsonGetNextObject_extend stale call]
            rw [call] at ok
            cases entry with
            | none => exact ok
            | some found =>
              simp only at ok ⊢
              cases resumes : found.next with
              | none =>
                rw [resumes] at ok
                exact ok
              | some next =>
                rw [resumes] at ok
                simp only [agree st found (jsonGetNextObject_keyInside call)] at ok ⊢
                split at ok
                · rename_i finished
                  rw [if_pos finished]
                  exact ok
                · rename_i goesOn
                  rw [if_neg goesOn]
                  exact ih ok

theorem forEach_extend {σ : Type} {type : Container} {body body' : σ → NextObject → σ × Bool}
    (agree : ∀ st found, found.KeyInside mem → body' st found = body st found) {st result : σ}
    (ok : forEach type mem body st = .ok result) :
    forEach type (mem ++ stale) body' st = .ok result := by
  unfold forEach at ok ⊢
  simp only [bind, Except.bind] at ok ⊢
  cases start : jsonGetObject type mem 0 with
  | error fault => simp [start] at ok
  | ok pos =>
    rw [jsonGetObject_extend stale start, List.length_append, Nat.add_right_comm]
    rw [start] at ok
    exact forEachRound_extend stale agree ok

/-! ## Lookups in a longer memory -/

theorem jsonGetValueByNameCbAt_extend (name : List UInt8) (nv : JsonNv) {found : NextObject}
    (inside : found.KeyInside mem) :
    jsonGetValueByNameCbAt (mem ++ stale) name nv found =
      jsonGetValueByNameCbAt mem name nv found := by
  unfold jsonGetValueByNameCbAt
  cases key : found.key with
  | none => rfl
  | some slice =>
    obtain ⟨name', klen⟩ := slice
    have within := inside name' klen key
    have same : ((mem ++ stale).drop name').take klen = (mem.drop name').take klen := by
      rw [List.drop_append_of_le_length (by omega), List.take_append_of_le_length]
      rw [List.length_drop]
      omega
    simp only [same]

theorem jsonGetValueByNameAt_extend {name : List UInt8} {found : Option Nat × Option Nat}
    (ok : jsonGetValueByNameAt mem name = .ok found) :
    jsonGetValueByNameAt (mem ++ stale) name = .ok found := by
  unfold jsonGetValueByNameAt at ok ⊢
  simp only [bind, Except.bind, pure, Except.pure] at ok ⊢
  cases measured : strlen mem with
  | error fault => simp [measured] at ok
  | ok len =>
    rw [strlen_extend stale measured]
    rw [measured] at ok
    simp only at ok ⊢
    split at ok
    · rename_i empty
      rw [if_pos empty]
      exact ok
    · rename_i filled
      rw [if_neg filled]
      split at ok
      · cases ok
      · rename_i searched
        rw [@forEach_extend _ stale _ _ _ (parseBody (jsonGetValueByNameCbAt (mem ++ stale) name))
          ?_ _ _ searched]
        · exact ok
        · intro st entry inside
          obtain ⟨ret, nv⟩ := st
          simp only [parseBody, jsonGetValueByNameCbAt_extend stale name nv inside]

theorem printedAt_extend {valueLen : Int} {text : List UInt8}
    (ok : printedAt mem valueLen = .ok text) : printedAt (mem ++ stale) valueLen = .ok text := by
  unfold printedAt at ok ⊢
  simp only [bind, Except.bind, pure, Except.pure] at ok ⊢
  cases measured : strlen mem with
  | error fault => simp [measured] at ok
  | ok len =>
    have nul : 0 ∈ mem := by
      by_contra none
      rw [strlen, if_neg none] at measured
      cases measured
    rw [strlen_extend stale measured, cString_append_stale stale nul]
    rwa [measured] at ok

theorem printedAt_ne_nil {valueLen : Int} {text : List UInt8}
    (ok : printedAt mem valueLen = .ok text) : mem ≠ [] := by
  rintro rfl
  cases ok

theorem valueOfAt_ne_nil {allocated : Bool} {key keyNext : List UInt8} {valueLen : Int}
    {result : Option (List UInt8)} (ok : valueOfAt allocated keyNext key mem valueLen = .ok result) :
    mem ≠ [] := by
  induction key generalizing keyNext with
  | nil =>
    rintro rfl
    cases ok
  | cons b key ih =>
    unfold valueOfAt at ok
    split at ok
    · rintro rfl
      cases ok
    · exact ih ok

theorem valueOfAt_extend {allocated : Bool} {key keyNext : List UInt8} {valueLen : Int}
    {result : Option (List UInt8)} (ok : valueOfAt allocated keyNext key mem valueLen = .ok result) :
    valueOfAt allocated keyNext key (mem ++ stale) valueLen = .ok result := by
  induction key generalizing keyNext mem valueLen with
  | nil =>
    unfold valueOfAt at ok ⊢
    simp only [bind, Except.bind, pure, Except.pure] at ok ⊢
    cases found : jsonGetValueByNameAt mem keyNext with
    | error fault => simp [found] at ok
    | ok value =>
      rw [jsonGetValueByNameAt_extend stale found]
      rw [found] at ok
      obtain ⟨value, out⟩ := value
      cases value with
      | none => exact ok
      | some value =>
        simp only at ok ⊢
        split at ok
        · rename_i room
          rw [if_pos room]
          split at ok
          · cases ok
          · rename_i printed
            rw [drop_append_of_ne_nil stale (printedAt_ne_nil printed),
              printedAt_extend stale printed]
            exact ok
        · rename_i noRoom
          rw [if_neg noRoom]
          exact ok
  | cons b key ih =>
    unfold valueOfAt at ok ⊢
    simp only [bind, Except.bind, pure, Except.pure] at ok ⊢
    by_cases separator : b = dot
    · rw [if_pos separator] at ok ⊢
      cases found : jsonGetValueByNameAt mem keyNext with
      | error fault => simp [found] at ok
      | ok value =>
        rw [jsonGetValueByNameAt_extend stale found]
        rw [found] at ok
        obtain ⟨value, out⟩ := value
        cases value with
        | none => exact ok
        | some value =>
          simp only at ok ⊢
          rw [drop_append_of_ne_nil stale (valueOfAt_ne_nil ok)]
          exact ih ok
    · rw [if_neg separator] at ok ⊢
      exact ih ok

/-- A lookup that stays in its memory finds the same when the memory goes on. -/
theorem liteJsonValueAt_extend {key : CStr} {allocated : Bool} {result : Option (List UInt8)}
    (ok : liteJsonValueAt key mem allocated = .ok result) :
    liteJsonValueAt key (mem ++ stale) allocated = .ok result :=
  valueOfAt_extend stale ok

/-! ## Lookups in a text -/

theorem strlen_memory (s : CStr) : strlen (memory s) = .ok s.length := by
  have nul : 0 ∈ memory s := List.mem_append_right _ List.mem_cons_self
  rw [strlen, if_pos nul, memory, cString_nul s.noNul]
  rfl

/-- The value that a lookup has found lies inside the text. -/
def JsonNv.Inside (s : CStr) (nv : JsonNv) : Prop := ∀ p, nv.pV = some p → p ≤ s.length

theorem jsonGetValueByNameCbAt_inside {s : CStr} {found : NextObject} {nv : JsonNv}
    (mem name : List UInt8) (slices : found.Inside s) (inside : nv.Inside s) :
    (jsonGetValueByNameCbAt mem name nv found).1.Inside s := by
  unfold jsonGetValueByNameCbAt
  cases found.key with
  | none => exact inside
  | some key =>
    simp only
    split
    · intro p value
      have within := slices.2 p value
      omega
    · exact inside

theorem parseBody_inside {s : CStr} {found : NextObject} {st : Int × JsonNv}
    (mem name : List UInt8) (slices : found.Inside s) (inside : st.2.Inside s) :
    (parseBody (jsonGetValueByNameCbAt mem name) st found).1.2.Inside s := by
  unfold parseBody
  simp only
  split
  · split
    · exact jsonGetValueByNameCbAt_inside mem name slices inside
    · exact inside
  · exact inside

/-- A lookup in a text in which no string opens at the end stays in the text. -/
theorem jsonGetValueByNameAt_returns {s : CStr} (never : NeverOpensAtEnd .object s)
    (name : List UInt8) :
    ∃ value out, jsonGetValueByNameAt (memory s) name = .ok (value, out) ∧
      ∀ p, value = some p → p ≤ s.length := by
  unfold jsonGetValueByNameAt
  simp only [strlen_memory, bind, Except.bind, pure, Except.pure]
  by_cases empty : s.length = 0
  · rw [if_pos empty]
    exact ⟨none, none, rfl, nofun⟩
  · rw [if_neg empty]
    obtain ⟨⟨ret, nv⟩, searched, inside⟩ := @forEach_kept _ .object s
      (parseBody (jsonGetValueByNameCbAt (memory s) name)) (fun st => st.2.Inside s) never
      (fun st found slices inside => parseBody_inside (memory s) name slices inside)
      (jsonResultErr, { pV := none, vLen := 0, vType := .string }) nofun
    rw [searched]
    exact ⟨nv.pV, _, rfl, inside⟩

theorem printedAt_memory (s : CStr) {p : Nat} (inside : p ≤ s.length) (valueLen : Int) :
    ∃ text, printedAt ((memory s).drop p) valueLen = .ok text := by
  have nul : 0 ∈ (memory s).drop p := by
    rw [drop_memory s inside]
    exact List.mem_append_right _ List.mem_cons_self
  unfold printedAt strlen
  rw [if_pos nul]
  exact ⟨_, rfl⟩

/-- The lookup of a key without dots. -/
theorem valueOfAt_plain {key : List UInt8} (plain : dot ∉ key) (allocated : Bool)
    (keyNext mem : List UInt8) (valueLen : Int) :
    valueOfAt allocated keyNext key mem valueLen =
      valueOfAt allocated (keyNext ++ key) [] mem valueLen := by
  induction key generalizing keyNext with
  | nil => rw [List.append_nil]
  | cons b key ih =>
    rw [List.mem_cons, not_or] at plain
    conv_lhs => unfold valueOfAt
    rw [if_neg (Ne.symm plain.1), ih plain.2, List.append_assoc, List.singleton_append]

/-- The same for a key without dots and the memory of the text. -/
theorem liteJsonValueAt_returns {key s : CStr} (plain : dot ∉ key.bytes)
    (never : NeverOpensAtEnd .object s) (allocated : Bool) :
    ∃ result, liteJsonValueAt key (memory s) allocated = .ok result := by
  obtain ⟨value, out, found, inside⟩ := jsonGetValueByNameAt_returns never key.bytes
  rw [liteJsonValueAt, valueOfAt_plain plain, List.nil_append]
  unfold valueOfAt
  simp only [found, bind, Except.bind, pure, Except.pure]
  cases value with
  | none => exact ⟨none, rfl⟩
  | some p =>
    simp only
    split
    · obtain ⟨text, printed⟩ := printedAt_memory s (inside p rfl)
        ((out.map Int.ofNat).getD (-1))
      rw [printed]
      exact ⟨some text, rfl⟩
    · exact ⟨none, rfl⟩

/-- A lookup reads the length of its text first. -/
theorem liteJsonValueAt_nul {key : CStr} {mem : List UInt8} {allocated : Bool}
    {result : Option (List UInt8)} (plain : dot ∉ key.bytes)
    (ok : liteJsonValueAt key mem allocated = .ok result) : 0 ∈ mem := by
  by_contra none
  rw [liteJsonValueAt, valueOfAt_plain plain, List.nil_append] at ok
  unfold valueOfAt jsonGetValueByNameAt strlen at ok
  rw [if_neg none] at ok
  cases ok

/-! ## Allocations -/

/-- Without an allocation nothing is returned where a value would be. -/
theorem valueOfAt_unallocated {keyNext key srcIter value : List UInt8} {valueLen : Int}
    (found : valueOfAt true keyNext key srcIter valueLen = .ok (some value)) :
    valueOfAt false keyNext key srcIter valueLen = .ok none := by
  induction key generalizing keyNext srcIter valueLen with
  | nil =>
    rw [valueOfAt] at found ⊢
    obtain ⟨⟨place, out⟩, looked, found⟩ := bind_ok found
    rw [looked]
    cases place with
    | none => cases found
    | some place => rfl
  | cons b rest ih =>
    rw [valueOfAt] at found ⊢
    by_cases isDot : b = dot
    · rw [if_pos isDot] at found ⊢
      obtain ⟨⟨place, out⟩, looked, found⟩ := bind_ok found
      rw [looked]
      cases place with
      | none => cases found
      | some place => exact ih found
    · rw [if_neg isDot] at found ⊢
      exact ih found

theorem liteJsonValueAt_unallocated {key : Mqtt.CStr} {src value : List UInt8}
    (found : liteJsonValueAt key src true = .ok (some value)) :
    liteJsonValueAt key src false = .ok none :=
  valueOfAt_unallocated found

end QcloudIot.Json
