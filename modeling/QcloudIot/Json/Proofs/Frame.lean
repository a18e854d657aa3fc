import QcloudIot.Json.Proofs.InPlace

/-!
# What a lookup leaves of its text

`json_parse_name_value` cuts a text that is longer than it is told to, and restores the byte only if
the length is still another one, which it is not. When a lookup leaves the text as it was, and what it
finds depends on no other byte.
-/

namespace QcloudIot.Json

open Mqtt (CStr)

/-- Another memory that begins with the first `n` bytes of the text: a text that is at least as long,
    with what lies behind it. -/
structure SameFront (s : CStr) (n : Nat) (mem : List UInt8) : Prop where
  exists_text : ∃ (t : CStr) (behind : List UInt8), n ≤ t.length ∧
    t.bytes.take n = s.bytes.take n ∧ mem = memory t ++ behind

/-- Whatever the callback does with what is found, and whatever lies behind the text, a lookup returns
    with the text as it was, and with what it returns in every memory that begins with the same
    bytes. -/
structure LookupKeeps (s : CStr) (n : Nat) : Prop where
  parse : ∀ {σ : Type} (pfnCB : σ → NextObject → σ × Bool) (st : σ), ∃ ret st',
    (∀ behind, jsonParseNameValueAt (memory s ++ behind) n (fun _ => pfnCB) st =
      .ok (ret, st', memory s ++ behind)) ∧
    ∀ mem, SameFront s n mem →
      ∃ mem', jsonParseNameValueAt mem n (fun _ => pfnCB) st = .ok (ret, st', mem')
  byName : ∀ name wantsType, ∃ found,
    (∀ behind, jsonGetValueByNameIn (memory s ++ behind) n name wantsType =
      .ok (found, memory s ++ behind)) ∧
    ∀ mem, SameFront s n mem →
      ∃ mem', jsonGetValueByNameIn mem n name wantsType = .ok (found, mem')

section Frame

variable {σ τ : Type} {s : CStr} {n : Nat} {mem : List UInt8}

/-- A loop whose body does not break runs as far as every other one. -/
theorem forEachRound_ok {type : Container} {body : σ → NextObject → σ × Bool}
    {body' : τ → NextObject → τ × Bool} (never : ∀ st found, (body st found).2 = false)
    {fuel : Nat} {pos : Option Nat} {st result : σ} (st' : τ)
    (ok : forEachRound type mem body fuel pos st = .ok result) :
    ∃ result', forEachRound type mem body' fuel pos st' = .ok result' := by
  induction fuel generalizing pos st st' with
  | zero => cases ok
  | succ fuel ih =>
    cases pos with
    | none => exact ⟨st', rfl⟩
    | some pos =>
      rw [forEachRound] at ok ⊢
      cases byte : mem[pos]? with
      | none => simp [byte] at ok
      | some b =>
        simp only [byte, bind, Except.bind, pure, Except.pure] at ok ⊢
        by_cases nul : b = 0
        · rw [if_pos nul]
          exact ⟨st', rfl⟩
        · rw [if_neg nul] at ok ⊢
          cases call : jsonGetNextObject type mem (type.resume pos) with
          | error fault => simp [call] at ok
          | ok entry =>
            rw [call] at ok
            cases entry with
            | none => exact ⟨st', rfl⟩
            | some found =>
              cases resumes : found.next with
              | none =>
                simp only [resumes]
                exact ⟨st', rfl⟩
              | some next =>
                simp only [resumes, never, Bool.false_eq_true, if_false] at ok ⊢
                by_cases finished : (body' st' found).2 = true
                · rw [if_pos finished]
                  exact ⟨_, rfl⟩
                · rw [if_neg finished]
                  exact ih _ ok

theorem forEach_ok {type : Container} {body : σ → NextObject → σ × Bool}
    {body' : τ → NextObject → τ × Bool} (never : ∀ st found, (body st found).2 = false)
    {st result : σ} (st' : τ) (ok : forEach type mem body st = .ok result) :
    ∃ result', forEach type mem body' st' = .ok result' := by
  unfold forEach at ok ⊢
  simp only [bind, Except.bind] at ok ⊢
  cases start : jsonGetObject type mem 0 with
  | error fault => simp [start] at ok
  | ok pos =>
    rw [start] at ok
    exact forEachRound_ok never st' ok

/-- The whole text is searched where it lies. -/
theorem jsonParseNameValueAt_whole (some_ : s.length ≠ 0) (behind : List UInt8)
    (pfnCB : List UInt8 → σ → NextObject → σ × Bool) (st : σ) :
    jsonParseNameValueAt (memory s ++ behind) s.length pfnCB st =
      (forEach .object (memory s ++ behind) (parseBody (pfnCB (memory s ++ behind)))
        (jsonResultErr, st)).map fun result => (result.1, result.2, memory s ++ behind) := by
  have length := strlen_extend behind (strlen_memory s)
  rw [jsonParseNameValueAt, if_neg some_]
  simp only [length, bind, Except.bind, pure, Except.pure, ne_eq, not_true_eq_false, if_false]
  cases forEach .object (memory s ++ behind) (parseBody (pfnCB (memory s ++ behind)))
    (jsonResultErr, st) <;> rfl

/-- A longer text is cut, and it stays so: the second test compares with the length of what has been
    cut. -/
theorem jsonParseNameValueAt_cut {t : CStr} (positive : n ≠ 0) (longer : n < t.length)
    (front : t.bytes.take n = s.bytes) (behind : List UInt8)
    (pfnCB : List UInt8 → σ → NextObject → σ × Bool) (st : σ) :
    jsonParseNameValueAt (memory t ++ behind) n pfnCB st =
      (forEach .object (memory s ++ (memory t ++ behind).drop (n + 1))
        (parseBody (pfnCB (memory s ++ (memory t ++ behind).drop (n + 1))))
        (jsonResultErr, st)).map fun result =>
          (result.1, result.2, memory s ++ (memory t ++ behind).drop (n + 1)) := by
  have inside : n < (memory t ++ behind).length := by
    rw [List.length_append, length_memory]
    omega
  have isFront : (memory t ++ behind).take n = s.bytes := by
    rw [memory, List.append_assoc, List.take_append_of_le_length longer.le, front]
  have isLength : n = s.length := by
    have cut := congrArg List.length front
    rw [List.length_take] at cut
    change min n t.length = s.length at cut
    omega
  have found : (memory t ++ behind)[n]? = some (memory t ++ behind)[n] :=
    List.getElem?_eq_getElem inside
  have cut : (memory t ++ behind).set n 0 = memory s ++ (memory t ++ behind).drop (n + 1) := by
    rw [List.set_eq_take_append_cons_drop, if_pos inside, isFront]
    exact (List.append_assoc s.bytes [0] _).symm
  have length := strlen_extend behind (strlen_memory t)
  have cutLength := strlen_extend ((memory t ++ behind).drop (n + 1)) (strlen_memory s)
  rw [jsonParseNameValueAt, if_neg positive]
  simp only [length, found, cut, cutLength, bind, Except.bind, pure, Except.pure,
    if_pos (Nat.ne_of_lt longer)]
  rw [if_neg (not_not.mpr isLength)]
  cases forEach .object (memory s ++ (memory t ++ behind).drop (n + 1))
    (parseBody (pfnCB (memory s ++ (memory t ++ behind).drop (n + 1)))) (jsonResultErr, st) <;> rfl

/-- In every memory that begins with the bytes of the text, a text is searched that ends behind
    them. -/
theorem jsonParseNameValueAt_same (some_ : s.length ≠ 0) (same : SameFront s s.length mem)
    (pfnCB : List UInt8 → σ → NextObject → σ × Bool) (st : σ) :
    ∃ behind, jsonParseNameValueAt mem s.length pfnCB st =
      (forEach .object (memory s ++ behind) (parseBody (pfnCB (memory s ++ behind)))
        (jsonResultErr, st)).map fun result => (result.1, result.2, memory s ++ behind) := by
  obtain ⟨t, behind, long, front, rfl⟩ := same.exists_text
  have whole : s.bytes.take s.length = s.bytes := List.take_length
  rw [whole] at front
  rcases Nat.eq_or_lt_of_le long with equal | longer
  · have isText : t = s := by
      cases t with
      | mk bytes noNul =>
        cases s with
        | mk bytes' noNul' =>
          change bytes.take bytes'.length = bytes' at front
          change bytes'.length = bytes.length at equal
          rw [equal, List.take_length] at front
          cases front
          rfl
    rw [isText]
    exact ⟨behind, jsonParseNameValueAt_whole some_ behind pfnCB st⟩
  · exact ⟨_, jsonParseNameValueAt_cut some_ longer front behind pfnCB st⟩

/-- A search for a name is the parse with its callback. -/
theorem jsonGetValueByNameIn_of_parse {name : List UInt8} {ret : Int} {nv : JsonNv}
    {mem' : List UInt8} (wantsType : Bool)
    (parsed : jsonParseNameValueAt mem n (fun mem => jsonGetValueByNameCbAt mem name)
      { pV := none, vLen := 0, vType := .string } = .ok (ret, nv, mem')) :
    jsonGetValueByNameIn mem n name wantsType =
      .ok (if ret = jsonResultOk then
        (if wantsType ∧ nv.vType = .null then none else nv.pV, some (nv.vLen, nv.vType))
        else (nv.pV, none), mem') := by
  rw [jsonGetValueByNameIn, parsed]
  simp only [bind, Except.bind, pure, Except.pure]
  split <;> rfl

/-- The parse of a text that has no string opened by its last character. -/
theorem parse_keeps (some_ : s.length ≠ 0) (never : NeverOpensAtEnd .object s)
    (pfnCB : List UInt8 → σ → NextObject → σ × Bool)
    (agree : ∀ behind st found, found.KeyInside (memory s) →
      pfnCB (memory s ++ behind) st found = pfnCB (memory s) st found) (st : σ) :
    ∃ ret st', (∀ behind, jsonParseNameValueAt (memory s ++ behind) s.length pfnCB st =
        .ok (ret, st', memory s ++ behind)) ∧
      ∀ mem, SameFront s s.length mem →
        ∃ mem', jsonParseNameValueAt mem s.length pfnCB st = .ok (ret, st', mem') := by
  obtain ⟨⟨ret, st'⟩, run, _⟩ := @forEach_kept _ .object s (parseBody (pfnCB (memory s)))
    (fun _ => True) never (fun _ _ _ _ => trivial) (jsonResultErr, st) trivial
  have extended : ∀ behind, forEach .object (memory s ++ behind)
      (parseBody (pfnCB (memory s ++ behind))) (jsonResultErr, st) = .ok (ret, st') := by
    intro behind
    refine forEach_extend behind ?_ run
    intro ⟨ret, st⟩ found inside
    unfold parseBody
    simp only [agree behind st found inside]
  refine ⟨ret, st', ?_, ?_⟩
  · intro behind
    rw [jsonParseNameValueAt_whole some_, extended]
    rfl
  · intro mem same
    obtain ⟨behind, parsed⟩ := jsonParseNameValueAt_same some_ same pfnCB st
    rw [parsed, extended]
    exact ⟨_, rfl⟩

/-- The byte at `n` is not zero before the call, and it is after one that cuts the text there. -/
theorem LookupKeeps.length_eq (keeps : LookupKeeps s n) (positive : 1 ≤ n) (inside : n ≤ s.length) :
    n = s.length := by
  obtain ⟨ret, entries, kept, _⟩ := keeps.parse collect []
  have parsed := kept []
  rw [List.append_nil] at parsed
  rcases Nat.eq_or_lt_of_le inside with whole | longer
  · exact whole
  · exfalso
    obtain ⟨u, isFront⟩ : ∃ u : CStr, u.bytes = s.bytes.take n :=
      ⟨⟨s.bytes.take n, fun mem => s.noNul (List.mem_of_mem_take mem)⟩, rfl⟩
    have run := jsonParseNameValueAt_cut (by omega) longer isFront.symm [] (fun _ => collect) []
    rw [List.append_nil, parsed] at run
    cases looped : forEach .object (memory u ++ (memory s).drop (n + 1)) (parseBody collect)
        (jsonResultErr, []) with
    | error fault =>
      rw [looped] at run
      cases run
    | ok result =>
      rw [looped] at run
      have same : memory s = memory u ++ (memory s).drop (n + 1) :=
        congrArg (fun result => result.2.2) (Except.ok.inj run)
      have size : u.bytes.length = n := by
        rw [isFront, List.length_take]
        exact Nat.min_eq_left inside
      have nul : (memory s)[n]? = some 0 := by
        rw [same, memory, List.append_assoc, List.getElem?_append_right size.le, size, Nat.sub_self]
        rfl
      obtain ⟨b, byte, char⟩ := memory_getElem? s longer
      rw [byte] at nul
      exact char (Option.some.inj nul)

/-- A lookup that ends goes through a loop that ends, and the one that collects the entries does not
    break. -/
theorem LookupKeeps.neverOpensAtEnd (keeps : LookupKeeps s s.length) (some_ : s.length ≠ 0) :
    NeverOpensAtEnd .object s := by
  obtain ⟨ret, entries, kept, _⟩ := keeps.parse collect []
  have parsed := kept []
  rw [jsonParseNameValueAt_whole some_, List.append_nil] at parsed
  cases looped : forEach .object (memory s) (parseBody collect) (jsonResultErr, []) with
  | error fault =>
    rw [looped] at parsed
    cases parsed
  | ok result =>
    have breaks : ∀ st found, (parseBody collect st found).2 = false := by
      intro st found
      unfold parseBody
      dsimp only
      split
      · split <;> rfl
      · rfl
    obtain ⟨entries', collected⟩ := @forEach_ok _ _ _ _ _ collect breaks _ _ [] looped
    exact neverOpensAtEnd_of_forEach collected

/-- A lookup keeps a text exactly if it is told its length, and no round of the scanner finds a string
    that is opened by the last character. -/
theorem lookupKeeps_iff (positive : 1 ≤ n) (inside : n ≤ s.length) :
    LookupKeeps s n ↔ n = s.length ∧ NeverOpensAtEnd .object s := by
  constructor
  · intro keeps
    obtain rfl := keeps.length_eq positive inside
    exact ⟨rfl, keeps.neverOpensAtEnd (by omega)⟩
  · rintro ⟨rfl, never⟩
    have some_ : s.length ≠ 0 := by omega
    constructor
    · intro σ pfnCB st
      exact parse_keeps some_ never (fun _ => pfnCB) (fun _ _ _ _ => rfl) st
    · intro name wantsType
      obtain ⟨ret, nv, kept, determined⟩ := parse_keeps some_ never
        (fun mem => jsonGetValueByNameCbAt mem name)
        (fun behind nv found inside => jsonGetValueByNameCbAt_extend behind name nv inside)
        { pV := none, vLen := 0, vType := .string }
      refine ⟨_, fun behind => jsonGetValueByNameIn_of_parse wantsType (kept behind), ?_⟩
      intro mem same
      obtain ⟨mem', parsed⟩ := determined mem same
      exact ⟨mem', jsonGetValueByNameIn_of_parse wantsType parsed⟩

end Frame

/-- The text `{"a":1}`. -/
def oneEntry : CStr := ⟨[123, 34, 97, 34, 58, 49, 125], by decide⟩

theorem oneEntry_neverOpensAtEnd : NeverOpensAtEnd .object oneEntry :=
  neverOpensAtEnd_of_forEach (show forEach .object (memory oneEntry) collect [] = .ok _ from rfl)

theorem lookupKeeps_oneEntry : LookupKeeps oneEntry 7 :=
  (lookupKeeps_iff (by decide) (by decide)).mpr ⟨by decide, oneEntry_neverOpensAtEnd⟩

/-- `{"a":1}` with what follows it in the same buffer. -/
def receivedTwice : CStr := ⟨[123, 34, 97, 34, 58, 49, 125, 123, 125], by decide⟩

/-- The text stays cut behind its first object. -/
theorem receivedTwice_cut : ¬ LookupKeeps receivedTwice 7 := by
  intro keeps
  have whole := keeps.length_eq (by decide) (by decide)
  exact absurd whole (by decide)

end QcloudIot.Json
