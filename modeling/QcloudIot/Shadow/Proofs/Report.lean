import QcloudIot.Shadow.Proofs.RoundTrip

/-!
# Reports read back

When `IOT_Shadow_JSON_ConstructReportArray` succeeds, and with which document; and when every
property and the token are read back from the document.
-/

namespace QcloudIot.Shadow.JsonBuffer

open Mqtt (CStr qcloudRetSuccess)
open Ota (utf8 decimal)
open Json (Place comma)

variable {b : JsonBuffer} {c : Construct} {sizeOfBuffer back : Nat} {str : List UInt8}

/-! ## Behind the properties -/

/-- A text is printed whole, or the call fails. -/
theorem printText_cases (small : sizeOfBuffer < 2 ^ 31) (inside : b.text.length < sizeOfBuffer)
    (filled : 0 < str.length) :
    b.text.length + str.length < sizeOfBuffer ∧
        b.printText sizeOfBuffer back str = (qcloudRetSuccess, b.append back str) ∨
      sizeOfBuffer ≤ b.text.length + str.length ∧
        (b.printText sizeOfBuffer back str).1 ≠ qcloudRetSuccess := by
  by_cases fits : b.text.length + str.length < sizeOfBuffer
  · exact .inl ⟨fits, printText_fits small (by omega) fits⟩
  · obtain ⟨failure, _, _⟩ := @printText_full b _ back str small
      (le_of_lt inside) (by omega)
    exact .inr ⟨Nat.not_lt.mp fits, failure⟩

/-- What is printed in place of the last byte. -/
theorem text_append_one {front : List UInt8} {last : UInt8} (split : b.text = front ++ [last]) :
    (b.append 1 str).text = front ++ str := by
  rw [append, split, List.length_append, List.length_singleton, Nat.add_sub_cancel,
    List.take_left]

/-- The document behind its properties. -/
def closed (front token : List UInt8) : List UInt8 :=
  front ++ utf8 "\x7d" ++ utf8 "\x7d, \"clientToken\":\"" ++ token ++ utf8 "\"\x7d"

theorem utf8_dash : utf8 "-" = [45] := by with_unfolding_all decide

theorem clientToken_ne_nil (productId : CStr) (tokenNum : UInt32) :
    clientToken productId tokenNum ≠ [] := by
  rw [clientToken, utf8_dash]
  simp

/-- The token is printed whole, or the call fails. -/
theorem printToken_cases (small : sizeOfBuffer < 2 ^ 31) (inside : b.text.length < sizeOfBuffer)
    (productId : CStr) :
    (b.text.length + (clientToken productId b.tokenNum).length < sizeOfBuffer ∧
        ∃ b', b.printToken sizeOfBuffer productId = (qcloudRetSuccess, b') ∧
          b'.text = b.text ++ clientToken productId b.tokenNum) ∨
      sizeOfBuffer ≤ b.text.length + (clientToken productId b.tokenNum).length ∧
        (b.printToken sizeOfBuffer productId).1 ≠ qcloudRetSuccess := by
  have filled := List.length_pos_of_ne_nil (clientToken_ne_nil productId b.tokenNum)
  rw [printToken_eq, sizeSub_of_le (le_of_lt inside)]
  by_cases none : sizeOfBuffer - b.text.length ≤ 1
  · rw [if_pos none]
    exact .inr ⟨by omega, (by decide : qcloudErrJsonBufferTooSmall ≠ qcloudRetSuccess)⟩
  · rw [if_neg none]
    have counted : b.text = ({ b with tokenNum := b.tokenNum + 1 } : JsonBuffer).text := rfl
    rw [counted] at inside ⊢
    rcases @printText_cases _ _ 0 _ small inside filled with ⟨fits, printed⟩ | ⟨full, failure⟩
    · exact .inl ⟨fits, _, printed, text_append_zero⟩
    · exact .inr ⟨full, failure⟩

/-- `IOT_Shadow_JSON_Finalize` closes the document and appends the token. -/
theorem jsonFinalize_cases (small : sizeOfBuffer < 2 ^ 31) (inside : b.text.length < sizeOfBuffer)
    {front : List UInt8} {last : UInt8} (split : b.text = front ++ [last]) (productId : CStr) :
    b.text.length + (clientToken productId b.tokenNum).length + 19 < sizeOfBuffer ∧
        (b.jsonFinalize sizeOfBuffer productId).1 = qcloudRetSuccess ∧
        (b.jsonFinalize sizeOfBuffer productId).2.text =
          front ++ utf8 "\x7d, \"clientToken\":\"" ++ clientToken productId b.tokenNum ++
            utf8 "\"\x7d" ∨
      sizeOfBuffer ≤ b.text.length + (clientToken productId b.tokenNum).length + 19 ∧
        (b.jsonFinalize sizeOfBuffer productId).1 ≠ qcloudRetSuccess := by
  have closing : (utf8 "\x7d, \"clientToken\":\"").length = 18 := by with_unfolding_all decide
  have ending : (utf8 "\"\x7d").length = 2 := by with_unfolding_all decide
  have length : b.text.length = front.length + 1 := by rw [split, List.length_append]; rfl
  unfold jsonFinalize
  rcases @printText_cases _ _ 1 (utf8 "\x7d, \"clientToken\":\"") small inside
    (by omega) with ⟨first, printed⟩ | ⟨full, failure⟩
  · have opened := @text_append_one _ (utf8 "\x7d, \"clientToken\":\"") _ _ split
    have openedLength := congrArg List.length opened
    have counted : (b.append 1 (utf8 "\x7d, \"clientToken\":\"")).tokenNum = b.tokenNum := rfl
    rw [List.length_append] at openedLength
    rw [andThen_success printed]
    generalize b.append 1 (utf8 "\x7d, \"clientToken\":\"") = b' at *
    rw [← counted]
    rcases printToken_cases (b := b') small (by omega) productId with
      ⟨second, b'', printed', token⟩ | ⟨full, failure⟩
    · have tokenLength := congrArg List.length token
      rw [List.length_append] at tokenLength
      rw [andThen_success printed']
      rcases @printText_cases b'' _ 0 (utf8 "\"\x7d") small (by omega)
        (by omega) with ⟨third, ends⟩ | ⟨full, failure⟩
      · rw [ends]
        refine .inl ⟨by omega, rfl, ?_⟩
        rw [text_append_zero, token, opened]
      · exact .inr ⟨by omega, failure⟩
    · rw [andThen_failure failure]
      exact .inr ⟨by omega, failure⟩
  · rw [andThen_failure failure]
    exact .inr ⟨by omega, failure⟩

/-- What `IOT_Shadow_JSON_ConstructReportArray` does in front of `IOT_Shadow_JSON_Finalize`. -/
abbrev once : Nat → JsonBuffer → Int × JsonBuffer := fun _ b => (qcloudRetSuccess, b)

/-- The builder closes the document behind its properties. -/
theorem finish_cases (small : c.sizeOfBuffer < 2 ^ 31) (inside : b.text.length < c.sizeOfBuffer)
    {front : List UInt8} {last : UInt8} (split : b.text = front ++ [last]) :
    b.text.length + (clientToken c.productId b.tokenNum).length + 20 < c.sizeOfBuffer ∧
        (finish c once b).1 = qcloudRetSuccess ∧
        (finish c once b).2.text = closed front (clientToken c.productId b.tokenNum) ∨
      c.sizeOfBuffer ≤ b.text.length + (clientToken c.productId b.tokenNum).length + 20 ∧
        (finish c once b).1 ≠ qcloudRetSuccess := by
  have closing : (utf8 "\x7d,").length = 2 := by with_unfolding_all decide
  have braces : utf8 "\x7d," = utf8 "\x7d" ++ [comma] := by with_unfolding_all decide
  have length : b.text.length = front.length + 1 := by rw [split, List.length_append]; rfl
  unfold finish
  rcases @printText_cases _ _ 1 (utf8 "\x7d,") small inside (by omega) with
    ⟨fits, printed⟩ | ⟨full, failure⟩
  · have closedText := @text_append_one _ (utf8 "\x7d,") _ _ split
    have closedLength := congrArg List.length closedText
    have counted : (b.append 1 (utf8 "\x7d,")).tokenNum = b.tokenNum := rfl
    rw [List.length_append] at closedLength
    rw [braces, ← List.append_assoc, ← braces] at closedText
    rw [andThen_success printed, andThen_success rfl]
    generalize b.append 1 (utf8 "\x7d,") = b' at *
    rcases jsonFinalize_cases small (by omega) closedText c.productId with
      ⟨room, success, text⟩ | ⟨full, failure⟩
    · rw [counted] at room text
      exact .inl ⟨by omega, success, text⟩
    · rw [counted] at full
      exact .inr ⟨by omega, failure⟩
  · rw [andThen_failure failure]
    exact .inr ⟨by omega, failure⟩

/-! ## Successful reports -/

/-- The entry of a property. -/
def entryOf : Option DeviceProperty → List Entry
  | some ⟨some key, data⟩ => [(key, data)]
  | _ => []

/-- The entries of the properties. -/
def entries (c : Construct) : List Entry :=
  (List.range c.count.toNat).flatMap fun i : Nat => entryOf (c.properties i)

theorem nodeOf_eq (property : Option DeviceProperty) :
    nodeOf property = entriesText (entryOf property) := by
  match property with
  | some ⟨some key, data⟩ => exact (List.append_nil _).symm
  | some ⟨none, data⟩ => rfl
  | none => rfl

theorem nodes_eq (c : Construct) : nodes c.properties c.count.toNat = entriesText (entries c) := by
  rw [nodes, entries, entriesText, List.flatMap_assoc]
  exact congrArg (List.flatMap · _) (funext fun i => nodeOf_eq _)

/-- The properties in front of which no text is missing. -/
theorem entries_ne_nil (all : ∀ i < c.count.toNat, complete (c.properties (i : Nat)))
    (some : 0 < c.count.toNat) : entries c ≠ [] := by
  intro none
  have first := List.flatMap_eq_nil_iff.mp none 0 (List.mem_range.mpr some)
  have present := all 0 some
  match property : c.properties ((0 : Nat) : Int), present with
  | .some ⟨.some key, data⟩, _ =>
    rw [property] at first
    cases first

/-- The text of the entries ends with a comma. -/
theorem entriesText_comma {found : List Entry} (nonempty : found ≠ []) :
    ∃ text, text ++ [comma] = entriesText found := by
  obtain ⟨others, last, split⟩ := (List.eq_nil_or_concat found).resolve_left nonempty
  refine ⟨entriesText others ++ Json.quote :: (last.1.bytes ++
    Json.quote :: Json.colon :: JsonData.text last.2), ?_⟩
  rw [split, List.concat_eq_append, entriesText, entriesText, List.flatMap_append,
    List.flatMap_singleton, node_eq]
  simp only [List.append_assoc, List.cons_append]

/-- The buffer behind the properties. -/
abbrev filled (c : Construct) (b : JsonBuffer) : JsonBuffer :=
  (b.start false reportedField).advanced c.properties c.count.toNat

/-- The length of the whole document. -/
def documentLength (c : Construct) (tokenNum : UInt32) : Nat :=
  opening false reportedField + (nodes c.properties c.count.toNat).length +
    (clientToken c.productId tokenNum).length + 20

theorem length_reported : (prefixText false).length = 10 ∧ reportedField.length = 12 := by
  with_unfolding_all decide

section Report

variable (fresh : b.written = 0) (small : c.sizeOfBuffer < 2 ^ 31)
  (all : ∀ i < c.count.toNat, complete (c.properties (i : Nat)))
  (bounds : FieldFits c false reportedField (min c.count.toNat 128) false)

include all bounds in
/-- All properties of a document that fits are put. -/
theorem fits_of_room (room : documentLength c b.tokenNum < c.sizeOfBuffer) :
    c.count.toNat < 128 ∧ ∀ j < c.count.toNat, Fits c false reportedField j := by
  obtain ⟨lengthPrefix, lengthField⟩ := length_reported
  have opens : opening false reportedField = 22 := by
    rw [opening, lengthPrefix, lengthField]
  unfold documentLength at room
  have upTo : ∀ {j}, j ≤ c.count.toNat →
      (nodes c.properties j).length ≤ (nodes c.properties c.count.toNat).length :=
    fun le => length_nodes_mono le
  have short : c.count.toNat < 128 := by
    by_contra long
    rcases bounds with none | ⟨_, counts, _⟩
    · omega
    · have before := upTo (min_le_left c.count.toNat 128)
      exact counts (by omega) ⟨fun i below => all i (by omega), by omega⟩
  refine ⟨short, fun j below => ⟨all j below, ?_⟩⟩
  have before := upTo (j := j + 1) below
  rw [if_neg (by omega)]
  omega

include fresh small all bounds in
/-- A call may succeed when the document fits, and ends as soon as the loop has. -/
theorem report_succeeds (room : documentLength c b.tokenNum < c.sizeOfBuffer) :
    ∃ fuel, constructReportArray c fuel b = some (finish c once (filled c b)) := by
  obtain ⟨lengthPrefix, lengthField⟩ := length_reported
  obtain ⟨short, fits⟩ := fits_of_room all bounds room
  have reaches := arrayIndex_reach c.count.toNat_lt
  have past : ¬ counter c.count.toNat < c.count.toNat := by
    rw [counter_eq (by omega), if_pos short]
    exact lt_irrefl _
  unfold documentLength at room
  exact (@outcome_iff _ _ _ _ _ once _ _ fresh small (by omega) (by omega) reaches (by omega) fits
    _).mpr ⟨0, _, putProperties_end past, rfl⟩

include fresh small all bounds in
/-- A call that succeeds has put all properties. -/
theorem report_success {fuel : Nat} {rc : Int × JsonBuffer}
    (done : constructReportArray c fuel b = some rc) (success : rc.1 = qcloudRetSuccess) :
    (filled c b).text.length < c.sizeOfBuffer ∧ rc = finish c once (filled c b) := by
  obtain ⟨lengthPrefix, lengthField⟩ := length_reported
  have reaches := arrayIndex_reach c.count.toNat_lt
  have positive : 0 < reportedField.length := by omega
  by_cases room : opening false reportedField < c.sizeOfBuffer
  · rcases all_or_first (Fits c false reportedField) (min c.count.toNat 128) with
      fits | ⟨m, within, fits, fails⟩
    · by_cases short : c.count.toNat < 128
      · have reached : min c.count.toNat 128 = c.count.toNat := by omega
        rw [reached] at fits reaches
        have past : ¬ counter c.count.toNat < c.count.toNat := by
          rw [counter_eq (by omega), if_pos short]
          exact lt_irrefl _
        obtain ⟨left, rc', looped, finished⟩ := (@outcome_iff _ _ _ _ _ once _ _ fresh small positive
          room reaches (le_refl _) fits rc).mp ⟨fuel, done⟩
        rw [putProperties_end past, Option.some.injEq] at looped
        rw [← looped] at finished
        refine ⟨?_, finished.symm⟩
        rw [length_advanced]
        exact fits_inside room fits
      · have long : 128 ≤ c.count.toNat := by omega
        exact absurd bounds (not_fieldFits_reach room long (reaches.long long).1 fits)
    · have present := all m (by omega)
      have full := Nat.not_lt.mp fun fit => fails ⟨present, fit⟩
      have isIndex := reaches.first m within
      have inside := fits_inside room fits
      have wide : ¬ c.sizeOfBuffer <
          (prefixText false).length + opening false reportedField := by
        intro wraps
        rw [if_pos wraps] at full
        rcases bounds with none | ⟨keeps, _⟩
        · omega
        · have fit := keeps wraps m (by omega) fun i le => all i (by omega)
          omega
      rw [if_neg wide] at full
      have before : opening false reportedField + (nodes c.properties m).length ≤
          c.sizeOfBuffer - (prefixText false).length := by
        cases m with
        | zero =>
          have none : (nodes c.properties 0).length = 0 := rfl
          omega
        | succ m =>
          have last := (fits m (Nat.lt_succ_self m)).2
          rw [if_neg wide] at last
          exact le_of_lt last
      obtain ⟨left, rc', looped, finished⟩ := (@outcome_iff _ _ _ _ _ once _ _ fresh small positive
        room reaches (le_of_lt within) fits rc).mp ⟨fuel, done⟩
      match isProperty : c.properties (m : Int), present with
      | some ⟨some key, data⟩, _ =>
        have more : (nodes c.properties (m + 1)).length =
            (nodes c.properties m).length + (node key data).length := by
          rw [nodes_succ, List.length_append, isProperty]
          rfl
        have length := @length_advanced b c.properties false reportedField m
        obtain ⟨failure, _, _⟩ := @putJsonNode_full (((b.start false reportedField).advanced
            c.properties m).reading (arrayIndex m)) (c.sizeOfBuffer - (prefixText false).length)
                key data
          (by omega) (by rw [text_reading]; omega) (by rw [text_reading]; omega)
        rw [putProperties_refused (counter_lt reaches (.inl within)) (isIndex.symm ▸ isProperty)
          failure, Option.some.injEq] at looped
        rw [← looped, andThen_failure failure] at finished
        exact absurd (finished ▸ success) failure
  · obtain ⟨rc', failed, failure, _⟩ := @constructField_short _ arrayIndex _ _ _ once fresh small
        positive (Nat.not_lt.mp room) fuel
    have same : constructReportArray c fuel b = some rc' := failed
    rw [done, Option.some.injEq] at same
    exact absurd (same ▸ success) failure

end Report

/-! ## Round trips -/

/-- What is asked of the properties: a non-empty key each, no two the same, integers, booleans,
    strings that are not empty or nothing, and no quotes, backslashes, dots, braces and brackets in
    strings, which the product id is one of. -/
structure CleanReport (c : Construct) : Prop where
  complete : ∀ i < c.count.toNat, complete (c.properties (i : Nat))
  clean : ∀ entry ∈ entries c, CleanEntry entry
  distinct : ((entries c).map fun entry => entry.1.bytes).Nodup
  productId : Clean c.productId.bytes

/-- Every call that succeeds leaves a document in the buffer from which all properties and the
    token are read back. -/
def RoundTrip (c : Construct) (b : JsonBuffer) : Prop :=
  ∀ fuel rc, constructReportArray c fuel b = some rc → rc.1 = qcloudRetSuccess →
    ReadsBack (entries c) (clientToken c.productId b.tokenNum) rc.2.text

/-- A document that fits has properties, and no control characters in its strings. -/
def ReportFits (c : Construct) (tokenNum : UInt32) : Prop :=
  documentLength c tokenNum < c.sizeOfBuffer →
    0 < c.count.toNat ∧ (∀ entry ∈ entries c, PrintableEntry entry) ∧ Printable c.productId.bytes

theorem clean_clientToken {productId : CStr} (clean : Clean productId.bytes) (tokenNum : UInt32) :
    Clean (clientToken productId tokenNum) := by
  have dash : Clean (utf8 "-") := by
    rw [utf8_dash]
    simp [Clean, Json.marks, Json.quote, Json.backslash, Json.dot]
  have digits : Clean (decimal tokenNum.toNat) := by
    rw [Json.decimal_natCast]
    intro b mem
    have isDigit := (Json.utf8_repr tokenNum.toNat).2.1 b mem
    refine ⟨?_, ?_⟩
    · intro isMark
      have none : ∀ mark ∈ Json.marks, Json.isDigit mark = false := by
        simp [Json.marks, Json.quote, Json.backslash, Json.isDigit]
      rw [none b isMark] at isDigit
      cases isDigit
    · rintro rfl
      cases isDigit
  intro b mem
  rw [clientToken, List.append_assoc, List.mem_append, List.mem_append] at mem
  rcases mem with inId | inDash | inNumber
  · exact clean b inId
  · exact dash b inDash
  · exact digits b inNumber

theorem printable_clientToken {productId : CStr} (tokenNum : UInt32) :
    Printable (clientToken productId tokenNum) ↔ Printable productId.bytes := by
  have dash : Printable (utf8 "-") := by
    rw [utf8_dash]
    simp [Printable]
  constructor
  · intro printable b mem
    exact printable b (List.mem_append_left _ (List.mem_append_left _ mem))
  · intro printable
    exact (printable.append dash).append (printable_decimal _)

/-- The text in front of the last byte of the buffer. -/
theorem text_filled (b : JsonBuffer) :
    (filled c b).text = prefixText false ++ reportedField ++ entriesText (entries c) := by
  rw [← nodes_eq]
  rfl

theorem tokenNum_filled (b : JsonBuffer) : (filled c b).tokenNum = b.tokenNum := rfl

/-- The opening brace of a report without properties is what the closing brace takes the place
    of. -/
theorem openingBrace : ∃ front, prefixText false ++ reportedField = front ++ [123] ∧
    ∀ token, Place.outside.after (closed front token) = none := by
  refine ⟨(prefixText false ++ reportedField).dropLast, by with_unfolding_all decide, ?_⟩
  intro token
  have stops : Place.outside.after
      ((prefixText false ++ reportedField).dropLast ++ utf8 "\x7d") = none := by
    with_unfolding_all decide
  have split : closed (prefixText false ++ reportedField).dropLast token =
      (prefixText false ++ reportedField).dropLast ++ utf8 "\x7d" ++
        (utf8 "\x7d, \"clientToken\":\"" ++ token ++ utf8 "\"\x7d") := by
    simp only [closed, List.append_assoc]
  rw [split, Place.after_append, stops]
  rfl

/-- Once it keeps to its buffer, a report is read back if and only if it has properties and no
    control characters. -/
theorem reported_iff {b : JsonBuffer} (fresh : b.written = 0) (small : c.sizeOfBuffer < 2 ^ 31)
    (clean : CleanReport c)
    (bounds : FieldFits c false reportedField (min c.count.toNat 128) false) :
    RoundTrip c b ↔ ReportFits c b.tokenNum := by
  have allComplete := clean.complete
  have length : (filled c b).text.length =
      opening false reportedField + (nodes c.properties c.count.toNat).length := length_advanced
  have tokenClean := clean_clientToken clean.productId b.tokenNum
  have tokenNonempty := clientToken_ne_nil c.productId b.tokenNum
  by_cases some : 0 < c.count.toNat
  · have nonempty := entries_ne_nil allComplete some
    obtain ⟨front, comma⟩ := entriesText_comma nonempty
    have split : (filled c b).text = prefixText false ++ reportedField ++ front ++ [Json.comma] := by
      rw [text_filled, ← comma, ← List.append_assoc]
    constructor
    · intro roundTrip room
      obtain ⟨fuel, done⟩ := report_succeeds fresh small allComplete bounds room
      unfold documentLength at room
      rcases finish_cases small (by omega) split with ⟨_, success, text⟩ | ⟨full, _⟩
      · obtain ⟨d, _, isText, _⟩ := roundTrip fuel _ done success
        rw [text] at isText
        obtain ⟨entriesPrintable, tokenPrintable⟩ :=
          printable_of_document nonempty clean.clean clean.distinct comma tokenClean isText
        exact ⟨some, entriesPrintable, (printable_clientToken _).mp tokenPrintable⟩
      · rw [tokenNum_filled] at full
        omega
    · intro fits fuel rc done success
      obtain ⟨inside, rfl⟩ := report_success fresh small allComplete bounds done success
      rcases finish_cases small inside split with ⟨room, _, text⟩ | ⟨_, failure⟩
      · rw [tokenNum_filled] at room text
        obtain ⟨_, entriesPrintable, idPrintable⟩ := fits (by unfold documentLength; omega)
        obtain ⟨members, membersText, plain, holds⟩ :=
          entries_members nonempty clean.clean entriesPrintable clean.distinct
        have same : members.text = front := List.append_cancel_right (membersText.trans comma.symm)
        have membersPrintable : Printable members.text := by
          intro byte mem
          refine printable_entriesText entriesPrintable byte ?_
          rw [← membersText]
          exact List.mem_append_left _ mem
        rw [text, ← same]
        exact readsBack_documentText clean.clean plain holds membersPrintable tokenNonempty
          tokenClean ((printable_clientToken _).mpr idPrintable)
      · exact absurd success failure
  · have none : nodes c.properties c.count.toNat = [] := by
      rw [Nat.eq_zero_of_not_pos some]
      rfl
    obtain ⟨front, split, stops⟩ := openingBrace
    have isFront : (filled c b).text = front ++ [123] := by
      rw [text_filled, ← nodes_eq, none, List.append_nil, split]
    have fails : RoundTrip c b → ¬ documentLength c b.tokenNum < c.sizeOfBuffer := by
      intro roundTrip room
      obtain ⟨fuel, done⟩ := report_succeeds fresh small allComplete bounds room
      unfold documentLength at room
      rcases finish_cases small (by omega) isFront with ⟨_, success, text⟩ | ⟨full, _⟩
      · obtain ⟨d, _, isText, _⟩ := roundTrip fuel _ done success
        have through := d.after
        rw [isText, text, stops] at through
        cases through
      · rw [tokenNum_filled] at full
        omega
    constructor
    · intro roundTrip room
      exact absurd room (fails roundTrip)
    · intro fits fuel rc done success
      obtain ⟨inside, rfl⟩ := report_success fresh small allComplete bounds done success
      rcases finish_cases small inside isFront with ⟨room, _⟩ | ⟨_, failure⟩
      · rw [tokenNum_filled] at room
        exact absurd (fits (by unfold documentLength; omega)).1 some
      · exact absurd success failure

/-- A report keeps to its buffer and is read back whenever it succeeds, if and only if the buffer
    is large enough for what is printed without a check, and a document that fits has properties
    and no control characters in its strings. -/
theorem constructReportArray_roundTrip_iff (c : Construct) (small : c.sizeOfBuffer < 2 ^ 31)
    (clean : CleanReport c) (text : List UInt8) (tokenNum : UInt32) :
    KeepsBounds c.sizeOfBuffer c.count.toNat
          (fun fuel => constructReportArray c fuel ⟨text, 0, [], tokenNum⟩) ∧
        RoundTrip c ⟨text, 0, [], tokenNum⟩ ↔
      FieldFits c false reportedField (min c.count.toNat 128) false ∧ ReportFits c tokenNum := by
  have reported : 0 < reportedField.length := by decide +kernel
  have keeps := @constructField_keepsBounds_iff ⟨text, 0, [], tokenNum⟩ _ c false reportedField _ _
      _ rfl rfl small reported
    (arrayIndex_reach c.count.toNat_lt) (finishes_once small)
  refine (and_congr_left' keeps).trans (and_congr_right fun bounds => ?_)
  exact reported_iff rfl small clean bounds

/-! ## A report and its failures -/

theorem clean_utf8_key : utf8 "k" ≠ [] ∧ Clean (utf8 "k") := by
  have bytes : utf8 "k" = [107] := by with_unfolding_all decide
  rw [bytes]
  simp [Clean, Json.marks, Json.quote, Json.backslash, Json.dot]

theorem clean_utf8_id : Clean (utf8 "p") := by
  have bytes : utf8 "p" = [112] := by with_unfolding_all decide
  rw [bytes]
  simp [Clean, Json.marks, Json.quote, Json.backslash, Json.dot]

theorem noNul_utf8_key : 0 ∉ utf8 "k" := by with_unfolding_all decide

theorem noNul_utf8_id : 0 ∉ utf8 "p" := by with_unfolding_all decide

/-- One property with the key `k`, in 100 bytes. -/
def single (data : Option JsonData) : Construct where
  sizeOfBuffer := 100
  count := 1
  properties := fun _ => some ⟨some ⟨utf8 "k", noNul_utf8_key⟩, data⟩
  productId := ⟨utf8 "p", noNul_utf8_id⟩

theorem cleanReport_single {data : Option JsonData} (clean : CleanData data) :
    CleanReport (single data) where
  complete _ _ := rfl
  clean := by
    exact List.forall_mem_singleton.mpr ⟨clean_utf8_key.1, clean_utf8_key.2, clean⟩
  distinct := List.nodup_singleton _
  productId := clean_utf8_id

/-- The report of the integer 1. -/
theorem constructReportArray_roundTrip_one :
    KeepsBounds 100 1
        (fun fuel => constructReportArray (single (some (.jint32 1))) fuel ⟨[], 0, [], 0⟩) ∧
      RoundTrip (single (some (.jint32 1))) ⟨[], 0, [], 0⟩ := by
  apply (constructReportArray_roundTrip_iff (single (some (.jint32 1))) (by decide)
    (cleanReport_single trivial) [] 0).mpr
  refine ⟨by decide +kernel, fun _ => ⟨by decide, ?_, ?_⟩⟩
  · exact List.forall_mem_singleton.mpr ⟨(by decide +kernel : Printable (utf8 "k")),
      printable_decimal _⟩
  · exact (by decide +kernel : Printable (utf8 "p"))

/-- A report without properties, and one of a string with a line feed, are not JSON texts. -/
theorem constructReportArray_malformed :
    (CleanReport (ones 100 0) ∧ ¬ RoundTrip (ones 100 0) ⟨[], 0, [], 0⟩) ∧
      CleanReport (single (some (.jstring ⟨[10], by decide⟩))) ∧
      ¬ RoundTrip (single (some (.jstring ⟨[10], by decide⟩))) ⟨[], 0, [], 0⟩ := by
  have none : CleanReport (ones 100 0) :=
    { complete := fun i below => absurd below (Nat.not_lt_zero i)
      clean := List.forall_mem_nil _
      distinct := List.nodup_nil
      productId := (by decide +kernel : Clean (utf8 "p")) }
  have lineFeed : CleanReport (single (some (.jstring ⟨[10], by decide⟩))) :=
    cleanReport_single ⟨List.cons_ne_nil _ _, (by decide +kernel : Clean [10])⟩
  refine ⟨⟨none, ?_⟩, lineFeed, ?_⟩
  · apply (reported_iff (b := ⟨[], 0, [], 0⟩) (c := ones 100 0) rfl (by decide) none
      (by decide +kernel)).not.mpr
    intro fits
    exact absurd (fits (by decide +kernel)).1 (by decide)
  · apply (reported_iff (b := ⟨[], 0, [], 0⟩) rfl (by decide) lineFeed
      (by decide +kernel)).not.mpr
    intro fits
    obtain ⟨_, printable, _⟩ := fits (by decide +kernel)
    have isControl := (printable _ List.mem_cons_self).2 10
      (List.mem_append_left _ (List.mem_append_right _ List.mem_cons_self))
    exact isControl (by decide)

end QcloudIot.Shadow.JsonBuffer
