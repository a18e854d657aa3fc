import QcloudIot.Json.Proofs.Decimal
import QcloudIot.Json.Proofs.Places
import QcloudIot.Shadow.Proofs.Document

/-!
# Documents built and read back

The document of `IOT_Shadow_JSON_ConstructReportArray` is a JSON text from which
`LITE_json_value_of` reads every property and the token, unless there are no properties or a
string contains a control character.
-/

namespace QcloudIot.Shadow

open Mqtt (CStr qcloudRetSuccess qcloudErrInval)
open Ota (utf8 decimal)
open Json (Value Derivation Document StrChar Place Ws PlainString charsText marks quote backslash
  comma dot findMember liteJsonValueOf)

/-! ## Entries -/

/-- A property of the document: its key and its data. -/
abbrev Entry := CStr × Option JsonData

/-- Free of quotes, backslashes, braces, brackets and dots. -/
def Clean (bytes : List UInt8) : Prop := ∀ b ∈ bytes, b ∉ marks ∧ b ≠ dot

/-- Free of control characters. -/
def Printable (bytes : List UInt8) : Prop := ∀ b ∈ bytes, ¬ b < 32

/-- An integer, a boolean, a string that is not empty, or nothing. -/
def CleanData : Option JsonData → Prop
  | some (.jstring value) => value.bytes ≠ [] ∧ Clean value.bytes
  | some (.jfloat _) => False
  | some (.jdouble _) => False
  | some (.jobject _) => False
  | _ => True

/-- The text to be read back. -/
def dataContent : Option JsonData → List UInt8
  | some (.jstring value) => value.bytes
  | data => JsonData.text data

def CleanEntry (entry : Entry) : Prop :=
  entry.1.bytes ≠ [] ∧ Clean entry.1.bytes ∧ CleanData entry.2

def PrintableEntry (entry : Entry) : Prop :=
  Printable entry.1.bytes ∧ Printable (JsonData.text entry.2)

theorem utf8_quote : utf8 "\"" = [quote] := by with_unfolding_all decide

theorem utf8_quoteColon : utf8 "\":" = [quote, Json.colon] := by with_unfolding_all decide

theorem utf8_comma : utf8 "," = [comma] := by with_unfolding_all decide

theorem node_eq (key : CStr) (data : Option JsonData) : JsonBuffer.node key data =
    quote :: (key.bytes ++ quote :: Json.colon :: (JsonData.text data ++ [comma])) := by
  rw [JsonBuffer.node, utf8_quote, utf8_quoteColon, utf8_comma, List.append_assoc,
    List.append_assoc]
  rfl

/-! ## Strings and values -/

theorem Clean.not_mem {bytes : List UInt8} (clean : Clean bytes) {b : UInt8} (mark : b ∈ marks) :
    b ∉ bytes := fun mem => (clean b mem).1 mark

theorem Clean.dot_not_mem {bytes : List UInt8} (clean : Clean bytes) : dot ∉ bytes :=
  fun mem => (clean dot mem).2 rfl

/-- Printable bytes without quotes and backslashes are a string. -/
theorem chars_of_bytes {bytes : List UInt8} (clean : Clean bytes) (printable : Printable bytes) :
    ∃ chars, charsText chars = bytes ∧ (bytes ≠ [] → PlainString chars) := by
  have chars : ∃ chars, charsText chars = bytes := by
    refine Json.exists_charsText ?_
    intro b mem
    have valid : 32 ≤ b := UInt8.not_lt.mp (printable b mem)
    refine ⟨valid, ?_, ?_⟩
    · rintro rfl
      exact (clean quote mem).1 (by decide)
    · rintro rfl
      exact (clean backslash mem).1 (by decide)
  obtain ⟨chars, text⟩ := chars
  refine ⟨chars, text, fun nonempty => ⟨?_, fun b mem => (clean b (text ▸ mem)).1⟩⟩
  rintro rfl
  exact nonempty text.symm

/-- The text of an integer is a value. -/
theorem decimal_value (n : Int) : ∃ value : Value, value.text = decimal n ∧ value.Plain ∧
    value.leftover = [] ∧ value.content = decimal n := by
  obtain ⟨number, noExponent, text⟩ := Json.decimal_number n
  refine ⟨.number number, text, trivial, ?_, text⟩
  change number.exponent = []
  rw [Json.Number.exponent, noExponent]

theorem literal_value {text : String} (l : Json.Literal) (isText : l.text = utf8 text) :
    ∃ value : Value, value.text = utf8 text ∧ value.Plain ∧ value.leftover = [] ∧
      value.content = utf8 text :=
  ⟨.literal l, isText, trivial, rfl, isText⟩

/-- The data of an entry are a value. -/
theorem data_value {data : Option JsonData} (clean : CleanData data)
    (printable : Printable (JsonData.text data)) :
    ∃ value : Value, value.text = JsonData.text data ∧ value.Plain ∧ value.leftover = [] ∧
      value.content = dataContent data := by
  match data, clean with
  | none, _ => exact literal_value .null (by with_unfolding_all decide)
  | some (.jint32 n), _ => exact decimal_value _
  | some (.jint16 n), _ => exact decimal_value _
  | some (.jint8 n), _ => exact decimal_value _
  | some (.juint32 n), _ => exact decimal_value _
  | some (.juint16 n), _ => exact decimal_value _
  | some (.juint8 n), _ => exact decimal_value _
  | some (.jbool true), _ => exact literal_value .true (by with_unfolding_all decide)
  | some (.jbool false), _ => exact literal_value .false (by with_unfolding_all decide)
  | some (.jstring value), clean =>
    have text : JsonData.text (some (.jstring value)) = quote :: (value.bytes ++ [quote]) := by
      rw [JsonData.text, utf8_quote]
      rfl
    rw [text] at printable ⊢
    obtain ⟨chars, isText, plain⟩ := chars_of_bytes clean.2 fun b mem =>
      printable b (List.mem_cons_of_mem _ (List.mem_append_left _ mem))
    refine ⟨.string chars, ?_, plain clean.1, rfl, isText⟩
    rw [Derivation.text, isText]

/-! ## Members -/

/-- The text of the entries. -/
def entriesText (entries : List Entry) : List UInt8 :=
  entries.flatMap fun entry => JsonBuffer.node entry.1 entry.2

/-- A member found by its key. -/
def Holds (members : List Json.Member) (entry : Entry) : Prop :=
  ∃ value rest, findMember entry.1.bytes members = some (value, rest) ∧ value.leftover = [] ∧
    value.content = dataContent entry.2

/-- The name of a member is its key. -/
theorem decode_plain {chars : List StrChar} {bytes : List UInt8} (text : charsText chars = bytes)
    (clean : Clean bytes) : Json.decode chars = bytes := by
  rw [← text] at clean ⊢
  exact Json.decode_eq (clean.not_mem (by decide))

/-- The entries are the members of an object, each found by its key. Induction on the entries,
    behind the last of which the comma is missing. -/
theorem entries_members {entries : List Entry} (nonempty : entries ≠ [])
    (clean : ∀ entry ∈ entries, CleanEntry entry)
    (printable : ∀ entry ∈ entries, PrintableEntry entry)
    (distinct : (entries.map fun entry => entry.1.bytes).Nodup) :
    ∃ members : Derivation .members, members.text ++ [comma] = entriesText entries ∧
      members.Plain ∧ ∀ entry ∈ entries, Holds members.members entry := by
  induction entries with
  | nil => exact absurd rfl nonempty
  | cons entry rest ih =>
    obtain ⟨keyNonempty, keyClean, dataClean⟩ := clean entry List.mem_cons_self
    obtain ⟨keyPrintable, dataPrintable⟩ := printable entry List.mem_cons_self
    obtain ⟨name, nameText, namePlain⟩ := chars_of_bytes keyClean keyPrintable
    obtain ⟨value, valueText, valuePlain, leftover, content⟩ := data_value dataClean dataPrintable
    have isName := decode_plain nameText keyClean
    rw [List.map_cons, List.nodup_cons] at distinct
    have first : entriesText (entry :: rest) =
        quote :: (entry.1.bytes ++ quote :: Json.colon :: (JsonData.text entry.2 ++ [comma])) ++
          entriesText rest := by
      rw [← node_eq]
      rfl
    cases rest with
    | nil =>
      refine ⟨.member .empty name .empty .empty value .empty .endMembers, ?_,
        ⟨namePlain keyNonempty, valuePlain, trivial⟩, ?_⟩
      · have none : entriesText [] = [] := rfl
        rw [first, none, List.append_nil, ← nameText, ← valueText]
        simp [Derivation.text, Ws.empty]
      · intro found mem
        rw [List.mem_singleton.mp mem]
        exact ⟨value, [], if_pos isName, leftover, content⟩
    | cons second others =>
      obtain ⟨members, text, plain, holds⟩ := ih (List.cons_ne_nil _ _)
        (fun e mem => clean e (List.mem_cons_of_mem _ mem))
        (fun e mem => printable e (List.mem_cons_of_mem _ mem)) distinct.2
      refine ⟨.member .empty name .empty .empty value .empty (.nextMember members), ?_,
        ⟨namePlain keyNonempty, valuePlain, plain⟩, ?_⟩
      · rw [first, ← text, ← nameText, ← valueText]
        simp [Derivation.text, Ws.empty]
      · intro found mem
        rcases List.mem_cons.mp mem with same | later
        · rw [same]
          exact ⟨value, members.members, if_pos isName, leftover, content⟩
        · obtain ⟨value', rest', isMember, isLeftover, isContent⟩ := holds found later
          have other : ¬ Json.decode name = found.1.bytes := by
            intro same
            apply distinct.1
            rw [← isName, same]
            exact List.mem_map_of_mem later
          refine ⟨value', rest', ?_, isLeftover, isContent⟩
          exact (if_neg other).trans isMember

/-! ## The document -/

def stateBytes : List UInt8 := utf8 "state"

def reportedBytes : List UInt8 := utf8 "reported"

def clientTokenBytes : List UInt8 := utf8 "clientToken"

/-- The document, its entries without the last comma. -/
def documentText (entries token : List UInt8) : List UInt8 :=
  JsonBuffer.prefixText false ++ JsonBuffer.reportedField ++ entries ++ utf8 "\x7d" ++
    utf8 "\x7d, \"clientToken\":\"" ++ token ++ utf8 "\"\x7d"

/-- What is to be read back from a document. -/
def ReadsBack (entries : List Entry) (token text : List UInt8) : Prop :=
  ∃ (d : Document) (src : CStr), d.text = text ∧ src.bytes = text ∧
    (∀ entry ∈ entries, ∀ key : CStr,
      key.bytes = stateBytes ++ dot :: (reportedBytes ++ dot :: entry.1.bytes) →
      ∀ allocated, liteJsonValueOf key src allocated =
        .ok (if allocated then some (dataContent entry.2) else none)) ∧
    ∀ key : CStr, key.bytes = clientTokenBytes →
      ∀ allocated, liteJsonValueOf key src allocated =
        .ok (if allocated then some token else none)

theorem Printable.append {bytes rest : List UInt8} (first : Printable bytes)
    (second : Printable rest) : Printable (bytes ++ rest) := by
  intro b mem
  rcases List.mem_append.mp mem with mem | mem
  · exact first b mem
  · exact second b mem

instance (bytes : List UInt8) : Decidable (Printable bytes) :=
  inferInstanceAs (Decidable (∀ b ∈ bytes, ¬ b < 32))

instance (bytes : List UInt8) : Decidable (Clean bytes) :=
  inferInstanceAs (Decidable (∀ b ∈ bytes, _ ∧ _))

/-- A clean string is gone through if it is printable. -/
theorem after_clean {bytes : List UInt8} (clean : Clean bytes) :
    Place.inside.after bytes = if Printable bytes then some .inside else none :=
  Json.after_inside (clean.not_mem (by decide)) (clean.not_mem (by decide))

theorem printable_marks : Printable (utf8 "\"") ∧ Printable (utf8 "\":") ∧ Printable (utf8 ",") := by
  rw [utf8_quote, utf8_quoteColon, utf8_comma]
  simp [Printable, quote, Json.colon, comma]

theorem printable_literals :
    Printable (utf8 "null") ∧ Printable (utf8 "true") ∧ Printable (utf8 "false") := by
  have bytes : utf8 "null" = [110, 117, 108, 108] ∧ utf8 "true" = [116, 114, 117, 101] ∧
      utf8 "false" = [102, 97, 108, 115, 101] := by
    with_unfolding_all decide
  rw [bytes.1, bytes.2.1, bytes.2.2]
  simp [Printable]

/-- The names in a document. -/
theorem clean_names : (Clean stateBytes ∧ Clean reportedBytes ∧ Clean clientTokenBytes) ∧
    Printable stateBytes ∧ Printable reportedBytes ∧ Printable clientTokenBytes := by
  have bytes : stateBytes = [115, 116, 97, 116, 101] ∧
      reportedBytes = [114, 101, 112, 111, 114, 116, 101, 100] ∧
      clientTokenBytes = [99, 108, 105, 101, 110, 116, 84, 111, 107, 101, 110] := by
    with_unfolding_all decide
  rw [bytes.1, bytes.2.1, bytes.2.2]
  simp [Printable, Clean, marks, quote, backslash, dot]

/-- The document in front of its entries. -/
theorem frontText : JsonBuffer.prefixText false ++ JsonBuffer.reportedField =
    123 :: quote :: (stateBytes ++ quote :: Json.colon :: 123 :: quote ::
      (reportedBytes ++ [quote, Json.colon, 123])) := by
  with_unfolding_all decide

/-- The document between its entries and the token. -/
theorem middleText : utf8 "\x7d" ++ utf8 "\x7d, \"clientToken\":\"" =
    125 :: 125 :: comma :: 32 :: quote :: (clientTokenBytes ++ [quote, Json.colon, quote]) := by
  with_unfolding_all decide

/-- The document behind the token. -/
theorem backText : utf8 "\"\x7d" = [quote, 125] := by with_unfolding_all decide

theorem printable_entriesText {entries : List Entry}
    (printable : ∀ entry ∈ entries, PrintableEntry entry) : Printable (entriesText entries) := by
  intro b mem
  obtain ⟨entry, isEntry, mem⟩ := List.mem_flatMap.mp mem
  obtain ⟨key, data⟩ := printable entry isEntry
  exact (((printable_marks.1.append key).append printable_marks.2.1).append
    (data.append printable_marks.2.2)) b mem

theorem printable_documentText {entries token : List UInt8} (printable : Printable entries)
    (tokenPrintable : Printable token) : Printable (documentText entries token) := by
  have ⟨_, state, reported, tokenName⟩ := clean_names
  have ends : Printable [123, quote] ∧ Printable [quote, Json.colon, 123, quote] ∧
      Printable [quote, Json.colon, 123] ∧ Printable [125, 125, comma, 32, quote] ∧
      Printable [quote, Json.colon, quote] ∧ Printable [quote, 125] := by
    simp [Printable, quote, Json.colon, comma]
  obtain ⟨opening, between, inner, closing, colon, final⟩ := ends
  have front := (((opening.append state).append between).append reported).append inner
  have middle := (closing.append tokenName).append colon
  have text : documentText entries token = [123, quote] ++ stateBytes ++
      [quote, Json.colon, 123, quote] ++ reportedBytes ++ [quote, Json.colon, 123] ++ entries ++
      ([125, 125, comma, 32, quote] ++ clientTokenBytes ++ [quote, Json.colon, quote]) ++ token ++
      [quote, 125] := by
    rw [documentText, frontText, backText, List.append_assoc _ (utf8 "\x7d"), middleText]
    simp only [List.append_assoc, List.cons_append, List.nil_append]
  rw [text]
  exact (((front.append printable).append middle).append tokenPrintable).append final

theorem Printable.noNul {bytes : List UInt8} (printable : Printable bytes) : 0 ∉ bytes :=
  fun mem => absurd (by decide : (0 : UInt8) < 32) (printable 0 mem)

/-- The value of a document with these members and this token. -/
def documentValue (stateName reportedName tokenName : List StrChar)
    (members : Derivation .members) (token : List StrChar) : Value :=
  .object (.member .empty stateName .empty .empty
    (.object (.member .empty reportedName .empty .empty (.object members) .empty .endMembers))
    .empty
    (.nextMember (.member ⟨[Json.space], List.forall_mem_singleton.mpr (.inl rfl)⟩ tokenName .empty
      .empty (.string token) .empty .endMembers)))

/-- A document with entries, all strings of which are clean and printable, is read back. -/
theorem readsBack_documentText {entries : List Entry} {token : List UInt8}
    {members : Derivation .members}
    (clean : ∀ entry ∈ entries, CleanEntry entry) (plain : members.Plain)
    (holds : ∀ entry ∈ entries, Holds members.members entry)
    (printable : Printable members.text) (tokenNonempty : token ≠ []) (tokenClean : Clean token)
    (tokenPrintable : Printable token) :
    ReadsBack entries token (documentText members.text token) := by
  obtain ⟨stateName, stateText, statePlain⟩ :=
    chars_of_bytes clean_names.1.1 clean_names.2.1
  obtain ⟨reportedName, reportedText, reportedPlain⟩ :=
    chars_of_bytes clean_names.1.2.1 clean_names.2.2.1
  obtain ⟨tokenName, tokenNameText, tokenNamePlain⟩ :=
    chars_of_bytes clean_names.1.2.2 clean_names.2.2.2
  obtain ⟨tokenChars, tokenText, tokenPlain⟩ := chars_of_bytes tokenClean tokenPrintable
  have stateNonempty : stateBytes ≠ [] := by with_unfolding_all decide
  have reportedNonempty : reportedBytes ≠ [] := by with_unfolding_all decide
  have tokenNameNonempty : clientTokenBytes ≠ [] := by with_unfolding_all decide
  have stateNoDot : dot ∉ stateBytes := clean_names.1.1.dot_not_mem
  have reportedNoDot : dot ∉ reportedBytes := clean_names.1.2.1.dot_not_mem
  have tokenNameNoDot : dot ∉ clientTokenBytes := clean_names.1.2.2.dot_not_mem
  have isState := decode_plain stateText clean_names.1.1
  have isReported := decode_plain reportedText clean_names.1.2.1
  have isTokenName := decode_plain tokenNameText clean_names.1.2.2
  let d : Document := ⟨.empty, documentValue stateName reportedName tokenName members tokenChars,
    .empty, rfl⟩
  have text : d.text = documentText members.text token := by
    rw [documentText, List.append_assoc _ (utf8 "\x7d"), frontText, middleText, backText,
      ← tokenText, ← stateText, ← reportedText, ← tokenNameText]
    simp [d, documentValue, Document.text, Derivation.text, Ws.empty, Json.JsonType.opening,
      Json.JsonType.closing]
  have allPlain : d.value.Plain :=
    ⟨statePlain stateNonempty, ⟨reportedPlain reportedNonempty, plain, trivial⟩,
      tokenNamePlain tokenNameNonempty, tokenPlain tokenNonempty, trivial⟩
  have spaces : ∀ b ∈ d.before.bytes, b = Json.space := List.forall_mem_nil _
  refine ⟨d, ⟨_, (printable_documentText printable tokenPrintable).noNul⟩, text, rfl, ?_, ?_⟩
  · intro entry mem key isKey allocated
    obtain ⟨keyNonempty, keyClean, _⟩ := clean entry mem
    obtain ⟨value, rest, isMember, leftover, content⟩ := holds entry mem
    have keyNoDot : dot ∉ entry.1.bytes := keyClean.dot_not_mem
    have result := @Json.liteJsonValueOf_document key ⟨_,
      (printable_documentText printable tokenPrintable).noNul⟩ d ⟨stateBytes, stateNonempty,
          stateNoDot⟩ [⟨reportedBytes, reportedNonempty, reportedNoDot⟩,
        ⟨entry.1.bytes, keyNonempty, keyNoDot⟩] text.symm isKey allPlain spaces allocated
    have inReported : Json.nested [entry.1.bytes] (.object members) = some value := by
      change (findMember entry.1.bytes members.members).bind _ = _
      rw [isMember]
      rfl
    have inState : ∀ behind, findMember reportedBytes
        ((reportedName, .object members) :: behind) = some (.object members, behind) :=
      fun _ => if_pos isReported
    have inDocument : ∀ value behind, findMember stateBytes ((stateName, value) :: behind) =
        some (value, behind) := fun _ _ => if_pos isState
    have nested : Json.nested [stateBytes, reportedBytes, entry.1.bytes] d.value = some value := by
      change (findMember stateBytes ((stateName, _) :: _)).bind _ = _
      rw [inDocument]
      change (findMember reportedBytes ((reportedName, _) :: _)).bind _ = _
      rw [inState]
      exact inReported
    have reached : d.onward [stateBytes, reportedBytes, entry.1.bytes] = some value :=
      Json.onward_of_nested [] nested
    rw [result]
    change Except.ok (Json.delivered allocated
      (d.onward [stateBytes, reportedBytes, entry.1.bytes])) = _
    rw [reached, Json.delivered, Option.map_some, value.scanned_eq_content leftover, content]
  · intro key isKey allocated
    have result := @Json.liteJsonValueOf_document key ⟨_,
      (printable_documentText printable tokenPrintable).noNul⟩ d ⟨clientTokenBytes,
          tokenNameNonempty, tokenNameNoDot⟩ [] text.symm
      isKey allPlain spaces allocated
    have other : ¬ Json.decode stateName = clientTokenBytes := by
      rw [isState]
      with_unfolding_all decide
    have inDocument : ∀ value behind, findMember clientTokenBytes
        ((stateName, value) :: (tokenName, .string tokenChars) :: behind) =
        some (.string tokenChars, behind) :=
      fun _ _ => (if_neg other).trans (if_pos isTokenName)
    have nested : Json.nested [clientTokenBytes] d.value = some (.string tokenChars) := by
      change (findMember clientTokenBytes ((stateName, _) :: (tokenName, _) :: _)).bind _ = _
      rw [inDocument]
      rfl
    have reached : d.onward [clientTokenBytes] = some (.string tokenChars) :=
      Json.onward_of_nested [] nested
    rw [result]
    change Except.ok (Json.delivered allocated (d.onward [clientTokenBytes])) = _
    rw [reached, Json.delivered, Option.map_some]
    change Except.ok (if allocated then some (charsText tokenChars) else none) = _
    rw [tokenText]

/-! ## Control characters -/

theorem printable_decimal (n : Int) : Printable (decimal n) := by
  obtain ⟨number, _, text⟩ := Json.decimal_number n
  intro b mem control
  rw [← text] at mem
  refine number.not_mem_other ?_ mem
  have small : ∀ c : UInt8, c.toNat ≥ 32 → b ≠ c := by
    rintro c large rfl
    rw [UInt8.lt_iff_toNat_lt] at control
    have value : (32 : UInt8).toNat = 32 := rfl
    omega
  refine ⟨?_, small _ (by decide), small _ (by decide), small _ (by decide), small _ (by decide),
    small _ (by decide)⟩
  have below : ¬ 48 ≤ b := by
    rw [UInt8.le_iff_toNat_le]
    rw [UInt8.lt_iff_toNat_lt] at control
    have values : (32 : UInt8).toNat = 32 ∧ (48 : UInt8).toNat = 48 := ⟨rfl, rfl⟩
    omega
  rw [Json.isDigit, decide_eq_false below, Bool.false_and]

/-- Behind a colon, the data of an entry are gone through if they are printable. -/
theorem printable_of_after {data : Option JsonData} (clean : CleanData data) {place : Place}
    (through : Place.behindColon.after (JsonData.text data) = some place) :
    Printable (JsonData.text data) := by
  match data, clean with
  | none, _ => exact printable_literals.1
  | some (.jint32 n), _ => exact printable_decimal _
  | some (.jint16 n), _ => exact printable_decimal _
  | some (.jint8 n), _ => exact printable_decimal _
  | some (.juint32 n), _ => exact printable_decimal _
  | some (.juint16 n), _ => exact printable_decimal _
  | some (.juint8 n), _ => exact printable_decimal _
  | some (.jbool true), _ => exact printable_literals.2.1
  | some (.jbool false), _ => exact printable_literals.2.2
  | some (.jstring value), clean =>
    have text : JsonData.text (some (.jstring value)) = quote :: (value.bytes ++ [quote]) := by
      rw [JsonData.text, utf8_quote]
      rfl
    have opens : Place.behindColon.next quote = some .inside := rfl
    rw [text, Place.after_cons_of _ opens, Place.after_append,
      after_clean clean.2] at through
    have isPrintable : Printable value.bytes := by
      by_contra control
      rw [if_neg control] at through
      cases through
    have quotePrintable : Printable [quote] := List.forall_mem_singleton.mpr (by decide)
    rw [text]
    exact quotePrintable.append (isPrintable.append quotePrintable)

/-- An entry is gone through if its strings are printable. -/
theorem printableEntry_of_after {entry : Entry} (clean : CleanEntry entry) {place : Place}
    (through : Place.outside.after (JsonBuffer.node entry.1 entry.2) = some place) :
    PrintableEntry entry := by
  obtain ⟨_, keyClean, dataClean⟩ := clean
  have opens : Place.outside.next quote = some .inside := rfl
  have closes : Place.inside.next quote = some .outside := rfl
  have leads : Place.outside.next Json.colon = some .behindColon := rfl
  rw [node_eq, Place.after_cons_of _ opens, Place.after_append,
    after_clean keyClean] at through
  by_cases keyPrintable : Printable entry.1.bytes
  · rw [if_pos keyPrintable, Option.bind_some, Place.after_cons_of _ closes,
      Place.after_cons_of _ leads, Place.after_append, Option.bind_eq_some_iff] at through
    obtain ⟨_, data, _⟩ := through
    exact ⟨keyPrintable, printable_of_after dataClean data⟩
  · rw [if_neg keyPrintable] at through
    cases through

/-- A printable entry ends outside. -/
theorem after_node {entry : Entry} (clean : CleanEntry entry) (printable : PrintableEntry entry) :
    Place.outside.after (JsonBuffer.node entry.1 entry.2) = some .outside := by
  obtain ⟨value, text, _⟩ := data_value clean.2.2 printable.2
  have opens : Place.outside.next quote = some .inside := rfl
  have closes : Place.inside.next quote = some .outside := rfl
  have leads : Place.outside.next Json.colon = some .behindColon := rfl
  have ends : Place.behindColon.after (JsonData.text entry.2) = some .outside := by
    rw [← text]
    exact value.after (.inr rfl) (.inl rfl)
  rw [node_eq, Place.after_cons_of _ opens, Place.after_append,
    after_clean clean.2.1,
    if_pos printable.1, Option.bind_some, Place.after_cons_of _ closes,
    Place.after_cons_of _ leads, Place.after_append_of _ ends]
  rfl

/-- Entries are gone through if all their strings are printable. -/
theorem printable_of_after_entries {entries : List Entry}
    (clean : ∀ entry ∈ entries, CleanEntry entry) {place : Place}
    (through : Place.outside.after (entriesText entries) = some place) :
    ∀ entry ∈ entries, PrintableEntry entry := by
  induction entries with
  | nil => exact List.forall_mem_nil _
  | cons entry rest ih =>
    have split : entriesText (entry :: rest) =
        JsonBuffer.node entry.1 entry.2 ++ entriesText rest := rfl
    rw [split, Place.after_append, Option.bind_eq_some_iff] at through
    obtain ⟨middle, first, others⟩ := through
    have printable := printableEntry_of_after (clean entry List.mem_cons_self) first
    rw [after_node (clean entry List.mem_cons_self) printable] at first
    cases first
    intro found mem
    rcases List.mem_cons.mp mem with same | later
    · exact same ▸ printable
    · exact ih (fun e mem => clean e (List.mem_cons_of_mem _ mem)) others found later

/-- A document that is a JSON text has printable strings only. -/
theorem printable_of_document {entries : List Entry} {text token : List UInt8} {d : Document}
    (nonempty : entries ≠ []) (clean : ∀ entry ∈ entries, CleanEntry entry)
    (distinct : (entries.map fun entry => entry.1.bytes).Nodup)
    (comma : text ++ [comma] = entriesText entries) (tokenClean : Clean token)
    (isDocument : d.text = documentText text token) :
    (∀ entry ∈ entries, PrintableEntry entry) ∧ Printable token := by
  have through := d.after
  have front : Place.outside.after (JsonBuffer.prefixText false ++ JsonBuffer.reportedField) =
      some .outside := by
    with_unfolding_all decide
  have middle : Place.outside.after (utf8 "\x7d" ++ utf8 "\x7d, \"clientToken\":\"") =
      some .inside := by
    with_unfolding_all decide
  rw [isDocument, documentText, List.append_assoc, List.append_assoc, List.append_assoc,
    List.append_assoc, Place.after_append_of _ front, Place.after_append,
    Option.bind_eq_some_iff] at through
  obtain ⟨place, entriesThrough, rest⟩ := through
  have printable : ∀ entry ∈ entries, PrintableEntry entry := by
    have step : ∃ next, place.next Json.comma = some next := by
      cases place <;> exact ⟨_, rfl⟩
    obtain ⟨next, step⟩ := step
    refine @printable_of_after_entries _ clean next ?_
    rw [← comma, Place.after_append_of _ entriesThrough, Place.after_cons_of _ step]
    rfl
  refine ⟨printable, ?_⟩
  obtain ⟨members, membersText, _, _⟩ := entries_members nonempty clean printable distinct
  have same : members.text = text := List.append_cancel_right (membersText.trans comma.symm)
  have ends := @Json.Derivation.after _ members .outside (.inl rfl) (.inr rfl)
  rw [same, entriesThrough] at ends
  cases ends
  rw [← List.append_assoc, Place.after_append_of _ middle, Place.after_append,
    after_clean tokenClean] at rest
  by_contra control
  rw [if_neg control] at rest
  cases rest

end QcloudIot.Shadow
