import QcloudIot.Http.Proofs.ContentLength
import QcloudIot.Ota.Announcement
import QcloudIot.Ota.Proofs.Firmware

/-!
# Taking over an announcement

`qcloud_otalib_get_params` assigns the fields of the handle one after the other, before it knows
that the others can be had, and without a look at what they hold.
-/

namespace QcloudIot.Ota

open Mqtt (CStr)
open Shadow (textOf)
open Json (Fault Overrun liteJsonValueOf liteJsonValueOf_allocated ofCopy ofMessage isDigit)
open Http (atoi numberOf)

/-! ## The texts of the handle -/

theorem getParams_view (h : Handle) (json : CStr) (env : CallbackEnv) :
    (h.getParams json env).map (fun result => (result.1, result.2.view)) =
      h.view.getParams json env := by
  rw [Handle.getParams, OtaStruct.getParams]
  simp only [bind, Except.bind, pure, Except.pure]
  cases getFirmwareVarlenPara json typeField env.type with
  | error fault => rfl
  | ok type =>
  rcases type with _ | _ | type
  · rfl
  · rfl
  dsimp only
  cases getFirmwareVarlenPara json versionField env.version with
  | error fault => rfl
  | ok version =>
  rcases version with _ | _ | version
  · rfl
  · rfl
  simp only [reduceCtorEq, if_false]
  cases getFirmwareVarlenPara json urlField env.url with
  | error fault => rfl
  | ok purl =>
  rcases purl with _ | _ | purl
  · rfl
  · rfl
  simp only [reduceCtorEq, if_false]
  cases getFirmwareFixlenPara json md5Field 32 env.md5 with
  | error fault => rfl
  | ok md5sum =>
  rcases md5sum with _ | md5sum
  · rfl
  dsimp only
  cases getFirmwareFixlenPara json filesizeField otaFilesizeStrLen env.fileSize with
  | error fault => rfl
  | ok fileSize =>
  rcases fileSize with _ | fileSize
  · rfl
  · rfl

theorem dispatch_view (h : Handle) (json : CStr) (env : CallbackEnv) :
    (h.dispatch json env).map Handle.view = h.view.dispatch json env := by
  rw [Handle.dispatch, OtaStruct.dispatch]
  simp only [bind, Except.bind, pure, Except.pure]
  cases getFirmwareVarlenPara json typeField env.firmwareType with
  | error fault => rfl
  | ok type =>
  rcases type with _ | _ | type
  · rfl
  · rfl
  dsimp only
  by_cases report : type.bytes = reportVersionRsp
  · rw [if_pos report, if_pos report]
    cases getReportVersionResult json env.resultCode with
    | error fault => rfl
    | ok result =>
      dsimp only
      split_ifs <;> rfl
  rw [if_neg report, if_neg report]
  by_cases other : type.bytes ≠ updateFirmware
  · rw [if_pos other, if_pos other]
    rfl
  rw [if_neg other, if_neg other]
  have same : h.borrow.view = h.view := rfl
  have params := getParams_view h.borrow json env
  rw [same] at params
  rw [← params]
  cases h.borrow.getParams json env with
  | error fault => rfl
  | ok result =>
    obtain ⟨rc, h'⟩ := result
    dsimp only [Except.map]
    split_ifs <;> rfl

/-- The handle with its blocks does what the handle with its texts does. -/
theorem otaCallback_view (h : Handle) (memory : List UInt8) (msgLen : Nat) (env : CallbackEnv) :
    (h.otaCallback memory msgLen env).map Handle.view =
      h.view.otaCallback memory msgLen env := by
  rw [Handle.otaCallback, OtaStruct.otaCallback]
  have state : h.view.state = h.ota.state := rfl
  rw [state]
  by_cases started : h.ota.state.started
  · rw [if_pos started, if_pos started]
    rfl
  rw [if_neg started, if_neg started]
  by_cases empty : msgLen = 0
  · rw [if_pos empty, if_pos empty]
    rfl
  rw [if_neg empty, if_neg empty]
  by_cases unread : ¬ env.firmwareType.keyAllocated
  · rw [if_pos unread, if_pos unread]
    rfl
  rw [if_neg unread, if_neg unread]
  cases textAt memory with
  | error fault => rfl
  | ok json =>
    have dispatched := dispatch_view h json env
    simp only [ofMessage, bind, Except.bind]
    rw [← dispatched]
    cases h.dispatch json env with
    | error fault => rfl
    | ok h' => rfl

/-! ## What is announced -/

/-- The value of a member of the document. -/
def valueIn (json key : CStr) : Option CStr :=
  match liteJsonValueOf key json true with
  | .ok value => value.map textOf
  | .error _ => none

theorem getFirmwareVarlenPara_value {json key value : CStr} {env : LookupEnv}
    (found : getFirmwareVarlenPara json key env = .ok (some (some value))) :
    valueIn json key = some value := by
  rw [getFirmwareVarlenPara] at found
  by_cases copies : env.keyAllocated ∧ env.docAllocated
  · simp only [if_pos copies, bind, Except.bind, pure, Except.pure] at found
    cases looked : liteJsonValueOf key json env.valueAllocated with
    | error fault =>
      rw [looked] at found
      cases found
    | ok bytes =>
      rw [looked] at found
      cases bytes with
      | none => cases found
      | some bytes =>
        cases found
        rw [valueIn, liteJsonValueOf_allocated looked]
        rfl
  · rw [if_neg copies] at found
    cases found

theorem getFirmwareFixlenPara_value {json key : CStr} {destLen : Nat} {env : LookupEnv}
    {text : { text : CStr // text.length ≤ destLen }}
    (found : getFirmwareFixlenPara json key destLen env = .ok (some text)) :
    valueIn json key = some text.1 := by
  obtain ⟨value, looked, same⟩ := getFirmwareFixlenPara_some found
  rw [valueIn, looked, same]
  rfl

/-- How far the lookups of `qcloud_otalib_get_params` come: nothing is assigned; the version is
    assigned as missing; it is assigned, and something else cannot be had; or all can be had. -/
inductive Announcement where
  | untouched
  | noVersion
  | incomplete
  | whole (version purl : CStr) (md5sum : { text : CStr // text.length ≤ 32 })
      (fileSize : { text : CStr // text.length ≤ otaFilesizeStrLen })
  deriving DecidableEq, Repr

/-- The lookups of `qcloud_otalib_get_params`, in their order. -/
def announcementOf (json : CStr) (env : CallbackEnv) : Except Fault Announcement := do
  let some (some _) ← getFirmwareVarlenPara json typeField env.type | return .untouched
  let some version ← getFirmwareVarlenPara json versionField env.version | return .untouched
  let some version := version | return .noVersion
  let some (some purl) ← getFirmwareVarlenPara json urlField env.url | return .incomplete
  let some md5sum ← getFirmwareFixlenPara json md5Field 32 env.md5 | return .incomplete
  let some fileSize ← getFirmwareFixlenPara json filesizeField otaFilesizeStrLen env.fileSize
    | return .incomplete
  return .whole version purl md5sum fileSize

/-- What the lookups leave of a handle, and what they return. -/
def Handle.Takes (h : Handle) : Announcement → Int → Handle → Prop
  | .untouched, rc, h' => rc ≠ 0 ∧ (h' = h ∨ h' = h.borrow)
  | .noVersion, rc, h' => rc ≠ 0 ∧ h' = h.borrow.setVersion none
  | .incomplete, rc, h' => rc ≠ 0 ∧ h'.ota.state = h.ota.state ∧
      ∃ block, h'.version = some block ∧ h.minted ≤ block.ident
  | .whole version purl md5sum fileSize, rc, h' => rc = 0 ∧
      h' = (((h.borrow.setVersion (some version)).setPurl (some purl)).storeMd5 md5sum).setSizeFile
        fileSize.1

/-- `qcloud_otalib_get_params` comes as far as its lookups. -/
theorem getParams_takes (h : Handle) (json : CStr) (env : CallbackEnv) :
    (∃ fault, announcementOf json env = .error fault ∧ h.getParams json env = .error fault) ∨
      ∃ a rc h', announcementOf json env = .ok a ∧ h.getParams json env = .ok (rc, h') ∧
        h.Takes a rc h' := by
  have failed : iotOtaErrFail ≠ 0 := by decide
  have minted : h.minted ≤ h.borrow.minted := Nat.le_succ _
  rw [Handle.getParams, announcementOf]
  simp only [bind, Except.bind, pure, Except.pure]
  cases getFirmwareVarlenPara json typeField env.type with
  | error fault => exact .inl ⟨fault, rfl, rfl⟩
  | ok type =>
  rcases type with _ | _ | type
  · exact .inr ⟨.untouched, _, _, rfl, rfl, failed, .inl rfl⟩
  · exact .inr ⟨.untouched, _, _, rfl, rfl, failed, .inl rfl⟩
  dsimp only
  cases getFirmwareVarlenPara json versionField env.version with
  | error fault => exact .inl ⟨fault, rfl, rfl⟩
  | ok version =>
  rcases version with _ | _ | version
  · exact .inr ⟨.untouched, _, _, rfl, rfl, failed, .inr rfl⟩
  · exact .inr ⟨.noVersion, _, _, rfl, rfl, failed, rfl⟩
  simp only [reduceCtorEq, if_false]
  cases getFirmwareVarlenPara json urlField env.url with
  | error fault => exact .inl ⟨fault, rfl, rfl⟩
  | ok purl =>
  rcases purl with _ | _ | purl
  · exact .inr ⟨.incomplete, _, _, rfl, rfl, failed, rfl, _, rfl, minted⟩
  · exact .inr ⟨.incomplete, _, _, rfl, rfl, failed, rfl, _, rfl, minted⟩
  simp only [reduceCtorEq, if_false]
  cases getFirmwareFixlenPara json md5Field 32 env.md5 with
  | error fault => exact .inl ⟨fault, rfl, rfl⟩
  | ok md5sum =>
  rcases md5sum with _ | md5sum
  · exact .inr ⟨.incomplete, _, _, rfl, rfl, failed, rfl, _, rfl, minted⟩
  dsimp only
  cases getFirmwareFixlenPara json filesizeField otaFilesizeStrLen env.fileSize with
  | error fault => exact .inl ⟨fault, rfl, rfl⟩
  | ok fileSize =>
  rcases fileSize with _ | fileSize
  · exact .inr ⟨.incomplete, _, _, rfl, rfl, failed, rfl, _, rfl, minted⟩
  · exact .inr ⟨_, _, _, rfl, rfl, rfl, rfl⟩

/-- The values of a whole announcement are those of the document. -/
theorem announcementOf_whole {json version purl : CStr} {env : CallbackEnv}
    {md5sum : { text : CStr // text.length ≤ 32 }}
    {fileSize : { text : CStr // text.length ≤ otaFilesizeStrLen }}
    (announced : announcementOf json env = .ok (.whole version purl md5sum fileSize)) :
    valueIn json versionField = some version ∧ valueIn json urlField = some purl ∧
      valueIn json md5Field = some md5sum.1 ∧ valueIn json filesizeField = some fileSize.1 := by
  rw [announcementOf] at announced
  simp only [bind, Except.bind, pure, Except.pure] at announced
  repeat' split at announced
  all_goals cases announced
  exact ⟨getFirmwareVarlenPara_value ‹_›, getFirmwareVarlenPara_value ‹_›,
    getFirmwareFixlenPara_value ‹_›, getFirmwareFixlenPara_value ‹_›⟩

/-! ## The size -/

/-- Whether a text starts with a minus, and what is behind it. -/
def minusOf : List UInt8 → Bool × List UInt8
  | 45 :: digits => (true, digits)
  | digits => (false, digits)

/-- The number that a decimal text writes, with a minus if it is negative. -/
def numeral (text : List UInt8) : Option Int :=
  if (minusOf text).2 ≠ [] ∧ ∀ d ∈ (minusOf text).2, isDigit d = true then
    some (if (minusOf text).1 then -(numberOf 10 (minusOf text).2 : Int)
      else numberOf 10 (minusOf text).2)
  else none

theorem minusOf_text (text : List UInt8) :
    text = if (minusOf text).1 then 45 :: (minusOf text).2 else (minusOf text).2 := by
  rw [minusOf.eq_def]
  split <;> rfl

theorem numberOf_lt (digits : List UInt8) (areDigits : ∀ d ∈ digits, isDigit d = true) :
    numberOf 10 digits < 10 ^ digits.length := by
  induction digits using List.reverseRecOn with
  | nil => exact Nat.one_pos
  | append_singleton digits d ih =>
    have before := ih fun d member => areDigits d (List.mem_append_left _ member)
    have last := Http.digitValue_of_digit (areDigits d (List.mem_append_right _ (by simp)))
    have step : numberOf 10 (digits ++ [d]) = 10 * numberOf 10 digits + Json.digitValue d := by
      rw [numberOf, List.foldl_append]
      rfl
    rw [step, List.length_append, List.length_singleton, Nat.pow_succ]
    omega

/-- `atoi` of digits only, with or without a minus. -/
theorem atoi_sign {text digits : List UInt8} {negative : Bool} (some : digits ≠ [])
    (areDigits : ∀ d ∈ digits, isDigit d = true) (small : numberOf 10 digits < 2 ^ 63)
    (isText : text = if negative then 45 :: digits else digits) :
    atoi text = (BitVec.ofInt 32 (if negative then -(numberOf 10 digits : Int)
      else numberOf 10 digits)).toInt := by
  have digitsOnly : digits.takeWhile (fun d => Json.digitValue d < 10) = digits :=
    List.takeWhile_eq_self_iff.mpr fun d member =>
      decide_eq_true (Http.digitValue_of_digit (areDigits d member))
  have signed : Http.signOf (text.dropWhile Json.isSpace) = (negative, digits) := by
    rw [isText]
    cases negative with
    | true => rfl
    | false =>
      cases digits with
      | nil => exact absurd rfl some
      | cons d ds =>
        have digit := areDigits d List.mem_cons_self
        rw [if_neg Bool.false_ne_true,
          List.dropWhile_cons_of_neg (by rw [Http.digit_not_space digit]; decide)]
        refine Http.signOf_digit ds ?_ ?_
        · rintro rfl
          exact absurd digit (by decide)
        · rintro rfl
          exact absurd digit (by decide)
  rw [atoi, signed]
  dsimp only
  rw [digitsOnly]
  generalize numberOf 10 digits = value at small
  refine congrArg (fun z => (BitVec.ofInt 32 z).toInt) ?_
  cases negative with
  | true =>
    rw [if_pos rfl, if_pos rfl, max_eq_left (by omega)]
  | false =>
    rw [if_neg Bool.false_ne_true, if_neg Bool.false_ne_true, min_eq_left (by omega)]

/-- The size that is stored is the number of the text, cut to 32 bits. -/
theorem atoi_numeral {text : List UInt8} {n : Int} (isNumeral : numeral text = some n)
    (small : n.natAbs < 2 ^ 63) :
    ((UInt32.ofNat (Http.toUint32 (atoi text))).toNat : Int) = n % 2 ^ 32 := by
  have isText := minusOf_text text
  rw [numeral] at isNumeral
  generalize (minusOf text).1 = negative at isText isNumeral
  generalize (minusOf text).2 = digits at isText isNumeral
  split at isNumeral
  · next valid =>
    obtain ⟨nonempty, areDigits⟩ := valid
    cases isNumeral
    have digitsSmall : numberOf 10 digits < 2 ^ 63 := by
      split at small <;> omega
    rw [atoi_sign nonempty areDigits digitsSmall isText]
    generalize (if negative = true then -(numberOf 10 digits : Int) else numberOf 10 digits) = n
    have bound := BitVec.toInt_lt (x := BitVec.ofInt 32 n)
    have least := BitVec.le_toInt (BitVec.ofInt 32 n)
    have same : (BitVec.ofInt 32 n).toInt % 2 ^ 32 = n % 2 ^ 32 := by
      rw [BitVec.toInt_ofInt]
      exact Int.bmod_emod
    rw [UInt32.toNat_ofNat', Http.toUint32]
    split <;> omega
  · cases isNumeral

/-- A text of at most 16 bytes does not write a larger number. -/
theorem sizeFile_numeral {text : List UInt8} {n : Int} (isNumeral : numeral text = some n)
    (short : text.length ≤ 16) :
    ((UInt32.ofNat (Http.toUint32 (atoi text))).toNat : Int) = n % 2 ^ 32 := by
  refine atoi_numeral isNumeral ?_
  have isText := congrArg List.length (minusOf_text text)
  rw [numeral] at isNumeral
  split at isNumeral
  · next valid =>
    have bound := numberOf_lt (minusOf text).2 valid.2
    have digitsShort : (minusOf text).2.length ≤ 16 := by
      refine Nat.le_trans ?_ short
      rw [isText]
      split
      · exact Nat.le_succ _
      · exact Nat.le_refl _
    have power := Nat.pow_le_pow_right (show 0 < 10 by decide) digitsShort
    cases isNumeral
    split <;> omega
  · cases isNumeral

/-! ## Taking over -/

/-- Nothing of an announcement has changed. -/
structure Handle.Unchanged (h h' : Handle) : Prop where
  purl : h'.purl = h.purl
  version : h'.version = h.version
  md5sum : h'.ota.md5sum = h.ota.md5sum
  sizeFile : h'.ota.sizeFile = h.ota.sizeFile
  state : h'.ota.state = h.ota.state

/-- Everything is as the document announces it, and the strings held before have been given back
    once. -/
structure Handle.Replaced (h : Handle) (json : CStr) (h' : Handle) : Prop where
  purl : ∃ text, valueIn json urlField = some text ∧ h'.purl.map Block.text = some text
  version : ∃ text, valueIn json versionField = some text ∧ h'.version.map Block.text = some text
  md5sum : ∃ text, valueIn json md5Field = some text ∧ h'.ota.md5sum.text = text.bytes
  sizeFile : ∃ text, valueIn json filesizeField = some text ∧
    numeral text.bytes = some (h'.ota.sizeFile.toNat : Int)
  released : ∀ block, h.purl = some block ∨ h.version = some block →
    (h'.released.drop h.released.length).count block.ident = 1

/-- A message is taken over completely or not at all. -/
def Handle.TakenOver (h : Handle) (memory : List UInt8) (msgLen : Nat) (env : CallbackEnv) :
    Prop :=
  ∀ h', h.otaCallback memory msgLen env = .ok h' →
    (h'.ota.state ≠ .fetching → h.Unchanged h') ∧
    (h'.ota.state = .fetching → h.Replaced (textOf memory) h')

/-- The message announces a firmware. -/
structure IsUpdate (memory : List UInt8) (msgLen : Nat) (env : CallbackEnv) : Prop where
  nonempty : msgLen ≠ 0
  text : textAt memory = .ok (textOf memory)
  type : ∃ type, getFirmwareVarlenPara (textOf memory) typeField env.firmwareType =
    .ok (some (some type)) ∧ type.bytes = updateFirmware

/-- The announcement goes well with what the handle holds. -/
def Handle.Suits (h : Handle) : Announcement → Prop
  | .untouched => True
  | .noVersion => h.version = none
  | .incomplete => False
  | .whole _ _ md5sum fileSize => h.purl = none ∧ h.version = none ∧
      h.ota.md5sum.bytes[md5sum.1.length]? = some 0 ∧
      ∃ n, numeral fileSize.1.bytes = some n ∧ 0 ≤ n ∧ n < 2 ^ 32

/-- The callback on a message that announces a firmware. -/
theorem otaCallback_update {h : Handle} {memory : List UInt8} {msgLen : Nat} {env : CallbackEnv}
    (idle : h.ota.state.started = false) (update : IsUpdate memory msgLen env) :
    h.otaCallback memory msgLen env = ofCopy (do
      let (rc, h) ← h.borrow.getParams (textOf memory) env
      return if rc ≠ 0 then h else h.setState .fetching) := by
  obtain ⟨type, isType, bytes⟩ := update.type
  have read : ¬ ¬ env.firmwareType.keyAllocated := by
    intro unread
    rw [getFirmwareVarlenPara, if_neg fun copies => unread copies.1] at isType
    cases isType
  have other : ¬ type.bytes = reportVersionRsp := by
    rw [bytes]
    decide
  rw [Handle.otaCallback, if_neg (by rw [idle]; decide), if_neg update.nonempty, if_neg read,
    update.text]
  simp only [ofMessage, bind, Except.bind, Handle.dispatch, isType, pure, Except.pure]
  rw [if_neg other, if_neg (not_not.mpr bytes)]

/-- The digest that is stored is that of the message where the field ends behind it. -/
theorem text_store (field : Md5Sum) (value : CStr) (short : value.length ≤ 32) :
    (field.store value.bytes short).text = value.bytes ↔
      field.bytes[value.length]? = some 0 := by
  have inside : value.length < field.bytes.length := by
    rw [field.whole]
    exact Nat.lt_succ_of_le short
  show cString (value.bytes ++ field.bytes.drop value.length) = value.bytes ↔ _
  rw [cString_append value.noNul, List.append_right_eq_self, cString,
    List.drop_eq_getElem_cons inside, List.takeWhile_cons, List.getElem?_eq_getElem inside]
  by_cases ends : field.bytes[value.length] = 0
  · rw [ends]
    exact iff_of_true rfl rfl
  · rw [if_pos (by simpa using ends)]
    exact iff_of_false (List.cons_ne_nil _ _) fun isZero => ends (Option.some.inj isZero)

/-- What becomes of the handle. -/
def Handle.settled (rc : Int) (h : Handle) : Handle := if rc ≠ 0 then h else h.setState .fetching

/-- What the lookups leave of a handle is right where the announcement suits it. -/
theorem takes_iff {h h₁ : Handle} {json : CStr} {env : CallbackEnv} {a : Announcement} {rc : Int}
    (kept : h.ota.state ≠ .fetching) (announced : announcementOf json env = .ok a)
    (takes : h.borrow.Takes a rc h₁) :
    (((h₁.settled rc).ota.state ≠ .fetching → h.Unchanged (h₁.settled rc)) ∧
      ((h₁.settled rc).ota.state = .fetching → h.Replaced json (h₁.settled rc))) ↔
        h.Suits a := by
  cases a with
  | untouched =>
    obtain ⟨failed, same⟩ := takes
    rw [Handle.settled, if_pos failed]
    refine iff_of_true ?_ trivial
    rcases same with rfl | rfl
    · exact ⟨fun _ => ⟨rfl, rfl, rfl, rfl, rfl⟩, fun fetching => absurd fetching kept⟩
    · exact ⟨fun _ => ⟨rfl, rfl, rfl, rfl, rfl⟩, fun fetching => absurd fetching kept⟩
  | noVersion =>
    obtain ⟨failed, rfl⟩ := takes
    rw [Handle.settled, if_pos failed]
    constructor
    · rintro ⟨unchanged, -⟩
      exact (unchanged kept).version.symm
    · intro none
      exact ⟨fun _ => ⟨rfl, none.symm, rfl, rfl, rfl⟩, fun fetching => absurd fetching kept⟩
  | incomplete =>
    obtain ⟨failed, state, block, isVersion, fresh⟩ := takes
    rw [Handle.settled, if_pos failed]
    refine iff_of_false ?_ id
    rintro ⟨unchanged, -⟩
    have version := (unchanged (by rw [state]; exact kept)).version
    have old := h.versionMinted block (version.symm.trans isVersion)
    exact absurd (Nat.lt_of_lt_of_le old (Nat.le_trans (Nat.le_succ _) fresh)) (Nat.lt_irrefl _)
  | whole version purl md5sum fileSize =>
    obtain ⟨rfl, rfl⟩ := takes
    obtain ⟨isVersion, isPurl, isMd5, isSize⟩ := announcementOf_whole announced
    rw [Handle.settled, if_neg (not_not.mpr rfl)]
    have released : ∀ block, h.purl = some block ∨ h.version = some block →
        ([h.minted, h.minted + 1] : List Nat).count block.ident = 0 := by
      intro block held
      have old : block.ident < h.minted := held.elim (h.purlMinted block) (h.versionMinted block)
      refine List.count_eq_zero.mpr fun member => ?_
      rcases List.mem_pair.mp member with same | same <;> omega
    constructor
    · rintro ⟨-, replaced⟩
      have all := replaced rfl
      have none : ∀ block, ¬ (h.purl = some block ∨ h.version = some block) := by
        intro block held
        have once := all.released block held
        have taken : ((h.released ++ [h.minted]) ++ [h.minted + 1]).drop h.released.length =
            [h.minted, h.minted + 1] := by
          rw [List.append_assoc, List.drop_left]
          rfl
        exact absurd ((congrArg (List.count block.ident) taken).symm.trans once)
          (by rw [released block held]; decide)
      refine ⟨Option.eq_none_iff_forall_ne_some.mpr fun block held => none block (.inl held),
        Option.eq_none_iff_forall_ne_some.mpr fun block held => none block (.inr held), ?_, ?_⟩
      · obtain ⟨text, isText, stored⟩ := all.md5sum
        cases isMd5.symm.trans isText
        exact (text_store _ _ md5sum.2).mp stored
      · obtain ⟨text, isText, isNumeral⟩ := all.sizeFile
        cases isSize.symm.trans isText
        refine ⟨_, isNumeral, Int.natCast_nonneg _, ?_⟩
        have below := UInt32.toNat_lt (((((h.borrow.borrow.setVersion (some version)).setPurl
          (some purl)).storeMd5 md5sum).setSizeFile fileSize.1).setState .fetching).ota.sizeFile
        omega
    · rintro ⟨noPurl, noVersion, ends, n, isNumeral, least, below⟩
      refine ⟨fun other => absurd rfl other, fun _ => ⟨⟨purl, isPurl, rfl⟩,
        ⟨version, isVersion, rfl⟩, ⟨md5sum.1, isMd5, (text_store _ _ md5sum.2).mpr ends⟩,
          ⟨fileSize.1, isSize, ?_⟩, ?_⟩⟩
      · have stored := sizeFile_numeral isNumeral fileSize.2
        rw [Int.emod_eq_of_lt least below] at stored
        exact isNumeral.trans (congrArg some stored.symm)
      · rintro block (held | held)
        · rw [noPurl] at held
          cases held
        · rw [noVersion] at held
          cases held

theorem takenOver_iff {h : Handle} {memory : List UInt8} {msgLen : Nat} {env : CallbackEnv}
    (idle : h.ota.state.started = false) (update : IsUpdate memory msgLen env) :
    h.TakenOver memory msgLen env ↔
      ∀ a, announcementOf (textOf memory) env = .ok a → h.Suits a := by
  have kept : h.ota.state ≠ .fetching := by
    intro fetching
    rw [fetching] at idle
    cases idle
  rw [Handle.TakenOver, otaCallback_update idle update]
  simp only [bind, Except.bind, pure, Except.pure]
  rcases getParams_takes h.borrow (textOf memory) env with
    ⟨fault, nothing, got⟩ | ⟨a, rc, h₁, announced, got, takes⟩
  · rw [got]
    refine iff_of_true (fun h' returned => nomatch returned) fun a announced => ?_
    cases nothing.symm.trans announced
  · rw [got]
    have settled := takes_iff kept announced takes
    constructor
    · intro sound a' announced'
      cases announced.symm.trans announced'
      exact settled.mp (sound _ rfl)
    · intro suits h' returned
      cases returned
      exact settled.mpr (suits a announced)

/-- The handle of a client that has not been told of a firmware. -/
def idleHandle : Handle where
  ota := idleClient
  purl := none
  version := none
  minted := 0
  released := []
  purlMinted := nofun
  versionMinted := nofun

/-- All allocations succeed. -/
def granted : CallbackEnv :=
  let granted : LookupEnv := ⟨true, true, true⟩
  ⟨granted, granted, granted, granted, granted, granted, granted⟩

/-- A firmware of one byte. -/
def wholeMessage : List UInt8 := (byteDownload []).memory

/-- What is announced of it. -/
def wholeAnnouncement : Announcement :=
  .whole (textOf (utf8 "2")) (textOf (utf8 "http://h/f"))
    ⟨textOf (utf8 "7fc56270e7a70fa81a5935b72eacbe29"), by decide +kernel⟩
    ⟨textOf (utf8 "1"), by decide +kernel⟩

/-- A firmware that is announced without a url. -/
def withoutUrl : List UInt8 :=
  utf8 "\x7b\"type\":\"update_firmware\",\"version\":\"2\"\x7d" ++ [0]

theorem withoutUrl_isUpdate : IsUpdate withoutUrl 40 granted where
  nonempty := by decide
  text := by with_unfolding_all decide
  type := ⟨⟨updateFirmware, by decide⟩, by with_unfolding_all decide, rfl⟩

theorem announcementOf_withoutUrl :
    announcementOf (textOf withoutUrl) granted = .ok .incomplete := by
  with_unfolding_all decide

end QcloudIot.Ota
