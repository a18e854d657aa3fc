import QcloudIot.Gateway.ChangeAck
import QcloudIot.Gateway.Proofs.Acknowledgement
import QcloudIot.Json.Proofs.Separators

/-!
# When the acknowledgement of a change is right

The entries that are looked at, with the bytes that have been printed in front of each of them, and
what the buffer and the text of the devices are afterwards. The acknowledgement is a JSON object if
it has not been cut and lists no incomplete entry between others.
-/

namespace QcloudIot.Gateway

open Mqtt (CStr)
open Ota (utf8 decimal)
open Json (bind_ok memory jsonGetObject jsonGetNextObject liteJsonValueAt)
open Shadow (textOf)

/-! ## Entries -/

/-- What the entry at the front of the memory says, with the allocations that succeed. -/
def entryAt (entry : List UInt8) (env : EntryEnv) : Except Json.Fault DeviceEntry := do
  match ← liteJsonValueAt productIdField entry env.productId with
  | none => return .idless
  | some productId =>
    match ← liteJsonValueAt deviceNameField entry env.deviceName with
    | none => return .nameless
    | some deviceName => return .device (textOf productId) (textOf deviceName)

/-- An entry is printed by what it says. -/
theorem printEntry_eq (buf : ReplyBuf) (isFirst : Bool) (entry : List UInt8) (env : EntryEnv) :
    buf.printEntry isFirst entry env = do return buf.printSaid isFirst (← entryAt entry env) := by
  unfold ReplyBuf.printEntry entryAt
  cases liteJsonValueAt productIdField entry env.productId with
  | error fault => rfl
  | ok productId =>
    cases productId with
    | none => rfl
    | some productId =>
      dsimp only [bind, Except.bind]
      cases liteJsonValueAt deviceNameField entry env.deviceName with
      | error fault => rfl
      | ok deviceName => cases deviceName <;> rfl

/-- The memory in which an entry is looked at: from the entry on, and with a NUL behind it. -/
def entryMemory (mem : List UInt8) (entry valLen : Nat) : List UInt8 :=
  (mem.set (entry + valLen) 0).drop entry

variable {devices : CStr} {env : Nat → EntryEnv}

/-- The entries that are looked at from `pos` on, when so many bytes have been printed and so many
    entries have been looked at. One for which there is no room is not looked at; nothing is behind
    it in the text. -/
inductive LookedAt (mem : List UInt8) (env : Nat → EntryEnv) :
    Option Nat → Nat → Nat → List DeviceEntry → Prop
  | stop {pos : Option Nat} {printed number : Nat} :
    nextArrayEntry mem pos = .ok none → LookedAt mem env pos printed number []
  | left {pos : Option Nat} {printed number entry next : Nat} {found : Json.NextObject} :
    nextArrayEntry mem pos = .ok (some (found, next)) → found.val = some entry →
      1023 < printed + 128 → mem[entry + found.valLen]? = some 0 →
        LookedAt mem env pos printed number []
  | entry {pos : Option Nat} {printed number entry next : Nat} {found : Json.NextObject}
      {said : DeviceEntry} {entries : List DeviceEntry} :
    nextArrayEntry mem pos = .ok (some (found, next)) → found.val = some entry →
      ¬ 1023 < printed + 128 →
        entryAt (entryMemory mem entry found.valLen) (env number) = .ok said →
          LookedAt mem env (some next) (printed + (ackPiece (number = 0) said).length) (number + 1)
            entries → LookedAt mem env pos printed number (said :: entries)

/-! ## The loop -/

/-- The pointer that is returned is the one behind the value. -/
theorem jsonGetNextObject_next {mem : List UInt8} {str : Nat} {found : Json.NextObject}
    (isFound : jsonGetNextObject .array mem str = .ok (some found)) :
    found.next = found.val.map fun val =>
      val + found.valLen + if found.valType = .string then 1 else 0 := by
  unfold jsonGetNextObject at isFound
  dsimp only [pure, Except.pure] at isFound
  obtain ⟨start, isStart, isFound⟩ := bind_ok isFound
  cases isStart
  obtain ⟨value, _, isFound⟩ := bind_ok isFound
  cases isFound
  rfl

/-- An entry that is found lies inside the text, and the loop goes on behind its position. -/
theorem nextArrayEntry_found {pos : Option Nat} {found : Json.NextObject} {next : Nat}
    (isFound : nextArrayEntry (memory devices) pos = .ok (some (found, next))) :
    ∃ at_ entry, pos = some at_ ∧ at_ < next ∧ at_ < devices.length ∧ found.val = some entry ∧
      entry + found.valLen ≤ devices.length := by
  cases pos with
  | none => cases isFound
  | some at_ =>
    unfold nextArrayEntry at isFound
    dsimp only at isFound
    cases isByte : (memory devices)[at_]? with
    | none =>
      rw [isByte] at isFound
      cases isFound
    | some b =>
      rw [isByte] at isFound
      dsimp only at isFound
      by_cases ends : b = 0
      · rw [if_pos ends] at isFound
        cases isFound
      · rw [if_neg ends] at isFound
        have inside : at_ < devices.length := by
          have below := (List.getElem?_eq_some_iff.mp isByte).1
          rw [memory, List.length_append, List.length_singleton] at below
          refine lt_of_le_of_ne (Nat.le_of_lt_succ below) ?_
          rintro rfl
          rw [memory, CStr.length, List.getElem?_concat_length] at isByte
          exact ends (Option.some.inj isByte).symm
        obtain ⟨object, isObject, isFound⟩ := bind_ok isFound
        rcases @Json.jsonGetNextObject_spec .array devices (at_ + 1) inside with
          none | ⟨object', isObject', valInside, onward⟩
        · rw [none] at isObject
          cases isObject
          cases isFound
        · rw [isObject'] at isObject
          cases isObject
          obtain ⟨_, isNext, same⟩ := Option.map_eq_some_iff.mp (Except.ok.inj isFound)
          cases same
          have isVal := jsonGetNextObject_next isObject'
          rw [isNext] at isVal
          obtain ⟨entry, isEntry, _⟩ := Option.map_eq_some_iff.mp isVal.symm
          have further := (onward next isNext).1
          exact ⟨at_, entry, rfl, by omega, inside, isEntry, valInside.2 entry isEntry⟩

/-- The byte behind an entry is kept. -/
theorem backup_inside {entry valLen : Nat} (inside : entry + valLen ≤ devices.length) :
    ∃ register, (memory devices)[entry + valLen]? = some register ∧
      backupJsonStrLastChar (memory devices) entry valLen =
        .ok (register, (memory devices).set (entry + valLen) 0) := by
  have below : entry + valLen < (memory devices).length := by
    rw [memory, List.length_append, List.length_singleton]
    exact Nat.lt_succ_of_le inside
  refine ⟨_, List.getElem?_eq_getElem below, ?_⟩
  rw [backupJsonStrLastChar, List.getElem?_eq_getElem below]

/-- What has been kept is restored. -/
theorem restore_backup {mem : List UInt8} {entry valLen : Nat} {register : UInt8}
    (kept : mem[entry + valLen]? = some register) :
    restoreJsonStrLastChar (mem.set (entry + valLen) 0) entry valLen register = mem := by
  obtain ⟨below, rfl⟩ := List.getElem?_eq_some_iff.mp kept
  rw [restoreJsonStrLastChar, List.set_set, List.set_getElem_self]

theorem noRoom_iff {buf : ReplyBuf} {full : List UInt8} (printed : buf.Printed full) :
    buf.leftSz < maxSubdevInfoSz ↔ 1023 < full.length + 128 := by
  have limit : maxSubdevInfoSz = 128 := rfl
  rw [printed.leftSz, limit]
  omega

theorem append_ackPieces (full : List UInt8) (isFirst : Bool) (said : DeviceEntry)
    (entries : List DeviceEntry) :
    full ++ ackPieces isFirst (said :: entries) =
      (full ++ ackPiece isFirst said) ++ ackPieces false entries := by
  rw [ackPieces, List.append_assoc]

/-- The loop that leaves the text as it was has looked at entries and printed them. Induction on the
    rounds that may be taken. -/
theorem lookedAt_of_loop {fuel number : Nat} {pos : Option Nat} {buf : ReplyBuf}
    {full : List UInt8} {ack : ChangeAck}
    (looped : changeAckLoop env fuel pos ⟨buf, number, memory devices⟩ = .ok ack)
    (restored : ack.devices = memory devices) (printed : buf.Printed full) :
    ∃ entries, LookedAt (memory devices) env pos full.length number entries ∧
      ack.buf.Printed (full ++ ackPieces (number = 0) entries) := by
  induction fuel generalizing pos buf full number with
  | zero => cases looped
  | succ fuel ih =>
    unfold changeAckLoop at looped
    obtain ⟨round, isRound, looped⟩ := bind_ok looped
    cases round with
    | none =>
      cases looped
      refine ⟨[], .stop isRound, ?_⟩
      rw [ackPieces, List.append_nil]
      exact printed
    | some round =>
      obtain ⟨found, next⟩ := round
      obtain ⟨_, entry, _, _, _, isEntry, inside⟩ := nextArrayEntry_found isRound
      obtain ⟨register, kept, backup⟩ := backup_inside inside
      simp only [isEntry, backup, bind, Except.bind] at looped
      by_cases room : 1023 < full.length + 128
      · rw [if_pos ((noRoom_iff printed).mpr room)] at looped
        cases looped
        have isNul : (memory devices)[entry + found.valLen]? = some 0 := by
          dsimp only at restored
          rw [← restored, List.getElem?_set_self (List.getElem?_eq_some_iff.mp kept).1]
        refine ⟨[], .left isRound isEntry room isNul, ?_⟩
        rw [ackPieces, List.append_nil]
        exact printed
      · rw [if_neg (fun none => room ((noRoom_iff printed).mp none)), printEntry_eq] at looped
        cases isSaid : entryAt (entryMemory (memory devices) entry found.valLen) (env number) with
        | error fault =>
          rw [entryMemory] at isSaid
          rw [isSaid] at looped
          cases looped
        | ok said =>
          have isSaid' := isSaid
          rw [entryMemory] at isSaid'
          rw [isSaid', restore_backup kept] at looped
          obtain ⟨entries, looked, more⟩ := ih looped (printed.printSaid room (number = 0) said)
          rw [List.length_append] at looked
          refine ⟨said :: entries, .entry isRound isEntry room isSaid looked, ?_⟩
          rw [append_ackPieces]
          exact more

/-- The loop looks at the entries, prints them and leaves the text as it was. Induction on the
    entries; each of them is behind the one before, so that there are enough rounds. -/
theorem loop_of_lookedAt {fuel number printed : Nat} {pos : Option Nat} {buf : ReplyBuf}
    {full : List UInt8} {entries : List DeviceEntry}
    (looked : LookedAt (memory devices) env pos printed number entries)
    (isPrinted : buf.Printed full) (length : printed = full.length) (some_ : 0 < fuel)
    (enough : ∀ at_, pos = some at_ → devices.length + 1 ≤ fuel + at_) :
    ∃ ack, changeAckLoop env fuel pos ⟨buf, number, memory devices⟩ = .ok ack ∧
      ack.devices = memory devices ∧
        ack.buf.Printed (full ++ ackPieces (number = 0) entries) := by
  obtain ⟨fuel, rfl⟩ := Nat.exists_eq_succ_of_ne_zero (Nat.ne_of_gt some_)
  induction looked generalizing fuel buf full with
  | @stop pos printed number isRound =>
    refine ⟨⟨buf, number, memory devices⟩, ?_, rfl, ?_⟩
    · unfold changeAckLoop
      rw [isRound]
      rfl
    · rw [ackPieces, List.append_nil]
      exact isPrinted
  | @left pos printed number entry next found isRound isEntry noRoom isNul =>
    obtain ⟨_, entry', _, _, _, isEntry', inside⟩ := nextArrayEntry_found isRound
    rw [isEntry] at isEntry'
    cases isEntry'
    obtain ⟨register, kept, backup⟩ := backup_inside inside
    rw [isNul] at kept
    cases kept
    refine ⟨⟨buf, number, memory devices⟩, ?_, rfl, ?_⟩
    · unfold changeAckLoop
      rw [isRound]
      simp only [isEntry, backup, bind, Except.bind]
      rw [if_pos ((noRoom_iff isPrinted).mpr (length ▸ noRoom))]
      obtain ⟨below, isByte⟩ := List.getElem?_eq_some_iff.mp isNul
      rw [← isByte, List.set_getElem_self]
      rfl
    · rw [ackPieces, List.append_nil]
      exact isPrinted
  | @entry pos printed number entry next found said entries isRound isEntry room isSaid _ ih =>
    obtain ⟨at_, entry', isPos, further, inText, isEntry', inside⟩ := nextArrayEntry_found isRound
    rw [isEntry] at isEntry'
    cases isEntry'
    obtain ⟨register, kept, backup⟩ := backup_inside inside
    have rounds := enough at_ isPos
    obtain ⟨fuel, rfl⟩ := Nat.exists_eq_succ_of_ne_zero (show fuel ≠ 0 by omega)
    have saidPrinted := isPrinted.printSaid (length ▸ room) (number = 0) said
    have isLength : printed + (ackPiece (number = 0) said).length =
        (full ++ ackPiece (number = 0) said).length := by
      rw [List.length_append, length]
    have onward : ∀ other, some next = some other → devices.length + 1 ≤ fuel.succ + other := by
      intro other isNext
      cases isNext
      omega
    obtain ⟨ack, looped, restored, more⟩ :=
      ih saidPrinted isLength fuel (Nat.succ_pos fuel) onward
    refine ⟨ack, ?_, restored, ?_⟩
    · unfold changeAckLoop
      rw [isRound]
      simp only [isEntry, backup, bind, Except.bind]
      rw [if_neg (fun none => room (length ▸ (noRoom_iff isPrinted).mp none)), printEntry_eq]
      rw [entryMemory] at isSaid
      rw [isSaid, restore_backup kept]
      exact looped
    · rw [append_ackPieces]
      exact more

/-! ## Separators in the acknowledgement -/

/-- An id can stand between quotes. -/
def IsString (id : CStr) : Prop := ∃ chars : List Json.StrChar, Json.charsText chars = id.bytes

/-- The ids of an entry can stand between quotes. -/
def DeviceEntry.HasStrings : DeviceEntry → Prop
  | .device productId deviceName => IsString productId ∧ IsString deviceName
  | .nameless => True
  | .idless => True

open Json (Spot Standing)

theorem standing_ackPrefix (status : Int) :
    Standing.after (.opened, 0) (ackPrefix status) = some (.opened, 3) := by
  have front : Standing.after (.opened, 0)
      (utf8 "\x7b\"type\":\"change\", \"payload\":\x7b\"status\":") = some (.filled, 2) := by
    with_unfolding_all decide
  have back : Standing.after (.filled, 2) (utf8 ", \"devices\":[") = some (.opened, 3) := by
    with_unfolding_all decide
  obtain ⟨number, _, isDecimal⟩ := Json.decimal_number status
  have middle : Standing.after (.filled, 2) (decimal status) = some (.filled, 2) := by
    rw [← isDecimal]
    exact Standing.after_filling number.nonempty number.filling Spot.out_filled
  rw [ackPrefix, List.append_assoc]
  exact Standing.after_append_of front (Standing.after_append_of middle back)

/-- An entry with ids that can stand between quotes closes what it opens. -/
theorem standing_ackEntry {productId deviceName : CStr} (isProductId : IsString productId)
    (isDeviceName : IsString deviceName) {spot : Spot} (out : spot.Out) :
    Standing.after (spot, 3) (ackEntry productId deviceName) = some (.filled, 3) := by
  obtain ⟨idChars, idText⟩ := isProductId
  obtain ⟨nameChars, nameText⟩ := isDeviceName
  have front : Standing.after (spot, 3) (utf8 "\x7b\"product_id\":\"") = some (.inside, 4) := by
    rcases out with rfl | rfl | rfl <;> with_unfolding_all decide
  have middle : Standing.after (.inside, 4) (utf8 "\",\"device_name\":\"") =
      some (.inside, 4) := by
    with_unfolding_all decide
  have back : Standing.after (.inside, 4) (utf8 "\",\"result\":" ++ decimal 0 ++ utf8 "\x7d") =
      some (.filled, 3) := by
    with_unfolding_all decide
  rw [List.append_assoc] at back
  simp only [ackEntry, List.append_assoc]
  rw [← idText, ← nameText]
  exact Standing.after_append_of front (Standing.after_append_of (Standing.after_charsText idChars)
    (Standing.after_append_of middle (Standing.after_append_of
      (Standing.after_charsText nameChars) back)))

/-- What is printed for an entry behind a spot. -/
theorem standing_ack {entry : DeviceEntry} (strings : entry.HasStrings) {spot : Spot}
    (out : spot.Out) : Standing.after (spot, 3) entry.ack =
      some (if entry.complete then .filled else spot, 3) := by
  cases entry with
  | device productId deviceName => exact standing_ackEntry strings.1 strings.2 out
  | nameless => rfl
  | idless => rfl

/-- Entries behind an entry: unless the text cannot be gone through, all of them are complete or it
    ends with a comma. -/
theorem standing_ackPieces_later {entries : List DeviceEntry}
    (strings : ∀ entry ∈ entries, entry.HasStrings) :
    Standing.after (.filled, 3) (ackPieces false entries) = none ∨
      Standing.after (.filled, 3) (ackPieces false entries) = some (.separated, 3) ∨
      Standing.after (.filled, 3) (ackPieces false entries) = some (.filled, 3) ∧
        ∀ entry ∈ entries, entry.complete = true := by
  induction entries with
  | nil => exact .inr (.inr ⟨rfl, List.forall_mem_nil _⟩)
  | cons entry entries ih =>
    have comma : Standing.next (.filled, 3) 44 = some (.separated, 3) := rfl
    have here := standing_ack (strings entry List.mem_cons_self) (.inr (.inl rfl))
    rw [ackPieces, ackPiece_later, List.cons_append, Standing.after_cons, comma, Option.bind_some,
      Standing.after_append, here, Option.bind_some]
    cases complete : entry.complete with
    | true =>
      rw [if_pos rfl]
      rcases ih fun other mem => strings other (List.mem_cons_of_mem _ mem) with
        none | separated | ⟨filled, all⟩
      · exact .inl none
      · exact .inr (.inl separated)
      · exact .inr (.inr ⟨filled, List.forall_mem_cons.mpr ⟨complete, all⟩⟩)
    | false =>
      rw [if_neg Bool.false_ne_true]
      cases entries with
      | nil => exact .inr (.inl rfl)
      | cons second entries =>
        have twice : Standing.next (.separated, 3) 44 = none := rfl
        rw [ackPieces, ackPiece_later, List.cons_append, Standing.after_cons, twice]
        exact .inl rfl

/-- No incomplete entry is listed between others. -/
def WellSeparated (entries : List DeviceEntry) : Prop :=
  (∀ entry ∈ entries, entry.complete = true) ∨ entries.length ≤ 1

instance (entries : List DeviceEntry) : Decidable (WellSeparated entries) :=
  inferInstanceAs (Decidable (_ ∨ _))

/-- All entries: unless the text cannot be gone through, they are well separated or it ends with a
    comma, and three brackets are open. -/
theorem standing_ackPieces {entries : List DeviceEntry}
    (strings : ∀ entry ∈ entries, entry.HasStrings) :
    Standing.after (.opened, 3) (ackPieces true entries) = none ∨
      ∃ spot : Spot, Standing.after (.opened, 3) (ackPieces true entries) = some (spot, 3) ∧
        spot.Out ∧ (spot = .separated ∨ WellSeparated entries) := by
  cases entries with
  | nil => exact .inr ⟨.opened, rfl, .inl rfl, .inr (.inr (Nat.zero_le _))⟩
  | cons entry entries =>
    have here := standing_ack (strings entry List.mem_cons_self) (.inl rfl)
    rw [ackPieces, ackPiece_first, Standing.after_append, here, Option.bind_some]
    cases complete : entry.complete with
    | true =>
      rw [if_pos rfl]
      rcases standing_ackPieces_later fun other mem => strings other (List.mem_cons_of_mem _ mem) with
        none | separated | ⟨filled, all⟩
      · exact .inl none
      · exact .inr ⟨.separated, separated, .inr (.inl rfl), .inl rfl⟩
      · exact .inr ⟨.filled, filled, Spot.out_filled,
          .inr (.inl (List.forall_mem_cons.mpr ⟨complete, all⟩))⟩
    | false =>
      rw [if_neg Bool.false_ne_true]
      cases entries with
      | nil => exact .inr ⟨.opened, rfl, .inl rfl, .inr (.inr (Nat.le_refl _))⟩
      | cons second entries =>
        have twice : Standing.next (.opened, 3) 44 = none := rfl
        rw [ackPieces, ackPiece_later, List.cons_append, Standing.after_cons, twice]
        exact .inl rfl

/-- A byte opens one bracket at most. -/
theorem next_filled (b : UInt8) :
    ∃ spot depth, Standing.next (.filled, 0) b = some (spot, depth) ∧ depth ≤ 1 := by
  have outside : Standing.next (.filled, 0) b = Spot.outside .filled 0 b := rfl
  rw [outside]
  simp only [Spot.outside, reduceCtorEq, if_true, if_false]
  split_ifs
  · exact ⟨_, _, rfl, Nat.zero_le _⟩
  · exact ⟨_, _, rfl, Nat.zero_le _⟩
  · exact ⟨_, _, rfl, Nat.zero_le _⟩
  · exact ⟨_, _, rfl, Nat.le_refl _⟩
  · exact ⟨_, _, rfl, Nat.zero_le _⟩
  · exact ⟨_, _, rfl, Nat.zero_le _⟩

/-- A text that ends with nothing open is the acknowledgement of well separated entries, and has not
    been cut. -/
theorem wellSeparated_of_standing {status : Int} {entries : List DeviceEntry}
    (strings : ∀ entry ∈ entries, entry.HasStrings) {text : List UInt8}
    (isText : text = (ackPrefix status ++ ackPieces true entries ++ ackSuffix).take 1022)
    (short : (ackPrefix status ++ ackPieces true entries).length ≤ 1023)
    (ends : Standing.after (.opened, 0) text = some (.filled, 0)) :
    (ackText status entries).length ≤ 1022 ∧ WellSeparated entries := by
  have length : (ackText status entries).length =
      (ackPrefix status ++ ackPieces true entries).length + 3 := by
    rw [ackText, List.length_append, ackSuffix_eq]
    rfl
  have full : Standing.after (.opened, 0) (ackPrefix status ++ ackPieces true entries) =
      Standing.after (.opened, 3) (ackPieces true entries) := by
    rw [Standing.after_append, standing_ackPrefix, Option.bind_some]
  rw [length]
  generalize ackPrefix status ++ ackPieces true entries = printed at *
  have cases_ := standing_ackPieces strings
  rw [← full] at cases_
  by_cases cut : printed.length ≤ 1022
  · -- what is left of the brackets that close the text
    rw [List.take_append, List.take_of_length_le cut] at isText
    rw [isText, Standing.after_append] at ends
    rcases cases_ with none | ⟨spot, some_, out, separated⟩
    · rw [none] at ends
      cases ends
    · rw [some_, Option.bind_some, ackSuffix_eq] at ends
      obtain ⟨left, isLeft⟩ : ∃ left, 1022 - printed.length = left := ⟨_, rfl⟩
      rw [isLeft] at ends
      have whole : 3 ≤ left := by
        by_contra few
        have below : left < 3 := Nat.lt_of_not_le few
        interval_cases left
        all_goals rcases out with rfl | rfl | rfl <;> revert ends <;> with_unfolding_all decide
      refine ⟨by omega, separated.resolve_left ?_⟩
      rintro rfl
      have stops : Standing.after (.separated, 3) [93, 125, 125] = none := rfl
      have all : List.take left [(93 : UInt8), 125, 125] = [93, 125, 125] :=
        List.take_of_length_le whole
      rw [all, stops] at ends
      cases ends
  · -- the last byte of an entry has been cut
    exfalso
    have isLength : printed.length = 1023 := by omega
    obtain ⟨init, last, rfl⟩ := (List.eq_nil_or_concat' printed).resolve_left (by
      rintro rfl
      cases isLength)
    have isInit : text = init := by
      rw [List.length_append, List.length_singleton] at isLength
      rw [isText, List.append_assoc, List.take_append_of_le_length (by omega),
        List.take_of_length_le (by omega)]
    rw [isInit] at ends
    rw [Standing.after_append, ends, Option.bind_some] at cases_
    obtain ⟨spot, depth, isFinal, atMost⟩ := next_filled last
    have isFinal : Standing.after (.filled, 0) [last] = some (spot, depth) :=
      Standing.after_cons_of isFinal rfl
    rw [isFinal] at cases_
    rcases cases_ with none | ⟨other, same, _⟩
    · cases none
    · cases same
      omega

/-! ## The acknowledgement as a document -/

open Json (Derivation Value Ws Document)

theorem exists_name {name : List UInt8}
    (plain : ∀ b ∈ name, 32 ≤ b ∧ b ≠ Json.quote ∧ b ≠ Json.backslash) :
    ∃ chars, Json.charsText chars = name := Json.exists_charsText plain

/-- The object that acknowledges a device. -/
theorem ackEntry_value {productId deviceName : CStr} (isProductId : IsString productId)
    (isDeviceName : IsString deviceName) :
    ∃ value : Value, value.text = ackEntry productId deviceName := by
  obtain ⟨idChars, idText⟩ := isProductId
  obtain ⟨nameChars, nameText⟩ := isDeviceName
  obtain ⟨idKey, idKeyText⟩ := @exists_name (utf8 "product_id") (by decide +kernel)
  obtain ⟨nameKey, nameKeyText⟩ := @exists_name (utf8 "device_name") (by decide +kernel)
  obtain ⟨resultKey, resultKeyText⟩ := @exists_name (utf8 "result") (by decide +kernel)
  obtain ⟨zero, _, zeroText⟩ := Json.decimal_number 0
  refine ⟨.object (.member .empty idKey .empty .empty (.string idChars) .empty
    (.nextMember (.member .empty nameKey .empty .empty (.string nameChars) .empty
      (.nextMember (.member .empty resultKey .empty .empty (.number zero) .empty .endMembers))))), ?_⟩
  have front : utf8 "\x7b\"product_id\":\"" =
      123 :: Json.quote :: (utf8 "product_id" ++ [Json.quote, Json.colon, Json.quote]) := by
    with_unfolding_all decide
  have middle : utf8 "\",\"device_name\":\"" = Json.quote :: Json.comma :: Json.quote ::
      (utf8 "device_name" ++ [Json.quote, Json.colon, Json.quote]) := by
    with_unfolding_all decide
  have back : utf8 "\",\"result\":" = Json.quote :: Json.comma :: Json.quote ::
      (utf8 "result" ++ [Json.quote, Json.colon]) := by
    with_unfolding_all decide
  have final : utf8 "\x7d" = [125] := by with_unfolding_all decide
  rw [ackEntry, front, middle, back, final, ← idKeyText, ← nameKeyText, ← resultKeyText, ← idText,
    ← nameText, ← zeroText]
  simp [Derivation.text, Ws.empty, Json.JsonType.opening, Json.JsonType.closing]

/-- The elements behind the first one. -/
theorem ackPieces_moreElements {entries : List DeviceEntry}
    (complete : ∀ entry ∈ entries, entry.complete = true)
    (strings : ∀ entry ∈ entries, entry.HasStrings) :
    ∃ more : Derivation .moreElements, more.text = ackPieces false entries := by
  induction entries with
  | nil => exact ⟨.endElements, rfl⟩
  | cons entry entries ih =>
    obtain ⟨isComplete, complete⟩ := List.forall_mem_cons.mp complete
    obtain ⟨isString, strings⟩ := List.forall_mem_cons.mp strings
    obtain ⟨more, isMore⟩ := ih complete strings
    cases entry with
    | device productId deviceName =>
      obtain ⟨value, isValue⟩ := ackEntry_value isString.1 isString.2
      refine ⟨.nextElement (.element .empty value .empty more), ?_⟩
      rw [ackPieces, ackPiece_later, DeviceEntry.ack, ← isValue, ← isMore]
      rfl
    | nameless => cases isComplete
    | idless => cases isComplete

/-- The array of the complete entries. -/
theorem ackPieces_array {entries : List DeviceEntry}
    (complete : ∀ entry ∈ entries, entry.complete = true)
    (strings : ∀ entry ∈ entries, entry.HasStrings) :
    ∃ value : Value, value.text = 91 :: (ackPieces true entries ++ [93]) := by
  cases entries with
  | nil => exact ⟨.emptyArray .empty, rfl⟩
  | cons entry entries =>
    obtain ⟨isComplete, complete⟩ := List.forall_mem_cons.mp complete
    obtain ⟨isString, strings⟩ := List.forall_mem_cons.mp strings
    obtain ⟨more, isMore⟩ := ackPieces_moreElements complete strings
    cases entry with
    | device productId deviceName =>
      obtain ⟨value, isValue⟩ := ackEntry_value isString.1 isString.2
      refine ⟨.array (.element .empty value .empty more), ?_⟩
      rw [ackPieces, ackPiece_first, DeviceEntry.ack, ← isValue, ← isMore]
      rfl
    | nameless => cases isComplete
    | idless => cases isComplete

/-- The acknowledgement of well separated entries is a JSON object. -/
theorem ackText_document {entries : List DeviceEntry} (status : Int)
    (separated : WellSeparated entries) (strings : ∀ entry ∈ entries, entry.HasStrings) :
    ∃ d : Document, d.text = ackText status entries := by
  have listed : ∃ value : Value, value.text = 91 :: (ackPieces true entries ++ [93]) := by
    rcases separated with complete | single
    · exact ackPieces_array complete strings
    · rw [ackPieces_single single]
      exact ackPieces_array (fun entry mem => (List.mem_filter.mp mem).2)
        fun entry mem => strings entry (List.mem_filter.mp mem).1
  obtain ⟨devices, isDevices⟩ := listed
  obtain ⟨typeKey, typeText⟩ := @exists_name (utf8 "type") (by decide +kernel)
  obtain ⟨change, changeText⟩ := @exists_name (utf8 "change") (by decide +kernel)
  obtain ⟨payloadKey, payloadText⟩ := @exists_name (utf8 "payload") (by decide +kernel)
  obtain ⟨statusKey, statusText⟩ := @exists_name (utf8 "status") (by decide +kernel)
  obtain ⟨devicesKey, devicesText⟩ := @exists_name (utf8 "devices") (by decide +kernel)
  obtain ⟨number, _, numberText⟩ := Json.decimal_number status
  let blank : Ws := ⟨[Json.space], List.forall_mem_singleton.mpr (.inl rfl)⟩
  refine ⟨⟨.empty, .object (.member .empty typeKey .empty .empty (.string change) .empty
    (.nextMember (.member blank payloadKey .empty .empty
      (.object (.member .empty statusKey .empty .empty (.number number) .empty
        (.nextMember (.member blank devicesKey .empty .empty devices .empty .endMembers))))
      .empty .endMembers))), .empty, rfl⟩, ?_⟩
  have front : utf8 "\x7b\"type\":\"change\", \"payload\":\x7b\"status\":" =
      123 :: Json.quote :: (utf8 "type" ++ Json.quote :: Json.colon :: Json.quote ::
        (utf8 "change" ++ Json.quote :: Json.comma :: Json.space :: Json.quote ::
          (utf8 "payload" ++ Json.quote :: Json.colon :: 123 :: Json.quote ::
            (utf8 "status" ++ [Json.quote, Json.colon])))) := by
    with_unfolding_all decide
  have back : utf8 ", \"devices\":[" = Json.comma :: Json.space :: Json.quote ::
      (utf8 "devices" ++ [Json.quote, Json.colon, 91]) := by
    with_unfolding_all decide
  rw [ackText, ackPrefix, ackSuffix_eq, front, back, ← typeText, ← changeText, ← payloadText,
    ← statusText, ← devicesText, ← numberText]
  simp [Document.text, Derivation.text, Ws.empty, blank, isDevices, Json.JsonType.opening,
    Json.JsonType.closing]

/-! ## The right acknowledgement -/

/-- Nothing is written behind the buffer, `left_sz`, which only falls, is not negative, a JSON object
    is published, and the text of the devices is as it was. -/
structure ChangeAck.Right (devices : CStr) (ack : ChangeAck) : Prop where
  inside : ack.reply.overrun = false
  leftSz : 0 ≤ ack.buf.leftSz
  complete : ∃ d : Document, d.text = ack.reply.text
  restored : ack.devices = memory devices

/-- A change is acknowledged right. -/
def AcksChange (devices : CStr) (status : Int) (env : Nat → EntryEnv) : Prop :=
  ∃ ack, changeAckEntries devices status env = .ok ack ∧ ack.Right devices

/-- The entries of the text that are looked at. -/
def LookedAtEntries (devices : CStr) (status : Int) (env : Nat → EntryEnv)
    (entries : List DeviceEntry) : Prop :=
  ∃ pos, jsonGetObject .array (memory devices) 0 = .ok pos ∧
    LookedAt (memory devices) env pos (ackPrefix status).length 0 entries

theorem ReplyBuf.snprintf_leftSz (buf : ReplyBuf) (str : List UInt8) :
    (buf.snprintf str).leftSz ≤ buf.leftSz :=
  Int.sub_le_self _ (Int.natCast_nonneg _)

theorem ReplyBuf.printSaid_leftSz (buf : ReplyBuf) (isFirst : Bool) (said : DeviceEntry) :
    (buf.printSaid isFirst said).leftSz ≤ buf.leftSz := by
  have separated : (if isFirst then buf else buf.snprintf (utf8 ",")).leftSz ≤ buf.leftSz := by
    cases isFirst with
    | true => exact le_rfl
    | false => exact buf.snprintf_leftSz _
  cases said with
  | device productId deviceName => exact (ReplyBuf.snprintf_leftSz _ _).trans separated
  | nameless => exact separated
  | idless => exact separated

/-- The loop makes no room. -/
theorem changeAckLoop_leftSz {fuel : Nat} {pos : Option Nat} {ack after : ChangeAck}
    (looped : changeAckLoop env fuel pos ack = .ok after) : after.buf.leftSz ≤ ack.buf.leftSz := by
  induction fuel generalizing pos ack with
  | zero => cases looped
  | succ fuel ih =>
    unfold changeAckLoop at looped
    obtain ⟨round, _, looped⟩ := bind_ok looped
    cases round with
    | none =>
      cases looped
      exact le_rfl
    | some round =>
      obtain ⟨found, next⟩ := round
      dsimp only at looped
      cases entry : found.val with
      | none =>
        rw [entry] at looped
        exact ih looped
      | some entry_ =>
        rw [entry] at looped
        obtain ⟨⟨oldCh, devices⟩, _, looped⟩ := bind_ok looped
        dsimp only at looped
        split at looped
        · cases looped
          exact le_rfl
        · rw [printEntry_eq] at looped
          obtain ⟨buf, isPrinted, looped⟩ := bind_ok looped
          obtain ⟨said, _, isPrinted⟩ := bind_ok isPrinted
          cases isPrinted
          exact (ih looped).trans (ack.buf.printSaid_leftSz _ said)

/-- The buffer behind the first text. -/
theorem printed_ackPrefix (status : Int) :
    (ReplyBuf.snprintf ⟨[], 0, 1023, false⟩ (ackPrefix status)).Printed (ackPrefix status) := by
  have fresh : (⟨[], 0, 1023, false⟩ : ReplyBuf).Printed [] := ⟨rfl, rfl, rfl, rfl⟩
  exact fresh.snprintf (Nat.zero_le _) (ackPrefix status)

/-- The loop that leaves the text as it was has printed the entries that are looked at. -/
theorem lookedAt_of_changeAckEntries {status : Int} {ack : ChangeAck}
    (looped : changeAckEntries devices status env = .ok ack)
    (restored : ack.devices = memory devices) :
    ∃ entries, LookedAtEntries devices status env entries ∧
      ack.buf.Printed (ackPrefix status ++ ackPieces true entries) := by
  obtain ⟨pos, isPos, looped⟩ := bind_ok looped
  obtain ⟨entries, looked, printed⟩ :=
    lookedAt_of_loop looped restored (printed_ackPrefix status)
  exact ⟨entries, ⟨pos, isPos, looked⟩, printed⟩

/-- The entries that are looked at are printed, and the text is as it was. -/
theorem changeAckEntries_of_lookedAt {status : Int} {entries : List DeviceEntry}
    (looked : LookedAtEntries devices status env entries) :
    ∃ ack, changeAckEntries devices status env = .ok ack ∧ ack.devices = memory devices ∧
      ack.buf.Printed (ackPrefix status ++ ackPieces true entries) := by
  obtain ⟨pos, isPos, looked⟩ := looked
  have length : (memory devices).length = devices.length + 1 := by
    rw [memory, List.length_append, List.length_singleton]
    rfl
  obtain ⟨ack, looped, restored, printed⟩ := loop_of_lookedAt looked (printed_ackPrefix status) rfl
    (Nat.succ_pos (memory devices).length) (fun at_ _ => by rw [length]; omega)
  refine ⟨ack, ?_, restored, printed⟩
  unfold changeAckEntries
  dsimp only
  rw [isPos]
  exact looped

/-- The reply behind what has been printed. -/
theorem reply_printed {full : List UInt8} {ack : ChangeAck} (printed : ack.buf.Printed full)
    (room : 0 ≤ ack.buf.leftSz) :
    full.length ≤ 1023 ∧ ack.reply.overrun = false ∧
      ack.reply.text = (full ++ ackSuffix).take 1022 := by
  have short : full.length ≤ 1023 := by
    rw [printed.leftSz] at room
    omega
  refine ⟨short, ?_⟩
  by_cases whole : full.length ≤ 1022
  · have ends := printed.snprintf whole ackSuffix
    exact ⟨ends.overrun, ends.text⟩
  · obtain ⟨text, overrun⟩ := printed.snprintf_cut (Nat.lt_of_not_le whole) ackSuffix
    refine ⟨overrun.trans (decide_eq_false (Nat.not_lt.mpr short)), text.trans ?_⟩
    rw [List.take_append_of_le_length (by omega)]

/-- Exactly when no entry is left out but at the end of the text, and the entries looked at leave
    `left_sz` at zero or more, nothing is written behind the buffer and the text of the devices is
    restored. If the ids of these entries can stand between quotes, the change is acknowledged right
    exactly when they are well separated and their acknowledgement fits into the buffer. -/
theorem gatewayAckChange_right_iff (devices : CStr) (status : BitVec 32) (env : Nat → EntryEnv) :
    ((∃ ack, changeAckEntries devices status.toInt env = .ok ack ∧ ack.reply.overrun = false ∧
        0 ≤ ack.buf.leftSz ∧ ack.devices = memory devices) ↔
      ∃ entries, LookedAtEntries devices status.toInt env entries ∧
        (ackPrefix status.toInt ++ ackPieces true entries).length ≤ 1023) ∧
    ∀ entries, LookedAtEntries devices status.toInt env entries →
      (∀ entry ∈ entries, entry.HasStrings) →
        (AcksChange devices status.toInt env ↔
          WellSeparated entries ∧ (ackText status.toInt entries).length ≤ 1022) := by
  refine ⟨⟨?_, ?_⟩, ?_⟩
  · rintro ⟨ack, looped, _, room, restored⟩
    obtain ⟨entries, looked, printed⟩ := lookedAt_of_changeAckEntries looped restored
    exact ⟨entries, looked, (reply_printed printed room).1⟩
  · rintro ⟨entries, looked, short⟩
    obtain ⟨ack, looped, restored, printed⟩ := changeAckEntries_of_lookedAt looked
    have room : 0 ≤ ack.buf.leftSz := by
      rw [printed.leftSz]
      omega
    exact ⟨ack, looped, (reply_printed printed room).2.1, room, restored⟩
  · intro entries looked strings
    obtain ⟨ack, looped, restored, printed⟩ := changeAckEntries_of_lookedAt looked
    constructor
    · rintro ⟨ack', looped', _, room, ⟨d, isText⟩, _⟩
      rw [looped] at looped'
      cases looped'
      obtain ⟨short, _, text⟩ := reply_printed printed room
      have ends := d.standing
      rw [isText] at ends
      exact (wellSeparated_of_standing strings text short ends).symm
    · rintro ⟨separated, fits⟩
      have whole : (ackPrefix status.toInt ++ ackPieces true entries ++ ackSuffix).length ≤ 1022 :=
        fits
      have room : 0 ≤ ack.buf.leftSz := by
        rw [List.length_append] at whole
        rw [printed.leftSz]
        omega
      obtain ⟨_, inside, text⟩ := reply_printed printed room
      obtain ⟨d, isText⟩ := ackText_document status.toInt separated strings
      refine ⟨ack, looped, inside, room, ⟨d, ?_⟩, restored⟩
      rw [isText, text, List.take_of_length_le whole]
      rfl

/-- Ten devices with ids of ten bytes and names of 48 bytes. -/
def tenDevices : CStr where
  bytes := 91 :: ((List.range 10).flatMap fun n => (if n = 0 then [] else utf8 ",") ++
    utf8 "\x7b\"product_id\":\"AAAAAAAAAA\",\"device_name\":\"" ++ List.replicate 48 97 ++
      utf8 "\"\x7d") ++ [93]
  noNul := by decide +kernel

/-- There is no room for the tenth device, and the byte behind it is not restored. -/
theorem tenDevices_notRestored :
    ¬ AcksChange tenDevices (1 : BitVec 32).toInt fun _ => ⟨true, true, true⟩ := by
  rintro ⟨ack, looped, right⟩
  have evaluated : (changeAckEntries tenDevices (1 : BitVec 32).toInt fun _ =>
      ⟨true, true, true⟩).toOption.map (fun ack => decide (ack.devices = memory tenDevices)) =
        some false := by
    decide +kernel
  rw [looped] at evaluated
  exact of_decide_eq_false (Option.some.inj evaluated) right.restored

end QcloudIot.Gateway
