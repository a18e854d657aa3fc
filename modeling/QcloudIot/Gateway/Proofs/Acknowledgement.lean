import QcloudIot.Gateway.Proofs.Replies
import QcloudIot.Json.Proofs.Decimal

/-!
# The acknowledgement of a change

The entries of a list of devices, apart from the text that they come from, and when the text that
`_gateway_ack_change` publishes is the one that lists some of the complete entries.
-/

namespace QcloudIot.Gateway

open Mqtt (CStr)
open Ota (utf8 decimal)
open Json (bind_ok memory sscanfI)
open Shadow (textOf)

/-! ## Entries -/

/-- An entry of a list: complete, without a device name, or without a product id. -/
inductive DeviceEntry where
  | device (productId deviceName : CStr)
  | nameless
  | idless
  deriving DecidableEq, Repr

/-- What an entry says. -/
def entryOf (entry : CStr) : Except Fault DeviceEntry := do
  match ← getJsonString productIdField entry true with
  | none => return .idless
  | some productId =>
    match ← getJsonString deviceNameField entry true with
    | none => return .nameless
    | some deviceName => return .device productId deviceName

/-- An entry is put behind those before it. -/
def collectEntry (list : List DeviceEntry) (entry : CStr) :
    Except Fault (List DeviceEntry × Bool) := do
  return (list ++ [← entryOf entry], false)

/-- The entries of a list. -/
def entriesOf (devices : CStr) : Except Fault (List DeviceEntry) :=
  forEachEntry devices collectEntry []

/-- A loop over entries, which a step may end. -/
def runEntries {σ : Type} (step : σ → DeviceEntry → Except Fault (σ × Bool)) :
    σ → List DeviceEntry → Except Fault σ
  | st, [] => .ok st
  | st, entry :: entries => do
    let (st, finished) ← step st entry
    if finished then return st else runEntries step st entries

/-- The rounds of a loop whose body knows its entry by what it says only. Induction on the rounds
    that may be taken, along those that collect the entries. -/
theorem forEachRound_entries {σ : Type} {mem : List UInt8}
    {body : σ → CStr → Except Fault (σ × Bool)}
    {step : σ → DeviceEntry → Except Fault (σ × Bool)}
    (knows : ∀ st entry said, entryOf entry = .ok said → body st entry = step st said)
    {fuel : Nat} {pos : Option Nat} {before after : List DeviceEntry} (st : σ)
    (collected : Json.forEachRound .array mem (entryRound mem collectEntry) fuel pos (.ok before) =
      .ok (.ok after)) :
    ∃ entries, after = before ++ entries ∧
      Json.forEachRound .array mem (entryRound mem body) fuel pos (.ok st) =
        .ok (runEntries step st entries) := by
  induction fuel generalizing pos before st with
  | zero => cases collected
  | succ fuel ih =>
    cases pos with
    | none =>
      cases collected
      exact ⟨[], (List.append_nil _).symm, rfl⟩
    | some pos =>
      unfold Json.forEachRound at collected ⊢
      cases isByte : mem[pos]? with
      | none =>
        rw [isByte] at collected
        cases collected
      | some b =>
        rw [isByte] at collected
        dsimp only at collected ⊢
        by_cases ends : b = 0
        · rw [if_pos ends] at collected ⊢
          cases collected
          exact ⟨[], (List.append_nil _).symm, rfl⟩
        · rw [if_neg ends] at collected ⊢
          cases next : Json.jsonGetNextObject .array mem (Json.Container.resume .array pos) with
          | error fault =>
            rw [next] at collected
            cases collected
          | ok found =>
            rw [next] at collected
            cases found with
            | none =>
              cases collected
              exact ⟨[], (List.append_nil _).symm, rfl⟩
            | some found =>
              obtain ⟨key, val, valLen, valType, follows⟩ := found
              cases follows with
              | none =>
                cases collected
                exact ⟨[], (List.append_nil _).symm, rfl⟩
              | some follows =>
                cases val with
                | none => exact ih st collected
                | some val =>
                  cases entry : entryOf (textOf ((mem.drop val).take valLen)) with
                  | error fault =>
                    have turned : entryRound mem collectEntry (.ok before)
                        ⟨key, some val, valLen, valType, some follows⟩ = (.error fault, true) := by
                      unfold entryRound collectEntry
                      dsimp only
                      rw [entry]
                      rfl
                    dsimp only [bind, Except.bind] at collected
                    rw [turned] at collected
                    cases collected
                  | ok said =>
                    have turned : entryRound mem collectEntry (.ok before)
                        ⟨key, some val, valLen, valType, some follows⟩ =
                          (.ok (before ++ [said]), false) := by
                      unfold entryRound collectEntry
                      dsimp only
                      rw [entry]
                      rfl
                    dsimp only [bind, Except.bind] at collected ⊢
                    rw [turned] at collected
                    cases stepped : step st said with
                    | error fault =>
                      have fails : entryRound mem body (.ok st)
                          ⟨key, some val, valLen, valType, some follows⟩ =
                            (.error fault, true) := by
                        unfold entryRound
                        dsimp only
                        rw [knows _ _ _ entry, stepped]
                      obtain ⟨entries, isAfter, _⟩ := ih st collected
                      refine ⟨said :: entries, ?_, ?_⟩
                      · rw [isAfter, List.append_assoc, List.singleton_append]
                      · rw [fails, runEntries, stepped]
                        rfl
                    | ok outcome =>
                      obtain ⟨st', finished⟩ := outcome
                      have turns : entryRound mem body (.ok st)
                          ⟨key, some val, valLen, valType, some follows⟩ =
                            (.ok st', finished) := by
                        unfold entryRound
                        dsimp only
                        rw [knows _ _ _ entry, stepped]
                      obtain ⟨entries, isAfter, rest⟩ := ih st' collected
                      refine ⟨said :: entries, ?_, ?_⟩
                      · rw [isAfter, List.append_assoc, List.singleton_append]
                      · rw [turns, runEntries, stepped]
                        cases finished with
                        | true => rfl
                        | false => exact rest

/-- A loop whose body knows its entry by what it says is a loop over what the entries say. -/
theorem forEachEntry_entries {σ : Type} {devices : CStr} {entries : List DeviceEntry}
    {body : σ → CStr → Except Fault (σ × Bool)}
    {step : σ → DeviceEntry → Except Fault (σ × Bool)}
    (knows : ∀ st entry said, entryOf entry = .ok said → body st entry = step st said)
    (collected : entriesOf devices = .ok entries) (st : σ) :
    forEachEntry devices body st = runEntries step st entries := by
  unfold entriesOf forEachEntry at collected
  unfold forEachEntry
  unfold Json.forEach at collected ⊢
  cases found : Json.jsonGetObject .array (memory devices) 0 with
  | error fault =>
    rw [found] at collected
    cases collected
  | ok pos =>
    rw [found] at collected
    dsimp only [bind, Except.bind] at collected ⊢
    cases looped : Json.forEachRound .array (memory devices)
        (entryRound (memory devices) collectEntry) ((memory devices).length + 1) pos (.ok []) with
    | error fault =>
      rw [looped] at collected
      cases collected
    | ok result =>
      rw [looped] at collected
      change result = .ok entries at collected
      rw [collected] at looped
      obtain ⟨rest, same, runs⟩ := forEachRound_entries knows st looped
      rw [List.nil_append] at same
      rw [runs, same]
      rfl

/-! ## Printing -/

/-- The text has been printed to the buffer, as far as it goes. -/
structure ReplyBuf.Printed (buf : ReplyBuf) (full : List UInt8) : Prop where
  text : buf.text = full.take 1022
  p : buf.p = full.length
  leftSz : buf.leftSz = 1023 - full.length
  overrun : buf.overrun = false

/-- More is printed while nothing has been cut. -/
theorem ReplyBuf.Printed.snprintf {buf : ReplyBuf} {full : List UInt8} (printed : buf.Printed full)
    (whole : full.length ≤ 1022) (str : List UInt8) :
    (buf.snprintf str).Printed (full ++ str) := by
  have positive : ¬ buf.leftSz < 0 := by
    rw [printed.leftSz]
    omega
  have room : buf.leftSz.toNat - 1 = 1022 - full.length := by
    rw [printed.leftSz]
    omega
  have text : buf.text = full := printed.text.trans (List.take_of_length_le whole)
  constructor
  · rw [ReplyBuf.snprintf, if_neg positive, room, text, if_pos printed.p, List.take_append,
      List.take_of_length_le whole]
  · rw [ReplyBuf.snprintf, printed.p, List.length_append]
  · rw [ReplyBuf.snprintf, printed.leftSz, List.length_append]
    push_cast
    omega
  · rw [ReplyBuf.snprintf, if_neg positive, room, printed.overrun, printed.p, Bool.false_or,
      List.length_take]
    have inside : ¬ 1024 < full.length + min (1022 - full.length) str.length + 1 := by omega
    rw [decide_eq_false inside, Bool.and_false]

/-- Behind a text that has been cut, a text is printed over the end of the buffer, or nowhere. -/
theorem ReplyBuf.Printed.snprintf_cut {buf : ReplyBuf} {full : List UInt8}
    (printed : buf.Printed full) (isCut : 1022 < full.length) (str : List UInt8) :
    (buf.snprintf str).text = full.take 1022 ∧
      (buf.snprintf str).overrun = decide (1023 < full.length) := by
  have length : buf.text.length = 1022 := by
    rw [printed.text, List.length_take]
    omega
  have behind : ¬ buf.p = buf.text.length := by
    rw [printed.p, length]
    omega
  refine ⟨?_, ?_⟩
  · rw [ReplyBuf.snprintf, if_neg behind, printed.text]
  · rw [ReplyBuf.snprintf, printed.overrun, Bool.false_or, printed.p]
    dsimp only
    by_cases beyond : 1023 < full.length
    · have negative : buf.leftSz < 0 := by
        rw [printed.leftSz]
        omega
      have outside : 1024 < full.length + str.length + 1 := by omega
      have nonzero : buf.leftSz ≠ 0 := by omega
      rw [if_pos negative, decide_eq_true outside, decide_eq_true nonzero, decide_eq_true beyond,
        Bool.and_true]
    · have zero : ¬ buf.leftSz ≠ 0 := by
        rw [printed.leftSz]
        omega
      rw [decide_eq_false zero, decide_eq_false beyond, Bool.false_and]

/-! ## What is printed -/

/-- The text that acknowledges an entry. -/
def DeviceEntry.ack : DeviceEntry → List UInt8
  | .device productId deviceName => ackEntry productId deviceName
  | .nameless => []
  | .idless => []

/-- An entry with the comma in front of it. -/
def ackPiece (first : Bool) (entry : DeviceEntry) : List UInt8 :=
  (if first then [] else utf8 ",") ++ entry.ack

def ackPieces : Bool → List DeviceEntry → List UInt8
  | _, [] => []
  | first, entry :: entries => ackPiece first entry ++ ackPieces false entries

/-- The entries that are looked at when `printed` bytes are in the buffer. -/
def ackSeen : Nat → Bool → List DeviceEntry → List DeviceEntry
  | _, _, [] => []
  | printed, first, entry :: entries =>
    if 1023 < printed + 128 then []
    else entry :: ackSeen (printed + (ackPiece first entry).length) false entries

/-- The round for what an entry says. -/
def ackStep (pass : AckPass) (entry : DeviceEntry) : Except Fault (AckPass × Bool) :=
  if pass.buf.leftSz < maxSubdevInfoSz then .ok (pass, true)
  else
    let buf := if pass.entries = 0 then pass.buf else pass.buf.snprintf (utf8 ",")
    match entry with
    | .device productId deviceName =>
      .ok (⟨buf.snprintf (ackEntry productId deviceName), pass.entries + 1⟩, false)
    | _ => .ok (⟨buf, pass.entries + 1⟩, false)

/-- Every allocation for an entry succeeds. -/
def Ample (env : Nat → EntryEnv) : Prop :=
  ∀ n, (env n).productId = true ∧ (env n).deviceName = true ∧ (env n).bindInfo = true

theorem gatewayAckEntry_knows {env : Nat → EntryEnv} (ample : Ample env) (pass : AckPass)
    (entry : CStr) (said : DeviceEntry) (isSaid : entryOf entry = .ok said) :
    gatewayAckEntry env pass entry = ackStep pass said := by
  obtain ⟨hasProductId, hasDeviceName, _⟩ := ample pass.entries
  unfold gatewayAckEntry ackStep
  rw [hasProductId, hasDeviceName]
  split
  · rfl
  · obtain ⟨productId, identified, isSaid⟩ := bind_ok isSaid
    rw [identified]
    cases productId with
    | none =>
      cases isSaid
      rfl
    | some productId =>
      obtain ⟨deviceName, named, isSaid⟩ := bind_ok isSaid
      dsimp only [bind, Except.bind]
      rw [named]
      cases deviceName with
      | none =>
        cases isSaid
        rfl
      | some deviceName =>
        cases isSaid
        rfl

/-- What is printed for an entry that has been read. -/
def ReplyBuf.printSaid (buf : ReplyBuf) (isFirst : Bool) (entry : DeviceEntry) : ReplyBuf :=
  let buf := if isFirst then buf else buf.snprintf (utf8 ",")
  match entry with
  | .device productId deviceName => buf.snprintf (ackEntry productId deviceName)
  | _ => buf

/-- An entry and its comma are printed behind what has been printed, where there is room. -/
theorem ReplyBuf.Printed.printSaid {buf : ReplyBuf} {full : List UInt8} (printed : buf.Printed full)
    (room : ¬ 1023 < full.length + 128) (isFirst : Bool) (entry : DeviceEntry) :
    (buf.printSaid isFirst entry).Printed (full ++ ackPiece isFirst entry) := by
  have comma : (utf8 ",").length = 1 := by with_unfolding_all decide
  have separated : (if isFirst then buf else buf.snprintf (utf8 ",")).Printed
      (full ++ if isFirst then [] else utf8 ",") := by
    cases isFirst with
    | true =>
      rw [if_pos rfl, if_pos rfl, List.append_nil]
      exact printed
    | false =>
      rw [if_neg Bool.false_ne_true, if_neg Bool.false_ne_true]
      exact printed.snprintf (by omega) _
  have short : (full ++ if isFirst then [] else utf8 ",").length ≤ 1022 := by
    rw [List.length_append]
    split
    · rw [List.length_nil]
      omega
    · omega
  unfold ReplyBuf.printSaid ackPiece
  cases entry with
  | device productId deviceName =>
    rw [← List.append_assoc]
    exact separated.snprintf short _
  | nameless =>
    rw [DeviceEntry.ack, List.append_nil]
    exact separated
  | idless =>
    rw [DeviceEntry.ack, List.append_nil]
    exact separated

/-- One entry is acknowledged behind what has been printed. -/
theorem ackStep_printed {pass : AckPass} {full : List UInt8} (printed : pass.buf.Printed full)
    (room : ¬ 1023 < full.length + 128) (entry : DeviceEntry) :
    ∃ buf, ackStep pass entry = .ok (⟨buf, pass.entries + 1⟩, false) ∧
      buf.Printed (full ++ ackPiece (pass.entries = 0) entry) := by
  have enough : ¬ pass.buf.leftSz < maxSubdevInfoSz := by
    rw [printed.leftSz]
    unfold maxSubdevInfoSz
    omega
  refine ⟨_, ?_, printed.printSaid room (pass.entries = 0) entry⟩
  unfold ackStep ReplyBuf.printSaid
  rw [if_neg enough]
  by_cases first : pass.entries = 0
  · rw [if_pos first, if_pos (decide_eq_true first)]
    cases entry <;> rfl
  · rw [if_neg first, if_neg (by rw [decide_eq_false first]; decide)]
    cases entry <;> rfl

/-- The loop prints the pieces of the entries that it looks at. -/
theorem runEntries_ackStep {entries : List DeviceEntry} {pass : AckPass} {full : List UInt8}
    (printed : pass.buf.Printed full) :
    ∃ pass', runEntries ackStep pass entries = .ok pass' ∧
      pass'.buf.Printed (full ++ ackPieces (pass.entries = 0)
        (ackSeen full.length (pass.entries = 0) entries)) := by
  induction entries generalizing pass full with
  | nil =>
    refine ⟨pass, rfl, ?_⟩
    rw [ackSeen, ackPieces, List.append_nil]
    exact printed
  | cons entry entries ih =>
    rw [ackSeen]
    by_cases room : 1023 < full.length + 128
    · have none : pass.buf.leftSz < maxSubdevInfoSz := by
        rw [printed.leftSz]
        unfold maxSubdevInfoSz
        omega
      refine ⟨pass, ?_, ?_⟩
      · rw [runEntries, ackStep, if_pos none]
        rfl
      · rw [if_pos room, ackPieces, List.append_nil]
        exact printed
    · obtain ⟨buf, stepped, more⟩ := ackStep_printed printed room entry
      obtain ⟨pass', rest, all⟩ := @ih ⟨buf, pass.entries + 1⟩ _ more
      refine ⟨pass', ?_, ?_⟩
      · rw [runEntries, stepped]
        exact rest
      · have later : decide (pass.entries + 1 = 0) = false := decide_eq_false (Nat.succ_ne_zero _)
        rw [later, List.length_append, List.append_assoc] at all
        rw [if_neg room, ackPieces]
        exact all

/-- What `_gateway_ack_change` publishes. -/
theorem gatewayAckChange_eq {devices : CStr} {entries : List DeviceEntry} {env : Nat → EntryEnv}
    {status : Int} (ample : Ample env) (listed : entriesOf devices = .ok entries)
    (short : (ackPrefix status).length ≤ 1022) :
    gatewayAckChange devices status env =
      let full := ackPrefix status ++
        ackPieces true (ackSeen (ackPrefix status).length true entries)
      if 1023 < full.length then .error .replyOverrun
      else .ok ((full ++ ackSuffix).take 1022) := by
  have fresh : (⟨[], 0, 1023, false⟩ : ReplyBuf).Printed [] := ⟨rfl, rfl, rfl, rfl⟩
  have begun := fresh.snprintf (Nat.zero_le _) (ackPrefix status)
  rw [List.nil_append] at begun
  obtain ⟨pass, looped, printed⟩ := @runEntries_ackStep entries ⟨(⟨[], 0, 1023, false⟩ :
      ReplyBuf).snprintf (ackPrefix status), 0⟩ _ begun
  unfold gatewayAckChange
  dsimp only
  rw [forEachEntry_entries (gatewayAckEntry_knows ample) listed, looped]
  dsimp only [bind, Except.bind]
  have isFirst : decide (0 = 0) = true := rfl
  rw [isFirst] at printed
  generalize ackPrefix status ++ ackPieces true (ackSeen (ackPrefix status).length true entries) =
    full at *
  by_cases whole : full.length ≤ 1022
  · have ends := printed.snprintf whole ackSuffix
    rw [ends.overrun, if_neg Bool.false_ne_true, if_neg (by omega), ends.text]
  · obtain ⟨text, overrun⟩ := printed.snprintf_cut (by omega) ackSuffix
    rw [overrun, text]
    by_cases beyond : 1023 < full.length
    · rw [if_pos (decide_eq_true beyond), if_pos beyond]
    · rw [if_neg (by rw [decide_eq_false beyond]; decide), if_neg beyond,
        List.take_append_of_le_length (by omega)]

/-! ## The right acknowledgement -/

/-- The entry has a product id and a device name. -/
def DeviceEntry.complete : DeviceEntry → Bool
  | .device _ _ => true
  | .nameless => false
  | .idless => false

/-- The acknowledgement of the entries in a list. -/
def ackText (status : Int) (listed : List DeviceEntry) : List UInt8 :=
  ackPrefix status ++ ackPieces true listed ++ ackSuffix

/-- The entries that are looked at are those of the list, with no incomplete one among them unless
    it is the only one, and the acknowledgement fits into the buffer. -/
def AckLists (status : Int) (entries listed : List DeviceEntry) : Prop :=
  let seen := ackSeen (ackPrefix status).length true entries
  seen.filter DeviceEntry.complete = listed ∧
    ((∀ entry ∈ seen, entry.complete = true) ∨ seen.length ≤ 1) ∧
    (ackText status listed).length ≤ 1022

instance (status : Int) (entries listed : List DeviceEntry) :
    Decidable (AckLists status entries listed) :=
  inferInstanceAs (Decidable (_ ∧ _ ∧ _))

theorem utf8_ackSeparator : utf8 "," = [44] := by with_unfolding_all decide

theorem ackSuffix_eq : ackSuffix = [93, 125, 125] := by with_unfolding_all decide

theorem ackEntry_head (productId deviceName : CStr) :
    ∃ rest, ackEntry productId deviceName = 123 :: rest := by
  have front : utf8 "\x7b\"product_id\":\"" = 123 :: utf8 "\"product_id\":\"" := by
    with_unfolding_all decide
  rw [ackEntry, front]
  exact ⟨_, rfl⟩

theorem ackPiece_later (entry : DeviceEntry) : ackPiece false entry = 44 :: entry.ack := by
  rw [ackPiece, if_neg Bool.false_ne_true, utf8_ackSeparator, List.singleton_append]

theorem ackPiece_first (entry : DeviceEntry) : ackPiece true entry = entry.ack := by
  rw [ackPiece, if_pos rfl, List.nil_append]

theorem ack_incomplete {entry : DeviceEntry} (incomplete : entry.complete = false) :
    entry.ack = [] := by
  cases entry with
  | device => cases incomplete
  | nameless => rfl
  | idless => rfl

theorem ack_complete {entry : DeviceEntry} (complete : entry.complete = true) :
    ∃ rest, entry.ack = 123 :: rest := by
  cases entry with
  | device productId deviceName => exact ackEntry_head productId deviceName
  | nameless => cases complete
  | idless => cases complete

theorem ackPieces_later_cons (entry : DeviceEntry) (entries : List DeviceEntry) :
    ackPieces false (entry :: entries) ++ ackSuffix =
      44 :: (entry.ack ++ (ackPieces false entries ++ ackSuffix)) := by
  rw [ackPieces, ackPiece_later, List.cons_append, List.cons_append, List.append_assoc]

/-- Behind entries the text goes on with a comma, or ends. -/
theorem ackPieces_later_head (entries : List DeviceEntry) :
    ∃ b rest, ackPieces false entries ++ ackSuffix = b :: rest ∧ b ≠ 123 := by
  cases entries with
  | nil => exact ⟨93, [125, 125], ackSuffix_eq, by decide⟩
  | cons entry entries => exact ⟨44, _, ackPieces_later_cons entry entries, by decide⟩

/-- A text that goes on behind a piece of it, as far as it has not been cut. -/
theorem take_append_eq {piece rest rest' : List UInt8} {n : Nat}
    (same : (piece ++ rest).take n = piece ++ rest') : rest.take (n - piece.length) = rest' := by
  have short : piece.length ≤ n := by
    have length := congrArg List.length same
    rw [List.length_take, List.length_append, List.length_append] at length
    omega
  rw [List.take_append, List.take_of_length_le short] at same
  exact List.append_cancel_left same

/-- Once an entry has been acknowledged the others that are looked at are those of the list.
    Induction on the entries. -/
theorem ackSeen_agrees {entries listed : List DeviceEntry} {printed : Nat}
    (front : listed <+: entries.filter DeviceEntry.complete)
    (same : (ackPieces false (ackSeen printed false entries) ++ ackSuffix).take (1022 - printed) =
      ackPieces false listed ++ ackSuffix) :
    ackSeen printed false entries = listed := by
  induction entries generalizing printed listed with
  | nil => exact (List.prefix_nil.mp front).symm
  | cons entry entries ih =>
    rw [ackSeen] at same ⊢
    cases listed with
    | nil =>
      split at same
      · rename_i full
        rw [if_pos full]
      · rename_i room
        obtain ⟨n, isRoom⟩ := Nat.exists_eq_add_of_lt (show 0 < 1022 - printed by omega)
        rw [ackPieces_later_cons, isRoom, ackPieces, List.nil_append, ackSuffix_eq] at same
        cases same
    | cons first listed =>
      have isComplete : first.complete = true :=
        (List.mem_filter.mp (front.subset List.mem_cons_self)).2
      split at same
      · have length := congrArg List.length same
        rw [ackPieces, ackPieces, ackPiece_later, List.length_take, List.length_append,
          List.length_append, List.length_append, List.length_cons, List.length_nil] at length
        omega
      · rename_i room
        rw [if_neg room]
        cases complete : entry.complete with
        | true =>
          rw [List.filter_cons_of_pos complete, List.cons_prefix_cons] at front
          obtain ⟨rfl, front⟩ := front
          rw [ackPieces, ackPieces, List.append_assoc, List.append_assoc] at same
          have rest := take_append_eq same
          rw [Nat.sub_sub] at rest
          rw [ih front rest]
        | false =>
          obtain ⟨b, text, isText, different⟩ := ackPieces_later_head
            (ackSeen (printed + (ackPiece false entry).length) false entries)
          obtain ⟨ack, isAck⟩ := ack_complete isComplete
          obtain ⟨n, isRoom⟩ := Nat.exists_eq_add_of_lt (show 1 < 1022 - printed by omega)
          rw [ackPieces_later_cons, ack_incomplete complete, List.nil_append, isText,
            ackPieces_later_cons, isAck, isRoom, Nat.add_comm 1 n] at same
          simp only [List.take_succ_cons, List.cons_append, List.cons.injEq] at same
          exact absurd same.2.1 different

/-- What holds of the entries behind the first one holds of all of them. -/
theorem ackSeen_begins {entries listed : List DeviceEntry} {printed : Nat}
    (front : listed <+: entries.filter DeviceEntry.complete)
    (same : (ackPieces true (ackSeen printed true entries) ++ ackSuffix).take (1022 - printed) =
      ackPieces true listed ++ ackSuffix) :
    (ackSeen printed true entries).filter DeviceEntry.complete = listed ∧
      ((∀ entry ∈ ackSeen printed true entries, entry.complete = true) ∨
        (ackSeen printed true entries).length ≤ 1) := by
  have isComplete : ∀ entry ∈ listed, entry.complete = true := by
    intro entry mem
    exact (List.mem_filter.mp (front.subset mem)).2
  cases entries with
  | nil =>
    rw [List.filter_nil, List.prefix_nil] at front
    exact ⟨front.symm, .inr (Nat.zero_le _)⟩
  | cons entry entries =>
    rw [ackSeen] at same ⊢
    split at same
    · rename_i full
      rw [if_pos full]
      cases listed with
      | nil => exact ⟨rfl, .inr (Nat.zero_le _)⟩
      | cons first listed =>
        obtain ⟨ack, isAck⟩ := ack_complete (isComplete first List.mem_cons_self)
        have length := congrArg List.length same
        rw [ackPieces, ackPieces, ackPiece_first, isAck, List.length_take, List.length_append,
          List.length_append, List.length_append, List.length_cons, List.length_nil] at length
        omega
    · rename_i room
      rw [if_neg room]
      obtain ⟨n, isRoom⟩ := Nat.exists_eq_add_of_lt (show 0 < 1022 - printed by omega)
      have shape : ackPieces true (entry :: ackSeen (printed + (ackPiece true entry).length) false
          entries) ++ ackSuffix = entry.ack ++
            (ackPieces false (ackSeen (printed + (ackPiece true entry).length) false entries) ++
              ackSuffix) := by
        rw [ackPieces, ackPiece_first, List.append_assoc]
      cases complete : entry.complete with
      | true =>
        cases listed with
        | nil =>
          obtain ⟨ack, isAck⟩ := ack_complete complete
          rw [shape, isAck, isRoom, ackPieces, List.nil_append, ackSuffix_eq] at same
          cases same
        | cons first listed =>
          rw [List.filter_cons_of_pos complete, List.cons_prefix_cons] at front
          obtain ⟨rfl, front⟩ := front
          rw [ackPieces, ackPieces, List.append_assoc, List.append_assoc] at same
          have rest := take_append_eq same
          rw [Nat.sub_sub] at rest
          rw [ackSeen_agrees front rest, List.filter_eq_self.mpr isComplete]
          exact ⟨rfl, .inl isComplete⟩
      | false =>
        rw [List.filter_cons_of_neg (by rw [complete]; exact Bool.false_ne_true)]
        rw [shape, ack_incomplete complete, List.nil_append, isRoom] at same
        generalize ackSeen (printed + (ackPiece true entry).length) false entries = seen at *
        cases listed with
        | nil =>
          cases seen with
          | nil => exact ⟨rfl, .inr (Nat.le_refl _)⟩
          | cons second seen =>
            rw [ackPieces_later_cons, ackPieces, List.nil_append, ackSuffix_eq] at same
            cases same
        | cons first listed =>
          obtain ⟨ack, isAck⟩ := ack_complete (isComplete first List.mem_cons_self)
          obtain ⟨b, text, isText, different⟩ := ackPieces_later_head seen
          rw [isText, ackPieces, ackPiece_first, isAck] at same
          simp only [List.take_succ_cons, List.cons_append, List.cons.injEq] at same
          exact absurd same.1 different

/-- A single entry that is incomplete prints nothing. -/
theorem ackPieces_single {seen : List DeviceEntry} (single : seen.length ≤ 1) :
    ackPieces true seen = ackPieces true (seen.filter DeviceEntry.complete) := by
  cases seen with
  | nil => rfl
  | cons entry seen =>
    cases seen with
    | nil => cases entry <;> rfl
    | cons => exact absurd single (by rw [List.length_cons, List.length_cons]; omega)

/-- When the text that is published is the acknowledgement of some of the complete entries. -/
theorem ackText_eq_iff {status : Int} {entries listed : List DeviceEntry}
    (front : listed <+: entries.filter DeviceEntry.complete) :
    let full := ackPrefix status ++
      ackPieces true (ackSeen (ackPrefix status).length true entries)
    (¬ 1023 < full.length ∧ (full ++ ackSuffix).take 1022 = ackText status listed) ↔
      AckLists status entries listed := by
  dsimp only
  constructor
  · rintro ⟨_, same⟩
    have fits : (ackText status listed).length ≤ 1022 := by
      rw [← same, List.length_take]
      exact min_le_left _ _
    have agrees : (ackSeen (ackPrefix status).length true entries).filter DeviceEntry.complete =
          listed ∧
        ((∀ entry ∈ ackSeen (ackPrefix status).length true entries, entry.complete = true) ∨
          (ackSeen (ackPrefix status).length true entries).length ≤ 1) := by
      rw [ackText, List.append_assoc, List.append_assoc] at same
      have rest := take_append_eq same
      exact ackSeen_begins front rest
    exact ⟨agrees.1, agrees.2, fits⟩
  · rintro ⟨rfl, agrees, fits⟩
    have same : ackPieces true (ackSeen (ackPrefix status).length true entries) =
        ackPieces true ((ackSeen (ackPrefix status).length true entries).filter
          DeviceEntry.complete) := by
      rcases agrees with complete | single
      · rw [List.filter_eq_self.mpr complete]
      · exact ackPieces_single single
    rw [same]
    refine ⟨?_, List.take_of_length_le fits⟩
    rw [ackText, List.length_append] at fits
    omega

/-! ## Statuses -/

/-- A status is an `int32_t`. -/
theorem getJsonInt32_range {field json : CStr} {allocated : Bool} {n : Int}
    (isInt : getJsonInt32 field json allocated = .ok (some n)) : n.natAbs < 10 ^ 10 := by
  obtain ⟨text, _, isInt⟩ := bind_ok isInt
  cases text with
  | none => cases isInt
  | some text =>
    have scanned : sscanfI 32 text = some n := Except.ok.inj isInt
    have isWord : ∃ word : BitVec 32, word.toInt = n := by
      unfold sscanfI at scanned
      dsimp only at scanned
      exact ⟨_, Option.some.inj (Option.ite_none_left_eq_some.mp scanned).2⟩
    obtain ⟨word, rfl⟩ := isWord
    have above := word.le_toInt
    have below := word.toInt_lt
    omega

theorem ackPrefix_short {status : Int} (range : status.natAbs < 10 ^ 10) :
    (ackPrefix status).length ≤ 1022 := by
  have digits : (decimal status).length ≤ 11 := Json.length_decimal range
  have front : (utf8 "\x7b\"type\":\"change\", \"payload\":\x7b\"status\":").length = 38 := by
    with_unfolding_all decide
  have back : (utf8 ", \"devices\":[").length = 13 := by with_unfolding_all decide
  rw [ackPrefix, List.length_append, List.length_append, front, back]
  omega

/-- When `_gateway_ack_change` publishes the acknowledgement of some of the complete entries. -/
theorem gatewayAckChange_lists {devices : CStr} {entries listed : List DeviceEntry}
    {env : Nat → EntryEnv} {status : Int} (ample : Ample env)
    (entriesAre : entriesOf devices = .ok entries) (range : status.natAbs < 10 ^ 10)
    (front : listed <+: entries.filter DeviceEntry.complete) :
    gatewayAckChange devices status env = .ok (ackText status listed) ↔
      AckLists status entries listed := by
  rw [gatewayAckChange_eq ample entriesAre (ackPrefix_short range)]
  dsimp only
  constructor
  · intro published
    split at published
    · cases published
    · rename_i inside
      exact (ackText_eq_iff front).mp ⟨inside, Except.ok.inj published⟩
  · intro lists
    obtain ⟨inside, same⟩ := (ackText_eq_iff front).mpr lists
    rw [if_neg inside, same]

end QcloudIot.Gateway
