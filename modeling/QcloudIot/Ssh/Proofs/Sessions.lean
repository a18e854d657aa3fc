import QcloudIot.Json.Proofs.Decimal
import QcloudIot.Misc.Ledger
import QcloudIot.Misc.Run
import QcloudIot.Ssh.Proxy

/-!
# The session table

While sessions are opened with new tokens that leave room for their NUL, no message names the free
slots and the table is cleared with no connection behind the first session, the counter counts the
sessions and every connection is closed once.
-/

namespace QcloudIot.Ssh

open Mqtt (CStr cstrOf)
open Shadow (strncpy strncpy_length textOf textOf_nuls)
open Json (bind_ok length_decimal)
open Ota (utf8 decimal)

/-! ## Slots -/

namespace Slot

variable {slot : Slot}

theorem isFree_iff : slot.isFree = true ↔ slot.token.head? = some 0 := decide_eq_true_iff

theorem text_bytes (slot : Slot) :
    slot.text.bytes = cString (slot.token ++ [if slot.connected then 1 else 0, 0]) := rfl

/-- A slot is free exactly if its string is empty. -/
theorem text_eq_nil_iff : slot.text.bytes = [] ↔ slot.isFree = true := by
  rw [isFree_iff, text_bytes]
  obtain ⟨token, connected, network, length⟩ := slot
  cases token with
  | nil => cases length
  | cons b rest =>
    rw [List.cons_append, cString, List.takeWhile_cons, List.head?_cons]
    by_cases zero : b = 0
    · simp only [zero, ne_eq, not_true, decide_false, Bool.false_eq_true, if_false]
    · simp only [ne_eq, zero, not_false_eq_true, decide_true, if_true, Option.some.injEq]
      exact ⟨fun nil => absurd nil (List.cons_ne_nil _ _), False.elim⟩

/-- A token that has its NUL is the string, whatever follows. -/
theorem text_of_terminated (terminated : 0 ∈ slot.token) : slot.text.bytes = cString slot.token := by
  obtain ⟨text, behind, same, noNul⟩ := List.eq_append_cons_of_mem terminated
  rw [text_bytes, same, List.append_assoc, List.cons_append, cString_nul noNul, cString_nul noNul]

theorem isFree_cleared (ready : Bool) : (cleared ready).isFree = true := rfl

/-- The slot of a new session. -/
def fresh (token : CStr) : Slot :=
  ⟨strncpy tokenSize token, false, ⟨true, none⟩, strncpy_length _ _⟩

/-- A token of at most 32 bytes is copied with a NUL behind it. -/
theorem fresh_token {token : CStr} (short : token.length < tokenSize) :
    (fresh token).token = token.bytes ++ List.replicate (tokenSize - token.length) 0 := by
  have isLength : token.length = token.bytes.length := rfl
  show strncpy tokenSize token = _
  rw [strncpy, List.take_of_length_le (by omega)]

theorem terminated_fresh {token : CStr} (short : token.length < tokenSize) :
    0 ∈ (fresh token).token := by
  rw [fresh_token short]
  apply List.mem_append_right
  rw [List.mem_replicate]
  exact ⟨by omega, rfl⟩

theorem text_fresh {token : CStr} (short : token.length < tokenSize) :
    (fresh token).text = token := by
  apply CStr.ext_bytes
  rw [text_of_terminated (terminated_fresh short), fresh_token short]
  exact textOf_nuls token.noNul _

end Slot

/-! ## The invariant -/

namespace Proxy

/-- The handle of a slot. -/
def handle (proxy : Proxy) (i : Fin localSshCountMax) : Option Nat :=
  (proxy.slots i).localSshNetworkStack.handle

/-- The slots of the sessions. -/
def occupied (proxy : Proxy) : Finset (Fin localSshCountMax) :=
  slotsWith (fun slot => slot.isFree = false) proxy.slots

/-- The slots that hold a connection. -/
def holders (proxy : Proxy) (ident : Nat) : Finset (Fin localSshCountMax) :=
  slotsWith (fun slot => slot.localSshNetworkStack.handle = some ident) proxy.slots

/-- The counter counts the sessions, which have different tokens with a NUL, and a connection that
    was opened is held by one session, or has been closed once. -/
structure Sound (proxy : Proxy) : Prop where
  counted : proxy.sgLocalSshCount - 1 = proxy.occupied.card
  terminated : ∀ i, (proxy.slots i).isFree = false → 0 ∈ (proxy.slots i).token
  distinct : ∀ i j, (proxy.slots i).isFree = false → (proxy.slots i).text = (proxy.slots j).text →
    i = j
  ready : ∀ i, (proxy.slots i).isFree = false → (proxy.slots i).localSshNetworkStack.ready = true
  connected : ∀ i, (proxy.slots i).connected = (proxy.handle i).isSome
  free : ∀ i, (proxy.slots i).isFree = true → proxy.handle i = none
  ledger : ∀ ident, proxy.closed.count ident + (proxy.holders ident).card =
    if ident < proxy.opened then 1 else 0

/-- The table before any message. -/
def start : Proxy where
  slots _ := Slot.cleared false
  sgLocalSshCount := 1
  nonce := 0
  disconnect := false
  waitPong := false
  pingCount := 0
  verifySuccess := false
  opened := 0
  closed := []
  sent := []
  written := []

theorem start_sound : start.Sound where
  counted := by
    rw [occupied, card_slotsWith_eq_zero fun i => by simp [start, Slot.isFree_cleared]]
    rfl
  terminated i session := by cases session
  distinct i j session := by cases session
  ready i session := by cases session
  connected i := rfl
  free i _ := rfl
  ledger ident := by
    rw [holders, card_slotsWith_eq_zero fun i => by simp [start, Slot.cleared], if_neg (by simp
        [start])]
    rfl

/-- What is sent or written does not matter. -/
theorem Sound.congr {proxy other : Proxy} (sound : proxy.Sound) (slots : other.slots = proxy.slots)
    (count : other.sgLocalSshCount = proxy.sgLocalSshCount) (opened : other.opened = proxy.opened)
    (closed : other.closed = proxy.closed) : other.Sound := by
  obtain ⟨counted, terminated, distinct, ready, connected, free, ledger⟩ := sound
  refine ⟨?_, ?_, ?_, ?_, ?_, ?_, ?_⟩ <;>
    simp only [occupied, holders, handle, slots, count, opened, closed] at * <;> assumption

/-- One slot is replaced. -/
theorem Sound.replace {proxy other : Proxy} (sound : proxy.Sound) (i : Fin localSshCountMax)
    (slot : Slot) (slots : other.slots = Function.update proxy.slots i slot)
    (count : other.sgLocalSshCount + (if (proxy.slots i).isFree = false then 1 else 0) =
      proxy.sgLocalSshCount + if slot.isFree = false then 1 else 0)
    (terminated : slot.isFree = false → 0 ∈ slot.token)
    (distinct : slot.isFree = false → ∀ j, j ≠ i → (proxy.slots j).text ≠ slot.text)
    (ready : slot.isFree = false → slot.localSshNetworkStack.ready = true)
    (connected : slot.connected = slot.localSshNetworkStack.handle.isSome)
    (free : slot.isFree = true → slot.localSshNetworkStack.handle = none)
    (ledger : ∀ ident,
      other.closed.count ident + (if slot.localSshNetworkStack.handle = some ident then 1 else 0) +
          (if ident < proxy.opened then 1 else 0) =
        proxy.closed.count ident + (if proxy.handle i = some ident then 1 else 0) +
          if ident < other.opened then 1 else 0) : other.Sound := by
  have here : other.slots i = slot := by rw [slots, Function.update_self]
  have there : ∀ j, j ≠ i → other.slots j = proxy.slots j := by
    intro j apart
    rw [slots, Function.update_of_ne apart]
  refine ⟨?_, ?_, ?_, ?_, ?_, ?_, ?_⟩
  · have sum := card_slotsWith_update (P := fun slot : Slot => slot.isFree = false) proxy.slots i slot
    have counted := sound.counted
    rw [← slots] at sum
    unfold occupied at counted ⊢
    split_ifs at count sum <;> omega
  · intro j session
    by_cases same : j = i
    · rw [same, here] at session ⊢
      exact terminated session
    · rw [there j same] at session ⊢
      exact sound.terminated j session
  · intro j k session text
    by_cases same : j = i
    · by_cases other : k = i
      · rw [same, other]
      · rw [same, here] at session
        rw [same, here, there k other] at text
        exact absurd text.symm (distinct session k other)
    · by_cases other : k = i
      · rw [there j same] at session
        rw [other, here, there j same] at text
        have isSession : slot.isFree = false := by
          rw [← Bool.not_eq_true, ← Slot.text_eq_nil_iff, ← text, Slot.text_eq_nil_iff]
          rw [session]
          exact Bool.false_ne_true
        exact absurd text (distinct isSession j same)
      · rw [there j same] at session
        rw [there j same, there k other] at text
        exact sound.distinct j k session text
  · intro j session
    by_cases same : j = i
    · rw [same, here] at session ⊢
      exact ready session
    · rw [there j same] at session ⊢
      exact sound.ready j session
  · intro j
    unfold handle
    by_cases same : j = i
    · rw [same, here]
      exact connected
    · rw [there j same]
      exact sound.connected j
  · intro j isFree
    unfold handle
    by_cases same : j = i
    · rw [same, here] at isFree ⊢
      exact free isFree
    · rw [there j same] at isFree ⊢
      exact sound.free j isFree
  · intro ident
    have sum := card_slotsWith_update
      (P := fun slot : Slot => slot.localSshNetworkStack.handle = some ident) proxy.slots i slot
    have before := sound.ledger ident
    have moved := ledger ident
    rw [← slots] at sum
    unfold holders at before ⊢
    unfold handle at moved
    omega

/-! ## Looking for a slot -/

variable {proxy : Proxy} {token : CStr} {i : Fin localSshCountMax} {env : Env}

theorem text_of_findSlot (found : proxy.findSlot token = some i) : (proxy.slots i).text = token := by
  simpa only [decide_eq_true_eq] using List.find?_some found

theorem findSlot_eq_none : proxy.findSlot token = none ↔ ∀ i, (proxy.slots i).text ≠ token := by
  rw [findSlot, List.find?_eq_none]
  simp only [List.mem_finRange, decide_eq_true_eq, forall_true_left, ne_eq]

theorem isFree_of_findFree (found : proxy.findFree = some i) : (proxy.slots i).isFree = true := by
  simpa only using List.find?_some found

theorem findFree_eq_none : proxy.findFree = none ↔ ∀ i, (proxy.slots i).isFree = false := by
  rw [findFree, List.find?_eq_none]
  simp only [List.mem_finRange, forall_true_left, Bool.not_eq_true]

/-- A token that is not empty names a session, if any slot. -/
theorem session_of_findSlot (found : proxy.findSlot token = some i)
    (named : token.bytes ≠ [] ∨ proxy.findFree = none) : (proxy.slots i).isFree = false := by
  rcases named with nonempty | full
  · rw [← Bool.not_eq_true, ← Slot.text_eq_nil_iff, text_of_findSlot found]
    exact nonempty
  · exact findFree_eq_none.mp full i

/-- A session is found by its own token. -/
theorem Sound.findSlot_self (sound : proxy.Sound) (session : (proxy.slots i).isFree = false) :
    proxy.findSlot (proxy.slots i).text = some i := by
  cases found : proxy.findSlot (proxy.slots i).text with
  | none => exact absurd rfl (findSlot_eq_none.mp found i)
  | some j => rw [sound.distinct i j session (text_of_findSlot found).symm]

/-! ## Opening and closing -/

/-- A session is opened with a new token that leaves room for its NUL. -/
theorem Sound.create (sound : proxy.Sound) (nonempty : token.bytes ≠ [])
    (short : token.length < tokenSize) (new : proxy.findSlot token = none) :
    (proxy.localSshCreate token env).2.Sound := by
  unfold localSshCreate
  cases room : proxy.findFree with
  | none => exact sound
  | some i =>
    have isFree := isFree_of_findFree room
    have unheld := sound.free i isFree
    dsimp only
    split_ifs
    · have text := Slot.text_fresh short
      have session : (Slot.fresh token).isFree = false := by
        rw [← Bool.not_eq_true, ← Slot.text_eq_nil_iff, text]
        exact nonempty
      refine sound.replace i (Slot.fresh token) rfl ?_ ?_ ?_ ?_ rfl ?_ ?_
      · rw [if_neg (by rw [isFree]; decide), if_pos session]
        exact add_zero _
      · exact fun _ => Slot.terminated_fresh short
      · intro _ j _
        rw [text]
        exact findSlot_eq_none.mp new j
      · exact fun _ => rfl
      · exact fun _ => rfl
      · intro ident
        rw [unheld]
        rfl
    · refine sound.replace i (Slot.cleared true) rfl ?_ ?_ ?_ ?_ rfl ?_ ?_
      · rw [isFree]
        rfl
      · exact fun session => absurd session (by decide)
      · exact fun session => absurd session (by decide)
      · exact fun session => absurd session (by decide)
      · exact fun _ => rfl
      · intro ident
        rw [unheld]
        rfl

/-- A session that is not opened, because no slot is free or its network is not initialised. -/
theorem Sound.create_refused (sound : proxy.Sound)
    (refused : proxy.findFree = none ∨ env.initialized = false) :
    (proxy.localSshCreate token env).2.Sound := by
  unfold localSshCreate
  cases room : proxy.findFree with
  | none => exact sound
  | some i =>
    have isFree := isFree_of_findFree room
    have unheld := sound.free i isFree
    have failed : env.initialized = false := refused.resolve_left (by simp [room])
    simp only [failed, Bool.false_eq_true, if_false]
    refine sound.replace i (Slot.cleared true) rfl ?_ ?_ ?_ ?_ rfl ?_ ?_
    · rw [isFree]
      rfl
    · exact fun session => absurd session (by decide)
    · exact fun session => absurd session (by decide)
    · exact fun session => absurd session (by decide)
    · exact fun _ => rfl
    · intro ident
      rw [unheld]
      rfl

/-- A session is closed, and its connection if it has one. -/
theorem Sound.destory (sound : proxy.Sound) (named : token.bytes ≠ [] ∨ proxy.findFree = none) :
    ∃ ret after, proxy.localSshDestory token = .ok (ret, after) ∧ after.Sound := by
  unfold localSshDestory
  dsimp only
  cases found : proxy.findSlot token with
  | none => exact ⟨_, _, rfl, sound⟩
  | some i =>
    have session := session_of_findSlot found named
    have ready := sound.ready i session
    simp only [localSshDeinit, ready, if_true]
    refine ⟨_, _, rfl, ?_⟩
    refine sound.replace i (Slot.cleared false) rfl ?_ ?_ ?_ ?_ rfl ?_ ?_
    · rw [session]
      show proxy.sgLocalSshCount - 1 + 1 = proxy.sgLocalSshCount + 0
      omega
    · exact fun session => absurd session (by decide)
    · exact fun session => absurd session (by decide)
    · exact fun session => absurd session (by decide)
    · exact fun _ => rfl
    · intro ident
      show (proxy.closed ++ (proxy.handle i).toList).count ident + 0 +
          (if ident < proxy.opened then 1 else 0) =
        proxy.closed.count ident + (if proxy.handle i = some ident then 1 else 0) +
          if ident < proxy.opened then 1 else 0
      rw [List.count_append, Nat.add_zero]
      cases held : proxy.handle i with
      | none => rfl
      | some other =>
        simp only [Option.toList_some, List.count_singleton, Option.some.injEq, beq_iff_eq]

/-- The whole table is cleared, where only the first session may have a connection. -/
theorem Sound.deinitAll (sound : proxy.Sound)
    (first : ∀ i j, i < j → (proxy.slots i).isFree = false → (proxy.slots j).connected = false) :
    ∃ after, proxy.localSshDeinitAll = .ok after ∧ after.Sound := by
  have held : ∀ ident j, proxy.handle j = some ident → (proxy.slots j).connected = true := by
    intro ident j held
    rw [sound.connected j, held]
    rfl
  have cleared (closed : List Nat) (all : ∀ ident,
      closed.count ident = proxy.closed.count ident + (proxy.holders ident).card) :
      ({ proxy with slots := fun _ => Slot.cleared false, sgLocalSshCount := 1, closed } :
        Proxy).Sound := by
    have noSession : ¬(Slot.cleared false).isFree = false := by decide
    refine ⟨?_, ?_, ?_, ?_, fun _ => rfl, fun _ _ => rfl, ?_⟩
    · have none := card_slotsWith_eq_zero (P := fun slot : Slot => slot.isFree = false)
        fun _ : Fin localSshCountMax => noSession
      show (1 : Int) - 1 = (slotsWith (fun slot : Slot => slot.isFree = false) _).card
      rw [none]
      rfl
    · exact fun _ session => absurd session noSession
    · exact fun _ _ session => absurd session noSession
    · exact fun _ session => absurd session noSession
    · intro ident
      rw [holders, card_slotsWith_eq_zero fun _ => by simp [Slot.cleared], add_zero, all ident]
      exact sound.ledger ident
  unfold localSshDeinitAll
  cases found : (List.finRange localSshCountMax).find? fun i => !(proxy.slots i).isFree with
  | none =>
    refine ⟨_, rfl, cleared proxy.closed ?_⟩
    intro ident
    have none : (proxy.holders ident).card = 0 := by
      apply card_slotsWith_eq_zero
      intro j isHolder
      have noSession := List.find?_eq_none.mp found j (List.mem_finRange j)
      have unheld := sound.free j (by simpa using noSession)
      cases unheld.symm.trans isHolder
    rw [none, add_zero]
  | some i =>
    have session : (proxy.slots i).isFree = false := by simpa using List.find?_some found
    have ready := sound.ready i session
    simp only [localSshDeinit, ready, if_true]
    refine ⟨_, rfl, cleared _ ?_⟩
    intro ident
    -- a connection behind the first session would be left open
    have single : (proxy.holders ident).card = if proxy.handle i = some ident then 1 else 0 := by
      apply card_slotsWith_single
      intro j apart isHolder
      have open_ := held ident j isHolder
      rcases lt_or_gt_of_ne apart with before | behind
      · have isFree : (proxy.slots j).isFree = true := by
          simpa using false_of_lt_find found before
        cases (sound.free j isFree).symm.trans isHolder
      · rw [first i j behind session] at open_
        cases open_
    rw [single]
    show (proxy.closed ++ (proxy.handle i).toList).count ident = _
    rw [List.count_append]
    cases proxy.handle i with
    | none => rfl
    | some other =>
      simp only [Option.toList_some, List.count_singleton, Option.some.injEq, beq_iff_eq]

/-! ## Answers -/

/-- An answer fits into its packet. -/
def AnswerFits (proxy : Proxy) (token : CStr) (msgType ret : Int) (env : Env) : Prop :=
  (msgHeader proxy.nonce token msgType (respPayload ret).length env.timestamp).length +
    (respPayload ret).length ≤ packetSize

theorem length_respPayload (ret : Int32) : (respPayload ret.toInt).length ≤ 40 := by
  have low := ret.le_toInt
  have high := ret.toInt_lt
  have digits : (decimal ret.toInt).length ≤ 11 := length_decimal (k := 9) (by omega)
  have front : (utf8 "\x7b\"code\":").length = 8 := by with_unfolding_all decide
  have behind : (utf8 ",\"message\":\"fail\"\x7d").length = 18 := by with_unfolding_all decide
  have whole : (utf8 "\x7b\"code\":0,\"message\":\"success\"\x7d").length = 30 := by
    with_unfolding_all decide
  unfold respPayload
  split_ifs
  · omega
  · simp only [List.length_append]
    omega

/-- The string of a slot is an answer's token that fits. -/
theorem answerFits_of_short (proxy : Proxy) (short : token.length ≤ tokenSize + 1) (ret : Int32) :
    proxy.AnswerFits token newSessionResp ret.toInt env := by
  have payload := length_respPayload ret
  have low := env.timestamp.le_toInt
  have high := env.timestamp.toInt_lt
  have time : (decimal env.timestamp.toInt).length ≤ 11 := length_decimal (k := 9) (by omega)
  have digits : (decimal (respPayload ret.toInt).length).length ≤ 3 :=
    length_decimal (k := 1) (by omega)
  have type : (decimal newSessionResp).length = 1 := by with_unfolding_all decide
  have nonce : (hex8 proxy.nonce).length = 8 := by
    rw [hex8, List.length_map, List.length_range]
  have first : (utf8 "\x7b\"requestId\":\"ws-").length = 17 := by with_unfolding_all decide
  have second : (utf8 "\",\"msgType\":").length = 12 := by with_unfolding_all decide
  have third : (utf8 ",\"payloadLen\":").length = 14 := by with_unfolding_all decide
  have fourth : (utf8 ",\"serviceType\":0,\"timestmap\":").length = 29 := by with_unfolding_all decide
  have fifth : (utf8 ",\"token\":\"").length = 10 := by with_unfolding_all decide
  have last : (utf8 "\"\x7d\r\n").length = 4 := by with_unfolding_all decide
  have isLength : token.length = token.bytes.length := rfl
  have sizes : tokenSize = 33 ∧ packetSize = 256 := ⟨rfl, rfl⟩
  unfold AnswerFits msgHeader
  simp only [List.length_append]
  omega

/-- An answer that fits is sent, and the table stays as it is. -/
theorem procResp_fits {msgType ret : Int} (fits : proxy.AnswerFits token msgType ret env) :
    ∃ after, proxy.procResp token msgType ret env = .ok after ∧ after.slots = proxy.slots ∧
      after.sgLocalSshCount = proxy.sgLocalSshCount ∧ after.opened = proxy.opened ∧
      after.closed = proxy.closed ∧ after.written = proxy.written := by
  unfold procResp
  simp only [if_neg (not_lt.mpr fits)]
  exact ⟨_, rfl, rfl, rfl, rfl, rfl, rfl⟩

theorem procResp_sound {msgType ret : Int} (sound : proxy.Sound)
    (fits : proxy.AnswerFits token msgType ret env) :
    ∃ after, proxy.procResp token msgType ret env = .ok after ∧ after.Sound ∧
      after.slots = proxy.slots ∧ after.sgLocalSshCount = proxy.sgLocalSshCount ∧
      after.opened = proxy.opened ∧ after.closed = proxy.closed := by
  obtain ⟨after, answered, slots, count, opened, closed, -⟩ := procResp_fits fits
  exact ⟨after, answered, sound.congr slots count opened closed, slots, count, opened, closed⟩

/-! ## Data -/

theorem length_text_le (slot : Slot) : slot.text.length ≤ tokenSize + 1 := by
  have bound : slot.text.bytes.length ≤
      (slot.token ++ [if slot.connected then 1 else 0, 0]).length - 1 := by
    have nul : (0 : UInt8) ∈ slot.token ++ [if slot.connected then 1 else 0, 0] := by simp
    obtain ⟨text, behind, same, noNul⟩ := List.eq_append_cons_of_mem nul
    rw [Slot.text_bytes, same, cString_nul noNul, List.length_append, List.length_cons]
    omega
  rw [List.length_append, slot.token_length] at bound
  exact bound

/-- The peer is told, and the session is closed. -/
theorem Sound.giveUp (sound : proxy.Sound) (session : (proxy.slots i).isFree = false)
    (ret : Int32) :
    ∃ after, (do
      let proxy ← proxy.procNewsessionResp (proxy.slots i).text ret.toInt env
      let (_, proxy) ← proxy.localSshDestory (proxy.slots i).text
      return proxy) = Except.ok after ∧ after.Sound := by
  have fits := @answerFits_of_short _ env proxy (length_text_le (proxy.slots i)) ret
  obtain ⟨told, answered, soundTold, slots, -⟩ := procResp_sound sound fits
  have nonempty : (told.slots i).text.bytes ≠ [] := by
    rw [slots, ne_eq, Slot.text_eq_nil_iff, session]
    exact Bool.false_ne_true
  obtain ⟨code, after, closed, soundAfter⟩ := soundTold.destory (Or.inl nonempty)
  refine ⟨after, ?_, soundAfter⟩
  rw [procNewsessionResp, answered]
  simp only [bind, Except.bind, closed]
  rfl

theorem networkWrite_sound {data : List UInt8} (sound : proxy.Sound)
    (session : (proxy.slots i).isFree = false) :
    ∃ after, proxy.networkWrite i data data.length = .ok after ∧ after.Sound := by
  have ready := sound.ready i session
  have whole : (0 : Int) ≤ data.length ∧ (data.length : Int) ≤ data.length :=
    ⟨Int.natCast_nonneg _, le_refl _⟩
  unfold networkWrite
  simp only [ready, Bool.not_true, Bool.false_eq_true, if_false, if_pos whole]
  split_ifs
  · exact ⟨_, rfl, sound.congr rfl rfl rfl rfl⟩
  · exact ⟨_, rfl, sound.congr rfl rfl rfl rfl⟩

/-- `connect` has been called for a session without a connection. -/
theorem Sound.connect {handle : Option Nat} {other : Proxy} (sound : proxy.Sound)
    (session : (proxy.slots i).isFree = false) (unheld : proxy.handle i = none)
    (slots : other.slots = Function.update proxy.slots i
      { proxy.slots i with connected := handle.isSome, localSshNetworkStack := ⟨true, handle⟩ })
    (count : other.sgLocalSshCount = proxy.sgLocalSshCount) (closed : other.closed = proxy.closed)
    (opened : ∀ ident, (if handle = some ident then 1 else 0) +
      (if ident < proxy.opened then 1 else 0) = if ident < other.opened then 1 else 0) :
    other.Sound := by
  have terminated := sound.terminated i session
  refine sound.replace i _ slots ?_ (fun _ => terminated) ?_ (fun _ => rfl) rfl ?_ ?_
  · rw [count]
    rfl
  · intro _ j apart same
    have text : (proxy.slots i).text = (proxy.slots j).text := by
      rw [same]
      apply CStr.ext_bytes
      rw [Slot.text_of_terminated terminated, Slot.text_of_terminated]
      exact terminated
    exact apart (sound.distinct i j session text).symm
  · intro isFree
    cases session.symm.trans isFree
  · intro ident
    have moved := opened ident
    rw [closed, unheld]
    show _ + (if handle = some ident then 1 else 0) + _ = _ + 0 + _
    omega

/-- Data come for a session, whose connection is opened first. -/
theorem Sound.send {data : List UInt8} (sound : proxy.Sound)
    (named : token.bytes ≠ [] ∨ proxy.findFree = none) :
    ∃ after, proxy.localSshSend token (some data) data.length env = .ok after ∧ after.Sound := by
  unfold localSshSend
  dsimp only
  cases found : proxy.findSlot token with
  | none => exact ⟨_, rfl, sound⟩
  | some i =>
    have session := session_of_findSlot found named
    have ready := sound.ready i session
    have terminated := sound.terminated i session
    dsimp only
    split_ifs with connected
    · exact networkWrite_sound sound session
    · have unheld : proxy.handle i = none := by
        have := sound.connected i
        rw [← Option.not_isSome_iff_eq_none, ← this]
        exact connected
      simp only [localSshConnect, ready, Bool.not_true, Bool.false_eq_true, if_false]
      cases connects : env.connects with
      | true =>
        apply networkWrite_sound
        · refine @Sound.connect _ i (some proxy.opened) _ sound session unheld ?_ rfl rfl ?_
          · simp only [setSlot, Function.update_self, Function.update_idem, Option.isSome_some]
          · intro ident
            show (if some proxy.opened = some ident then 1 else 0) + _ =
              if ident < proxy.opened + 1 then 1 else 0
            simp only [Option.some.injEq]
            split_ifs <;> omega
        · simp only [setSlot, Function.update_self]
          exact session
      | false =>
        have soundTried : (proxy.setSlot i
            { proxy.slots i with localSshNetworkStack := ⟨true, none⟩ }).Sound := by
          refine @Sound.connect _ i none _ sound session unheld ?_ rfl rfl ?_
          · rw [Bool.not_eq_true] at connected
            simp only [setSlot, connected, Option.isSome_none]
          · intro ident
            exact Nat.zero_add _
        refine soundTried.giveUp ?_ (-1001)
        simp only [setSlot, Function.update_self]
        exact session

/-! ## Runs -/

/-- A message with a token, a read from a local connection that fails, or the end of the thread. -/
inductive Event
  | newSession (token : CStr)
  | releaseSession (token : CStr)
  | rawData (token : CStr) (data : List UInt8)
  | recvFailed (i : Fin localSshCountMax) (code : Int32)
  | deinitAll

def step (proxy : Proxy) : Event × Env → Except Crash Proxy
  | (.newSession token, env) => proxy.procNewsession token env
  | (.releaseSession token, env) => proxy.procReleasesession token env
  | (.rawData token data, env) => proxy.localSshSend token (some data) data.length env
  | (.recvFailed i code, env) => proxy.localSshRecvFailed i code env
  | (.deinitAll, _) => proxy.localSshDeinitAll

def machine : Machine (Except Crash Proxy) (Event × Env) where
  step state event := state.bind fun proxy => proxy.step event

/-- A new session has a token of 1 to 32 bytes that no session has, or it is refused; no other
    message has an empty token, unless no slot is free; and where the table is cleared no session
    behind the first has a connection. The answers to tokens of any length fit. -/
def Keeps (proxy : Proxy) : Event × Env → Prop
  | (.newSession token, env) =>
    (token.bytes ≠ [] ∧ token.length < tokenSize ∧ proxy.findSlot token = none) ∨
      ((proxy.findFree = none ∨ env.initialized = false) ∧
        (proxy.localSshCreate token env).2.AnswerFits token newSessionResp qcloudErrFailure env)
  | (.releaseSession token, env) =>
    (token.bytes ≠ [] ∨ proxy.findFree = none) ∧
      proxy.AnswerFits token releaseSessionResp qcloudRetSuccess env
  | (.rawData token _, _) => token.bytes ≠ [] ∨ proxy.findFree = none
  | (.recvFailed _ _, _) => True
  | (.deinitAll, _) =>
    ∀ i j, i < j → (proxy.slots i).isFree = false → (proxy.slots j).connected = false

def KeepsIn : Except Crash Proxy → Event × Env → Prop
  | .ok proxy, event => proxy.Keeps event
  | .error _, _ => False

/-- A session that is to be opened. -/
theorem Sound.newsession (sound : proxy.Sound) (keeps : proxy.Keeps (.newSession token, env)) :
    ∃ after, proxy.procNewsession token env = .ok after ∧ after.Sound := by
  have fits (ret : Int32) (short : token.length < tokenSize) (created : Proxy) :=
    @answerFits_of_short token env created (by omega) ret
  rw [procNewsession]
  rcases keeps with ⟨nonempty, short, new⟩ | ⟨refused, answer⟩
  · have soundCreated := @Sound.create _ _ env sound nonempty short new
    generalize proxy.localSshCreate token env = created at soundCreated ⊢
    dsimp only
    split_ifs
    · obtain ⟨after, answered, soundAfter, -⟩ := procResp_sound soundCreated (fits 0 short _)
      exact ⟨after, answered, soundAfter⟩
    · obtain ⟨after, answered, soundAfter, -⟩ := procResp_sound soundCreated (fits (-1001) short _)
      exact ⟨after, answered, soundAfter⟩
  · have soundCreated := @Sound.create_refused _ token _ sound refused
    have failed : (proxy.localSshCreate token env).1 = qcloudErrFailure := by
      unfold localSshCreate
      cases room : proxy.findFree with
      | none => rfl
      | some i =>
        have off : env.initialized = false := refused.resolve_left (by simp [room])
        simp only [off, Bool.false_eq_true, if_false]
    generalize proxy.localSshCreate token env = created at soundCreated failed answer ⊢
    dsimp only
    rw [if_neg (by rw [failed]; decide)]
    obtain ⟨after, answered, soundAfter, -⟩ := procResp_sound soundCreated answer
    exact ⟨after, answered, soundAfter⟩

theorem Sound.releasesession (sound : proxy.Sound)
    (keeps : proxy.Keeps (.releaseSession token, env)) :
    ∃ after, proxy.procReleasesession token env = .ok after ∧ after.Sound := by
  obtain ⟨named, answer⟩ := keeps
  obtain ⟨told, answered, soundTold, slots, -⟩ := procResp_sound sound answer
  have namedTold : token.bytes ≠ [] ∨ told.findFree = none := by
    rw [findFree, slots]
    exact named
  obtain ⟨code, after, closed, soundAfter⟩ := soundTold.destory namedTold
  refine ⟨after, ?_, soundAfter⟩
  rw [procReleasesession, procReleasesessionResp, answered]
  simp only [bind, Except.bind, closed]
  rfl

/-- A step keeps the invariant. -/
theorem Sound.step (sound : proxy.Sound) {event : Event × Env} (keeps : proxy.Keeps event) :
    ∃ after, proxy.step event = .ok after ∧ after.Sound := by
  obtain ⟨event, env⟩ := event
  cases event with
  | newSession token => exact sound.newsession keeps
  | releaseSession token => exact sound.releasesession keeps
  | rawData token data => exact sound.send keeps
  | recvFailed i code =>
    show ∃ after, proxy.localSshRecvFailed i code env = .ok after ∧ after.Sound
    unfold localSshRecvFailed
    split_ifs with idle
    · exact ⟨proxy, rfl, sound⟩
    · rw [not_or, Bool.not_eq_true] at idle
      exact sound.giveUp idle.1 code
  | deinitAll => exact sound.deinitAll keeps

/-- A token without a session is released and nothing has changed. -/
theorem Sound.release_unknown (sound : proxy.Sound)
    (keeps : proxy.Keeps (.releaseSession token, env))
    (unknown : ∀ i, (proxy.slots i).isFree = false → (proxy.slots i).text ≠ token) :
    ∃ after, proxy.step (.releaseSession token, env) = .ok after ∧ after.slots = proxy.slots ∧
      after.sgLocalSshCount = proxy.sgLocalSshCount ∧ after.opened = proxy.opened ∧
      after.closed = proxy.closed := by
  obtain ⟨named, answer⟩ := keeps
  obtain ⟨told, answered, -, slots, count, opened, closed⟩ := procResp_sound sound answer
  have missing : told.findSlot token = none := by
    cases found : told.findSlot token with
    | none => rfl
    | some i =>
      rw [findSlot, slots] at found
      exact absurd (text_of_findSlot found) (unknown i (session_of_findSlot found named))
  refine ⟨told, ?_, slots, count, opened, closed⟩
  show proxy.procReleasesession token env = _
  rw [procReleasesession, procReleasesessionResp, answered]
  simp only [bind, Except.bind, localSshDestory, missing]
  rfl

/-- In every run that keeps the table, the counter counts the sessions, their tokens differ and
    have a NUL, a release without a session changes nothing, and every connection is either held by
    one session or has been closed once. -/
theorem sessions_keep (events : List (Event × Env))
    (keeps : machine.Guarded KeepsIn (.ok start) events) :
    ∃ proxy, machine.exec (.ok start) events = .ok proxy ∧
      proxy.sgLocalSshCount - 1 = proxy.occupied.card ∧
      (∀ i, (proxy.slots i).isFree = false → 0 ∈ (proxy.slots i).token) ∧
      (∀ i j, (proxy.slots i).isFree = false → (proxy.slots j).isFree = false →
        (proxy.slots i).text = (proxy.slots j).text → i = j) ∧
      (∀ token env, proxy.Keeps (.releaseSession token, env) →
        (∀ i, (proxy.slots i).isFree = false → (proxy.slots i).text ≠ token) →
        ∃ after, proxy.step (.releaseSession token, env) = .ok after ∧ after.slots = proxy.slots ∧
          after.sgLocalSshCount = proxy.sgLocalSshCount ∧ after.opened = proxy.opened ∧
          after.closed = proxy.closed) ∧
      (∀ i, (proxy.slots i).isFree = true → proxy.handle i = none) ∧
      ∀ ident < proxy.opened, proxy.closed.count ident + (proxy.holders ident).card = 1 := by
  have invariant : ∃ proxy, machine.exec (.ok start) events = .ok proxy ∧ proxy.Sound := by
    refine Machine.Guarded.invariant (I := fun state => ∃ proxy, state = .ok proxy ∧ proxy.Sound)
      ⟨start, rfl, start_sound⟩ ?_ keeps
    rintro state event kept ⟨proxy, rfl, sound⟩
    exact sound.step kept
  obtain ⟨proxy, reached, sound⟩ := invariant
  refine ⟨proxy, reached, sound.counted, sound.terminated, ?_, ?_, sound.free, ?_⟩
  · exact fun i j session _ => sound.distinct i j session
  · exact fun token env kept unknown => sound.release_unknown kept unknown
  · intro ident before
    rw [sound.ledger ident, if_pos before]

/-- The world during a call in which all goes well. -/
def allWell : Env := ⟨true, true, true, true, true, true, 0⟩

theorem sessions_keep_one :
    let events : List (Event × Env) := [(.newSession ⟨[97], by decide⟩, allWell)]
    ∃ proxy, machine.exec (.ok start) events = .ok proxy ∧
      proxy.sgLocalSshCount - 1 = proxy.occupied.card := by
  intro events
  have keeps : machine.Guarded KeepsIn (.ok start) events :=
    ⟨Or.inl ⟨by decide, by decide, by decide +kernel⟩, trivial⟩
  obtain ⟨proxy, reached, counted, -⟩ := sessions_keep events keeps
  exact ⟨proxy, reached, counted⟩

/-- An empty token is counted and takes no slot, and the second of two connections is not closed
    when the table is cleared. -/
theorem emptyToken_counted :
    (machine.exec (.ok start) [(.newSession ⟨[], by decide⟩, allWell)]).map
        (fun proxy => (proxy.sgLocalSshCount - 1, proxy.occupied.card)) = .ok (1, 0) ∧
      (machine.exec (.ok start) [(.newSession ⟨[97], by decide⟩, allWell),
        (.newSession ⟨[98], by decide⟩, allWell), (.rawData ⟨[97], by decide⟩ [1], allWell),
        (.rawData ⟨[98], by decide⟩ [1], allWell), (.deinitAll, allWell)]).map
        (fun proxy => (proxy.opened, proxy.closed, proxy.occupied.card)) = .ok (2, [0], 0) := by
  constructor
  · decide +kernel
  · decide +kernel

end Proxy

end QcloudIot.Ssh
