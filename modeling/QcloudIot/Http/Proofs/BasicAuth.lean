import QcloudIot.Http.Request
import QcloudIot.Utils.Proofs.Base64

/-!
# Basic authentication

`_http_client_base64enc` collects signed characters. One with its highest bit set puts ones in
front of itself, over the bits of the characters before it that have not been written yet; where
these are ones already, the text is the standard one.
-/

namespace QcloudIot.Http

open Mqtt (CStr)
open Base64 (digit encode)

/-! ## Signed characters -/

/-- Bits that are pending when the character `next` comes in. -/
def pending (next : UInt8) (ones bits : Nat) : Nat := if 128 ≤ next.toNat then ones else bits

/-- The text that `_http_client_base64enc` makes. -/
def signedEncode : List UInt8 → List UInt8
  | a :: b :: c :: rest =>
    digit (a.toNat / 4) :: digit (pending b 3 (a.toNat % 4) * 16 + b.toNat / 16) ::
      digit (pending c 15 (b.toNat % 16) * 4 + c.toNat / 64) :: digit (c.toNat % 64) ::
      signedEncode rest
  | [a, b] =>
    [digit (a.toNat / 4), digit (pending b 3 (a.toNat % 4) * 16 + b.toNat / 16),
      digit (b.toNat % 16 * 4), 61]
  | [a] => [digit (a.toNat / 4), digit (a.toNat % 4 * 16), 61, 61]
  | [] => []

theorem codeOf_eq (value : BitVec 32) : codeOf value = digit (value.toNat % 64) := by
  have table : ∀ v < 64, base64Code.getD v 0 = digit v := by decide
  have masked : (value &&& 0x3f#32).toNat = value.toNat % 64 := by
    rw [BitVec.toNat_and]
    exact Nat.and_two_pow_sub_one_eq_mod value.toNat 6
  rw [codeOf, masked]
  exact table _ (Nat.mod_lt _ (by decide))

/-- The sign of `x` does not reach the six bits that are taken. -/
theorem codeOf_sshiftRight (x : BitVec 32) {shift : Nat} (small : shift ≤ 6) :
    codeOf (x.sshiftRight shift) = digit (x.toNat / 2 ^ shift % 64) := by
  rw [codeOf_eq]
  refine congrArg digit ?_
  have bound := x.isLt
  rw [BitVec.toNat_sshiftRight]
  simp only [Nat.shiftRight_eq_div_pow]
  split
  · interval_cases shift <;> omega
  · rfl

/-- The twelve low bits of `x` behind another character. -/
theorem shiftIn_low (x : BitVec 32) (c : UInt8) :
    (x <<< 8 ||| c.toBitVec.signExtend 32).toNat % 4096 =
      pending c 15 (x.toNat % 16) * 256 + c.toNat := by
  have table : ∀ k < 16, ∀ b : BitVec 8, (k * 256) ||| ((b.signExtend 32).toNat % 4096) =
      (if 128 ≤ b.toNat then 15 else k) * 256 + b.toNat := by
    with_unfolding_all decide
  have shifted : (x <<< 8).toNat % 2 ^ 12 = x.toNat % 16 * 256 := by
    rw [BitVec.toNat_shiftLeft, Nat.shiftLeft_eq]
    omega
  have low := table (x.toNat % 16) (Nat.mod_lt _ (by decide)) c.toBitVec
  rw [BitVec.toNat_or]
  change _ % 2 ^ 12 = _
  rw [Nat.or_mod_two_pow, shifted]
  exact low

theorem digitLoop_eight (x : BitVec 32) :
    digitLoop x 8 8 = ([digit (x.toNat / 4 % 64)], 2) := by
  rw [digitLoop, if_pos (by decide), digitLoop, if_neg (by decide)]
  dsimp only
  rw [codeOf_sshiftRight x (by decide)]
  rfl

theorem digitLoop_ten (x : BitVec 32) :
    digitLoop x 10 10 = ([digit (x.toNat / 16 % 64)], 4) := by
  rw [digitLoop, if_pos (by decide), digitLoop, if_neg (by decide)]
  dsimp only
  rw [codeOf_sshiftRight x (by decide)]
  rfl

theorem digitLoop_twelve (x : BitVec 32) :
    digitLoop x 12 12 = ([digit (x.toNat / 64 % 64), digit (x.toNat % 64)], 0) := by
  rw [digitLoop, if_pos (by decide), digitLoop, if_pos (by decide), digitLoop, if_neg (by decide)]
  dsimp only
  rw [codeOf_sshiftRight x (by decide), codeOf_sshiftRight x (by decide)]
  simp only [Nat.reducePow, Nat.reduceSub, Nat.div_one]

/-- The bits that are left of a byte, as they reach the next digit. -/
theorem pending_low (c : UInt8) (bits : Nat) :
    pending c 15 (bits % 16) % 4 = pending c 3 (bits % 4) := by
  rw [pending, pending]
  split <;> omega

theorem pending_small (c : UInt8) (bits : Nat) : pending c 15 (bits % 16) < 16 := by
  rw [pending]
  split <;> omega

/-- A group of three characters leaves nothing pending. -/
theorem charLoop_group (a b c : UInt8) (rest : List UInt8) (x : BitVec 32) :
    ∃ x', charLoop (a :: b :: c :: rest) x 0 =
      ([digit (a.toNat / 4), digit (pending b 3 (a.toNat % 4) * 16 + b.toNat / 16),
        digit (pending c 15 (b.toNat % 16) * 4 + c.toNat / 64), digit (c.toNat % 64)] ++
          (charLoop rest x' 0).1, (charLoop rest x' 0).2) := by
  have aSmall := a.toNat_lt
  have bSmall := b.toNat_lt
  have cSmall := c.toNat_lt
  have low₁ := shiftIn_low x a
  have low₂ := shiftIn_low (x <<< 8 ||| a.toBitVec.signExtend 32) b
  have low₃ := shiftIn_low ((x <<< 8 ||| a.toBitVec.signExtend 32) <<< 8 |||
    b.toBitVec.signExtend 32) c
  refine ⟨((x <<< 8 ||| a.toBitVec.signExtend 32) <<< 8 ||| b.toBitVec.signExtend 32) <<< 8 |||
    c.toBitVec.signExtend 32, ?_⟩
  simp only [charLoop, Nat.zero_add, Nat.reduceAdd, digitLoop_eight, digitLoop_ten, digitLoop_twelve]
  generalize x <<< 8 ||| a.toBitVec.signExtend 32 = x₁ at low₁ low₂ low₃ ⊢
  generalize x₁ <<< 8 ||| b.toBitVec.signExtend 32 = x₂ at low₂ low₃ ⊢
  generalize x₂ <<< 8 ||| c.toBitVec.signExtend 32 = x₃ at low₃ ⊢
  have small₁ := pending_small a x.toNat
  have small₂ := pending_small b x₁.toNat
  have small₃ := pending_small c x₂.toNat
  have first : x₁.toNat / 4 % 64 = a.toNat / 4 := by omega
  have second : x₂.toNat / 16 % 64 = pending b 3 (a.toNat % 4) * 16 + b.toNat / 16 := by
    have low := pending_low b x₁.toNat
    rw [show x₁.toNat % 4 = a.toNat % 4 by omega] at low
    omega
  have third : x₃.toNat / 64 % 64 = pending c 15 (b.toNat % 16) * 4 + c.toNat / 64 := by
    rw [show x₂.toNat % 16 = b.toNat % 16 by omega] at low₃ small₃
    omega
  have fourth : x₃.toNat % 64 = c.toNat % 64 := by omega
  rw [first, second, third, fourth]
  rfl

/-- Two characters leave four bits pending. -/
theorem charLoop_two (a b : UInt8) (x : BitVec 32) :
    ∃ x', charLoop [a, b] x 0 =
      ([digit (a.toNat / 4), digit (pending b 3 (a.toNat % 4) * 16 + b.toNat / 16)], x', 4) ∧
        codeOf (x' <<< 2) = digit (b.toNat % 16 * 4) := by
  have aSmall := a.toNat_lt
  have bSmall := b.toNat_lt
  have low₁ := shiftIn_low x a
  have low₂ := shiftIn_low (x <<< 8 ||| a.toBitVec.signExtend 32) b
  refine ⟨(x <<< 8 ||| a.toBitVec.signExtend 32) <<< 8 ||| b.toBitVec.signExtend 32, ?_⟩
  simp only [charLoop, Nat.zero_add, Nat.reduceAdd, digitLoop_eight, digitLoop_ten]
  generalize x <<< 8 ||| a.toBitVec.signExtend 32 = x₁ at low₁ low₂ ⊢
  generalize x₁ <<< 8 ||| b.toBitVec.signExtend 32 = x₂ at low₂ ⊢
  have small₁ := pending_small a x.toNat
  have small₂ := pending_small b x₁.toNat
  have first : x₁.toNat / 4 % 64 = a.toNat / 4 := by omega
  have second : x₂.toNat / 16 % 64 = pending b 3 (a.toNat % 4) * 16 + b.toNat / 16 := by
    have low := pending_low b x₁.toNat
    rw [show x₁.toNat % 4 = a.toNat % 4 by omega] at low
    omega
  have last : (x₂ <<< 2).toNat % 64 = b.toNat % 16 * 4 := by
    rw [BitVec.toNat_shiftLeft, Nat.shiftLeft_eq]
    omega
  rw [first, second, codeOf_eq, last]
  exact ⟨rfl, rfl⟩

/-- One character leaves two bits pending. -/
theorem charLoop_one (a : UInt8) (x : BitVec 32) :
    ∃ x', charLoop [a] x 0 = ([digit (a.toNat / 4)], x', 2) ∧
      codeOf (x' <<< 4) = digit (a.toNat % 4 * 16) := by
  have aSmall := a.toNat_lt
  have low := shiftIn_low x a
  refine ⟨x <<< 8 ||| a.toBitVec.signExtend 32, ?_⟩
  simp only [charLoop, Nat.zero_add, digitLoop_eight]
  generalize x <<< 8 ||| a.toBitVec.signExtend 32 = x₁ at low ⊢
  have small := pending_small a x.toNat
  have first : x₁.toNat / 4 % 64 = a.toNat / 4 := by omega
  have last : (x₁ <<< 4).toNat % 64 = a.toNat % 4 * 16 := by
    rw [BitVec.toNat_shiftLeft, Nat.shiftLeft_eq]
    omega
  rw [first, codeOf_eq, last]
  exact ⟨rfl, rfl⟩

/-- The digits come behind what has been written. Induction on groups of three bytes; the bits left
    over from the group before do not matter. -/
theorem charLoop_signedEncode (input : List UInt8) :
    ∀ x : BitVec 32, ∀ out : List UInt8, out.length % 4 = 0 →
      (let (digits, x, l) := charLoop input x 0
        let out := out ++ digits
        let out := if l > 0 then out ++ [codeOf (x <<< (6 - l))] else out
        out ++ List.replicate ((4 - out.length % 4) % 4) 61) = out ++ signedEncode input := by
  induction input using signedEncode.induct with
  | case1 a b c rest ih =>
    intro x out whole
    obtain ⟨x', group⟩ := charLoop_group a b c rest x
    rw [group, signedEncode]
    have later := ih x' (out ++ [digit (a.toNat / 4),
      digit (pending b 3 (a.toNat % 4) * 16 + b.toNat / 16),
      digit (pending c 15 (b.toNat % 16) * 4 + c.toNat / 64), digit (c.toNat % 64)])
      (by rw [List.length_append]; simp only [List.length_cons, List.length_nil]; omega)
    simp only [List.append_assoc] at later ⊢
    exact later
  | case2 a b =>
    intro x out whole
    obtain ⟨x', two, last⟩ := charLoop_two a b x
    rw [two, signedEncode]
    dsimp only
    rw [if_pos (by decide), last]
    simp only [List.append_assoc, List.cons_append, List.nil_append, List.length_append,
      List.length_cons, List.length_nil]
    rw [show (4 - (out.length + (0 + 1 + 1 + 1)) % 4) % 4 = 1 by omega]
    rfl
  | case3 a =>
    intro x out whole
    obtain ⟨x', one, last⟩ := charLoop_one a x
    rw [one, signedEncode]
    dsimp only
    rw [if_pos (by decide), last]
    simp only [List.append_assoc, List.cons_append, List.nil_append, List.length_append,
      List.length_cons, List.length_nil]
    rw [show (4 - (out.length + (0 + 1 + 1)) % 4) % 4 = 2 by omega]
    rfl
  | case4 =>
    intro x out whole
    rw [charLoop, signedEncode]
    dsimp only
    rw [if_neg (by decide), List.append_nil, whole]
    exact List.append_nil out

/-- The code computes the text of signed characters. -/
theorem httpClientBase64enc_eq (input : List UInt8) :
    httpClientBase64enc input = signedEncode input :=
  charLoop_signedEncode input 0 [] rfl

/-! ## When the text is the standard one -/

/-- No character with its highest bit set comes while other bits than ones are pending. -/
def Untouched : List UInt8 → Prop
  | a :: b :: c :: rest =>
    (128 ≤ b.toNat → a.toNat % 4 = 3) ∧ (128 ≤ c.toNat → b.toNat % 16 = 15) ∧ Untouched rest
  | [a, b] => 128 ≤ b.toNat → a.toNat % 4 = 3
  | _ => True

theorem digit_inj {u v : Nat} (uSmall : u < 64) (vSmall : v < 64) : digit u = digit v ↔ u = v := by
  have table : ∀ u < 64, ∀ v < 64, digit u = digit v → u = v := by with_unfolding_all decide
  exact ⟨table u uSmall v vSmall, congrArg digit⟩

theorem pending_iff (next : UInt8) (ones bits : Nat) :
    pending next ones bits = bits ↔ (128 ≤ next.toNat → bits = ones) := by
  rw [pending]
  by_cases high : 128 ≤ next.toNat
  · rw [if_pos high]
    exact ⟨fun same _ => same.symm, fun same => (same high).symm⟩
  · rw [if_neg high]
    exact ⟨fun _ isHigh => absurd isHigh high, fun _ => rfl⟩

/-- A digit with pending bits is the standard one exactly where these are ones anyway. -/
theorem digit_pending_iff (next : UInt8) {ones bits low width : Nat}
    (room : (ones + 1) * width = 64) (onesSmall : bits ≤ ones) (lowSmall : low < width) :
    digit (pending next ones bits * width + low) = digit (bits * width + low) ↔
      (128 ≤ next.toNat → bits = ones) := by
  have positive : 0 < width := by omega
  have pendingSmall : pending next ones bits ≤ ones := by
    rw [pending]
    split <;> omega
  have below : ∀ k ≤ ones, k * width + low < 64 := by
    intro k small
    have step : k * width + width ≤ (ones + 1) * width := by
      rw [← Nat.succ_mul]
      exact Nat.mul_le_mul_right width (Nat.succ_le_succ small)
    omega
  rw [digit_inj (below _ pendingSmall) (below _ onesSmall), ← pending_iff, Nat.add_right_cancel_iff]
  exact ⟨Nat.eq_of_mul_eq_mul_right positive, congrArg (· * width)⟩

/-- The text of signed characters is the standard one exactly where no pending bits are touched. -/
theorem signedEncode_iff (input : List UInt8) : signedEncode input = encode input ↔
    Untouched input := by
  induction input using signedEncode.induct with
  | case1 a b c rest ih =>
    have aSmall := a.toNat_lt
    have bSmall := b.toNat_lt
    have cSmall := c.toNat_lt
    have second := @digit_pending_iff b 3 (a.toNat % 4) (b.toNat / 16) 16 rfl (by omega) (by omega)
    have third := @digit_pending_iff c 15 (b.toNat % 16) (c.toNat / 64) 4 rfl (by omega) (by omega)
    rw [signedEncode, encode, Untouched, ← ih, ← second, ← third]
    rw [show (a.toNat * 65536 + b.toNat * 256 + c.toNat) / 262144 = a.toNat / 4 by omega,
      show (a.toNat * 65536 + b.toNat * 256 + c.toNat) / 4096 % 64 =
        a.toNat % 4 * 16 + b.toNat / 16 by omega,
      show (a.toNat * 65536 + b.toNat * 256 + c.toNat) / 64 % 64 =
        b.toNat % 16 * 4 + c.toNat / 64 by omega,
      show (a.toNat * 65536 + b.toNat * 256 + c.toNat) % 64 = c.toNat % 64 by omega]
    simp only [List.cons.injEq, true_and]
  | case2 a b =>
    have aSmall := a.toNat_lt
    have bSmall := b.toNat_lt
    have second := @digit_pending_iff b 3 (a.toNat % 4) (b.toNat / 16) 16 rfl (by omega) (by omega)
    rw [signedEncode, encode, Untouched, ← second]
    rw [show (a.toNat * 256 + b.toNat) * 4 / 4096 = a.toNat / 4 by omega,
      show (a.toNat * 256 + b.toNat) * 4 / 64 % 64 = a.toNat % 4 * 16 + b.toNat / 16 by omega,
      show (a.toNat * 256 + b.toNat) * 4 % 64 = b.toNat % 16 * 4 by omega]
    simp only [List.cons.injEq, true_and, and_true, Base64.pad]
  | case3 a =>
    have aSmall := a.toNat_lt
    rw [signedEncode, encode, show a.toNat * 16 / 64 = a.toNat / 4 by omega,
      show a.toNat * 16 % 64 = a.toNat % 4 * 16 by omega]
    exact iff_of_true rfl trivial
  | case4 => exact iff_of_true rfl trivial

theorem length_signedEncode (input : List UInt8) :
    (signedEncode input).length = 4 * ((input.length + 2) / 3) := by
  induction input using signedEncode.induct with
  | case1 a b c rest ih =>
    rw [signedEncode]
    simp only [List.length_cons, ih]
    omega
  | case2 a b =>
    simp only [signedEncode, List.length_cons, List.length_nil, Nat.reduceAdd, Nat.reduceDiv]
  | case3 a =>
    simp only [signedEncode, List.length_cons, List.length_nil, Nat.reduceAdd, Nat.reduceDiv]
  | case4 => simp only [signedEncode, List.length_nil, Nat.reduceAdd, Nat.reduceDiv]

/-! ## Sending the credentials -/

/-- `_http_client_send_auth` stays inside its arrays, and sends the standard text of the first 130
    bytes of the user name, a colon and the password. -/
structure AuthSound (user password : Option CStr) : Prop where
  base64buff : (userPassword user password).length + 1 ≤ httpClientAuthbSize + 3
  bAuth : bAuthExtent user password ≤ bAuthSize
  text : Http.bAuth user password = encode ((credentials user password).take 130)

/-- Both encoders of the SDK make the same text. -/
def EncodersAgree (input : List UInt8) : Prop :=
  ∀ size dlen, let coded := Base64.qcloudIotUtilsBase64encode size (some dlen) input
    coded.rc = 0 → coded.written.take (coded.olen.getD 0) = httpClientBase64enc input

theorem authSound_iff (user password : Option CStr) : AuthSound user password ↔
    (credentials user password).length ≤ 129 ∧
      Untouched (credentials user password) := by
  have isText : userPassword user password =
      (credentials user password).take 130 := rfl
  have size : bAuthSize = 175 := rfl
  have authb : httpClientAuthbSize = 128 := rfl
  have length : bAuthExtent user password =
      4 * ((((credentials user password).take 130).length + 2) / 3) + 2 := by
    rw [bAuthExtent, bAuth, httpClientBase64enc_eq, length_signedEncode, isText]
  have same : bAuth user password = encode ((credentials user password).take 130) ↔
      Untouched ((credentials user password).take 130) := by
    rw [bAuth, httpClientBase64enc_eq, isText, signedEncode_iff]
  rw [List.length_take] at length
  constructor
  · intro sound
    have room := sound.bAuth
    have short : (credentials user password).length ≤ 129 := by
      by_contra long
      rw [length, Nat.min_eq_left (by omega), size] at room
      omega
    refine ⟨short, ?_⟩
    have untouched := same.mp sound.text
    rwa [List.take_of_length_le (by omega)] at untouched
  · rintro ⟨short, untouched⟩
    refine ⟨?_, ?_, same.mpr ?_⟩
    · rw [isText, List.length_take, authb]
      omega
    · rw [length, Nat.min_eq_right (by omega), size]
      omega
    · rwa [List.take_of_length_le (by omega)]

theorem encodersAgree_iff (input : List UInt8) : EncodersAgree input ↔ Untouched input := by
  rw [← signedEncode_iff, EncodersAgree, httpClientBase64enc_eq]
  constructor
  · intro agree
    by_cases empty : input = []
    · rw [empty]
      rfl
    have encodes : Base64.SizeT.Encodes ⟨input.length + 16, by omega⟩ input.length := by
      have large := @Nat.lt_two_pow_self input.length
      rw [Base64.SizeT.Encodes, Base64.SizeT.count, pow_add]
      have much : 2 ^ input.length * 65536 = 65536 * 2 ^ input.length := Nat.mul_comm _ _
      omega
    have coded := agree ⟨input.length + 16, by omega⟩ ((encode input).length + 1)
    rw [Base64.encode_fits empty encodes (Nat.le_refl _)] at coded
    have isText := coded rfl
    rw [Option.getD_some, List.take_left] at isText
    exact isText.symm
  · intro same size dlen coded success
    rcases Base64.encode_success success with empty | ⟨encodes, room⟩
    · subst empty
      rfl
    · by_cases empty : input = []
      · subst empty
        rfl
      have isCoded : coded = _ := Base64.encode_fits empty encodes room
      rw [isCoded]
      dsimp only
      rw [Option.getD_some, List.take_left, same]

/-- Credentials are sent correctly exactly where they are at most 129 bytes long and no pending bits
    are touched; and the encoders agree exactly on the texts in which none are touched. -/
theorem basicAuth_iff (user password : Option CStr) (input : CStr) :
    (AuthSound user password ↔
      (credentials user password).length ≤ 129 ∧
        Untouched (credentials user password)) ∧
      (EncodersAgree input.bytes ↔ Untouched input.bytes) :=
  ⟨authSound_iff user password, encodersAgree_iff input.bytes⟩

/-- The text of `a:ä`, in which the colon is destroyed, and of 130 bytes, which is longer than
    `b_auth`. -/
theorem basicAuth_fails :
    ¬ AuthSound (some ⟨[97], by decide⟩) (some ⟨[195, 164], by decide⟩) ∧
      ¬ AuthSound (some ⟨List.replicate 128 97, by simp⟩) (some ⟨[98], by decide⟩) ∧
      ¬ EncodersAgree [97, 58, 195, 164] := by
  refine ⟨fun sound => ?_, fun sound => ?_, fun agree => ?_⟩
  · obtain ⟨-, untouched⟩ := (authSound_iff _ _).mp sound
    exact absurd (untouched.2.1 (by decide)) (by decide)
  · have short := ((authSound_iff _ _).mp sound).1
    simp only [credentials, printed, List.length_append, List.length_replicate, List.length_cons,
      List.length_nil] at short
    omega
  · have untouched := (encodersAgree_iff _).mp agree
    exact absurd (untouched.2.1 (by decide)) (by decide)

end QcloudIot.Http
