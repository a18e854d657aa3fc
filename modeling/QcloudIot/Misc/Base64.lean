import Mathlib

/-!
# Base64

The standard encoding: every group of three bytes is a number of 24 bits, written with four digits
of six bits each. A shorter last group is filled up with zero bits, and its text with pads.
-/

namespace QcloudIot.Base64

/-- The digit of a value below 64. -/
def digit (value : Nat) : UInt8 :=
  if value < 26 then UInt8.ofNat (65 + value)
  else if value < 52 then UInt8.ofNat (97 + (value - 26))
  else if value < 62 then UInt8.ofNat (48 + (value - 52))
  else if value = 62 then 43
  else 47

/-- `=` -/
def pad : UInt8 := 61

/-- The text of some bytes. -/
def encode : List UInt8 → List UInt8
  | a :: b :: c :: rest =>
    let group := a.toNat * 65536 + b.toNat * 256 + c.toNat
    digit (group / 262144) :: digit (group / 4096 % 64) :: digit (group / 64 % 64) ::
      digit (group % 64) :: encode rest
  | [a, b] =>
    let group := (a.toNat * 256 + b.toNat) * 4
    [digit (group / 4096), digit (group / 64 % 64), digit (group % 64), pad]
  | [a] =>
    let group := a.toNat * 16
    [digit (group / 64), digit (group % 64), pad, pad]
  | [] => []

/-- The number of pads behind the text of `n` bytes. -/
def padding (n : Nat) : Nat := (3 - n % 3) % 3

theorem length_encode (bytes : List UInt8) :
    (encode bytes).length = 4 * ((bytes.length + 2) / 3) := by
  induction bytes using encode.induct with
  | case1 a b c rest ih =>
    rw [encode]
    simp only [List.length_cons, ih]
    omega
  | case2 a b => simp only [encode, List.length_cons, List.length_nil, Nat.reduceAdd, Nat.reduceDiv]
  | case3 a => simp only [encode, List.length_cons, List.length_nil, Nat.reduceAdd, Nat.reduceDiv]
  | case4 => simp only [encode, List.length_nil, Nat.reduceAdd, Nat.reduceDiv]

example : encode [77, 97, 110, 77, 97] = [84, 87, 70, 117, 84, 87, 69, 61] := by decide

end QcloudIot.Base64
