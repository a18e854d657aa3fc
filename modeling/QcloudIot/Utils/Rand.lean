import QcloudIot.Misc.Schrage

/-!
# The generator of nonces

`qcloud_rand_r` of `qcloud_iot_http.c` and `rand_r` of `dynreg.c`. An `int32_t` is an integer; a
signed expression that leaves its range has no value.
-/

namespace QcloudIot.Utils.Rand

/-- The value of a signed expression. -/
def int32 (n : Int) : Option Int := if -2 ^ 31 ≤ n ∧ n < 2 ^ 31 then some n else none

/-- `X += M`, where `M` is unsigned. -/
def addUnsigned (x : Int) (m : Nat) : Int := (BitVec.ofInt 32 x + BitVec.ofNat 32 m).toInt

/-- The generator with its modulus, its multiplier, and their quotient and remainder: what is
    returned, and the seed then. -/
def randStep (m : Nat) (a q r : Int) (seed : BitVec 32) : Option (Int × BitVec 32) := do
  let x := seed.toInt
  let rest ← int32 (x.tmod q)
  let low ← int32 (a * rest)
  let quotient ← int32 (x.tdiv q)
  let high ← int32 (r * quotient)
  let x ← int32 (low - high)
  let x := if x < 0 then addUnsigned x m else x
  return (x, BitVec.ofInt 32 x)

/-- `qcloud_rand_r` (`qcloud_iot_http.c:37-57`). -/
def qcloudRandR (seed : BitVec 32) : Option (Int × BitVec 32) :=
  randStep (2 ^ 31 - 1) 48271 44488 3399 seed

/-- `rand_r` (`dynreg.c:54-88`). -/
def randR (seed : BitVec 32) : Option (Int × BitVec 32) :=
  randStep (2 ^ 31 - 1) 48271 44488 3399 seed

/-- What a number of calls return, one after the other. -/
def randSequence (step : BitVec 32 → Option (Int × BitVec 32)) :
    Nat → BitVec 32 → Option (List Int)
  | 0, _ => some []
  | n + 1, seed => do
    let (x, seed) ← step seed
    let later ← randSequence step n seed
    return x :: later

end QcloudIot.Utils.Rand
