import QcloudIot.Json.Token

/-!
# A value that cannot be allocated

Whether the string that `LITE_json_value_of` returns is allocated changes nothing of the search.
-/

namespace QcloudIot.Json

open Mqtt (CStr)

/-- The search is the same, and nothing is returned. -/
theorem valueOfFrom_unallocated (keyIter : List UInt8) (keyNext : List UInt8) (src : CStr)
    (valueLen : Int) :
    valueOfFrom false keyNext keyIter src valueLen =
      (valueOfFrom true keyNext keyIter src valueLen).map fun _ => none := by
  induction keyIter generalizing keyNext src valueLen with
  | nil =>
    simp only [valueOfFrom, bind, Except.bind, pure, Except.pure]
    cases jsonGetValueByName src keyNext false with
    | error fault => rfl
    | ok out =>
      obtain ⟨place, rest⟩ := out
      cases place <;> rfl
  | cons b keyIter ih =>
    rw [valueOfFrom, valueOfFrom]
    by_cases dot : b = Json.dot
    · simp only [if_pos dot, bind, Except.bind, pure, Except.pure]
      cases jsonGetValueByName src keyNext false with
      | error fault => rfl
      | ok out =>
        obtain ⟨place, rest⟩ := out
        cases place with
        | none => rfl
        | some place => exact ih _ _ _
    · rw [if_neg dot, if_neg dot]
      exact ih _ _ _

theorem liteJsonValueOf_unallocated (key src : CStr) :
    liteJsonValueOf key src false = (liteJsonValueOf key src true).map fun _ => none :=
  valueOfFrom_unallocated _ _ _ _

/-- What is returned is what is found. -/
theorem liteJsonValueOf_allocated {key src : CStr} {allocated : Bool} {value : List UInt8}
    (found : liteJsonValueOf key src allocated = .ok (some value)) :
    liteJsonValueOf key src true = .ok (some value) := by
  cases allocated with
  | true => exact found
  | false =>
    rw [liteJsonValueOf_unallocated] at found
    cases looked : liteJsonValueOf key src true with
    | error fault =>
      rw [looked] at found
      cases found
    | ok out =>
      rw [looked] at found
      cases found

/-- What is found is not returned where it cannot be allocated. -/
theorem liteJsonValueOf_lost {key src : CStr} {value : Option (List UInt8)}
    (found : liteJsonValueOf key src true = .ok value) :
    liteJsonValueOf key src false = .ok none := by
  rw [liteJsonValueOf_unallocated, found]
  rfl

end QcloudIot.Json
