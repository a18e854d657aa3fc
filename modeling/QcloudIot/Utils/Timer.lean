import QcloudIot.Utils.RingBuff

/-!
# Calendar time

`timestamp_to_date` of `utils_timer.c`: the date and the time of day of a timestamp in a zone.
-/

namespace QcloudIot.Utils

/-- `RTC_DATE_TIME` (`utils_timer.h:29-37`). -/
structure RtcDateTime where
  year : Int
  month : Int
  day : Int
  hour : Int
  minute : Int
  sec : Int
  ms : Int

/-- `sg_day_num` (`utils_timer.c:22`). -/
def sgDayNum : List Int := [31, 28, 31, 30, 31, 30, 31, 31, 30, 31, 30, 31]

/-- The loop over the months (`utils_timer.c:57-59`), with the entries that are left, or nothing
    where the index runs out of `sg_day_num`. -/
def monthLoop : List Int → Int → Int → Option (Int × Int)
  | [], _, _ => none
  | days :: rest, monthIndex, dayNum =>
    if days < dayNum then monthLoop rest (monthIndex + 1) (dayNum - days)
    else some (monthIndex, dayNum)

/-- The month and the day of the day of a year (`utils_timer.c:48-63`), or nothing where the loop
    over the months reads outside `sg_day_num`. -/
def yearDayToDate (year dayNum : Int) (dateTime : RtcDateTime) : Option RtcDateTime :=
  if year.tmod 4 = 0 ∧ dayNum = 60 then some { dateTime with year, month := 2, day := 29 }
  else
    let dayNum := if year.tmod 4 = 0 ∧ dayNum > 60 then dayNum - 1 else dayNum
    (monthLoop sgDayNum 0 dayNum).map fun found =>
      { dateTime with year, month := found.1 + 1, day := found.2 }

/-- The date of a day (`utils_timer.c:35-63`). The last day of a leap year is told apart, and
    one day is taken off for each leap year that is over. -/
def dayToDate (dayNum : Int) (dateTime : RtcDateTime) : Option RtcDateTime :=
  let leapNum := (dayNum + 365).tdiv 1461
  if (dayNum + 366).tmod 1461 = 0 then
    some { dateTime with year := dayNum.tdiv 366 + 1970, month := 12, day := 31 }
  else
    let dayNum := dayNum - leapNum
    yearDayToDate (dayNum.tdiv 365 + 1970) (dayNum.tmod 365 + 1) dateTime

/-- `timestamp_to_date` (`utils_timer.c:24-66`). The zone is added to the minutes. -/
def timestampToDate (timestampSec : UInt64) (dateTime : RtcDateTime) (timeZone : Int8) :
    Option RtcDateTime :=
  let sec := timestampSec % 60
  let timestampSec := timestampSec / 60
  let minute := timestampSec % 60
  let timestampSec := timestampSec + timeZone.toInt64.toUInt64 * 60
  let timestampSec := timestampSec / 60
  let hour := timestampSec % 24
  dayToDate (toInt (timestampSec / 24).toNat)
    { dateTime with
      sec := toInt sec.toNat
      minute := toInt minute.toNat
      hour := toInt hour.toNat }

end QcloudIot.Utils
