import DeviceTrust.Duration

/-!
# Moments on the calendar

A moment is a number of milliseconds since the start of 1970, in universal time. It is
shown as date and time of day, with three digits of a second where they are not zero.
-/

namespace DeviceTrust

/-- Milliseconds since the start of 1970. -/
abbrev Moment := Int

namespace Moment

/-- Year, month and day of a day counted from the start of 1970, in the Gregorian calendar. The year is
counted from March, so that a leap day is its last day. -/
def civil (day : Int) : Int × Nat × Nat :=
  let z := day + 719468
  let era := z.fdiv 146097
  let doe := (z - era * 146097).toNat
  let yoe := (doe - doe / 1460 + doe / 36524 - doe / 146096) / 365
  let doy := doe - (365 * yoe + yoe / 4 - yoe / 100)
  let mp := (5 * doy + 2) / 153
  let d := doy - (153 * mp + 2) / 5 + 1
  let m := if mp < 10 then mp + 3 else mp - 9
  (yoe + era * 400 + (if m ≤ 2 then 1 else 0), m, d)

def padded (width n : Nat) : String :=
  let digits := toString n
  String.ofList (List.replicate (width - digits.length) '0') ++ digits

def describe (t : Moment) : String :=
  let day := t.fdiv 86400000
  let ms := (t - day * 86400000).toNat
  let (y, m, d) := civil day
  let s := ms / 1000
  let fraction := if ms % 1000 = 0 then "" else "." ++ padded 3 (ms % 1000)
  padded 4 y.toNat ++ "-" ++ padded 2 m ++ "-" ++ padded 2 d ++ "T" ++ padded 2 (s / 3600) ++ ":" ++
    padded 2 (s / 60 % 60) ++ ":" ++ padded 2 (s % 60) ++ fraction ++ "Z"

end Moment

end DeviceTrust
