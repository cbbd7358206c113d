/-!
# Durations

Durations are whole milliseconds. They are shown in the largest unit that is not zero,
seconds or milliseconds, with a fraction of as few digits as it takes.
-/

namespace DeviceTrust

/-- A span of time in milliseconds. -/
abbrev Duration := Nat

namespace Duration

def ofSeconds (n : Nat) : Duration := n * 1000

def seconds (d : Duration) : Nat := d / 1000

def threeDigits (n : Nat) : List Char :=
  [Nat.digitChar (n / 100), Nat.digitChar (n / 10 % 10), Nat.digitChar (n % 10)]

/-- A number below a thousand as a fraction, without trailing zeros. -/
def fraction (n : Nat) : String :=
  String.ofList (((threeDigits n).reverse.dropWhile (· == '0')).reverse)

def describe (d : Duration) : String :=
  if d = 0 then "0ns"
  else if d < 1000 then toString d ++ "ms"
  else if d % 1000 = 0 then toString (d / 1000) ++ "s"
  else toString (d / 1000) ++ "." ++ fraction (d % 1000) ++ "s"

end Duration

end DeviceTrust
