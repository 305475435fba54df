import HealthWatch.Duration
import HealthWatch.Text.Blank
import HealthWatch.Text.Decimal
import HealthWatch.Text.Split

/-! # Time spans — durations as `days.hours:minutes:seconds.fraction`

    Days are written only when there are any, hours, minutes and seconds with
    two digits, and the fraction as seven digits, in units of one hundred
    nanoseconds, only when it is not zero.

    * `format` writes a duration in this form;
    * `parse?` reads it, with blanks around it, any number of digits per field
      and a fraction of up to seven digits. -/

namespace HealthWatch.TimeSpan

open Text

/-- The text of a duration, cut down to units of one hundred nanoseconds. -/
def format (d : Duration) : List Char :=
  let days := d.seconds / 86400
  let ticks := d.nanos / 100
  (if days = 0 then [] else digits days ++ ['.'])
    ++ padded 2 (d.seconds % 86400 / 3600) ++ ':' :: padded 2 (d.seconds % 3600 / 60)
    ++ ':' :: padded 2 (d.seconds % 60)
    ++ (if ticks = 0 then [] else '.' :: padded 7 ticks)

/-- The days and hours of the first field. -/
def parseDayHour? (field : List Char) : Option (Nat × Nat) :=
  match cutFirst '.' field with
  | some (d, h) => do return (← unsigned? wordBound d, ← unsigned? wordBound h)
  | none => do return (0, ← unsigned? wordBound field)

/-- The units of one hundred nanoseconds of a fraction of up to seven digits. -/
def parseTicks? (fraction : List Char) : Option Nat :=
  if fraction.length > 7 || !fraction.all isDigit then none
  else some (valueOf (fraction ++ List.replicate (7 - fraction.length) '0'))

/-- The seconds and ticks of the last field. -/
def parseSecondTick? (field : List Char) : Option (Nat × Nat) :=
  let (s, f) := (cutFirst '.' field).getD (field, [])
  do return (← unsigned? wordBound s, ← parseTicks? f)

/-- Reads a time span; hours, minutes and seconds have to be in their ranges
    and the whole below `2 ^ 64` seconds. -/
def parse? (text : List Char) : Option Duration := do
  let (head, tail) ← cutFirst ':' (trim text)
  let (middle, rest) ← cutFirst ':' tail
  let minutes ← unsigned? wordBound middle
  let (days, hours) ← parseDayHour? head
  let (seconds, ticks) ← parseSecondTick? rest
  if hours > 23 || minutes > 59 || seconds > 59 then none
  else Duration.of? (days * 86400 + hours * 3600 + minutes * 60 + seconds) (ticks * 100)

end HealthWatch.TimeSpan
