import HealthWatch.Duration
import HealthWatch.Text.Decimal

/-! # Durations in messages

    A message shows a duration in the greatest of seconds, milliseconds,
    microseconds and nanoseconds of which it has at least one, with as many
    digits of a fraction as are exact. -/

namespace HealthWatch.Duration

open Text

/-- A whole number with a fraction of `width` digits, without the zeros it ends
    with. -/
def decimalText (whole fraction width : Nat) : List Char :=
  if fraction = 0 then digits whole
  else
    digits whole
      ++ '.' :: ((padded width fraction).reverse.dropWhile (· == '0')).reverse

/-- The text of a duration in a message. -/
def shown (d : Duration) : String :=
  String.ofList <|
    if d.seconds > 0 then decimalText d.seconds d.nanos 9 ++ ['s']
    else if d.nanos ≥ 1000000 then
      decimalText (d.nanos / 1000000) (d.nanos % 1000000) 6 ++ ['m', 's']
    else if d.nanos ≥ 1000 then
      decimalText (d.nanos / 1000) (d.nanos % 1000) 3 ++ ['µ', 's']
    else digits d.nanos ++ ['n', 's']

end HealthWatch.Duration
