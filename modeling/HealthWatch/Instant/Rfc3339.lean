import HealthWatch.Instant.Fields

/-! # Internet times — instants as `2024-05-01T12:00:00.250Z`

    An instant is written with the letter Z and with the fewest of no, three, six
    or nine digits of a fraction that are exact.

    * `format` writes an instant;
    * `parse` reads one leniently: blanks between the parts, fields without
      leading zeros, signed years and any offset;
    * `parseStrict?` reads only the standard form. -/

namespace HealthWatch.Instant.Rfc3339

open Text

/-- The fraction of a second, in groups of three digits. -/
def fractionText (nanos : Nat) : List Char :=
  if nanos = 0 then []
  else if nanos % 1000000 = 0 then '.' :: padded 3 (nanos / 1000000)
  else if nanos % 1000 = 0 then '.' :: padded 6 (nanos / 1000)
  else '.' :: padded 9 nanos

/-- The text of an instant. -/
def format (t : Instant) : List Char :=
  dateText t.date ++ 'T' :: clockText t ++ fractionText t.shownNanos ++ ['Z']

/-- Skips colons and blanks. -/
def skipColons : Scan Unit := fun s =>
  .ok ((), s.dropWhile fun c => c = ':' || isBlank c)

/-- Reads an offset, or the name of universal time. -/
def readZone : Scan Int := fun s =>
  match s with
  | a :: b :: c :: r =>
      if [a.toUpper, b.toUpper, c.toUpper] = ['U', 'T', 'C'] then .ok (0, r)
      else readOffset skipColons s
  | _ => readOffset skipColons s

/-- Reads a time leniently, with its offset. -/
def readStamp : Scan (Stamp × Int) := fun s => do
  let (year, s) ← readYear s
  let ((), s) ← readMark '-' (trimStart s)
  let (month, s) ← readField 1 12 s
  let ((), s) ← readMark '-' (trimStart s)
  let (day, s) ← readField 1 31 s
  let ((), s) ← readSeparator s
  let (hour, s) ← readField 0 23 s
  let ((), s) ← readMark ':' (trimStart s)
  let (minute, s) ← readField 0 59 s
  let ((), s) ← readMark ':' (trimStart s)
  let (second, s) ← readField 0 60 s
  let (nanos, s) ← readFraction s
  let (offset, s) ← readZone (trimStart s)
  .ok (({ year, month, day, hour, minute, second, nanos }, offset), s)

/-- Reads an instant leniently. -/
def parse (s : List Char) : Except Fault Instant := do
  let ((stamp, offset), rest) ← readStamp s
  if (trimStart rest).isEmpty then stamp.instantAt offset else .error .tooLong

/-- Reads exactly `width` digits of a number between `least` and `greatest`. -/
def readExact (width least greatest : Nat) : Scan Nat := fun s => do
  let (n, r) ← readNumber width s
  if s.length - r.length < width then .error .invalid
  else if least ≤ n && n ≤ greatest then .ok (n, r)
  else .error .outOfRange

/-- Reads a time in the standard form, with its offset. -/
def readStrictStamp : Scan (Stamp × Int) := fun s => do
  let (year, s) ← readExact 4 0 9999 s
  let ((), s) ← readMark '-' s
  let (month, s) ← readExact 2 1 12 s
  let ((), s) ← readMark '-' s
  let (day, s) ← readExact 2 1 31 s
  let ((), s) ← readSeparator s
  let (hour, s) ← readExact 2 0 23 s
  let ((), s) ← readMark ':' s
  let (minute, s) ← readExact 2 0 59 s
  let ((), s) ← readMark ':' s
  let (second, s) ← readExact 2 0 60 s
  let (nanos, s) ← readFraction s
  let (offset, s) ← readOffset (readMark ':') s
  .ok (({ year, month, day, hour, minute, second, nanos }, offset), s)

/-- Reads an instant in the standard form. -/
def parseStrict? (s : List Char) : Option Instant :=
  match readStrictStamp s with
  | .ok ((stamp, offset), []) => (stamp.instantAt offset).toOption
  | _ => none

end HealthWatch.Instant.Rfc3339
