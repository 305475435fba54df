import HealthWatch.Instant.Rfc3339

/-! # Stored times — instants as the store keeps them

    A stored time is date and time with a blank between them and always nine
    digits of a fraction, so that texts of the years 0 to 9999 sort as their
    times do.

    * `format` writes a stored time;
    * `parse?` reads one, with or without a fraction, or an internet time. -/

namespace HealthWatch.Instant.Stored

open Text

/-- The stored text of an instant. -/
def format (t : Instant) : List Char :=
  dateText t.date ++ ' ' :: clockText t ++ '.' :: padded 9 t.shownNanos

/-- Reads the fields of a stored time. -/
def readStamp : Scan Stamp := fun s => do
  let (year, s) ← readYear s
  let ((), s) ← readMark '-' s
  let (month, s) ← readField 1 12 s
  let ((), s) ← readMark '-' s
  let (day, s) ← readField 1 31 s
  let (hour, s) ← readField 0 23 s
  let ((), s) ← readMark ':' s
  let (minute, s) ← readField 0 59 s
  let ((), s) ← readMark ':' s
  let (second, s) ← readField 0 60 s
  let (nanos, s) ← readFraction s
  .ok ({ year, month, day, hour, minute, second, nanos }, s)

/-- Reads a stored time with nothing behind it. -/
def parsePlain? (s : List Char) : Option Instant :=
  match readStamp s with
  | .ok (stamp, []) => stamp.instant?
  | _ => none

/-- Reads a stored time, or else an internet time in the standard form. -/
def parse? (s : List Char) : Option Instant :=
  match parsePlain? s with
  | some t => some t
  | none => Rfc3339.parseStrict? s

end HealthWatch.Instant.Stored
