import HealthWatch.Instant.Basic
import HealthWatch.Text.Blank
import HealthWatch.Text.Decimal

/-! # Fields of times — the parts that written times share

    Times are written as numbers with marks between them.  Reading a part takes
    it from the front of the text and gives the rest, or says what is wrong:
    the first fault in the text counts.

    * `yearText`, `clockText` and `fractionText` write parts;
    * `readNumber`, `readYear`, `readField` and `readNanos` read them;
    * `Stamp` collects the fields of a time, `Stamp.instant` checks them. -/

namespace HealthWatch.Instant

open Text

/-- What is wrong with a text that is no time. -/
inductive Fault where
  | invalid
  | tooShort
  | tooLong
  | outOfRange
  | impossible
deriving DecidableEq, Repr

/-- The words of a message for a fault. -/
def Fault.message : Fault → String
  | invalid => "input contains invalid characters"
  | tooShort => "premature end of input"
  | tooLong => "trailing input"
  | outOfRange => "input is out of range"
  | impossible => "no possible date and time matching input"

/-- A part read from the front of a text, and the rest. -/
abbrev Scan (α : Type) := List Char → Except Fault (α × List Char)

/-- A year: four digits, or a sign and at least four digits when it has to have
    more or is negative. -/
def yearText (year : Int) : List Char :=
  if 0 ≤ year ∧ year ≤ 9999 then padded 4 year.toNat
  else (if year < 0 then '-' else '+') :: padded 4 year.natAbs

/-- Year, month and day with hyphens between them. -/
def dateText (d : Date) : List Char :=
  yearText d.year ++ '-' :: padded 2 d.month ++ '-' :: padded 2 d.day

/-- Hour, minute and second with colons between them; a leap second is the
    sixtieth. -/
def clockText (t : Instant) : List Char :=
  padded 2 t.hour ++ ':' :: padded 2 t.minute ++ ':'
    :: padded 2 (if t.isLeap then t.second + 1 else t.second)

/-- The nanoseconds within the second that the clock shows. -/
def shownNanos (t : Instant) : Nat :=
  if t.isLeap then t.nanos - 1000000000 else t.nanos

/-- Reads a number of at least one and at most `width` digits. -/
def readNumber (width : Nat) : Scan Nat := fun s =>
  let ds := (s.take width).takeWhile isDigit
  if ds.isEmpty then .error (if s.isEmpty then .tooShort else .invalid)
  else .ok (valueOf ds, s.drop ds.length)

/-- Reads a number of any length. -/
def readLong : Scan Nat := fun s => readNumber s.length s

/-- Reads a mark that has to stand at the front. -/
def readMark (c : Char) : Scan Unit
  | [] => .error .tooShort
  | d :: r => if d = c then .ok ((), r) else .error .invalid

/-- Reads a number between `least` and `greatest` of at most two digits, with
    blanks before it. -/
def readField (least greatest : Nat) : Scan Nat := fun s => do
  let (n, r) ← readNumber 2 (trimStart s)
  if least ≤ n && n ≤ greatest then .ok (n, r) else .error .outOfRange

/-- A year has to fit into thirty-two bits before the calendar is asked. -/
def checkYear (year : Int) (rest : List Char) : Except Fault (Int × List Char) :=
  if -2147483648 ≤ year && year < 2147483648 then .ok (year, rest) else .error .outOfRange

/-- Reads a year of up to four digits, or of any number after a sign, with
    blanks before it. -/
def readYear : Scan Int := fun s =>
  match trimStart s with
  | '-' :: r => do
      let (n, r) ← readLong r
      checkYear (-(n : Int)) r
  | '+' :: r => do
      let (n, r) ← readLong r
      checkYear n r
  | r => do
      let (n, r) ← readNumber 4 r
      checkYear n r

/-- Reads the digits of a fraction of a second; those after the ninth are
    skipped. -/
def readNanos : Scan Nat := fun s => do
  let (n, r) ← readNumber 9 s
  .ok (n * Nat.pow 10 (9 - (s.length - r.length)), r.dropWhile isDigit)

/-- Reads a fraction of a second, if there is one. -/
def readFraction : Scan Nat
  | '.' :: r => readNanos r
  | s => .ok (0, s)

/-- Whether a text is shorter than two octets. -/
def isShort : List Char → Bool
  | [] => true
  | [c] => c.toNat < 0x80
  | _ => false

/-- Reads the two digits of an offset's hours or minutes; the tens go up to
    `tens`. -/
def readPair (tens : Nat) : Scan Nat := fun s =>
  if isShort s then .error .tooShort
  else
    match s with
    | a :: b :: r =>
        if isDigit a && isDigit b then
          if digitValue a ≤ tens then .ok (10 * digitValue a + digitValue b, r)
          else .error .outOfRange
        else .error .invalid
    | _ => .error .invalid

/-- Reads an offset from universal time in seconds: a letter for none, or a sign,
    hours, what `separator` skips, and minutes. -/
def readOffset (separator : Scan Unit) : Scan Int
  | [] => .error .tooShort
  | c :: r =>
      if c = 'Z' || c = 'z' then .ok (0, r)
      else if c = '+' || c = '-' || c = '−' then do
        let (h, r) ← readPair 9 r
        let ((), r) ← separator r
        let (m, r) ← readPair 5 r
        let seconds : Int := (h * 3600 + m * 60 : Nat)
        .ok (if c = '+' then seconds else -seconds, r)
      else .error .invalid

/-- Reads the separator between date and time. -/
def readSeparator : Scan Unit
  | [] => .error .tooShort
  | c :: r => if c = 't' || c = 'T' || c = ' ' then .ok ((), r) else .error .invalid

/-- The fields of a written time; the second may be the sixtieth. -/
structure Stamp where
  year : Int
  month : Nat
  day : Nat
  hour : Nat
  minute : Nat
  second : Nat
  nanos : Nat
deriving DecidableEq, Repr

/-- The instant that the fields name at universal time. -/
def Stamp.instant? (f : Stamp) : Option Instant := do
  let date ← Date.of? f.year f.month f.day
  if f.second = 60 then Instant.of? date f.hour f.minute 59 (f.nanos + 1000000000)
  else Instant.of? date f.hour f.minute f.second f.nanos

/-- The instant that the fields name at an offset, in seconds, from universal
    time. -/
def Stamp.instantAt (f : Stamp) (offset : Int) : Except Fault Instant :=
  match f.instant? with
  | none => .error .outOfRange
  | some t =>
      if offset ≤ -86400 || 86400 ≤ offset then .error .outOfRange
      else if offset = 0 then .ok t
      else
        match ofUnix? (t.unixSeconds - offset) t.nanos with
        | some u => .ok u
        | none => .error .impossible

end HealthWatch.Instant
