import HealthWatch.Json.Basic
import HealthWatch.Json.Syntax
import HealthWatch.Text.Decimal

/-! # Reading numbers

    A number is an integer part without superfluous zeros, a fraction and an
    exponent.  Without the last two it is an integer as far as sixty-four bits
    reach.  Otherwise its value is the significand, as far as it fits into
    sixty-four bits, multiplied or divided by a power of ten in double
    precision; a value beyond the greatest double is out of range. -/

namespace HealthWatch.Json.Number

open Text

/-- What reading a number ends with. -/
inductive Outcome where
  | malformed (fault : SyntaxFault)
  | outOfRange (rest : List Char)
  | value (n : Number) (rest : List Char)
deriving Repr

/-- The power of ten as a double, for exponents up to 308. -/
def powerOfTen (e : Nat) : Float :=
  Float.ofScientific 1 false e

/-- Divides by a power of ten, `10 ^ 308` at a time. -/
def divide (f : Float) (e : Nat) : Float :=
  if h : e ≤ 308 then f / powerOfTen e
  else if f == 0.0 then f
  else divide (f / powerOfTen 308) (e - 308)
termination_by e
decreasing_by omega

/-- The double `significand * 10 ^ exponent`, none beyond the greatest one. -/
def scaled? (significand : Nat) (exponent : Int) : Option Float :=
  let f := Float.ofNat significand
  if exponent < 0 then some (divide f exponent.natAbs)
  else if exponent > 308 then if significand = 0 then some f else none
  else
    let g := f * powerOfTen exponent.toNat
    if g.isInf then none else some g

/-- Adds a digit to a significand when the result fits into sixty-four bits. -/
def push? (significand : Nat) (c : Char) : Option Nat :=
  let n := 10 * significand + digitValue c
  if n < wordBound then some n else none

/-- The significand of integer digits, and how many digits did not fit. -/
def accumulate (significand : Nat) : List Char → Nat × Nat
  | [] => (significand, 0)
  | c :: r =>
      match push? significand c with
      | some n => accumulate n r
      | none => (significand, r.length + 1)

/-- Goes on with the digits of a fraction; the exponent falls by one for each
    that fits, and the others are dropped. -/
def accumulateFraction (significand : Nat) (exponent : Int) : List Char → Nat × Int
  | [] => (significand, exponent)
  | c :: r =>
      match push? significand c with
      | some n => accumulateFraction n (exponent - 1) r
      | none => (significand, exponent)

/-- A signed double as a number. -/
def signed (negative : Bool) (f : Float) : Number :=
  .real (if negative then -f else f).toBits

/-- The value of a number with a fraction or an exponent, or of an integer that
    does not fit. -/
def finish (negative : Bool) (significand : Nat) (exponent : Int) (rest : List Char) :
    Outcome :=
  match scaled? significand exponent with
  | some f => .value (signed negative f) rest
  | none => .outOfRange rest

/-- Something else stands where a digit of a number should, or nothing. -/
def noDigit (s : List Char) : Outcome :=
  .malformed (if s.isEmpty then .endOfWord else .wrongNumber)

/-- The greatest exponent that is read digit by digit. -/
def exponentBound : Nat := 2147483648

/-- Reads an exponent after its letter. -/
def readExponent (negative : Bool) (significand : Nat) (start : Int)
    (s : List Char) : Outcome :=
  let (down, s) := match s with
    | '+' :: r => (false, r)
    | '-' :: r => (true, r)
    | _ => (false, s)
  let ds := s.takeWhile isDigit
  let rest := s.dropWhile isDigit
  if ds.isEmpty then noDigit s
  else
    let e := valueOf ds
    if e < exponentBound then
      finish negative significand (if down then start - e else start + e) rest
    else if significand ≠ 0 && !down then .outOfRange rest
    else .value (signed negative 0.0) rest

/-- Reads an exponent, if there is one, and ends the number. -/
def readTail (negative : Bool) (significand : Nat) (exponent : Int) :
    List Char → Outcome
  | 'e' :: r => readExponent negative significand exponent r
  | 'E' :: r => readExponent negative significand exponent r
  | s => finish negative significand exponent s

/-- The absolute value of the least number of sixty-four bits with a sign. -/
def leastInteger : Nat := 9223372036854775808

/-- The value of an integer that fits into sixty-four bits; below the least one
    with a sign, and for a negative zero, it is a real number. -/
def integral (negative : Bool) (n : Nat) : Number :=
  if !negative then .integer n
  else if n = 0 || n > leastInteger then signed true (Float.ofNat n)
  else .integer (-(n : Int))

/-- Reads what follows the integer digits `ds`. -/
def readFraction (negative : Bool) (ds : List Char) (s : List Char) : Outcome :=
  let (significand, dropped) := accumulate 0 ds
  match s with
  | '.' :: r =>
      let fs := r.takeWhile isDigit
      if fs.isEmpty then noDigit r
      else
        let (n, e) := accumulateFraction significand dropped fs
        readTail negative n e (r.dropWhile isDigit)
  | 'e' :: r => readExponent negative significand dropped r
  | 'E' :: r => readExponent negative significand dropped r
  | _ =>
      if dropped = 0 then .value (integral negative significand) s
      else finish negative significand dropped s

/-- Reads a number without its sign. -/
def readMagnitude (negative : Bool) (s : List Char) : Outcome :=
  let ds := s.takeWhile isDigit
  match ds with
  | [] => noDigit s
  | '0' :: _ :: _ => .malformed .wrongNumber
  | _ => readFraction negative ds (s.dropWhile isDigit)

/-- Reads a number at the start of a text. -/
def read : List Char → Outcome
  | '-' :: r => readMagnitude true r
  | s => readMagnitude false s

end HealthWatch.Json.Number
