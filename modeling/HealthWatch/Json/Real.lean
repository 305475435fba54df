import HealthWatch.Text.Decimal

/-! # Real numbers in decimal

    A double-precision number is written with the fewest digits that read back
    as the same number, and among these with the nearest one.

    * `decompose` gives a positive number as `m * 2 ^ q`;
    * `shortest` finds the digits and the place of the first one by trying
      decimal grids from coarse to fine, in exact arithmetic;
    * `Layout` says where positional notation ends, and `text` follows it. -/

namespace HealthWatch.Json.Real

open Text

/-- The weight of the sign bit, `2 ^ 63`. -/
def signBit : Nat := 9223372036854775808

/-- The least significand of a normal number, `2 ^ 52`. -/
def leastNormal : Nat := 4503599627370496

/-- The significand and the exponent of two of the number with these bits. -/
def decompose (bits : UInt64) : Nat × Int :=
  let n := bits.toNat % signBit
  let exponent : Nat := n / leastNormal
  let fraction := n % leastNormal
  if exponent = 0 then (fraction, -1074)
  else (fraction + leastNormal, Int.ofNat exponent - 1075)

/-- Whether the sign bit is set. -/
def isNegative (bits : UInt64) : Bool :=
  bits.toNat / signBit = 1

/-- Compares `a * 2 ^ q` with `c * 10 ^ k` for `a ≤ c`-style tests: the two sides
    as natural numbers of one scale. -/
def scale (a : Nat) (q : Int) (c : Nat) (k : Int) : Nat × Nat :=
  (a * Nat.pow 2 q.toNat * Nat.pow 10 (-k).toNat,
    c * Nat.pow 10 k.toNat * Nat.pow 2 (-q).toNat)

/-- The number of decimal digits before the point, less one, of `m * 2 ^ q`. -/
def decimalExponent (m : Nat) (q : Int) : Int :=
  let num := m * Nat.pow 2 q.toNat
  let den := Nat.pow 2 (-q).toNat
  let guess : Int := (digits num).length - (digits den).length
  let (a, b) := scale m q 1 guess
  if b ≤ a then guess else guess - 1

/-- Whether `c * 10 ^ k` reads back as `m * 2 ^ q`: it lies between the halfway
    points to the neighbours, which count when `m` is even. -/
def readsBack (m : Nat) (q : Int) (c : Nat) (k : Int) : Bool :=
  let below := if m = leastNormal && q > -1074 then 4 * m - 1 else 4 * m - 2
  let (lo, x) := scale below (q - 2) c k
  let (hi, y) := scale (4 * m + 2) (q - 2) c k
  if m % 2 = 0 then lo ≤ x && y ≤ hi else lo < x && y < hi

/-- The point of the grid `10 ^ k` that reads back and is nearest, if any. -/
def onGrid? (m : Nat) (q k : Int) : Option Nat :=
  let (num, den) := scale m q 1 k
  let c := num / den
  let low := readsBack m q c k
  let high := readsBack m q (c + 1) k
  let rest := 2 * (num % den)
  match low, high with
  | false, false => none
  | true, false => some c
  | false, true => some (c + 1)
  | true, true =>
      if rest < den then some c
      else if den < rest then some (c + 1)
      else if c % 2 = 0 then some c else some (c + 1)

/-- Tries grids with one digit more at each step. -/
def searchGrid (m : Nat) (q : Int) (k : Int) : Nat → Nat × Int
  | 0 => ((onGrid? m q k).getD 0, k)
  | fuel + 1 =>
      match onGrid? m q k with
      | some c => (c, k)
      | none => searchGrid m q (k - 1) fuel

/-- Drops the zeros a list of digits ends with. -/
def dropZeros (ds : List Char) : List Char :=
  (ds.reverse.dropWhile (· == '0')).reverse

/-- The digits of a positive number and the exponent of ten of the first one. -/
def shortest (bits : UInt64) : List Char × Int :=
  let (m, q) := decompose bits
  let (c, k) := searchGrid m q (decimalExponent m q) 17
  let ds := digits c
  (dropZeros ds, k + ds.length - 1)

/-- Where positional notation is used, by the exponent of the first digit. -/
structure Layout where
  least : Int
  greatest : Int
  exponentWidth : Nat

/-- Real numbers are positional from `0.00001` to below `10 ^ 16`; an exponent has
    a sign and at least two digits. -/
def layout : Layout := ⟨-5, 15, 2⟩

/-- Digits in positional notation, always with a point. -/
def positional (ds : List Char) (e : Int) : List Char :=
  if e < 0 then '0' :: '.' :: List.replicate (-e - 1).toNat '0' ++ ds
  else
    let before := e.toNat + 1
    let whole := ds.take before ++ List.replicate (before - ds.length) '0'
    let part := ds.drop before
    whole ++ '.' :: (if part.isEmpty then ['0'] else part)

/-- Digits in scientific notation, with a point after the first when more follow. -/
def scientific (ds : List Char) (e : Int) : List Char :=
  let part := ds.drop 1
  ds.take 1 ++ (if part.isEmpty then [] else '.' :: part)
    ++ 'e' :: (if e < 0 then '-' else '+') :: padded layout.exponentWidth e.natAbs

/-- The text of a finite number. -/
def text (bits : UInt64) : List Char :=
  let magnitude :=
    if bits.toNat % signBit = 0 then ['0', '.', '0']
    else
      let (ds, e) := shortest bits
      if layout.least ≤ e && e ≤ layout.greatest then positional ds e
      else scientific ds e
  if isNegative bits then '-' :: magnitude else magnitude

end HealthWatch.Json.Real
