/-! # Decimal numerals — natural numbers as digits

    * `digits` writes a number without leading zeros;
    * `padded` fills it up with zeros to a least width;
    * `numeral?` reads digits, and `unsigned?` also admits one leading plus sign
      and refuses a number at or above a bound. -/

namespace HealthWatch.Text

/-- The digit of a number below ten. -/
def digitChar (n : Nat) : Char :=
  Char.ofNat (48 + n)

/-- The value of a digit. -/
def digitValue (c : Char) : Nat :=
  c.toNat - 48

/-- One of the ten ASCII digits. -/
def isDigit (c : Char) : Bool :=
  48 ≤ c.toNat && c.toNat ≤ 57

/-- A number in decimal, without leading zeros. -/
def digits (n : Nat) : List Char :=
  if n < 10 then [digitChar n] else digits (n / 10) ++ [digitChar (n % 10)]

/-- A number in decimal, filled up with zeros to the width `w`. -/
def padded (w n : Nat) : List Char :=
  List.replicate (w - (digits n).length) '0' ++ digits n

/-- The number that a list of digits stands for. -/
def valueOf (ds : List Char) : Nat :=
  ds.foldl (fun n c => 10 * n + digitValue c) 0

/-- Reads a text of at least one digit and nothing else. -/
def numeral? (s : List Char) : Option Nat :=
  if s.isEmpty || !s.all isDigit then none else some (valueOf s)

/-- Drops one leading plus sign. -/
def dropPlus : List Char → List Char
  | '+' :: r => r
  | s => s

/-- Reads a number below `bound`, with or without a leading plus sign. -/
def unsigned? (bound : Nat) (s : List Char) : Option Nat :=
  match numeral? (dropPlus s) with
  | some n => if n < bound then some n else none
  | none => none

/-- The bound of numbers of sixty-four bits, `2 ^ 64`. -/
abbrev wordBound : Nat := 18446744073709551616

/-- The bound of numbers of sixteen bits, which ports are. -/
abbrev portBound : Nat := 65536

/-- The decimal text of an integer. -/
def integerText (i : Int) : String :=
  String.ofList (if i < 0 then '-' :: digits i.natAbs else digits i.natAbs)

/-- The decimal text of a natural number. -/
def natText (n : Nat) : String :=
  String.ofList (digits n)

end HealthWatch.Text
