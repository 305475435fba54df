import HealthWatch.Text.Quoted
import HealthWatch.Text.Split

/-! # Identifiers — numbers of 128 bits

    An identifier is written as five groups of lower-case hexadecimal digits
    with hyphens between them.  It is also read without hyphens, in upper case,
    between braces and after the words of a resource name.

    * `toChars` writes an identifier, `parse` reads one or says what is wrong. -/

namespace HealthWatch

open Text

/-- A number of 128 bits that names something: it is below `2 ^ 128`. -/
structure Identifier where
  value : Nat
  value_lt : value < 340282366920938463463374607431768211456 := by omega
deriving DecidableEq, Repr

namespace Identifier

/-- The identifier that names nothing. -/
def nil : Identifier := { value := 0 }

instance : Inhabited Identifier := ⟨nil⟩

/-- Whether an identifier names nothing. -/
def isNil (i : Identifier) : Bool := i.value = 0

/-- The identifier of the last 128 bits of a number. -/
def ofNat (n : Nat) : Identifier :=
  { value := n % 340282366920938463463374607431768211456
    value_lt := Nat.mod_lt _ (by decide) }

/-- The `w` last hexadecimal digits of a number. -/
def hexPadded : Nat → Nat → List Char
  | 0, _ => []
  | w + 1, n => hexPadded w (n / 16) ++ [hexChar (n % 16)]

/-- The text of an identifier: groups of 8, 4, 4, 4 and 12 digits. -/
def toChars (i : Identifier) : List Char :=
  let ds := hexPadded 32 i.value
  ds.take 8 ++ '-' :: (ds.drop 8).take 4 ++ '-' :: (ds.drop 12).take 4
    ++ '-' :: (ds.drop 16).take 4 ++ '-' :: ds.drop 20

/-- The text of an identifier. -/
def toText (i : Identifier) : String :=
  String.ofList i.toChars

/-- What is wrong with a text that is not an identifier. -/
inductive Fault where
  | badCharacter (found : Char) (position : Nat)
  | badLength (found : Nat)
  | badGroupCount (found : Nat)
  | badGroupLength (group expected found : Nat)
deriving DecidableEq, Repr

/-- The words of a short message for a fault. -/
def Fault.reason : Fault → String
  | badCharacter c p =>
      "invalid character: found `" ++ String.singleton c ++ "` at " ++ natText p
  | badLength n => "invalid length: found " ++ natText n
  | badGroupCount n => "invalid group count: expected 5, found " ++ natText n
  | badGroupLength g e n =>
      "invalid group length in group " ++ natText g ++ ": expected " ++ natText e
        ++ ", found " ++ natText n

/-- The words of a message for a fault. -/
def Fault.message (e : Fault) : String :=
  "UUID parsing failed: " ++ e.reason

/-- The number of a list of hexadecimal digits, `n` being that of those before. -/
def hexNumber? (n : Nat) : List Char → Option Nat
  | [] => some n
  | c :: r =>
      match hexValue? c with
      | some d => hexNumber? (16 * n + d) r
      | none => none

/-- The lengths of the five groups. -/
def groupLengths : List Nat := [8, 4, 4, 4, 12]

/-- The number of five groups of digits with hyphens between them. -/
def grouped? (s : List Char) : Option Nat :=
  let gs := pieces '-' s
  if gs.map List.length = groupLengths then hexNumber? 0 gs.flatten else none

/-- The number of thirty-two digits. -/
def plain? (s : List Char) : Option Nat :=
  if s.length = 32 then hexNumber? 0 s else none

/-- The text between two braces. -/
def unbrace? : List Char → Option (List Char)
  | '\x7b' :: r => if r.getLast? = some '\x7d' then some r.dropLast else none
  | _ => none

/-- The words before an identifier in a resource name, in either case. -/
def resourceStarts : List (List Char) :=
  ["urn:uuid:".toList, "URN:UUID:".toList]

/-- The text after the words of a resource name. -/
def afterResource? (s : List Char) : Option (List Char) :=
  resourceStarts.findSome? fun start => dropStart? start s

/-- The number of an identifier in any of its forms. -/
def number? (s : List Char) : Option Nat :=
  match plain? s with
  | some n => some n
  | none =>
      match grouped? s with
      | some n => some n
      | none => ((unbrace? s).or (afterResource? s)).bind grouped?

/-- The first character that is neither a hexadecimal digit nor a hyphen, with
    its place in octets from `position` on. -/
def badCharacter? (position : Nat) : List Char → Option (Char × Nat)
  | [] => none
  | c :: r =>
      if c = '-' || (hexValue? c).isSome then badCharacter? (position + 1) r
      else some (c, position)

/-- The first group of a wrong length, counted from `group`; the last one is
    measured by all that the groups before it leave of `total`. -/
def badGroup (total group : Nat) : List Nat → List (List Char) → Fault
  | e :: es, g :: gs =>
      if gs.isEmpty then .badGroupLength group e (total - 24)
      else if g.length = e then badGroup total (group + 1) es gs
      else .badGroupLength group e g.length
  | _, _ => .badGroupCount group

/-- The number of octets of the longest form, that of a resource name. -/
def longestForm : Nat := 45

/-- What is wrong with the parts of a text that is no identifier and takes `size`
    octets. -/
def diagnoseParts (size : Nat) (s : List Char) : Fault :=
  let (body, offset, bare) :=
    match unbrace? s with
    | some b => (b, 1, false)
    | none =>
        match afterResource? s with
        | some b => (b, 9, false)
        | none => (s, 0, true)
  match badCharacter? offset body with
  | some (c, p) => .badCharacter c p
  | none =>
      let gs := pieces '-' body
      if gs.length = 1 && bare then .badLength size
      else if gs.length ≠ 5 then .badGroupCount gs.length
      else badGroup size 0 groupLengths gs

/-- What is wrong with a text that is no identifier.  One that is longer than every
    form has a wrong length, whatever stands in it. -/
def diagnose (s : List Char) : Fault :=
  let size := (String.ofList s).utf8ByteSize
  if longestForm < size then .badLength size else diagnoseParts size s

/-- Reads an identifier. -/
def parse (s : List Char) : Except Fault Identifier :=
  match number? s with
  | some n => .ok (ofNat n)
  | none => .error (diagnose s)

end Identifier

end HealthWatch
