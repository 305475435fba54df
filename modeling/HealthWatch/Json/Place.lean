import HealthWatch.Json.Octets

/-! # Places — where in a text a fault shows

    A place is a line and a column; the column counts the octets of the line that
    were read.  A text is read from left to right, so a fault lies at the end of
    the shortest start of the text that shows it, with these exceptions:

    * a text that ends too early is at fault where it ends;
    * a list or an object of a wrong kind is refused before it is opened;
    * a number is read to its end before anything is said about it;
    * a member that comes twice is refused where its value is expected;
    * a value that is rejected when it was read is so where its record goes on;
    * a list with too many items is at fault in the first item too many.

    A text in quotation marks is taken as a whole, so a lone surrogate and an octet
    that belongs to no character are told of at its end, in the words for the first.

    `Fault.place` gives the place of a fault. -/

namespace HealthWatch.Json

/-- A line and a column, which is the number of octets before it in the line. -/
structure Place where
  line : Nat
  column : Nat
deriving DecidableEq, Repr, Inhabited

namespace Place

/-- No place at all. -/
def nowhere : Place := ⟨0, 0⟩

/-- The place behind one more octet. -/
def after (p : Place) (b : UInt8) : Place :=
  if b = 10 then ⟨p.line + 1, 0⟩ else ⟨p.line, p.column + 1⟩

/-- The place behind octets. -/
def behind (bytes : List UInt8) : Place :=
  bytes.foldl after ⟨1, 0⟩

end Place

/-- Whether decoding ends with a fault. -/
def shows {α : Type} (decode : List UInt8 → Except Fault α) (fault : Fault)
    (bytes : List UInt8) : Bool :=
  match decode bytes with
  | .ok _ => false
  | .error e => e = fault

/-- The length of the longest start that does not pass a test, when a start that passes it is
    followed by such only.  The start of length `low` does not pass, and fewer than `2 ^ bits`
    octets are missing. -/
def longestBefore (test : List UInt8 → Bool) (bytes : List UInt8) (low : Nat) : Nat → Nat
  | 0 => low
  | bits + 1 =>
      let next := low + Nat.pow 2 bits
      if next ≤ bytes.length && !test (bytes.take next) then longestBefore test bytes next bits
      else longestBefore test bytes low bits

/-- An octet of what may stand between the parts of a text. -/
def isGapOctet (b : UInt8) : Bool :=
  isGap (Char.ofNat b.toNat)

/-- An octet of a number. -/
def isNumberOctet (b : UInt8) : Bool :=
  let c := Char.ofNat b.toNat
  c.isDigit || c ∈ ['+', '-', '.', 'e', 'E']

/-- What is read of the list or object around a value that was rejected, up to where it goes
    on or ends. -/
def readOn (around : Option Step) (rest : List UInt8) : List UInt8 :=
  let gap := rest.takeWhile isGapOctet
  match around, rest.drop gap.length with
  | some (.item _), 93 :: _ => gap ++ [93]
  | some (.item _), 44 :: r => gap ++ 44 :: r.takeWhile isGapOctet
  | some (.member _), 125 :: _ => gap ++ [125]
  | _, _ => gap

/-- What is read behind the shortest start of a text that shows a fault. -/
def Fault.overread (fault : Fault) (rest : List UInt8) : List UInt8 :=
  match fault with
  | malformed _ .numberOutOfRange => rest.takeWhile isNumberOctet
  | malformed _ .moreItems =>
      let gap := rest.takeWhile isGapOctet
      rest.take (gap.length + 1)
  | refused _ (.wrongType (.number _) _) => rest.takeWhile isNumberOctet
  | refused _ (.wrongValue (.number _) _) => rest.takeWhile isNumberOctet
  | refused _ (.repeatedMember _) => rest.takeWhile isGapOctet
  | refused path (.rejected _) => readOn path.getLast? rest
  | _ => []

/-- Whether a fault is found before its last octet is read. -/
def Fault.isAhead : Fault → Bool
  | refused _ (.wrongType .sequence _) => true
  | refused _ (.wrongType .map _) => true
  | _ => false

/-- Whether a fault is that a text ends too early. -/
def Fault.isEnd : Fault → Bool
  | malformed _ fault => fault.isEnd
  | refused _ _ => false

/-- The place of a fault in octets with which decoding them ends. -/
def Fault.place {α : Type} (decode : List UInt8 → Except Fault α) (bytes : List UInt8)
    (fault : Fault) : Place :=
  if fault.isEnd then .behind bytes
  else
    let before := longestBefore (shows decode fault) bytes 0 (bytes.length.log2 + 1)
    if fault.isAhead then .behind (bytes.take before)
    else .behind (bytes.take (before + 1) ++ fault.overread (bytes.drop (before + 1)))

end HealthWatch.Json
