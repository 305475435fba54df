import HealthWatch.Json.Number
import HealthWatch.Json.Shape

/-! # Documents — JSON text as a tree that shows its faults

    A text is read into a tree in one pass.  Where the text stops being JSON the
    tree has a broken leaf, and nothing follows it.  A reader of the tree that
    walks it in the order of the text thus meets a value it refuses before a
    fault further on, and a fault before a value behind it.

    A text with a lone surrogate and a number beyond the greatest double are
    faults only for a reader that wants their value: skipping them is allowed.

    * `Document.read` reads one value and gives the rest of the text;
    * `Document.skip` looks only for broken leaves;
    * `Document.value` gives the value of a tree, `ofJson` the tree of a value. -/

namespace HealthWatch.Json

open Text

/-- How the list of parts of an array or object ends. -/
inductive Ending where
  | closed
  | broken (fault : SyntaxFault)
  /-- Something else stands where the key of a member should: a value, or a fault. -/
  | stray (found : Except SyntaxFault Shape)
deriving Repr, Inhabited

/-- A JSON text as a tree. -/
inductive Document where
  | broken (fault : SyntaxFault)
  | null
  | bool (value : Bool)
  /-- A number; none when it is out of range. -/
  | number (value : Option Number)
  /-- A text, or why it is none although it has an end. -/
  | text (value : Except SyntaxFault String)
  | array (items : List Document) (ending : Ending)
  | object (members : List (Except SyntaxFault String × Document)) (ending : Ending)
deriving Inhabited

/-- A character that may stand between the parts of a JSON text. -/
def isGap (c : Char) : Bool :=
  c = ' ' || c = '\n' || c = '\t' || c = '\r'

/-- Skips what stands between parts. -/
def skipGap (s : List Char) : List Char :=
  s.dropWhile isGap

/-- The code unit of four hexadecimal digits. -/
def codeUnit? (a b c d : Char) : Option Nat := do
  return (← hexValue? a) * 4096 + (← hexValue? b) * 256 + (← hexValue? c) * 16 + (← hexValue? d)

/-- The character of a short escape. -/
def shortEscape? : Char → Option Char
  | '"' => some '"'
  | '\\' => some '\\'
  | '/' => some '/'
  | 'b' => some '\x08'
  | 'f' => some '\x0c'
  | 'n' => some '\n'
  | 'r' => some '\r'
  | 't' => some '\t'
  | _ => none

/-- Reads a text after its opening quotation mark into code points and code
    units, `units` being those read so far in reverse. -/
def readUnits (units : List Nat) : List Char → Except SyntaxFault (List Nat × List Char)
  | [] => .error .endOfText
  | c :: r =>
      if c = '"' then .ok (units.reverse, r)
      else if c = '\\' then
        match r with
        | 'u' :: x :: y :: z :: w :: r' =>
            match codeUnit? x y z w with
            | some n => readUnits (n :: units) r'
            | none => .error .wrongEscape
        | 'u' :: _ => .error .endOfText
        | e :: r' =>
            match shortEscape? e with
            | some k => readUnits (k.toNat :: units) r'
            | none => .error .wrongEscape
        | [] => .error .endOfText
      else if c.toNat < 32 then .error .control
      else readUnits (c.toNat :: units) r

/-- Joins surrogate pairs; a surrogate may not stand alone.  `chars` are the
    characters so far in reverse. -/
def joinUnits (chars : List Char) : List Nat → Except SyntaxFault (List Char)
  | [] => .ok chars.reverse
  | n :: r =>
      if 0xD800 ≤ n && n < 0xDC00 then
        match r with
        | m :: r' =>
            if 0xDC00 ≤ m && m < 0xE000 then
              joinUnits (Char.ofNat (0x10000 + (n - 0xD800) * 1024 + (m - 0xDC00)) :: chars) r'
            else .error .loneSurrogate
        | [] => .error .cutSurrogate
      else if 0xDC00 ≤ n && n < 0xE000 then .error .loneSurrogate
      else joinUnits (Char.ofNat n :: chars) r

namespace Document

/-- The shape of a readable value. -/
def shape : Document → Except SyntaxFault Shape
  | broken fault => .error fault
  | null => .ok .null
  | bool b => .ok (.bool b)
  | number (some n) => .ok (.number n)
  | number none => .error .numberOutOfRange
  | text s => s.map .text
  | array _ _ => .ok .sequence
  | object _ _ => .ok .map

/-- Reads a text after its opening quotation mark. -/
def readText (s : List Char) : Document × List Char :=
  match readUnits [] s with
  | .ok (units, rest) => (text ((joinUnits [] units).map String.ofList), rest)
  | .error fault => (broken fault, [])

/-- Reads the other characters of a word. -/
def readWord (word : List Char) (value : Document) (s : List Char) : Document × List Char :=
  match word, s with
  | [], r => (value, r)
  | _ :: _, [] => (broken .endOfWord, [])
  | c :: w, d :: r => if c = d then readWord w value r else (broken .noWord, [])

/-- Reads a value that is neither an array nor an object. -/
def readPlain (s : List Char) : Document × List Char :=
  match s with
  | [] => (broken .endOfValue, [])
  | '"' :: r => readText r
  | 'n' :: r => readWord ['u', 'l', 'l'] null r
  | 't' :: r => readWord ['r', 'u', 'e'] (bool true) r
  | 'f' :: r => readWord ['a', 'l', 's', 'e'] (bool false) r
  | c :: _ =>
      if c = '-' || isDigit c then
        match Number.read s with
        | .value n r => (number (some n), r)
        | .outOfRange r => (number none, r)
        | .malformed fault => (broken fault, [])
      else (broken .noValue, [])

/-- The ending of an object when the key of a member is no text. -/
def strayEnding (s : List Char) : Ending :=
  .stray <| match s with
    | '[' :: _ => .ok .sequence
    | '{' :: _ => .ok .map
    | _ => shape (readPlain s).1

mutual

/-- Reads one value. -/
def readValue : Nat → List Char → Document × List Char
  | 0, _ => (broken .tooDeep, [])
  | fuel + 1, s =>
      match skipGap s with
      | '[' :: r =>
          match skipGap r with
          | [] => (array [] (.broken .endOfList), [])
          | ']' :: rest => (array [] .closed, rest)
          | r =>
              let (items, ending, rest) := readItems fuel r
              (array items ending, rest)
      | '{' :: r =>
          match skipGap r with
          | [] => (object [] (.broken .endOfObject), [])
          | '}' :: rest => (object [] .closed, rest)
          | r =>
              let (members, ending, rest) := readMembers fuel r
              (object members ending, rest)
      | r => readPlain r

/-- Reads the items of an array that has at least one. -/
def readItems : Nat → List Char → List Document × Ending × List Char
  | 0, _ => ([], .broken .tooDeep, [])
  | fuel + 1, s =>
      let (item, rest) := readValue fuel s
      match skipGap rest with
      | ']' :: r => ([item], .closed, r)
      | ',' :: r =>
          match skipGap r with
          | ']' :: _ => ([item], .broken .commaAtEnd, [])
          | r =>
              let (items, ending, rest) := readItems fuel r
              (item :: items, ending, rest)
      | [] => ([item], .broken .endOfList, [])
      | _ => ([item], .broken .noListEnd, [])

/-- Reads the members of an object that has at least one. -/
def readMembers : Nat → List Char →
    List (Except SyntaxFault String × Document) × Ending × List Char
  | 0, _ => ([], .broken .tooDeep, [])
  | fuel + 1, s =>
      match s with
      | '"' :: r =>
          match readText r with
          | (text key, rest) =>
              match skipGap rest with
              | ':' :: r =>
                  let (value, rest) := readValue fuel r
                  match skipGap rest with
                  | '}' :: r => ([(key, value)], .closed, r)
                  | ',' :: r =>
                      match skipGap r with
                      | [] => ([(key, value)], .broken .endOfValue, [])
                      | '}' :: _ => ([(key, value)], .broken .commaAtEnd, [])
                      | r =>
                          let (members, ending, rest) := readMembers fuel r
                          ((key, value) :: members, ending, rest)
                  | [] => ([(key, value)], .broken .endOfObject, [])
                  | _ => ([(key, value)], .broken .noObjectEnd, [])
              | [] => ([(key, broken .endOfObject)], .broken .endOfObject, [])
              | _ => ([(key, broken .noColon)], .broken .noColon, [])
          | (broken fault, _) => ([], .broken fault, [])
          | _ => ([], .broken .keyIsNoText, [])
      | _ => ([], strayEnding s, [])

end

/-- Reads one value; the fuel is enough for every text. -/
def read (s : List Char) : Document × List Char :=
  readValue (2 * s.length + 2) s

/-- Whether a list of parts is closed. -/
def close : Ending → Except SyntaxFault Unit
  | .closed => .ok ()
  | .broken fault => .error fault
  | .stray _ => .error .keyIsNoText

mutual

/-- Skips a tree: it may have no broken leaf. -/
def skip : Document → Except SyntaxFault Unit
  | broken fault => .error fault
  | array items ending => do
      skipItems items
      close ending
  | object members ending => do
      skipMembers members
      close ending
  | _ => .ok ()

/-- Skips trees. -/
def skipItems : List Document → Except SyntaxFault Unit
  | [] => .ok ()
  | d :: r => do
      skip d
      skipItems r

/-- Skips members. -/
def skipMembers : List (Except SyntaxFault String × Document) → Except SyntaxFault Unit
  | [] => .ok ()
  | (_, d) :: r => do
      skip d
      skipMembers r

end

mutual

/-- The value of a tree that has at most `depth` arrays and objects inside each
    other, when all of it can be read. -/
def value (depth : Nat) : Document → Except SyntaxFault Json
  | broken fault => .error fault
  | null => .ok .null
  | bool b => .ok (.bool b)
  | number (some n) => .ok (.number n)
  | number none => .error .numberOutOfRange
  | text s => s.map .text
  | array items ending =>
      if depth = 0 then .error .tooDeep
      else do
        let vs ← values (depth - 1) items
        close ending
        return .array vs
  | object members ending =>
      if depth = 0 then .error .tooDeep
      else do
        let ms ← memberValues (depth - 1) members
        close ending
        return .object ms

/-- The values of several trees. -/
def values (depth : Nat) : List Document → Except SyntaxFault (List Json)
  | [] => .ok []
  | d :: r => do return (← value depth d) :: (← values depth r)

/-- The members of several trees. -/
def memberValues (depth : Nat) : List (Except SyntaxFault String × Document) →
    Except SyntaxFault (List (String × Json))
  | [] => .ok []
  | (k, d) :: r => do return (← k, ← value depth d) :: (← memberValues depth r)

end

mutual

/-- The tree of a value; members are taken by ascending key. -/
def ofJson : Json → Document
  | .null => null
  | .bool b => bool b
  | .number n => number (some n)
  | .text s => text (.ok s)
  | .array items => array (ofItems items) .closed
  | .object members => object (ofMembers members) .closed

/-- The trees of several values. -/
def ofItems : List Json → List Document
  | [] => []
  | v :: r => ofJson v :: ofItems r

/-- The trees of several members. -/
def ofMembers : List (String × Json) → List (Except SyntaxFault String × Document)
  | [] => []
  | (k, v) :: r => (.ok k, ofJson v) :: ofMembers r

end

end Document

/-- Reads a whole text into its tree, and whether nothing but gaps follows. -/
def readWhole (s : List Char) : Document × Bool :=
  let (d, rest) := Document.read s
  (d, (skipGap rest).isEmpty)

end HealthWatch.Json
