import HealthWatch.Json.Real
import HealthWatch.Json.Basic
import HealthWatch.Text.Quoted

/-! # Writing JSON

    A value is written without gaps.  In texts only the quotation mark, the
    backslash and the control characters are escaped. -/

namespace HealthWatch.Json

open Text

/-- A character inside a text. -/
def writeChar (c : Char) : List Char :=
  if c = '"' then ['\\', '"']
  else if c = '\\' then ['\\', '\\']
  else if c = '\x08' then ['\\', 'b']
  else if c = '\x0c' then ['\\', 'f']
  else if c = '\n' then ['\\', 'n']
  else if c = '\r' then ['\\', 'r']
  else if c = '\t' then ['\\', 't']
  else if c.toNat < 32 then
    ['\\', 'u', '0', '0', hexChar (c.toNat / 16), hexChar (c.toNat % 16)]
  else [c]

/-- A text between quotation marks. -/
def writeText (s : List Char) : List Char :=
  '"' :: s.flatMap writeChar ++ ['"']

/-- A number. -/
def writeNumber : Number → List Char
  | .integer i => (integerText i).toList
  | .real bits => Real.text bits

mutual

/-- A value as text. -/
def write : Json → List Char
  | .null => ['n', 'u', 'l', 'l']
  | .bool true => ['t', 'r', 'u', 'e']
  | .bool false => ['f', 'a', 'l', 's', 'e']
  | .number n => writeNumber n
  | .text s => writeText s.toList
  | .array items => '[' :: writeItems items ++ [']']
  | .object members => '\x7b' :: writeMembers members ++ ['\x7d']

/-- Items with commas between them. -/
def writeItems : List Json → List Char
  | [] => []
  | [v] => write v
  | v :: r => write v ++ ',' :: writeItems r

/-- Members with commas between them. -/
def writeMembers : List (String × Json) → List Char
  | [] => []
  | [(k, v)] => writeText k.toList ++ ':' :: write v
  | (k, v) :: r => writeText k.toList ++ ':' :: write v ++ ',' :: writeMembers r

end

/-- A value as text. -/
def render (v : Json) : String :=
  String.ofList v.write

end HealthWatch.Json
