import HealthWatch.Json.Decode
import HealthWatch.Text.Utf8

/-! # JSON in octets

    A body that travels as octets is read as UTF-8.  An octet that belongs to no
    character is a fault only for a reader that wants the text it stands in, as
    lone surrogates are; it is therefore read as two escapes of such. -/

namespace HealthWatch.Json

open Text

/-- Two escapes that never make a character, whatever stands before them. -/
def loneEscapes : List Char := "\\udc00\\udc00".toList

/-- The characters of octets, `chars` being those before in reverse.  Behind a
    backslash that escapes what follows (`escaped`) a wrong octet becomes a
    control, which no escape has. -/
def charsOfOctets (escaped : Bool) (chars : List Char) (bytes : List UInt8) : List Char :=
  match bytes with
  | [] => chars.reverse
  | a :: r =>
      match h : Utf8.readChar a r with
      | .error _ =>
          charsOfOctets false
            (if escaped then '\x00' :: chars else loneEscapes.reverse ++ chars) r
      | .ok (c, rest) =>
          have := Utf8.length_readChar h
          charsOfOctets (!escaped && c = '\\') (c :: chars) rest
termination_by bytes.length

/-- Decodes a whole body. -/
def Decode.body {α : Type} (f : Document → Except Fault α) (bytes : List UInt8) :
    Except Fault α :=
  whole f (charsOfOctets false [] bytes)

end HealthWatch.Json
