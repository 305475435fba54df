import HealthWatch.Text.Hexadecimal
import HealthWatch.Text.Split
import HealthWatch.Text.Utf8

/-! # Forms — names and values in a query

    A query is a list of fields with ampersands between them.  In names and values
    a plus stands for a blank, and a percent sign with two digits for an octet.

    * `Form.parse` reads a query. -/

namespace HealthWatch.Http.Form

open Text

/-- The octets of a name or value. -/
def octets : List Char → List UInt8
  | '%' :: a :: b :: r =>
      match hexValue? a, hexValue? b with
      | some x, some y => UInt8.ofNat (16 * x + y) :: octets r
      | _, _ => 37 :: octets (a :: b :: r)
  | '+' :: r => 32 :: octets r
  | c :: r => Utf8.encodeChar c ++ octets r
  | [] => []

/-- A name or value without escapes. -/
def unescape (s : List Char) : String :=
  String.ofList (Utf8.decodeLossy (octets s))

/-- Reads one field; without an equals sign its value is empty. -/
def parseField (s : List Char) : String × String :=
  let (name, value) := (cutFirst '=' s).getD (s, [])
  (unescape name, unescape value)

/-- Reads a query; empty fields do not count. -/
def parse (query : List Char) : List (String × String) :=
  ((pieces '&' query).filter fun s => !s.isEmpty).map parseField

end HealthWatch.Http.Form
