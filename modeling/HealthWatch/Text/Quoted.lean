import HealthWatch.Text.Decimal
import HealthWatch.Text.Hexadecimal
import HealthWatch.Text.Unprintable

/-! # Quoted texts — how a message shows a text

    A text in a message stands between quotation marks.  Inside, quotation
    marks and backslashes are escaped, the common controls have short escapes,
    and an unprintable character is shown by its code point in hexadecimal. -/

namespace HealthWatch.Text

/-- A character inside a quoted text. -/
def escape (c : Char) : List Char :=
  if c = '\x00' then ['\\', '0']
  else if c = '\t' then ['\\', 't']
  else if c = '\r' then ['\\', 'r']
  else if c = '\n' then ['\\', 'n']
  else if c = '"' then ['\\', '"']
  else if c = '\\' then ['\\', '\\']
  else if isUnprintable c then
    ['\\', 'u', '\x7b'] ++ hexDigits c.toNat ++ ['\x7d']
  else [c]

/-- A text between quotation marks. -/
def quoteChars (s : List Char) : List Char :=
  '"' :: s.flatMap escape ++ ['"']

/-- A text between quotation marks. -/
def quote (s : String) : String :=
  String.ofList (quoteChars s.toList)

end HealthWatch.Text
