/-! # Faults of JSON texts — where a text stops being JSON -/

namespace HealthWatch.Json

/-- Why a text is no JSON. -/
inductive SyntaxFault where
  | endOfList
  | endOfObject
  | endOfText
  | endOfValue
  /-- A word or a number is cut off. -/
  | endOfWord
  | noColon
  | noListEnd
  | noObjectEnd
  | noWord
  | noValue
  | wrongEscape
  | wrongNumber
  | numberOutOfRange
  | control
  | keyIsNoText
  | loneSurrogate
  | cutSurrogate
  | commaAtEnd
  | moreItems
  | moreBehind
  | tooDeep
deriving DecidableEq, Repr, Inhabited

/-- The words of a message for a fault. -/
def SyntaxFault.message : SyntaxFault → String
  | endOfList => "EOF while parsing a list"
  | endOfObject => "EOF while parsing an object"
  | endOfText => "EOF while parsing a string"
  | endOfValue => "EOF while parsing a value"
  | endOfWord => "EOF while parsing a value"
  | noColon => "expected `:`"
  | noListEnd => "expected `,` or `]`"
  | noObjectEnd => "expected `,` or `\x7d`"
  | noWord => "expected ident"
  | noValue => "expected value"
  | wrongEscape => "invalid escape"
  | wrongNumber => "invalid number"
  | numberOutOfRange => "number out of range"
  | control => "control character (\\u0000-\\u001F) found while parsing a string"
  | keyIsNoText => "key must be a string"
  | loneSurrogate => "lone leading surrogate in hex escape"
  | cutSurrogate => "unexpected end of hex escape"
  | commaAtEnd => "trailing comma"
  | moreItems => "trailing characters"
  | moreBehind => "trailing characters"
  | tooDeep => "recursion limit exceeded"

/-- Whether a fault is that a text ends too early. -/
def SyntaxFault.isEnd : SyntaxFault → Bool
  | endOfList => true
  | endOfObject => true
  | endOfText => true
  | endOfValue => true
  | endOfWord => true
  | _ => false

/-- Whether a fault lies between quotation marks. -/
def SyntaxFault.isInText : SyntaxFault → Bool
  | endOfText => true
  | wrongEscape => true
  | control => true
  | loneSurrogate => true
  | cutSurrogate => true
  | _ => false

end HealthWatch.Json
