import HealthWatch.Text.Decimal

/-! # Media types — what a body is said to be

    A media type has a type, a subtype with an optional suffix behind its last
    plus, and parameters.

    * `MediaType.parse?` reads a media type, `MediaType.isJson` says whether it is
      one of JSON. -/

namespace HealthWatch.Http

open Text

/-- A media type without its parameters, in lower case. -/
structure MediaType where
  main : List Char
  sub : List Char
  suffix : Option (List Char)
deriving DecidableEq, Repr

namespace MediaType

/-- A character of a token. -/
def isTokenChar (c : Char) : Bool :=
  (c.isAlphanum && c.toNat < 128)
    || c ∈ ['!', '#', '$', '%', '&', '\'', '*', '+', '-', '.', '^', '_', '`', '|', '~']

/-- A character inside quotation marks. -/
def isQuotedChar (c : Char) : Bool :=
  31 < c.toNat && c.toNat < 127

/-- Skips the value of a parameter; gives what follows it.  There is something
    between quotation marks, so that a mark right behind the first one does not
    close it, and a value without them is empty only at the end. -/
def skipValue? (s : List Char) : Option (List Char) :=
  match s with
  | [] => some []
  | '"' :: c :: r =>
      let inner := r.takeWhile fun d => d ≠ '"' && isQuotedChar d
      match r.drop inner.length with
      | '"' :: r => if isQuotedChar c then some (r.dropWhile (· = ' ')) else none
      | _ => none
  | c :: r => if isTokenChar c then some (r.dropWhile isTokenChar) else none

/-- Whether the parameters behind a semicolon are well formed; the fuel is the
    length of the text. -/
def areParameters : Nat → List Char → Bool
  | 0, s => s.isEmpty
  | fuel + 1, s =>
      match s.dropWhile (· = ' ') with
      | [] => true
      | s =>
          let name := s.takeWhile isTokenChar
          if name.isEmpty then false
          else
            match s.drop name.length with
            | '=' :: r =>
                match skipValue? r with
                | some [] => true
                | some (';' :: r) => areParameters fuel r
                | _ => false
            | _ => false

/-- Cuts a subtype at its last plus, unless that is its first character. -/
def cutSuffix (s : List Char) : List Char × Option (List Char) :=
  let suffix := (s.reverse.takeWhile (· ≠ '+')).reverse
  let front := s.take (s.length - suffix.length - 1)
  if suffix.length < s.length && !front.isEmpty then (front, some suffix) else (s, none)

/-- Reads a media type. -/
def parse? (text : String) : Option MediaType :=
  let s := text.toList
  let main := s.takeWhile isTokenChar
  match s.drop main.length with
  | '/' :: r =>
      let sub := r.takeWhile isTokenChar
      let sound :=
        match r.drop sub.length with
        | [] => true
        | ';' :: p => !sub.isEmpty && areParameters p.length p
        | _ => false
      if main.isEmpty || !sound then none
      else
        let (sub, suffix) := cutSuffix (sub.map Char.toLower)
        some { main := main.map Char.toLower, sub, suffix }
  | _ => none

/-- Whether a media type is one of JSON. -/
def isJson (m : MediaType) : Bool :=
  String.ofList m.main = "application"
    && (String.ofList m.sub = "json" || m.suffix.map String.ofList = some "json")

end MediaType

end HealthWatch.Http
