import HealthWatch.Text.Split
import HealthWatch.Text.Quoted
import HealthWatch.Text.Utf8

/-! # Addresses of the web

    An address is read as a browser reads it: blanks around it and line ends in it
    do not count, the scheme and the host are in lower case, a standard port is
    left out, dot segments are resolved, and characters that may not stand in an
    address are written in octets.  Credentials are no part of the address.

    Hosts are read as far as ASCII goes.  A host with other characters is refused, although a
    browser would read it in its ASCII form; labels that are such a form already are taken as
    they stand; and of a host in brackets no more is asked than hexadecimal digits, colons and
    dots.

    * `Url.parse?` reads an absolute address with an ASCII host;
    * `Url.toText` writes it. -/

namespace HealthWatch.Http

open Text

/-- An address of the web in its normal form. -/
structure Url where
  scheme : List Char
  /-- None when the scheme has no hosts. -/
  host : Option (List Char)
  port : Option Nat
  path : List Char
  query : Option (List Char)
  fragment : Option (List Char)
deriving DecidableEq, Repr

namespace Url

/-- The schemes of the web with their standard ports. -/
def standardPorts : List (String × Nat) :=
  [("http", 80), ("https", 443), ("ws", 80), ("wss", 443), ("ftp", 21)]

/-- The standard port of a scheme of the web. -/
def standardPort? (scheme : List Char) : Option Nat :=
  standardPorts.lookup (String.ofList scheme)

/-! ## Octets in place of characters -/

/-- The upper-case hexadecimal digit of a number below sixteen. -/
def upperHex (n : Nat) : Char :=
  if n < 10 then Char.ofNat (48 + n) else Char.ofNat (55 + n)

/-- An octet as a percent sign with two digits. -/
def escapeOctet (b : UInt8) : List Char :=
  ['%', upperHex (b.toNat / 16), upperHex (b.toNat % 16)]

/-- Writes controls, characters beyond ASCII and those of `set` as octets. -/
def escapeChars (set : List Char) (s : List Char) : List Char :=
  s.flatMap fun c =>
    if c.toNat < 32 || c.toNat > 126 || c ∈ set then (Utf8.encodeChar c).flatMap escapeOctet
    else [c]

/-- The characters that may not stand in a path. -/
def pathSet : List Char := [' ', '"', '<', '>', '`', '#', '?', '\x7b', '\x7d']

/-- The characters that may not stand in a query. -/
def querySet : List Char := [' ', '"', '#', '<', '>']

/-- The characters that may not stand in a fragment. -/
def fragmentSet : List Char := [' ', '"', '<', '>', '`']

/-! ## Hosts -/

/-- Replaces escaped ASCII characters by themselves. -/
def unescapeAscii : List Char → List Char
  | '%' :: a :: b :: r =>
      match hexValue? a, hexValue? b with
      | some x, some y =>
          if x < 8 then Char.ofNat (16 * x + y) :: unescapeAscii r
          else '%' :: unescapeAscii (a :: b :: r)
      | _, _ => '%' :: unescapeAscii (a :: b :: r)
  | c :: r => c :: unescapeAscii r
  | [] => []

/-- A character that may stand in a host. -/
def isHostChar (c : Char) : Bool :=
  32 < c.toNat && c.toNat < 127
    && c ∉ ['#', '/', ':', '<', '>', '?', '@', '[', '\\', ']', '^', '|', '%']

/-- The number of a part of a numeric host: decimal, octal after a nought, or
    hexadecimal after `0x`. -/
def hostNumber? (part : List Char) : Option Nat :=
  let digitsIn (base : Nat) (s : List Char) : Option Nat :=
    s.foldlM (fun n c => do
      let d ← hexValue? c
      if d < base then some (base * n + d) else none) 0
  match part with
  | [] => none
  | '0' :: 'x' :: r => digitsIn 16 r
  | '0' :: r => digitsIn 8 r
  | r => digitsIn 10 r

/-- The four numbers of a numeric host of up to four parts; the last part stands
    for all octets that are left. -/
def octets? (parts : List Nat) : Option Nat :=
  match parts.reverse with
  | [] => none
  | last :: r =>
      let front := r.reverse
      if front.all (· < 256) && front.length < 4 && last < Nat.pow 256 (4 - front.length) then
        some (front.zipIdx.foldl (fun n (p, i) => n + p * Nat.pow 256 (3 - i)) last)
      else none

/-- The normal form of a host in ASCII; none when it is no host.  The digits of a host in
    brackets are not counted. -/
def host? (s : List Char) : Option (List Char) :=
  match s with
  | [] => none
  | '[' :: r =>
      match cutLast ']' r with
      | some (address, []) =>
          if !address.isEmpty && address.all (fun c => (hexValue? c).isSome || c = ':' || c = '.') then
            some ('[' :: address.map Char.toLower ++ [']'])
          else none
      | _ => none
  | _ =>
      let name := (unescapeAscii s).map Char.toLower
      if !name.all isHostChar then none
      else
        let parts := pieces '.' name
        let parts := if parts.length > 1 && parts.getLast? = some [] then parts.dropLast else parts
        let last := parts.getLastD []
        if (!last.isEmpty && last.all isDigit) || (hostNumber? last).isSome then do
          let n ← octets? (← parts.mapM hostNumber?)
          return digits (n / 16777216 % 256) ++ '.' :: digits (n / 65536 % 256)
            ++ '.' :: digits (n / 256 % 256) ++ '.' :: digits (n % 256)
        else some name

/-- Reads a port; none when there is nothing, or the standard one. -/
def port? (standard : Option Nat) (s : List Char) : Option (Option Nat) :=
  if s.isEmpty then some none
  else if !s.all isDigit || valueOf s ≥ portBound then none
  else if some (valueOf s) = standard then some none
  else some (some (valueOf s))

/-- Reads the host and the port of an authority behind its credentials. -/
def authority? (standard : Option Nat) (s : List Char) : Option (List Char × Option Nat) :=
  let s := match cutLast '@' s with
    | some (_, r) => r
    | none => s
  let (name, port) :=
    match s with
    | '[' :: r =>
        match cutFirst ']' r with
        | some (a, ':' :: p) => ('[' :: a ++ [']'], p)
        | _ => (s, [])
    | _ => (cutFirst ':' s).getD (s, [])
  do return (← host? name, ← port? standard port)

/-! ## Paths -/

/-- Whether a segment stands for the place itself. -/
def isHere (segment : List Char) : Bool :=
  String.ofList (segment.map Char.toLower) ∈ [".", "%2e"]

/-- Whether a segment stands for the place above. -/
def isAbove (segment : List Char) : Bool :=
  String.ofList (segment.map Char.toLower) ∈ ["..", ".%2e", "%2e.", "%2e%2e"]

/-- Resolves dot segments; `done` are the segments before in reverse.  A dot
    segment at the end leaves an empty one. -/
def resolve (done : List (List Char)) : List (List Char) → List (List Char)
  | [] => done.reverse
  | s :: r =>
      if isAbove s then
        resolve (if r.isEmpty then [] :: done.drop 1 else done.drop 1) r
      else if isHere s then resolve (if r.isEmpty then [] :: done else done) r
      else resolve (s :: done) r

/-- The normal form of a path that starts with a slash or is empty. -/
def resolvedPath (backslash : Bool) (s : List Char) : List Char :=
  let s := if backslash then s.map fun c => if c = '\\' then '/' else c else s
  match s with
  | [] => ['/']
  | c :: r =>
      let segments := pieces '/' (if c = '/' then r else s)
      (resolve [] segments).flatMap fun segment => '/' :: escapeChars pathSet segment

/-! ## Addresses -/

/-- A character of a scheme behind its first one. -/
def isSchemeChar (c : Char) : Bool :=
  c.isAlphanum || c = '+' || c = '-' || c = '.'

/-- Cuts the scheme off. -/
def scheme? (s : List Char) : Option (List Char × List Char) :=
  match s with
  | c :: _ =>
      if !c.isAlpha then none
      else
        match cutFirst ':' s with
        | some (scheme, r) =>
            if scheme.all isSchemeChar then some (scheme.map Char.toLower, r) else none
        | none => none
  | [] => none

/-- An address without what does not count in it. -/
def clean (s : List Char) : List Char :=
  let blank (c : Char) : Bool := c.toNat ≤ 32
  let s := (s.dropWhile blank).reverse.dropWhile blank |>.reverse
  s.filter fun c => !(c = '\t' || c = '\n' || c = '\r')

/-- Cuts a text at the first occurrence of `c`; the right side is none without one. -/
def split (c : Char) (s : List Char) : List Char × Option (List Char) :=
  match cutFirst c s with
  | some (a, b) => (a, some b)
  | none => (s, none)

/-- Reads an absolute address, with a host in ASCII if it has one. -/
def parse? (text : List Char) : Option Url := do
  let (scheme, rest) ← scheme? (clean text)
  let (rest, fragment) := split '#' rest
  let (rest, query) := split '?' rest
  let fragment := fragment.map (escapeChars fragmentSet)
  match standardPort? scheme with
  | some standard =>
      let isSlash (c : Char) : Bool := c = '/' || c = '\\'
      let rest := rest.dropWhile isSlash
      let (host, port) ← authority? (some standard) (rest.takeWhile (!isSlash ·))
      return { scheme, host := some host, port
               path := resolvedPath true (rest.dropWhile (!isSlash ·))
               query := query.map (escapeChars ('\'' :: querySet))
               fragment }
  | none =>
      let query := query.map (escapeChars querySet)
      match rest with
      | '/' :: '/' :: r =>
          let isSlash (c : Char) : Bool := c = '/'
          let (host, port) ← authority? none (r.takeWhile (!isSlash ·))
          let tail := r.dropWhile (!isSlash ·)
          return { scheme, host := some host, port
                   path := if tail.isEmpty then [] else resolvedPath false tail
                   query, fragment }
      | r => return { scheme, host := none, port := none, path := escapeChars [] r,
                      query, fragment }

/-- What a request asks its host for: the path and the query. -/
def target (u : Url) : String :=
  String.ofList (u.path ++ match u.query with
    | some q => '?' :: q
    | none => [])

/-- The text of an address. -/
def toText (u : Url) : String :=
  let place := match u.host with
    | some h => '/' :: '/' :: h ++ match u.port with
        | some p => ':' :: digits p
        | none => []
    | none => []
  let tail := match u.fragment with
    | some f => '#' :: f
    | none => []
  String.ofList (u.scheme ++ ':' :: place) ++ u.target ++ String.ofList tail

end Url

end HealthWatch.Http
