import HealthWatch.Text.Decimal
import HealthWatch.Text.Split

/-! # Addresses of file servers

    An address is a host with an optional port, scheme, user and path.  Only host
    and port count.  A host with colons stands in brackets.

    * `Address.parse?` reads an address. -/

namespace HealthWatch.Transfer

open Text

/-- A host and a port. -/
structure Address where
  host : String
  port : Nat
deriving DecidableEq, Repr

namespace Address

/-- The port of a server that names none. -/
def standardPort : Nat := 21

/-- The part of an address that has host and port: after the scheme, before the
    first slash, behind the last user. -/
def authority (s : List Char) : List Char :=
  let s := (dropStart? "ftp://".toList s).getD s
  let s := match cutFirst '/' s with
    | some (a, _) => a
    | none => s
  match cutLast '@' s with
  | some (_, a) => a
  | none => s

/-- Reads a port. -/
def port? (s : List Char) : Option Nat :=
  unsigned? portBound s

/-- Reads the host in brackets, and what follows it. -/
def bracketed? (s : List Char) : Option Address :=
  match cutFirst ']' s with
  | none => none
  | some ([], _) => none
  | some (host, []) => some ⟨String.ofList host, standardPort⟩
  | some (host, ':' :: p) => (port? p).map fun n => ⟨String.ofList host, n⟩
  | some _ => none

/-- Reads a host with an optional port. -/
def plain? (s : List Char) : Option Address :=
  match cutLast ':' s with
  | none => some ⟨String.ofList s, standardPort⟩
  | some ([], _) => none
  | some (host, p) => (port? p).map fun n => ⟨String.ofList host, n⟩

/-- Reads an address. -/
def parse? (s : String) : Option Address :=
  match authority s.toList with
  | [] => none
  | '[' :: r => bracketed? r
  | a => plain? a

end Address

end HealthWatch.Transfer
