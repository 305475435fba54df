import HealthWatch.Http.Message
import HealthWatch.Http.Url

/-! # Calls — requests to an address, and what becomes of them

    A call fails when its address is none, when the address has no host or another
    scheme than those of requests, when no response comes back, or when the body of
    the response is not of the expected form. -/

namespace HealthWatch.Http

/-- Why a call failed. -/
inductive CallFault where
  | badAddress
  | notWeb (url : Url)
  | unanswered (url : Url)
  | undecodable
deriving DecidableEq, Repr

/-- The words of a message for a failed call. -/
def CallFault.message : CallFault → String
  | badAddress => "builder error"
  | notWeb url => "builder error for url (" ++ url.toText ++ ")"
  | unanswered url => "error sending request for url (" ++ url.toText ++ ")"
  | undecodable => "error decoding response body"

/-- A request and the address it goes to. -/
structure Call where
  url : Url
  request : Request
deriving DecidableEq, Repr

/-- What answers calls: a response, or none when the connection is refused, is
    closed before an answer or stays silent. -/
abbrev Network := Call → Option Response

/-- An address that requests can go to: it has a host, and the scheme is one of theirs. -/
def Url.IsWeb (u : Url) : Prop :=
  u.host ≠ none ∧ u.scheme ∈ ["http".toList, "https".toList]

instance (u : Url) : Decidable u.IsWeb :=
  inferInstanceAs (Decidable (_ ∧ _))

/-- A call to an address given as a text. -/
def Call.to? (method address : String) (headers : Headers) (body : List UInt8) :
    Except CallFault Call :=
  match Url.parse? address.toList with
  | none => .error .badAddress
  | some url =>
      if url.IsWeb then .ok { url, request := { method, target := url.target, headers, body } }
      else .error (.notWeb url)

/-- Sends a call. -/
def Call.send (network : Network) (call : Call) : Except CallFault Response :=
  match network call with
  | some response => .ok response
  | none => .error (.unanswered call.url)

/-- Decodes the body of a response. -/
def Response.decode {α : Type} (f : Json.Document → Except Json.Fault α) (r : Response) :
    Except CallFault α :=
  (Json.Decode.body f r.body).mapError fun _ => .undecodable

end HealthWatch.Http
