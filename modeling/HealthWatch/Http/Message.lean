import HealthWatch.Http.Status
import HealthWatch.Json.Octets
import HealthWatch.Json.Writer

/-! # Messages of the hypertext protocol

    Requests and responses carry header fields, whose names are in lower case,
    and a body of octets. -/

namespace HealthWatch.Http

open Text

/-- Header fields in their order. -/
abbrev Headers := List (String × String)

/-- The first value of a header field. -/
def Headers.value? (h : Headers) (name : String) : Option String :=
  h.lookup name

/-- What a client sends. -/
structure Request where
  method : String
  /-- The path and the query. -/
  target : String
  headers : Headers
  body : List UInt8
deriving DecidableEq, Repr, Inhabited

/-- What a server answers. -/
structure Response where
  status : Nat
  headers : Headers
  body : List UInt8
deriving DecidableEq, Repr, Inhabited

/-- A JSON value as a body. -/
def jsonBody (v : Json) : List UInt8 :=
  Utf8.encode v.write

/-- A response with a JSON body. -/
def Response.json (status : Nat) (v : Json) : Response where
  status := status
  headers := [("content-type", "application/json")]
  body := jsonBody v

/-- A response with nothing in it. -/
def Response.empty (status : Nat) : Response where
  status := status
  headers := []
  body := []

end HealthWatch.Http
