import HealthWatch.Http.MediaType
import HealthWatch.Http.Message
import HealthWatch.Json.Place
import HealthWatch.Store.Basic

/-! # Problems — failures as documents

    A failure is answered with a document that has a title, the status code and
    the details.  What a client did wrong is its own fault, everything else that
    of the store.

    * `bodyOf` decodes the JSON body of a request or says why it cannot. -/

namespace HealthWatch.Api

open Http Text

/-- Why a body is refused. -/
inductive BodyFault where
  | notJson
  | tooLong
  | undecodable (fault : Json.Fault) (place : Json.Place)
deriving Repr

/-- The words for a fault in a body: the way to it, if any of its steps has a name,
    what it is, and its place. -/
def decodingText (fault : Json.Fault) (place : Json.Place) : String :=
  let way := if fault.path.all (· = .unnamed) then "" else Json.pathText fault.path ++ ": "
  way ++ fault.reason ++ " at line " ++ natText place.line ++ " column " ++ natText place.column

/-- The words of a message for a refused body. -/
def BodyFault.message : BodyFault → String
  | notJson => "Expected request with `Content-Type: application/json`"
  | tooLong => "Failed to buffer the request body: length limit exceeded"
  | undecodable fault place =>
      let head := match fault with
        | .malformed _ _ => "Failed to parse the request body as JSON: "
        | .refused _ _ => "Failed to deserialize the JSON body into the target type: "
      head ++ decodingText fault place

/-- Why a request fails. -/
inductive Failure where
  | badRequest (reason : String)
  | store (fault : Store.Fault)
deriving Repr

namespace Failure

/-- Whether it is the client's fault. -/
def isClients : Failure → Bool
  | badRequest _ => true
  | store (.unregistered _) => true
  | store _ => false

/-- The status code of a failure. -/
def status (e : Failure) : Nat :=
  if e.isClients then 400 else 500

/-- The title of a failure. -/
def title (e : Failure) : String :=
  if e.isClients then "Invalid request" else "Storage failure"

/-- The details of a failure. -/
def detail : Failure → String
  | badRequest reason => reason
  | store fault => fault.message

/-- The document about a failure. -/
def response (e : Failure) : Response where
  status := e.status
  headers := [("content-type", "application/problem+json")]
  body := jsonBody (.object [
    ("title", .text e.title),
    ("status", .ofNat e.status),
    ("detail", .text e.detail)])

end Failure

/-- The greatest number of octets of a body. -/
def bodyLimit : Nat := 1024 * 1024

/-- Whether a request says that its body is JSON. -/
def saysJson (r : Request) : Bool :=
  match (r.headers.value? "content-type").bind MediaType.parse? with
  | some m => m.isJson
  | none => false

/-- Decodes the body of a request. -/
def bodyOf {α : Type} (f : Json.Document → Except Json.Fault α) (r : Request) :
    Except BodyFault α :=
  if !saysJson r then .error .notJson
  else if r.body.length > bodyLimit then .error .tooLong
  else
    (Json.Decode.body f r.body).mapError fun fault =>
      .undecodable fault (fault.place (Json.Decode.body f) r.body)

end HealthWatch.Api
