import HealthWatch.Http.Form
import HealthWatch.Http.Router
import HealthWatch.Identifier

/-! # Queries — what a view is asked for

    Fields are taken in their order; a field may have either of two spellings but
    may not come twice, and fields that mean nothing are skipped. -/

namespace HealthWatch.Api

open Http

/-- Why a query is refused. -/
inductive QueryFault where
  | unfit (name reason : String)
  | missing (name : String)
  | repeated (name : String)
deriving DecidableEq, Repr

/-- The words of a message for a refused query. -/
def QueryFault.message (e : QueryFault) : String :=
  "Failed to deserialize query string: " ++
    match e with
    | unfit name reason => name ++ ": " ++ reason
    | missing name => "missing field `" ++ name ++ "`"
    | repeated name => "duplicate field `" ++ name ++ "`"

/-- The answer to a refused query. -/
def QueryFault.response (e : QueryFault) : Response where
  status := 400
  headers := [("content-type", "text/plain; charset=utf-8")]
  body := Text.Utf8.encode e.message.toList

/-- The fields of a query taken so far. -/
structure Query where
  applicationId : Option Identifier := none
  checkName : Option String := none
deriving Repr

namespace Query

/-- Takes the application. -/
def takeApplication (q : Query) (name value : String) : Except QueryFault Query :=
  match q.applicationId with
  | some _ => .error (.repeated "applicationId")
  | none =>
      match Identifier.parse value.toList with
      | .ok id => .ok { q with applicationId := some id }
      | .error e => .error (.unfit name e.message)

/-- Takes the name of a check. -/
def takeCheck (q : Query) (value : String) : Except QueryFault Query :=
  match q.checkName with
  | some _ => .error (.repeated "checkName")
  | none => .ok { q with checkName := some value }

/-- Takes a field; the name of a check counts only when one is asked for. -/
def take (named : Bool) (q : Query) (field : String × String) : Except QueryFault Query :=
  let (name, value) := field
  if name = "applicationId" || name = "ApplicationId" then q.takeApplication name value
  else if named && (name = "checkName" || name = "CheckName") then q.takeCheck value
  else .ok q

/-- The application that a query asks for. -/
def application (r : Request) : Except QueryFault Identifier := do
  let q ← (Form.parse r.query).foldlM (take false) {}
  match q.applicationId with
  | some id => return id
  | none => .error (.missing "applicationId")

/-- The application and the check that a query asks for. -/
def check (r : Request) : Except QueryFault (Identifier × String) := do
  let q ← (Form.parse r.query).foldlM (take true) {}
  match q.applicationId, q.checkName with
  | some id, some name => return (id, name)
  | some _, none => .error (.missing "checkName")
  | none, _ => .error (.missing "applicationId")

end Query

end HealthWatch.Api
