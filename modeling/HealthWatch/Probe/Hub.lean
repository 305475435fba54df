import HealthWatch.Http.Client
import HealthWatch.Probe.Basic

/-! # Message hubs — negotiate as a client does

    A client of a hub asks it first how to connect.  The hub answers with names
    for the connection, with another address, or with the reason for a refusal.

    * `Hub.judge` turns an answer into a result, `Hub.check` asks for it. -/

namespace HealthWatch.Hub

open Http Json Json.Decode

/-- The answer of a hub. -/
structure Negotiation where
  connectionId : Option String
  connectionToken : Option String
  url : Option String
  error : Option String
deriving DecidableEq, Repr

/-- The members of an answer read so far. -/
structure Draft where
  connectionId : Option (Option String) := none
  connectionToken : Option (Option String) := none
  url : Option (Option String) := none
  error : Option (Option String) := none

/-- Takes one member of an answer. -/
def Draft.step (b : Draft) (key : String) (d : Document) : Except Json.Fault Draft :=
  match key with
  | "connectionId" =>
      return { b with connectionId := ← once key (option string) d b.connectionId }
  | "connectionToken" =>
      return { b with connectionToken := ← once key (option string) d b.connectionToken }
  | "url" => return { b with url := ← once key (option string) d b.url }
  | "error" => return { b with error := ← once key (option string) d b.error }
  | _ => do
      skip key d
      return b

/-- An answer from JSON. -/
def Negotiation.decode : Document → Except Json.Fault Negotiation :=
  record "Negotiation" 4 .written {} Draft.step
    (fun b => return ⟨b.connectionId.getD none, b.connectionToken.getD none,
      b.url.getD none, b.error.getD none⟩)
    (fun fs => do
      let (connectionId, fs) ← fs.next (option string)
      let (connectionToken, fs) ← fs.next (option string)
      let (url, fs) ← fs.next (option string)
      let (error, fs) ← fs.next (option string)
      return (⟨connectionId, connectionToken, url, error⟩, fs))

/-- The address of a hub without the slashes it ends with. -/
def address (url : String) : String :=
  String.ofList (url.toList.reverse.dropWhile (· == '/')).reverse

/-- The call that starts a negotiation. -/
def call (hub : String) : Except CallFault Call :=
  Call.to? "POST" (hub ++ "/negotiate?negotiateVersion=1") [] []

/-- The answer of a hub in what came back from it. -/
def negotiation (hub : String) (outcome : Except CallFault Response) :
    Except ProbeError Negotiation :=
  match outcome with
  | .error e => .error (.http e.message)
  | .ok response =>
      if !isSuccess response.status then
        .error (.protocol ("hub " ++ hub ++ " returns status code "
          ++ statusText response.status))
      else (response.decode Negotiation.decode).mapError fun e => .http e.message

/-- The result of a negotiation. -/
def judge (ctx : ProbeContext) (hub : String) (outcome : Except CallFault Response) :
    ProbeResult :=
  match negotiation hub outcome with
  | .error e => .failed ctx.failureStatus e
  | .ok n =>
      match n.error with
      | some reason =>
          .described ctx.failureStatus ("hub " ++ hub ++ " refused connection: " ++ reason)
      | none =>
          if n.connectionId.isSome || n.connectionToken.isSome || n.url.isSome then .healthy
          else
            .described ctx.failureStatus
              ("hub " ++ hub ++ " returned an unexpected negotiate response")

/-- Checks a hub. -/
def check (network : Network) (ctx : ProbeContext) (url : String) : ProbeResult :=
  let hub := address url
  judge ctx hub ((call hub).bind (Call.send network))

end HealthWatch.Hub
