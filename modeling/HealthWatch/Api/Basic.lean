import HealthWatch.Api.Problem
import HealthWatch.Api.Query
import HealthWatch.Wire.View

/-! # The storage interface — reports in, views out

    Collectors register checks and add reports; clients ask for the views of an
    application or of one check.

    * `Api.answer` answers a request to a store. -/

namespace HealthWatch.Api

open Http Text

/-- What a call takes from outside: the time and the identifiers for new rows. -/
structure Moment where
  now : Instant
  checkId : Identifier
  entryId : Identifier
  transitionId : Identifier
deriving Repr, Inhabited

/-- The reason against a report or definition with a blank value. -/
def demand (name value : String) : Except Failure Unit :=
  if isBlankText value then .error (.badRequest (name ++ " must not be empty")) else .ok ()

/-- The definition in a request. -/
def checkOf (r : Request) : Except Failure Check := do
  let check ← (bodyOf (Wire.decodeCheck .written) r).mapError fun e => .badRequest e.message
  demand "name" check.name
  return check

/-- The report in a request. -/
def reportOf (now : Instant) (r : Request) : Except Failure Entry := do
  let entry ← (bodyOf (Wire.decodeEntry now .written) r).mapError fun e => .badRequest e.message
  demand "name" entry.name
  demand "serverName" entry.serverName
  return entry

/-- Registers a definition and answers with the stored one. -/
def register (m : Moment) : Handler Store := fun request store =>
  match checkOf request with
  | .error e => (e.response, store)
  | .ok check =>
      match store.register check m.checkId with
      | (.ok stored, store) => (.json 200 (Wire.encodeCheck stored), store)
      | (.error e, store) => ((Failure.store e).response, store)

/-- Takes over a report. -/
def add (m : Moment) : Handler Store := fun request store =>
  match reportOf m.now request with
  | .error e => (e.response, store)
  | .ok entry =>
      match store.ingest entry (some m.now) m.entryId m.transitionId with
      | (.ok _, store) => (.empty 200, store)
      | (.error e, store) => ((Failure.store e).response, store)

/-- The answer with a view, or with the failure to make it. -/
def viewed {α : Type} (encode : α → Json) : Except Store.Fault α → Response
  | .ok a => .json 200 (encode a)
  | .error e => (Failure.store e).response

/-- Answers with the views of an application. -/
def applicationStatus : Handler Store := fun request store =>
  match Query.application request with
  | .error e => (e.response, store)
  | .ok id =>
      (viewed (fun views => .array (views.map Wire.encodeView)) (store.applicationStatus id),
        store)

/-- Answers with the view of one check. -/
def checkStatus : Handler Store := fun request store =>
  match Query.check request with
  | .error e => (e.response, store)
  | .ok (id, name) =>
      (viewed (Json.ofOption Wire.encodeView) (store.checkStatus id name), store)

/-- The path of an action. -/
def path (action : String) : String :=
  "/api/HealthMonitor/" ++ action

/-- The routes of the interface. -/
def routes (m : Moment) : Router Store := [
  ⟨path "RegisterHealthCheck", "POST", register m⟩,
  ⟨path "AddHealthCheck", "POST", add m⟩,
  ⟨path "GetApplicationStatus", "GET", applicationStatus⟩,
  ⟨path "GetHealthCheck", "GET", checkStatus⟩]

/-- Answers a request to a store. -/
def answer (m : Moment) : Handler Store :=
  crossOrigin (routes m)

end HealthWatch.Api
