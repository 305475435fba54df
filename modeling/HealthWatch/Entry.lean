import HealthWatch.Check
import HealthWatch.Duration
import HealthWatch.Instant.Basic
import HealthWatch.Status

/-! # Entries — the state of a check on one server of an application

    An entry holds the latest report for its key: the application, the server
    and the name of the check.  Every change of its status is a transition; the
    transitions of an entry are its history.

    * `Entry.first` makes the entry of a first report;
    * `Entry.update` takes over a later report;
    * `Transition.of?` gives the transition that a report makes, if any. -/

namespace HealthWatch

/-- One change of the status of an entry. -/
structure Transition where
  id : Identifier
  entryId : Identifier
  status : Status
  statusFrom : Instant
  lastExecution : Instant
  lastDuration : Duration
deriving DecidableEq, Repr, Inhabited

/-- The latest report of a check on one server of an application. -/
structure Entry where
  id : Identifier
  applicationId : Identifier
  serverName : String
  name : String
  description : Option String
  status : Status
  lastExecution : Instant
  lastDuration : Duration
  check : Option Check
  history : Option (List Transition)
deriving DecidableEq, Repr, Inhabited

namespace Entry

/-- The tags of the definition, none when there is no definition. -/
def tags (e : Entry) : List String :=
  match e.check with
  | some c => c.tags
  | none => []

/-- The entry of a first report, stamped with the time it came in. -/
def first (incoming : Entry) (definition : Check) (id : Identifier) (now : Instant) : Entry :=
  { incoming with id, lastExecution := now, check := some definition, history := none }

/-- An entry after a later report. -/
def update (entry incoming : Entry) (now : Instant) : Entry :=
  { entry with
    description := incoming.description
    status := incoming.status
    lastExecution := now
    lastDuration := incoming.lastDuration }

end Entry

namespace Transition

/-- The transition that a report makes when it comes in. -/
def arrival (id entryId : Identifier) (incoming : Entry) (now : Instant) : Transition where
  id := id
  entryId := entryId
  status := incoming.status
  statusFrom := now
  lastExecution := now
  lastDuration := incoming.lastDuration

/-- The transition of a report after the latest one of its entry: none when the
    status stays the same. -/
def of? (id entryId : Identifier) (latest : Option Transition) (incoming : Entry)
    (now : Instant) : Option Transition :=
  if latest.map Transition.status = some incoming.status then none
  else some (arrival id entryId incoming now)

end Transition

end HealthWatch
