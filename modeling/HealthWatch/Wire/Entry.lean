import HealthWatch.Entry
import HealthWatch.Wire.Check

/-! # Entries on the wire

    A report has to name its application, server and check and to give a status.
    A time it does not give is the time of decoding.  Definition and history are
    written only when they are there. -/

namespace HealthWatch.Wire

open Json Json.Decode

/-- A transition as JSON. -/
def encodeTransition (t : Transition) : Json :=
  .object [
    ("id", encodeIdentifier t.id),
    ("entryId", encodeIdentifier t.entryId),
    ("status", encodeStatus t.status),
    ("statusFrom", encodeInstant t.statusFrom),
    ("lastExecution", encodeInstant t.lastExecution),
    ("lastDuration", encodeDuration t.lastDuration)]

/-- The members of a transition read so far. -/
structure TransitionDraft where
  id : Option Identifier := none
  entryId : Option Identifier := none
  status : Option Status := none
  statusFrom : Option Instant := none
  lastExecution : Option Instant := none
  lastDuration : Option Duration := none

/-- Takes one member of a transition. -/
def TransitionDraft.step (medium : Medium) (b : TransitionDraft) (key : String)
    (d : Document) : Except Json.Fault TransitionDraft :=
  match key with
  | "id" => return { b with id := ← once key decodeIdentifier d b.id }
  | "entryId" => return { b with entryId := ← once key decodeIdentifier d b.entryId }
  | "status" => return { b with status := ← once key (decodeStatus medium) d b.status }
  | "statusFrom" => return { b with statusFrom := ← once key decodeInstant d b.statusFrom }
  | "lastExecution" =>
      return { b with lastExecution := ← once key decodeInstant d b.lastExecution }
  | "lastDuration" =>
      return { b with lastDuration := ← once key decodeDuration d b.lastDuration }
  | _ => do
      skip key d
      return b

/-- The transition of the members read; all are required. -/
def TransitionDraft.finish (b : TransitionDraft) : Except Json.Fault Transition := do
  let id ← required "id" b.id
  let entryId ← required "entryId" b.entryId
  let status ← required "status" b.status
  let statusFrom ← required "statusFrom" b.statusFrom
  let lastExecution ← required "lastExecution" b.lastExecution
  let lastDuration ← required "lastDuration" b.lastDuration
  return { id, entryId, status, statusFrom, lastExecution, lastDuration }

/-- A transition from its fields in a list. -/
def transitionFields (medium : Medium) (fs : Fields) :
    Except Json.Fault (Transition × Fields) := do
  let (id, fs) ← fs.next decodeIdentifier
  let (entryId, fs) ← fs.next decodeIdentifier
  let (status, fs) ← fs.next (decodeStatus medium)
  let (statusFrom, fs) ← fs.next decodeInstant
  let (lastExecution, fs) ← fs.next decodeInstant
  let (lastDuration, fs) ← fs.next decodeDuration
  return ({ id, entryId, status, statusFrom, lastExecution, lastDuration }, fs)

/-- A transition from JSON. -/
def decodeTransition (medium : Medium) (d : Document) : Except Json.Fault Transition :=
  record "HealthCheckHistoryEntry" 6 medium {} (TransitionDraft.step medium)
    TransitionDraft.finish (transitionFields medium) d

/-- An entry as JSON. -/
def encodeEntry (e : Entry) : Json :=
  .object ([
    ("id", encodeIdentifier e.id),
    ("applicationId", encodeIdentifier e.applicationId),
    ("serverName", .text e.serverName),
    ("name", .text e.name),
    ("description", encodeText? e.description),
    ("status", encodeStatus e.status),
    ("lastExecution", encodeInstant e.lastExecution),
    ("lastDuration", encodeDuration e.lastDuration)]
    ++ member? "healthCheck" encodeCheck e.check
    ++ member? "historyEntries" (fun ts => .array (ts.map encodeTransition)) e.history)

/-- The members of an entry read so far. -/
structure EntryDraft where
  id : Option Identifier := none
  applicationId : Option Identifier := none
  serverName : Option String := none
  name : Option String := none
  description : Option (Option String) := none
  status : Option Status := none
  lastExecution : Option Instant := none
  lastDuration : Option Duration := none
  check : Option (Option Check) := none
  history : Option (Option (List Transition)) := none

/-- Takes one member of an entry. -/
def EntryDraft.step (medium : Medium) (b : EntryDraft) (key : String) (d : Document) :
    Except Json.Fault EntryDraft :=
  match key with
  | "id" => return { b with id := ← once key decodeIdentifier d b.id }
  | "applicationId" =>
      return { b with applicationId := ← once key decodeIdentifier d b.applicationId }
  | "serverName" => return { b with serverName := ← once key string d b.serverName }
  | "name" => return { b with name := ← once key string d b.name }
  | "description" =>
      return { b with description := ← once key (option string) d b.description }
  | "status" => return { b with status := ← once key (decodeStatus medium) d b.status }
  | "lastExecution" =>
      return { b with lastExecution := ← once key decodeInstant d b.lastExecution }
  | "lastDuration" =>
      return { b with lastDuration := ← once key decodeDuration d b.lastDuration }
  | "healthCheck" =>
      return { b with check := ← once key (option (decodeCheck medium)) d b.check }
  | "historyEntries" =>
      return { b with
        history := ← once key (option (list (decodeTransition medium))) d b.history }
  | _ => do
      skip key d
      return b

/-- The entry of the members read. -/
def EntryDraft.finish (now : Instant) (b : EntryDraft) : Except Json.Fault Entry := do
  let applicationId ← required "applicationId" b.applicationId
  let serverName ← required "serverName" b.serverName
  let name ← required "name" b.name
  let status ← required "status" b.status
  return {
    id := b.id.getD .nil
    applicationId
    serverName
    name
    description := b.description.getD none
    status
    lastExecution := b.lastExecution.getD now
    lastDuration := b.lastDuration.getD .zero
    check := b.check.getD none
    history := b.history.getD none }

/-- An entry from its fields in a list. -/
def entryFields (now : Instant) (medium : Medium) (fs : Fields) :
    Except Json.Fault (Entry × Fields) := do
  let (id, fs) ← fs.nextD decodeIdentifier .nil
  let (applicationId, fs) ← fs.next decodeIdentifier
  let (serverName, fs) ← fs.next string
  let (name, fs) ← fs.next string
  let (description, fs) ← fs.nextD (option string) none
  let (status, fs) ← fs.next (decodeStatus medium)
  let (lastExecution, fs) ← fs.nextD decodeInstant now
  let (lastDuration, fs) ← fs.nextD decodeDuration .zero
  let (check, fs) ← fs.nextD (option (decodeCheck medium)) none
  let (history, fs) ← fs.nextD (option (list (decodeTransition medium))) none
  return ({ id, applicationId, serverName, name, description, status, lastExecution,
            lastDuration, check, history }, fs)

/-- An entry from JSON; `now` is the time of decoding. -/
def decodeEntry (now : Instant) (medium : Medium) (d : Document) : Except Json.Fault Entry :=
  record "HealthCheckEntry" 10 medium {} (EntryDraft.step medium) (EntryDraft.finish now)
    (entryFields now medium) d

end HealthWatch.Wire
