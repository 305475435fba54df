import HealthWatch.Store.Row

/-! # Tables — reading and writing rows

    Rows stand in the order in which they were inserted.  Identifiers, the names
    of definitions and the keys of entries are unique, an entry refers to its
    definition and a transition to its entry.

    * `findCheck?`, `findEntry?` and `latest?` look up one row;
    * `applicationEntries`, `checkEntries` and `history` list rows;
    * `register` and `ingest` take over what is reported. -/

namespace HealthWatch.Store

/-- All that is stored. -/
structure Tables where
  checks : List CheckRow := []
  entries : List EntryRow := []
  transitions : List TransitionRow := []
deriving DecidableEq, Repr, Inhabited

/-- What names an entry. -/
structure Key where
  applicationId : Identifier
  serverName : String
  name : String
deriving DecidableEq, Repr, Inhabited

/-- The key of a report. -/
def Key.ofEntry (e : Entry) : Key where
  applicationId := e.applicationId
  serverName := e.serverName
  name := e.name

/-- Whether a row has this key. -/
def EntryRow.hasKey (k : Key) (r : EntryRow) : Bool :=
  r.applicationId = k.applicationId.toText && r.serverName = k.serverName && r.name = k.name

/-- Takes the changeable columns of a row from another one. -/
def EntryRow.updated (r new : EntryRow) : EntryRow :=
  { r with
    description := new.description
    status := new.status
    lastExecution := new.lastExecution
    lastDuration := new.lastDuration }

/-- What an ingest did. -/
structure Outcome where
  entryId : Identifier
  created : Bool
  historyAppended : Bool
deriving DecidableEq, Repr, Inhabited

namespace Tables

/-! ## Look-ups -/

/-- The definition of this name. -/
def findCheck? (t : Tables) (name : String) : Except TableFault (Option Check) :=
  (t.checks.find? fun r => r.name = name).mapM (CheckRow.read 0)

/-- The row of the definition that an entry refers to. -/
def definitionOf? (t : Tables) (r : EntryRow) : Option CheckRow :=
  t.checks.find? fun c => c.id = r.checkId

/-- The rows of entries that have a definition and pass a test, with it. -/
def select (t : Tables) (test : EntryRow → Bool) : List (EntryRow × CheckRow) :=
  (t.entries.filter test).filterMap fun r => (t.definitionOf? r).map (r, ·)

/-- The entry with this key. -/
def findEntry? (t : Tables) (k : Key) : Except TableFault (Option Entry) :=
  (t.select (EntryRow.hasKey k)).head?.mapM fun (r, c) => r.read c

/-- The rows of the transitions of an entry, the latest time first, and of equal
    times the newest row first. -/
def historyRows (t : Tables) (entryId : Identifier) : List TransitionRow :=
  (t.transitions.filter fun r => r.entryId = entryId.toText).reverse.mergeSort
    fun a b => !(decide (a.lastExecution < b.lastExecution))

/-- The history of an entry, the latest first. -/
def history (t : Tables) (entryId : Identifier) : Except TableFault (List Transition) :=
  (t.historyRows entryId).mapM TransitionRow.read

/-- The latest transition of an entry. -/
def latest? (t : Tables) (entryId : Identifier) : Except TableFault (Option Transition) :=
  (t.historyRows entryId).head?.mapM TransitionRow.read

/-- The order of the entries of an application: by name, then by server. -/
def precedes (a b : EntryRow) : Bool :=
  if a.name = b.name then !(decide (b.serverName < a.serverName))
  else decide (a.name < b.name)

/-- The entries that pass a test, by name and server. -/
def list (t : Tables) (test : EntryRow → Bool) : Except TableFault (List Entry) :=
  ((t.select test).mergeSort fun a b => precedes a.1 b.1).mapM fun (r, c) => r.read c

/-- The entries of an application. -/
def applicationEntries (t : Tables) (applicationId : Identifier) :
    Except TableFault (List Entry) :=
  t.list fun r => r.applicationId = applicationId.toText

/-- The entries of one check of an application, with their histories. -/
def checkEntries (t : Tables) (applicationId : Identifier) (name : String) :
    Except TableFault (List Entry) := do
  let entries ← t.list fun r => r.applicationId = applicationId.toText && r.name = name
  entries.mapM fun e => return { e with history := some (← t.history e.id) }

/-! ## Changes -/

/-- Stores a new definition. -/
def insertCheck (t : Tables) (c : Check) : Except TableFault Tables :=
  let row := CheckRow.ofCheck c
  if t.checks.any fun r => r.id = row.id then .error (.duplicate ["health_checks.id"])
  else if t.checks.any fun r => r.name = row.name then .error (.duplicate ["health_checks.name"])
  else .ok { t with checks := t.checks ++ [row] }

/-- Stores a new entry. -/
def insertEntry (t : Tables) (e : Entry) (checkId : Identifier) : Except TableFault Tables :=
  let row := EntryRow.ofEntry e checkId
  if t.entries.any fun r => r.id = row.id then .error (.duplicate ["health_check_entries.id"])
  else if t.entries.any (EntryRow.hasKey (.ofEntry e)) then
    .error (.duplicate ["health_check_entries.application_id",
      "health_check_entries.server_name", "health_check_entries.name"])
  else if t.checks.any fun r => r.id = row.checkId then
    .ok { t with entries := t.entries ++ [row] }
  else .error .noReference

/-- Stores a new transition. -/
def insertTransition (t : Tables) (x : Transition) : Except TableFault Tables :=
  let row := TransitionRow.ofTransition x
  if t.transitions.any fun r => r.id = row.id then
    .error (.duplicate ["health_check_history_entries.id"])
  else if t.entries.any fun r => r.id = row.entryId then
    .ok { t with transitions := t.transitions ++ [row] }
  else .error .noReference

/-- Stores what has changed of an entry. -/
def updateEntry (t : Tables) (e : Entry) : Tables :=
  let new := EntryRow.ofEntry e .nil
  { t with entries := t.entries.map fun r => if r.id = new.id then r.updated new else r }

/-- Stores a definition unless there is one of its name, and gives the stored one.
    `fresh` becomes the identifier of one that has none. -/
def register (t : Tables) (c : Check) (fresh : Identifier) : Except TableFault (Check × Tables) := do
  match ← t.findCheck? c.name with
  | some existing => return (existing, t)
  | none =>
      let stored := if c.id.isNil then { c with id := fresh } else c
      return (stored, ← t.insertCheck stored)

/-- Stores the first report for a key. -/
def ingestFirst (t : Tables) (incoming : Entry) (now : Instant)
    (entryId transitionId : Identifier) : Except Fault (Outcome × Tables) := do
  match ← (t.findCheck? incoming.name).mapError .table with
  | none => .error (.unregistered incoming.name)
  | some definition =>
      let entry := Entry.first incoming definition entryId now
      let t ← (t.insertEntry entry definition.id).mapError .table
      let t ← (t.insertTransition
        (.arrival transitionId entry.id incoming now)).mapError .table
      return (⟨entry.id, true, true⟩, t)

/-- Stores a later report for an entry. -/
def ingestLater (t : Tables) (entry incoming : Entry) (now : Instant)
    (transitionId : Identifier) : Except TableFault (Outcome × Tables) := do
  let latest ← t.latest? entry.id
  match Transition.of? transitionId entry.id latest incoming now with
  | some x =>
      let t ← t.insertTransition x
      return (⟨entry.id, false, true⟩, t.updateEntry (entry.update incoming now))
  | none => return (⟨entry.id, false, false⟩, t.updateEntry (entry.update incoming now))

/-- Takes over a report that comes in now.  The identifiers are for a new entry and
    a new transition. -/
def ingest (t : Tables) (incoming : Entry) (now : Instant)
    (entryId transitionId : Identifier) : Except Fault (Outcome × Tables) := do
  match ← (t.findEntry? (.ofEntry incoming)).mapError .table with
  | none => t.ingestFirst incoming now entryId transitionId
  | some entry => (t.ingestLater entry incoming now transitionId).mapError .table

end Tables

end HealthWatch.Store
