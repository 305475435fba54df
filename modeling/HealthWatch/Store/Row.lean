import HealthWatch.Entry
import HealthWatch.FileFault
import HealthWatch.Instant.Stored
import HealthWatch.Wire.Check

/-! # Rows — definitions, entries and transitions as they are stored

    The store keeps three tables.  Identifiers, times, durations and tags are
    stored as texts and statuses as numbers, so a row that something else wrote
    need not read back.

    * `ofCheck`, `ofEntry` and `ofTransition` make rows;
    * `read` reads a row back or says which column does not. -/

namespace HealthWatch.Store

open Text

/-- What the tables refuse, or cannot give back. -/
inductive TableFault where
  /-- A column that does not read back: its place in the query, the type of what is
      stored there, and what is wrong. -/
  | unreadable (index : Nat) (type reason : String)
  | wrongType (index : Nat) (column type : String)
  | duplicate (columns : List String)
  | noReference
  | missing (column : String)
  | unopened (path : String)
deriving DecidableEq, Repr

/-- The words of a message for a fault. -/
def TableFault.message : TableFault → String
  | unreadable i t reason =>
      "Conversion error from type " ++ t ++ " at index: " ++ natText i ++ ", " ++ reason
  | wrongType i column t =>
      "Invalid column type " ++ t ++ " at index: " ++ natText i ++ ", name: " ++ column
  | duplicate columns => "UNIQUE constraint failed: " ++ ", ".intercalate columns
  | noReference => "FOREIGN KEY constraint failed"
  | missing column => "NOT NULL constraint failed: " ++ column
  | unopened path => "unable to open database file: " ++ path

/-- Why a call to the store fails. -/
inductive Fault where
  | table (fault : TableFault)
  | migration (reason : String)
  | file (fault : FileFault)
  | lockPoisoned
  | unregistered (name : String)
  /-- The clock could not be read. -/
  | noClock
deriving DecidableEq, Repr

/-- The words of a message for a fault. -/
def Fault.message : Fault → String
  | table fault => "SQLite error: " ++ fault.message
  | migration reason => "Migration error: " ++ reason
  | file fault => "IO error: " ++ fault.message
  | lockPoisoned => "Database lock poisoned"
  | unregistered name => "Health check " ++ quote name ++ " is not registered"
  | noClock => "the clock cannot be read"

/-- A stored status: a number, or a text that is none. -/
inductive StatusCell where
  | number (code : Int)
  | text (value : String)
deriving DecidableEq, Repr, Inhabited

/-- A stored definition. -/
structure CheckRow where
  id : String
  name : String
  description : String
  tags : String
deriving DecidableEq, Repr, Inhabited

/-- A stored entry. -/
structure EntryRow where
  id : String
  applicationId : String
  serverName : String
  name : String
  description : Option String
  status : StatusCell
  lastExecution : String
  lastDuration : String
  checkId : String
deriving DecidableEq, Repr, Inhabited

/-- A stored transition. -/
structure TransitionRow where
  id : String
  entryId : String
  status : StatusCell
  statusFrom : String
  lastExecution : String
  lastDuration : String
deriving DecidableEq, Repr, Inhabited

/-! ## Columns -/

/-- A time as it is stored. -/
def timeText (t : Instant) : String := String.ofList (Instant.Stored.format t)

/-- A duration as it is stored. -/
def durationText (d : Duration) : String := String.ofList (TimeSpan.format d)

/-- The identifier in a column. -/
def readIdentifier (index : Nat) (s : String) : Except TableFault Identifier :=
  (Identifier.parse s.toList).mapError fun e => .unreadable index "Text" e.reason

/-- The time in a column. -/
def readTime (index : Nat) (s : String) : Except TableFault Instant :=
  match Instant.Stored.parse? s.toList with
  | some t => .ok t
  | none => .error (.unreadable index "Text" ("invalid time " ++ quote s))

/-- The duration in a column. -/
def readDuration (index : Nat) (s : String) : Except TableFault Duration :=
  match TimeSpan.parse? s.toList with
  | some d => .ok d
  | none => .error (.unreadable index "Text" ("invalid duration " ++ quote s))

/-- The status in a column. -/
def readStatus (index : Nat) : StatusCell → Except TableFault Status
  | .number n =>
      match Status.ofCode? n with
      | some s => .ok s
      | none => .error (.unreadable index "Integer" ("invalid status " ++ integerText n))
  | .text _ => .error (.wrongType index "status" "Text")

/-- The tags in a column. -/
def readTags (index : Nat) (s : String) : Except TableFault (List String) :=
  (Wire.parseTags s).mapError fun e => .unreadable index "Text" e.reason

/-! ## Rows -/

/-- The row of a definition. -/
def CheckRow.ofCheck (c : Check) : CheckRow where
  id := c.id.toText
  name := c.name
  description := c.description
  tags := Wire.tagsText c.tags

/-- The definition in a row; its columns stand behind `offset` others. -/
def CheckRow.read (offset : Nat) (r : CheckRow) : Except TableFault Check := do
  let id ← readIdentifier offset r.id
  let tags ← readTags (offset + 3) r.tags
  return { id, name := r.name, description := r.description, tags }

/-- The row of an entry that belongs to a definition. -/
def EntryRow.ofEntry (e : Entry) (checkId : Identifier) : EntryRow where
  id := e.id.toText
  applicationId := e.applicationId.toText
  serverName := e.serverName
  name := e.name
  description := e.description
  status := .number e.status.code
  lastExecution := timeText e.lastExecution
  lastDuration := durationText e.lastDuration
  checkId := checkId.toText

/-- The entry in a row, with the definition in another. -/
def EntryRow.read (r : EntryRow) (definition : CheckRow) : Except TableFault Entry := do
  let id ← readIdentifier 0 r.id
  let applicationId ← readIdentifier 1 r.applicationId
  let status ← readStatus 5 r.status
  let lastExecution ← readTime 6 r.lastExecution
  let lastDuration ← readDuration 7 r.lastDuration
  let check ← definition.read 8
  return {
    id, applicationId, serverName := r.serverName, name := r.name
    description := r.description, status, lastExecution, lastDuration
    check := some check, history := none }

/-- The row of a transition. -/
def TransitionRow.ofTransition (t : Transition) : TransitionRow where
  id := t.id.toText
  entryId := t.entryId.toText
  status := .number t.status.code
  statusFrom := timeText t.statusFrom
  lastExecution := timeText t.lastExecution
  lastDuration := durationText t.lastDuration

/-- The transition in a row. -/
def TransitionRow.read (r : TransitionRow) : Except TableFault Transition := do
  let id ← readIdentifier 0 r.id
  let entryId ← readIdentifier 1 r.entryId
  let status ← readStatus 2 r.status
  let statusFrom ← readTime 3 r.statusFrom
  let lastExecution ← readTime 4 r.lastExecution
  let lastDuration ← readDuration 5 r.lastDuration
  return { id, entryId, status, statusFrom, lastExecution, lastDuration }

end HealthWatch.Store
