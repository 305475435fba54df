import HealthWatch.Store.Tables

/-! # Overwriting — changes from outside

    Whatever else has the file of a store open can overwrite its columns.  Columns
    keep their kind: a text column takes a number as its digits, a number column
    takes digits as a number.  The rules on unique and missing values still hold,
    but references are not looked after. -/

namespace HealthWatch.Store

open Text

/-- A value that is put into a column or compared with it. -/
inductive Cell where
  | null
  | number (value : Int)
  | text (value : String)
deriving DecidableEq, Repr

namespace Cell

/-- The value as a text column has it; none for null. -/
def asText? : Cell → Option String
  | null => none
  | number n => some (integerText n)
  | text s => some s

/-- The number that a text stands for. -/
def integer? (s : String) : Option Int :=
  match trim s.toList with
  | '-' :: r => (numeral? r).map fun n => -(n : Int)
  | r => (numeral? (dropPlus r)).map Int.ofNat

/-- The value as a status column has it; none for null. -/
def asStatus? : Cell → Option StatusCell
  | null => none
  | number n => some (.number n)
  | text s => some <| match integer? s with
      | some n => .number n
      | none => .text s

end Cell

/-- A column of a row type: its name, how a value is compared with it, and how it is
    put into it. -/
structure Column (ρ : Type) where
  name : String
  holds : Cell → ρ → Bool
  put : Cell → ρ → Option ρ

/-- A text column that may not be null. -/
def Column.ofText {ρ : Type} (name : String) (get : ρ → String) (set : String → ρ → ρ) :
    Column ρ where
  name := name
  holds v r := v.asText? = some (get r)
  put v r := v.asText?.map fun s => set s r

/-- A status column. -/
def Column.ofStatus {ρ : Type} (get : ρ → StatusCell) (set : StatusCell → ρ → ρ) :
    Column ρ where
  name := "status"
  holds v r := v.asStatus? = some (get r)
  put v r := v.asStatus?.map fun s => set s r

/-- The columns of definitions. -/
def CheckRow.columns : List (Column CheckRow) := [
  .ofText "id" CheckRow.id fun s r => { r with id := s },
  .ofText "name" CheckRow.name fun s r => { r with name := s },
  .ofText "description" CheckRow.description fun s r => { r with description := s },
  .ofText "tags" CheckRow.tags fun s r => { r with tags := s }]

/-- The columns of entries. -/
def EntryRow.columns : List (Column EntryRow) := [
  .ofText "id" EntryRow.id fun s r => { r with id := s },
  .ofText "application_id" EntryRow.applicationId fun s r => { r with applicationId := s },
  .ofText "server_name" EntryRow.serverName fun s r => { r with serverName := s },
  .ofText "name" EntryRow.name fun s r => { r with name := s },
  { name := "description"
    holds := fun v r => v ≠ .null && v.asText? = r.description
    put := fun v r => some { r with description := v.asText? } },
  .ofStatus EntryRow.status fun s r => { r with status := s },
  .ofText "last_execution" EntryRow.lastExecution fun s r => { r with lastExecution := s },
  .ofText "last_duration" EntryRow.lastDuration fun s r => { r with lastDuration := s },
  .ofText "health_check_id" EntryRow.checkId fun s r => { r with checkId := s }]

/-- The columns of transitions. -/
def TransitionRow.columns : List (Column TransitionRow) := [
  .ofText "id" TransitionRow.id fun s r => { r with id := s },
  .ofText "entry_id" TransitionRow.entryId fun s r => { r with entryId := s },
  .ofStatus TransitionRow.status fun s r => { r with status := s },
  .ofText "status_from" TransitionRow.statusFrom fun s r => { r with statusFrom := s },
  .ofText "last_execution" TransitionRow.lastExecution fun s r => { r with lastExecution := s },
  .ofText "last_duration" TransitionRow.lastDuration fun s r => { r with lastDuration := s }]

/-- A change of one column: of all rows, or of those whose column `condition` has
    a value. -/
structure Overwrite where
  column : String
  value : Cell
  condition : Option (String × Cell) := none
deriving Repr

/-- The column of this name. -/
def Column.named? {ρ : Type} (columns : List (Column ρ)) (name : String) : Option (Column ρ) :=
  columns.find? fun c => c.name = name

/-- Which rows a change is for; none when there is no such column. -/
def Overwrite.test? {ρ : Type} (o : Overwrite) (columns : List (Column ρ)) : Option (ρ → Bool) :=
  match o.condition with
  | none => some fun _ => true
  | some (name, v) => (Column.named? columns name).map fun c => c.holds v

/-- A row with a value in a column. -/
def Column.overwrite {ρ : Type} (c : Column ρ) (table : String) (v : Cell) (r : ρ) :
    Except TableFault ρ :=
  match c.put v r with
  | some r => .ok r
  | none => .error (.missing (table ++ "." ++ c.name))

/-- The rows after a change, and how many it touched; none when there is no such
    column. -/
def Overwrite.rows? {ρ : Type} (o : Overwrite) (table : String) (columns : List (Column ρ))
    (rows : List ρ) : Option (Except TableFault (Nat × List ρ)) := do
  let column ← Column.named? columns o.column
  let test ← o.test? columns
  return do
    let changed ← rows.mapM fun r =>
      if test r then column.overwrite table o.value r else .ok r
    return ((rows.filter test).length, changed)

/-- Refuses rows of which two have the same value. -/
def unique {ρ α : Type} [DecidableEq α] (names : List String) (f : ρ → α) (rows : List ρ) :
    Except TableFault Unit :=
  if (rows.map f).Nodup then .ok () else .error (.duplicate names)

namespace Tables

/-- Overwrites a column of definitions. -/
def overwriteChecks? (t : Tables) (o : Overwrite) : Option (Except TableFault (Nat × Tables)) := do
  let result ← o.rows? "health_checks" CheckRow.columns t.checks
  return do
    let (count, rows) ← result
    unique ["health_checks.id"] CheckRow.id rows
    unique ["health_checks.name"] CheckRow.name rows
    return (count, { t with checks := rows })

/-- Overwrites a column of entries. -/
def overwriteEntries? (t : Tables) (o : Overwrite) : Option (Except TableFault (Nat × Tables)) := do
  let result ← o.rows? "health_check_entries" EntryRow.columns t.entries
  return do
    let (count, rows) ← result
    unique ["health_check_entries.id"] EntryRow.id rows
    unique ["health_check_entries.application_id", "health_check_entries.server_name",
      "health_check_entries.name"] (fun r => (r.applicationId, r.serverName, r.name)) rows
    return (count, { t with entries := rows })

/-- Overwrites a column of transitions. -/
def overwriteTransitions? (t : Tables) (o : Overwrite) :
    Option (Except TableFault (Nat × Tables)) := do
  let result ← o.rows? "health_check_history_entries" TransitionRow.columns t.transitions
  return do
    let (count, rows) ← result
    unique ["health_check_history_entries.id"] TransitionRow.id rows
    return (count, { t with transitions := rows })

end Tables

end HealthWatch.Store
