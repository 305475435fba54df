import HealthWatch.View
import HealthWatch.Wire.Entry

/-! # Views on the wire -/

namespace HealthWatch.Wire

open Json Json.Decode

/-- A view as JSON. -/
def encodeView (v : View) : Json :=
  .object [
    ("firstLevel", .text v.firstLevel),
    ("secondLevel", .text v.secondLevel),
    ("checkName", .text v.checkName),
    ("checks", .array (v.checks.map encodeEntry)),
    ("status", encodeStatus v.status)]

/-- The members of a view read so far. -/
structure ViewDraft where
  firstLevel : Option String := none
  secondLevel : Option String := none
  checkName : Option String := none
  checks : Option (List Entry) := none
  status : Option Status := none

/-- Takes one member of a view. -/
def ViewDraft.step (now : Instant) (medium : Medium) (b : ViewDraft) (key : String)
    (d : Document) : Except Json.Fault ViewDraft :=
  match key with
  | "firstLevel" => return { b with firstLevel := ← once key string d b.firstLevel }
  | "secondLevel" => return { b with secondLevel := ← once key string d b.secondLevel }
  | "checkName" => return { b with checkName := ← once key string d b.checkName }
  | "checks" =>
      return { b with checks := ← once key (list (decodeEntry now medium)) d b.checks }
  | "status" => return { b with status := ← once key (decodeStatus medium) d b.status }
  | _ => do
      skip key d
      return b

/-- The view of the members read; all are required. -/
def ViewDraft.finish (b : ViewDraft) : Except Json.Fault View := do
  let firstLevel ← required "firstLevel" b.firstLevel
  let secondLevel ← required "secondLevel" b.secondLevel
  let checkName ← required "checkName" b.checkName
  let checks ← required "checks" b.checks
  let status ← required "status" b.status
  return { firstLevel, secondLevel, checkName, checks, status }

/-- A view from its fields in a list. -/
def viewFields (now : Instant) (medium : Medium) (fs : Fields) :
    Except Json.Fault (View × Fields) := do
  let (firstLevel, fs) ← fs.next string
  let (secondLevel, fs) ← fs.next string
  let (checkName, fs) ← fs.next string
  let (checks, fs) ← fs.next (list (decodeEntry now medium))
  let (status, fs) ← fs.next (decodeStatus medium)
  return ({ firstLevel, secondLevel, checkName, checks, status }, fs)

/-- A view from JSON; `now` is the time of decoding. -/
def decodeView (now : Instant) (medium : Medium) (d : Document) : Except Json.Fault View :=
  record "HealthCheckStateView" 5 medium {} (ViewDraft.step now medium) ViewDraft.finish
    (viewFields now medium) d

end HealthWatch.Wire
