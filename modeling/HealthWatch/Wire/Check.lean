import HealthWatch.Check
import HealthWatch.Json.Writer
import HealthWatch.Wire.Scalar

/-! # Checks on the wire

    A definition may come without an identifier, a description and tags. -/

namespace HealthWatch.Wire

open Json Json.Decode

/-- A definition as JSON. -/
def encodeCheck (c : Check) : Json :=
  .object [
    ("id", encodeIdentifier c.id),
    ("name", .text c.name),
    ("description", .text c.description),
    ("tags", encodeTexts c.tags)]

/-- The members of a definition read so far. -/
structure CheckDraft where
  id : Option Identifier := none
  name : Option String := none
  description : Option String := none
  tags : Option (List String) := none

/-- Takes one member of a definition. -/
def CheckDraft.step (b : CheckDraft) (key : String) (d : Document) :
    Except Json.Fault CheckDraft :=
  match key with
  | "id" => return { b with id := ← once key decodeIdentifier d b.id }
  | "name" => return { b with name := ← once key string d b.name }
  | "description" => return { b with description := ← once key string d b.description }
  | "tags" => return { b with tags := ← once key (list string) d b.tags }
  | _ => do
      skip key d
      return b

/-- The definition of the members read; only the name is required. -/
def CheckDraft.finish (b : CheckDraft) : Except Json.Fault Check := do
  let name ← required "name" b.name
  return {
    id := b.id.getD .nil
    name
    description := b.description.getD ""
    tags := b.tags.getD [] }

/-- A definition from its fields in a list. -/
def checkFields (fs : Fields) : Except Json.Fault (Check × Fields) := do
  let (id, fs) ← fs.nextD decodeIdentifier .nil
  let (name, fs) ← fs.next string
  let (description, fs) ← fs.nextD string ""
  let (tags, fs) ← fs.nextD (list string) []
  return ({ id, name, description, tags }, fs)

/-- A definition from JSON. -/
def decodeCheck (medium : Medium) (d : Document) : Except Json.Fault Check :=
  record "HealthCheck" 4 medium {} CheckDraft.step CheckDraft.finish checkFields d

/-- Tags as the text of a JSON list. -/
def tagsText (tags : List String) : String :=
  (encodeTexts tags).render

/-- Tags from the text of a JSON list. -/
def parseTags (s : String) : Except Json.Fault (List String) :=
  whole (list string) s.toList

end HealthWatch.Wire
