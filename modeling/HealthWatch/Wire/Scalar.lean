import HealthWatch.Duration
import HealthWatch.Identifier
import HealthWatch.Instant.Rfc3339
import HealthWatch.Json.Decode
import HealthWatch.Status
import HealthWatch.TimeSpan

/-! # Plain values on the wire

    Identifiers, instants and durations travel as texts, statuses by name.  Each
    has an encoder and a decoder; decoding refuses a text with the words that
    say what is wrong with it. -/

namespace HealthWatch.Wire

open Json Json.Decode

/-- An identifier as JSON. -/
def encodeIdentifier (i : Identifier) : Json := .text i.toText

/-- An identifier from JSON. -/
def decodeIdentifier (d : Document) : Except Json.Fault Identifier :=
  match d with
  | .text (.ok s) =>
      match Identifier.parse s.toList with
      | .ok i => .ok i
      | .error e => refuse (.unfit e.message)
  | _ => wrongType d "a formatted UUID string"

/-- An instant as JSON. -/
def encodeInstant (t : Instant) : Json := .ofChars (Instant.Rfc3339.format t)

/-- An instant from JSON. -/
def decodeInstant (d : Document) : Except Json.Fault Instant :=
  match d with
  | .text (.ok s) =>
      match Instant.Rfc3339.parse s.toList with
      | .ok t => .ok t
      | .error e => refuse (.unfit e.message)
  | _ => wrongType d "an RFC 3339 formatted date and time string"

/-- A duration as JSON. -/
def encodeDuration (t : Duration) : Json := .ofChars (TimeSpan.format t)

/-- A duration from JSON. -/
def decodeDuration (d : Document) : Except Json.Fault Duration := do
  let s ← string d
  match TimeSpan.parse? s.toList with
  | some t => .ok t
  | none => refuse (.rejected ("invalid duration: " ++ s))

/-- A status as JSON. -/
def encodeStatus (s : Status) : Json := .text s.name

/-- A status from JSON. -/
def decodeStatus (medium : Medium) (d : Document) : Except Json.Fault Status :=
  variant (Status.all.map Status.name) Status.ofName? medium d

/-- An optional text as JSON. -/
def encodeText? (s : Option String) : Json := .ofOption .text s

/-- A list of texts as JSON. -/
def encodeTexts (s : List String) : Json := .array (s.map .text)

end HealthWatch.Wire
