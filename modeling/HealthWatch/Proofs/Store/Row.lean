import HealthWatch.Proofs.Instant.Stored
import HealthWatch.Proofs.Json.Decode
import HealthWatch.Proofs.TimeSpan
import HealthWatch.Store.Row

/-! # Rows — every row that the store writes reads back

    Identifiers, times, statuses and tags read back as they were, and durations cut
    down to units of one hundred nanoseconds.  So the rows of definitions, entries and
    transitions read back too. -/

namespace HealthWatch

/-- A transition as it is kept: its duration is cut down. -/
def Transition.kept (x : Transition) : Transition :=
  { x with lastDuration := x.lastDuration.truncate }

/-- An entry as it is kept: its duration is cut down, and it has no history. -/
def Entry.kept (e : Entry) : Entry :=
  { e with lastDuration := e.lastDuration.truncate, history := none }

namespace Wire

open Json

/-- Tags are read back from their text, in their order. -/
theorem parseTags_tagsText (tags : List String) : parseTags (tagsText tags) = .ok tags := by
  have hread := carries_string.list.whole tags
  rw [List.map_id] at hread
  exact hread

end Wire

namespace Store

/-! ## Columns -/

theorem readIdentifier_toText (index : Nat) (i : Identifier) :
    readIdentifier index i.toText = .ok i := by
  rw [readIdentifier, Identifier.parse_toText]
  rfl

theorem readTime_timeText (index : Nat) (t : Instant) : readTime index (timeText t) = .ok t := by
  rw [readTime, timeText, String.toList_ofList, Instant.Stored.parse?_format]

theorem readDuration_durationText (index : Nat) (d : Duration) :
    readDuration index (durationText d) = .ok d.truncate := by
  rw [readDuration, durationText, String.toList_ofList, TimeSpan.parse?_format]

theorem readStatus_code (index : Nat) (s : Status) :
    readStatus index (.number s.code) = .ok s := by
  rw [readStatus, Status.ofCode?_code]

theorem readTags_tagsText (index : Nat) (tags : List String) :
    readTags index (Wire.tagsText tags) = .ok tags := by
  rw [readTags, Wire.parseTags_tagsText]
  rfl

/-! ## Rows -/

/-- A definition reads back from its row, wherever its columns stand. -/
theorem CheckRow.read_ofCheck (offset : Nat) (c : Check) :
    (CheckRow.ofCheck c).read offset = .ok c := by
  rw [CheckRow.read, CheckRow.ofCheck, readIdentifier_toText, readTags_tagsText]
  rfl

/-- An entry reads back from its row, together with the definition in another. -/
theorem EntryRow.read_ofEntry (e : Entry) (i : Identifier) (c : Check) :
    (EntryRow.ofEntry e i).read (CheckRow.ofCheck c) = .ok { e.kept with check := some c } := by
  rw [EntryRow.read, EntryRow.ofEntry]
  simp only [readIdentifier_toText, readStatus_code, readTime_timeText,
    readDuration_durationText, CheckRow.read_ofCheck]
  rfl

/-- A transition reads back from its row. -/
theorem TransitionRow.read_ofTransition (x : Transition) :
    (TransitionRow.ofTransition x).read = .ok x.kept := by
  rw [TransitionRow.read, TransitionRow.ofTransition]
  simp only [readIdentifier_toText, readStatus_code, readTime_timeText,
    readDuration_durationText]
  rfl

end Store

end HealthWatch
