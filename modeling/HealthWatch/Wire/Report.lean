import HealthWatch.Report
import HealthWatch.Wire.Scalar

/-! # Reports on the wire

    A report is written with its status and an entry by name.  The members of an object stand
    in the order of their names. -/

namespace HealthWatch.Wire

/-- A result as JSON. -/
def encodeResult (r : ProbeResult) : Json :=
  .object [
    ("description", encodeText? r.summary),
    ("duration", encodeDuration r.duration),
    ("status", encodeStatus r.status)]

/-- The results of a report as JSON. -/
def encodeResults (r : Report) : Json :=
  .object (r.entries.map fun (name, result) => (name, encodeResult result))

/-- A report as JSON; before the first one everything is unhealthy. -/
def encodeReport : Option Report → Json
  | none =>
      .object [("entries", .object []), ("status", encodeStatus .unhealthy)]
  | some r =>
      .object [
        ("entries", encodeResults r),
        ("status", encodeStatus r.status),
        ("totalDuration", encodeDuration r.duration)]

end HealthWatch.Wire
