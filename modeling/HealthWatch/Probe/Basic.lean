import HealthWatch.Duration.Show
import HealthWatch.Status

/-! # Probes — results of looking at a resource

    A probe never fails: whatever goes wrong becomes part of its result, as a
    description or as an error.

    * `ProbeError` lists the causes, `ProbeError.message` words them;
    * `ProbeResult.summary` is the text that is reported. -/

namespace HealthWatch

/-- Why a probe could not do its work. -/
inductive ProbeError where
  | timeout (after : Duration)
  | cancelled
  | io (reason : String)
  | http (reason : String)
  | protocol (reason : String)
  | address (text : String)
deriving DecidableEq, Repr

/-- The words of a message for an error. -/
def ProbeError.message : ProbeError → String
  | timeout d => "probe timed out after " ++ d.shown
  | cancelled => "probe cancelled by shutdown"
  | io reason => "io error: " ++ reason
  | http reason => "http error: " ++ reason
  | protocol reason => "protocol error: " ++ reason
  | address text => "invalid address: " ++ text

/-- What a probe found. -/
structure ProbeResult where
  status : Status
  description : Option String := none
  error : Option ProbeError := none
  duration : Duration := .zero
deriving DecidableEq, Repr

namespace ProbeResult

instance : Inhabited ProbeResult := ⟨{ status := .healthy }⟩

/-- Nothing is wrong. -/
def healthy : ProbeResult := { status := .healthy }

/-- A status with words for it. -/
def described (status : Status) (text : String) : ProbeResult :=
  { status, description := some text }

/-- A status with the error that led to it. -/
def failed (status : Status) (error : ProbeError) : ProbeResult :=
  { status, error := some error }

/-- The text that is reported: the description, or else the error. -/
def summary (r : ProbeResult) : Option String :=
  match r.description with
  | some text => some text
  | none => r.error.map ProbeError.message

end ProbeResult

/-- What a probe is told for one call. -/
structure ProbeContext where
  /-- The status to give when the resource fails. -/
  failureStatus : Status := .unhealthy
  timeout : Duration := .ofSeconds 30
deriving DecidableEq, Repr

end HealthWatch
