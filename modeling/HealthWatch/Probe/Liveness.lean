import HealthWatch.Probe.Basic

/-! # Application state — healthy until the program begins to stop -/

namespace HealthWatch.Liveness

/-- The state of the application itself. -/
def check (stopping : Bool) : ProbeResult :=
  if stopping then .described .unhealthy "application is shutting down" else .healthy

end HealthWatch.Liveness
