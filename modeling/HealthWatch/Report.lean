import HealthWatch.Probe.Basic

/-! # Reports — the results of one round of checks

    A report holds a result for each name, by ascending name; a later result of a
    name takes the place of the earlier.

    * `Report.insert` puts a result in, `Report.status` is the worst status. -/

namespace HealthWatch

/-- The results of one round of checks, and the time it took. -/
structure Report where
  entries : List (String × ProbeResult) := []
  duration : Duration := .zero
deriving DecidableEq, Repr, Inhabited

namespace Report

/-- Puts a value under a name in a list by ascending name. -/
def put {α : Type} (name : String) (value : α) : List (String × α) → List (String × α)
  | [] => [(name, value)]
  | (n, v) :: r =>
      if name < n then (name, value) :: (n, v) :: r
      else if name = n then (name, value) :: r
      else (n, v) :: put name value r

/-- Puts the result of a check into a report. -/
def insert (name : String) (result : ProbeResult) (r : Report) : Report :=
  { r with entries := put name result r.entries }

/-- The report of results in their order. -/
def ofList (results : List (String × ProbeResult)) (duration : Duration) : Report :=
  results.foldl (fun r (name, result) => r.insert name result) { duration }

/-- The names in a report. -/
def names (r : Report) : List String :=
  r.entries.map (·.1)

/-- The most severe status of a report; an empty one is healthy. -/
def status (r : Report) : Status :=
  (Status.worst? (r.entries.map (·.2.status))).getD .healthy

end Report

end HealthWatch
