/-! # Statuses — the outcome of a check

    A check comes out healthy, degraded or unhealthy.  Statuses are ordered by
    severity: the greatest of several is the worst. -/

namespace HealthWatch

/-- The outcome of a check. -/
inductive Status where
  | unhealthy
  | degraded
  | healthy
deriving DecidableEq, Repr, Inhabited

namespace Status

/-- How bad a status is: higher is worse. -/
def severity : Status → Nat
  | healthy => 1
  | degraded => 2
  | unhealthy => 3

/-- The number a status is stored as. -/
def code : Status → Int
  | unhealthy => 0
  | degraded => 1
  | healthy => 2

/-- The status stored as a number. -/
def ofCode? : Int → Option Status
  | 0 => some unhealthy
  | 1 => some degraded
  | 2 => some healthy
  | _ => none

/-- The name of a status. -/
def name : Status → String
  | unhealthy => "Unhealthy"
  | degraded => "Degraded"
  | healthy => "Healthy"

/-- All statuses, in the order of their stored numbers. -/
def all : List Status := [unhealthy, degraded, healthy]

/-- The status with this very name. -/
def ofName? (s : String) : Option Status :=
  all.find? fun status => status.name == s

/-- Whether the first status is less severe than the second. -/
def isBelow (a b : Status) : Bool :=
  a.severity < b.severity

/-- The more severe of two statuses. -/
def worse (a b : Status) : Status :=
  if a.isBelow b then b else a

/-- The most severe of several statuses. -/
def worst? : List Status → Option Status
  | [] => none
  | s :: r => some (r.foldl worse s)

/-- The statuses from the least to the most severe; equals keep their order. -/
def sorted (statuses : List Status) : List Status :=
  statuses.mergeSort fun a b => a.severity ≤ b.severity

/-- A status is read back from its code. -/
@[simp] theorem ofCode?_code (s : Status) : ofCode? s.code = some s := by
  cases s <;> rfl

/-- So it is from its name. -/
@[simp] theorem ofName?_name (s : Status) : ofName? s.name = some s := by
  cases s <;> decide

end Status

end HealthWatch
