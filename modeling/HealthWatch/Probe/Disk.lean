import HealthWatch.Probe.Basic
import HealthWatch.Text.Decimal

/-! # Disk storage — free space against minimums

    Every drive with a minimum is looked up in the inventory by its path, and all
    that is wrong is told together. -/

namespace HealthWatch.Disk

open Text

/-- A drive and its free octets. -/
structure Drive where
  name : String
  available : Nat
deriving DecidableEq, Repr

/-- The least number of free megabytes of a drive. -/
structure Threshold where
  drive : String
  minimum : Nat
deriving DecidableEq, Repr

/-- What asking for the drives ends with. -/
inductive Inventory where
  | drives (list : List Drive)
  | unreadable (reason : String)
  | crashed (reason : String)
deriving Repr

/-- A path without the slashes it ends with; slashes alone are the root. -/
def normalPath (path : List Char) : List Char :=
  let trimmed := (path.reverse.dropWhile (· == '/')).reverse
  if trimmed.isEmpty && path.head? = some '/' then ['/'] else trimmed

/-- Whether two paths are the same up to slashes at their ends. -/
def sameDrive (a b : String) : Bool :=
  normalPath a.toList = normalPath b.toList

/-- What is wrong with one drive. -/
def violation? (drives : List Drive) (t : Threshold) : Option String :=
  match drives.find? fun d => sameDrive d.name t.drive with
  | none => some ("disk " ++ t.drive ++ " not found")
  | some d =>
      let free := d.available / 1024 / 1024
      if free < t.minimum then
        some ("free disk space for " ++ t.drive ++ " was " ++ natText free
          ++ " mbytes, minimum free disk space was configured with " ++ natText t.minimum
          ++ " mbytes")
      else none

/-- Checks all drives that have a minimum. -/
def check (thresholds : List Threshold) (ctx : ProbeContext) (inventory : Inventory) :
    ProbeResult :=
  match inventory with
  | .unreadable reason => .failed ctx.failureStatus (.io reason)
  | .crashed reason => .failed ctx.failureStatus (.protocol ("drive query failed: " ++ reason))
  | .drives drives =>
      match thresholds.filterMap (violation? drives) with
      | [] => .healthy
      | violations => .described ctx.failureStatus ("; ".intercalate violations)

end HealthWatch.Disk
