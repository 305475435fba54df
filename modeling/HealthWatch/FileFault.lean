import HealthWatch.Text.Decimal

/-! # Faults of files — why a file cannot be used -/

namespace HealthWatch

open Text

/-- Why a file cannot be used. -/
inductive FileFault where
  | notFound
  | alreadyThere
  | notDirectory
  | isDirectory
  | nameTooLong
deriving DecidableEq, Repr

namespace FileFault

/-- The number that the system gives to a fault. -/
def code : FileFault → Nat
  | notFound => 2
  | alreadyThere => 17
  | notDirectory => 20
  | isDirectory => 21
  | nameTooLong => 36

/-- The words of the system for a fault. -/
def words : FileFault → String
  | notFound => "No such file or directory"
  | alreadyThere => "File exists"
  | notDirectory => "Not a directory"
  | isDirectory => "Is a directory"
  | nameTooLong => "File name too long"

/-- The kind of a fault. -/
def kind : FileFault → String
  | notFound => "NotFound"
  | alreadyThere => "AlreadyExists"
  | notDirectory => "NotADirectory"
  | isDirectory => "IsADirectory"
  | nameTooLong => "InvalidFilename"

/-- The words of a message for a fault. -/
def message (e : FileFault) : String :=
  e.words ++ " (os error " ++ natText e.code ++ ")"

end FileFault

end HealthWatch
