import HealthWatch.Json.Real
import HealthWatch.Json.Basic
import HealthWatch.Text.Quoted

/-! # Shapes — what a message says was found

    A message about a value of a wrong kind names the kind and, for a plain
    value, the value itself. -/

namespace HealthWatch.Json

open Text

/-- What a value looks like from outside. -/
inductive Shape where
  | null
  | bool (value : Bool)
  | number (value : Number)
  | text (value : String)
  | sequence
  | map
deriving DecidableEq, Repr, Inhabited

namespace Shape

/-- The words of a message for a shape. -/
def describe : Shape → String
  | null => "null"
  | bool true => "boolean `true`"
  | bool false => "boolean `false`"
  | number (.integer i) => "integer `" ++ integerText i ++ "`"
  | number (.real bits) => "floating point `" ++ String.ofList (Real.text bits) ++ "`"
  | text s => "string " ++ quote s
  | sequence => "sequence"
  | map => "map"

end Shape

end HealthWatch.Json
