import HealthWatch.Identifier

/-! # Checks — the definitions that results refer to

    A check is known by its name; its tags place it in the views. -/

namespace HealthWatch

/-- The definition of a check. -/
structure Check where
  id : Identifier
  name : String
  description : String
  tags : List String
deriving DecidableEq, Repr, Inhabited

end HealthWatch
