/-! # Machine words — numbers of so many bits

    What is computed with words ends the computation when it does not fit into one.

    * `word` is a value that has to fit, `Overflow` what there is when it does not. -/

namespace HealthWatch

/-- The value of an operation that does not fit into a word of its size. -/
structure Overflow where
  bound : Nat
  value : Nat
deriving DecidableEq, Repr

/-- A value that is computed in a word without a check. -/
def word (bound value : Nat) : Except Overflow Nat :=
  if value < bound then .ok value else .error ⟨bound, value⟩

/-- A value below the bound is computed as it is. -/
theorem word_of_lt {bound value : Nat} (h : value < bound) : word bound value = pure value :=
  if_pos h

/-- A value that does not fit is none at all. -/
theorem word_of_le {bound value : Nat} (h : bound ≤ value) :
    word bound value = .error ⟨bound, value⟩ :=
  if_neg (Nat.not_lt.2 h)

end HealthWatch
