import HealthWatch.Lifetime
import Mathlib.Logic.Basic

/-! # Lifetimes — the moment at which they are over

    Owners act on a lifetime one after the other: they stop it, share it and let go of it.
    Nobody acts without being an owner, so what is over stays over, whether it was stopped
    or ran out of owners.

    * `isOver_act`: one action does not undo the end;
    * `isOver_stateAt_iff`: a lifetime is over from one moment on, which `endOf` gives. -/

namespace HealthWatch.Lifetime

/-- What an owner does. -/
inductive Action where
  | stop
  | addOwner
  | dropOwner
deriving DecidableEq, Repr

/-- An owner acts; without owners nothing happens any more. -/
def act (l : Lifetime) (a : Action) : Lifetime :=
  if l.owners = 0 then l
  else
    match a with
    | .stop => l.stop
    | .addOwner => l.addOwner
    | .dropOwner => l.dropOwner

/-- Actions in their order, each with the time that goes by before it. -/
abbrev History := List (Nat × Action)

/-- A lifetime at a moment of its history. -/
def stateAt (l : Lifetime) : History → Nat → Lifetime
  | [], _ => l
  | (time, a) :: later, now => if now < time then l else stateAt (l.act a) later (now - time)

/-- The moment at which a lifetime is over; none when it never is. -/
def endOf (l : Lifetime) : History → Option Nat
  | [] => if l.isOver then some 0 else none
  | (time, a) :: later => if l.isOver then some 0 else (endOf (l.act a) later).map (time + ·)

/-- Whatever an owner does, what is over stays over. -/
theorem isOver_act {l : Lifetime} (h : l.isOver = true) (a : Action) : (l.act a).isOver = true := by
  rw [act.eq_def]
  split
  · exact h
  · next howners =>
      have hstopped : l.stopped = true := by simpa [isOver, howners] using h
      cases a <;> simp [isOver, hstopped, stop, addOwner, dropOwner]

/-- What is over is at its end. -/
theorem endOf_of_isOver {l : Lifetime} (h : l.isOver = true) (history : History) :
    l.endOf history = some 0 := by
  cases history <;> exact if_pos h

/-- A lifetime is over from the moment of its end on, and not before. -/
theorem isOver_stateAt_iff (l : Lifetime) (history : History) (now : Nat) :
    (l.stateAt history now).isOver = true ↔ ∃ s, l.endOf history = some s ∧ s ≤ now := by
  induction history generalizing l now with
  | nil =>
      rw [stateAt, endOf]
      by_cases h : l.isOver = true
      · rw [if_pos h]
        exact iff_of_true h ⟨0, rfl, Nat.zero_le now⟩
      · rw [if_neg h]
        exact iff_of_false h fun ⟨_, hs, _⟩ => nomatch hs
  | cons entry later ih =>
      obtain ⟨time, a⟩ := entry
      rw [stateAt, endOf]
      by_cases hover : l.isOver = true
      · rw [if_pos hover]
        refine iff_of_true ?_ ⟨0, rfl, Nat.zero_le now⟩
        split
        · exact hover
        · exact (ih _ _).2 ⟨0, endOf_of_isOver (isOver_act hover a) later, Nat.zero_le _⟩
      · rw [if_neg hover]
        by_cases hearly : now < time
        · rw [if_pos hearly]
          refine iff_of_false hover ?_
          rintro ⟨s, hs, hle⟩
          obtain ⟨rest, -, rfl⟩ := Option.map_eq_some_iff.1 hs
          omega
        · rw [if_neg hearly, ih]
          constructor
          · rintro ⟨s, hs, hle⟩
            exact ⟨time + s, by rw [hs]; rfl, by omega⟩
          · rintro ⟨s, hs, hle⟩
            obtain ⟨rest, hrest, rfl⟩ := Option.map_eq_some_iff.1 hs
            exact ⟨rest, hrest, by omega⟩

end HealthWatch.Lifetime
