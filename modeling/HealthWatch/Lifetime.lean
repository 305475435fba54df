/-! # Lifetimes — the signal that a program stops

    A lifetime is shared by its owners and its watchers.  An owner can stop it;
    there is no way back.  A watcher waits until it is stopped or has no owner
    left.

    * `Lifetime.stop`, `Lifetime.addOwner` and `Lifetime.dropOwner` change it;
    * `Lifetime.isOver` says whether waiting for its end is done. -/

namespace HealthWatch

/-- The state that all owners and watchers share. -/
structure Lifetime where
  stopped : Bool := false
  owners : Nat := 1
deriving DecidableEq, Repr, Inhabited

namespace Lifetime

/-- Stops a lifetime. -/
def stop (l : Lifetime) : Lifetime := { l with stopped := true }

/-- One more owner. -/
def addOwner (l : Lifetime) : Lifetime := { l with owners := l.owners + 1 }

/-- One owner less. -/
def dropOwner (l : Lifetime) : Lifetime := { l with owners := l.owners - 1 }

/-- Whether waiting for the end is done: it was stopped, or no owner is left. -/
def isOver (l : Lifetime) : Bool := l.stopped || l.owners = 0

@[simp] theorem stopped_stop (l : Lifetime) : l.stop.stopped = true := rfl

@[simp] theorem stopped_addOwner (l : Lifetime) : l.addOwner.stopped = l.stopped := rfl

@[simp] theorem stopped_dropOwner (l : Lifetime) : l.dropOwner.stopped = l.stopped := rfl

end Lifetime

end HealthWatch
