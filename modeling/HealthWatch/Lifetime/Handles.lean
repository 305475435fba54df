import HealthWatch.Lifetime
import HealthWatch.Probe.Liveness

/-! # Handles — how a program reaches its lifetimes

    A lifetime is reached through handles only.  An owner can be shared and let
    go of, stop the lifetime, and hand out watchers; a watcher can be shared and
    let go of, wait for the end, and stand behind a look at the application.
    Lifetimes and handles are numbered in the order in which they are made, and
    no number is given twice.

    * `Holdings.step?` is one call, `Holdings.run?` one after the other; there is
      no call on a handle that is gone;
    * `isStopping?`, `waitIsOver?` and `liveness?` are what a handle shows. -/

namespace HealthWatch

/-- What the holder of a handle can do, with the number of the lifetime. -/
inductive Handle where
  | owner (of : Nat)
  | watcher (of : Nat)
deriving DecidableEq, Repr

namespace Handle

/-- The lifetime that a handle belongs to. -/
def lifetime : Handle → Nat
  | owner l | watcher l => l

/-- A lifetime with one more handle of this kind. -/
def join : Handle → Lifetime → Lifetime
  | owner _, x => x.addOwner
  | watcher _, x => x

/-- A lifetime with one handle of this kind less. -/
def leave : Handle → Lifetime → Lifetime
  | owner _, x => x.dropOwner
  | watcher _, x => x

end Handle

/-- All lifetimes, and the handles on them; none where a handle was let go of. -/
structure Holdings where
  lifetimes : List Lifetime := []
  handles : List (Option Handle) := []
deriving DecidableEq, Repr

namespace Holdings

/-- A call of the program, with the number of the handle that it is made on. -/
inductive Call where
  | create
  | clone (n : Nat)
  | drop (n : Nat)
  | stop (n : Nat)
  | subscribe (n : Nat)
deriving DecidableEq, Repr

/-- The handle with a number, as long as it is held. -/
def handle? (s : Holdings) (n : Nat) : Option Handle := s.handles[n]?.join

/-- The lifetime that a handle owns. -/
def owned? (s : Holdings) (n : Nat) : Option Nat :=
  match s.handle? n with
  | some (.owner l) => some l
  | _ => none

/-- The lifetime that a handle watches. -/
def watched? (s : Holdings) (n : Nat) : Option Nat :=
  match s.handle? n with
  | some (.watcher l) => some l
  | _ => none

/-- One lifetime is changed. -/
def change (s : Holdings) (l : Nat) (f : Lifetime → Lifetime) : Holdings :=
  { s with lifetimes := s.lifetimes.modify l f }

/-- One more lifetime. -/
def begin (s : Holdings) : Holdings := { s with lifetimes := s.lifetimes ++ [{}] }

/-- One more handle. -/
def hand (s : Holdings) (h : Handle) : Holdings := { s with handles := s.handles ++ [some h] }

/-- A handle is gone. -/
def letGo (s : Holdings) (n : Nat) : Holdings := { s with handles := s.handles.set n none }

/-- One call; none when there is no such handle. -/
def step? (s : Holdings) : Call → Option Holdings
  | .create => some (s.begin.hand (.owner s.lifetimes.length))
  | .clone n => (s.handle? n).map fun h => (s.change h.lifetime h.join).hand h
  | .drop n => (s.handle? n).map fun h => (s.change h.lifetime h.leave).letGo n
  | .stop n => (s.owned? n).map fun l => s.change l .stop
  | .subscribe n => (s.owned? n).map fun l => s.hand (.watcher l)

/-- Calls in their order. -/
def run? (s : Holdings) (calls : List Call) : Option Holdings := calls.foldlM step? s

/-- Whether the lifetime of a handle was stopped. -/
def isStopping? (s : Holdings) (n : Nat) : Option Bool := do
  let h ← s.handle? n
  let x ← s.lifetimes[h.lifetime]?
  return x.stopped

/-- Whether a watcher that waits for the end is done. -/
def waitIsOver? (s : Holdings) (n : Nat) : Option Bool := do
  let l ← s.watched? n
  let x ← s.lifetimes[l]?
  return x.isOver

/-- A look at the application with a watcher behind it. -/
def liveness? (s : Holdings) (n : Nat) : Option ProbeResult := do
  let _ ← s.watched? n
  let stopping ← s.isStopping? n
  return Liveness.check stopping

end Holdings

end HealthWatch
