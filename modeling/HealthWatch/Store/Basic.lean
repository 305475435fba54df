import HealthWatch.Store.Tables
import HealthWatch.View

/-! # The store — tables behind a lock

    Every call takes the lock.  A call that fails leaves the tables as they were.
    When the clock cannot be read while the lock is held, the lock is poisoned and
    every later call is refused.

    * `register` and `ingest` change the store;
    * `find?`, `entries`, `checkEntries` and `history` read it;
    * `applicationStatus` and `checkStatus` give views. -/

namespace HealthWatch

/-- Tables behind a lock. -/
structure Store where
  tables : Store.Tables := {}
  poisoned : Bool := false
deriving DecidableEq, Repr, Inhabited

namespace Store

/-- A store with nothing in it. -/
def empty : Store := {}

/-- Reads under the lock. -/
def read {α : Type} (s : Store) (f : Tables → Except TableFault α) : Except Fault α :=
  if s.poisoned then .error .lockPoisoned else (f s.tables).mapError .table

/-- Changes the tables under the lock; a failure changes nothing. -/
def change {α : Type} (s : Store) (f : Tables → Except Fault (α × Tables)) :
    Except Fault α × Store :=
  if s.poisoned then (.error .lockPoisoned, s)
  else
    match f s.tables with
    | .ok (a, t) => (.ok a, { s with tables := t })
    | .error e => (.error e, s)

/-- Stores a definition unless there is one of its name, and gives the stored one. -/
def register (s : Store) (c : Check) (fresh : Identifier) : Except Fault Check × Store :=
  s.change fun t => (t.register c fresh).mapError .table

/-- Takes over a report; `clock` is the time it comes in, none when the clock cannot
    be read. -/
def ingest (s : Store) (incoming : Entry) (clock : Option Instant)
    (entryId transitionId : Identifier) : Except Fault Outcome × Store :=
  match clock with
  | some now => s.change fun t => t.ingest incoming now entryId transitionId
  | none =>
      if s.poisoned then (.error .lockPoisoned, s)
      else (.error .noClock, { s with poisoned := true })

/-- The definition of this name. -/
def find? (s : Store) (name : String) : Except Fault (Option Check) :=
  s.read fun t => t.findCheck? name

/-- The entries of an application. -/
def entries (s : Store) (applicationId : Identifier) : Except Fault (List Entry) :=
  s.read fun t => t.applicationEntries applicationId

/-- The entries of one check of an application, with their histories. -/
def checkEntries (s : Store) (applicationId : Identifier) (name : String) :
    Except Fault (List Entry) :=
  s.read fun t => t.checkEntries applicationId name

/-- The history of an entry, the latest first. -/
def history (s : Store) (entryId : Identifier) : Except Fault (List Transition) :=
  s.read fun t => t.history entryId

/-- The views of an application. -/
def applicationStatus (s : Store) (applicationId : Identifier) : Except Fault (List View) :=
  View.build <$> s.entries applicationId

/-- The view of one check across the servers of an application, with histories;
    none when the application never reported it. -/
def checkStatus (s : Store) (applicationId : Identifier) (name : String) :
    Except Fault (Option View) :=
  (fun entries => (View.build entries).head?) <$> s.checkEntries applicationId name

end Store

end HealthWatch
