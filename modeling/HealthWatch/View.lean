import HealthWatch.Entry

/-! # Views — entries grouped by their tags

    The entries of an application are shown in groups: under the first tag, the
    last tag and the name of the check.  Groups stand in the order in which they
    are first met, and so do the entries within a group.

    * `aggregate` gives the status of several entries together;
    * `View.build` groups a list of entries. -/

namespace HealthWatch

/-- The status of several entries: healthy when there are some and all of them
    are, else degraded when one of them is, else unhealthy. -/
def aggregate (entries : List Entry) : Status :=
  if !entries.isEmpty && entries.all fun e => e.status = .healthy then .healthy
  else if entries.any fun e => e.status = .degraded then .degraded
  else .unhealthy

/-- The entries of one check under one pair of tags. -/
structure View where
  firstLevel : String
  secondLevel : String
  checkName : String
  checks : List Entry
  status : Status
deriving DecidableEq, Repr, Inhabited

/-- Where an entry belongs: its first tag, its last tag and its name. -/
structure Group where
  firstLevel : String
  secondLevel : String
  checkName : String
deriving DecidableEq, Repr, Inhabited

namespace Group

/-- The group of an entry; without tags both levels are empty. -/
def ofEntry (e : Entry) : Group where
  firstLevel := e.tags.headD ""
  secondLevel := e.tags.getLastD ""
  checkName := e.name

/-- Puts an entry at the end of its group, or into a new one behind the others. -/
def insert (e : Entry) : List (Group × List Entry) → List (Group × List Entry)
  | [] => [(ofEntry e, [e])]
  | (g, es) :: r =>
      if g = ofEntry e then (g, es ++ [e]) :: r else (g, es) :: insert e r

/-- The entries by group. -/
def collect (entries : List Entry) : List (Group × List Entry) :=
  entries.foldl (fun groups e => insert e groups) []

end Group

namespace View

/-- The view of a group. -/
def ofGroup (group : Group) (entries : List Entry) : View where
  firstLevel := group.firstLevel
  secondLevel := group.secondLevel
  checkName := group.checkName
  checks := entries
  status := aggregate entries

/-- The group of a view. -/
def group (v : View) : Group where
  firstLevel := v.firstLevel
  secondLevel := v.secondLevel
  checkName := v.checkName

/-- The views of a list of entries. -/
def build (entries : List Entry) : List View :=
  (Group.collect entries).map fun (g, es) => ofGroup g es

end View

end HealthWatch
