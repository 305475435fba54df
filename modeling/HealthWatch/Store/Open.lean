import HealthWatch.Store.Basic
import HealthWatch.Text.Split

/-! # Opening a store — from a path to tables

    The directories on the way to the file of a store are made when they are
    missing.  A new or empty file becomes an empty store, and so does a file of a
    single octet, which counts as empty; any other file that is not a store is
    refused. -/

namespace HealthWatch.Store

open Text

/-- What there is at the paths of a machine. -/
inductive FileNode where
  | directory
  | file (contents : List UInt8)
deriving DecidableEq, Repr

/-- The nodes by their paths, which are lists of names from the root. -/
abbrev FileTree := List (List Char) → Option FileNode

/-- The names on a path; doubled slashes and points do not count. -/
def pathNames (path : String) : List (List Char) :=
  (pieces '/' path.toList).filter fun name => !(name.isEmpty || name = ['.'])

/-- Makes a directory and all above it: `done` are the names of the directories
    that are there already. -/
def makeDirectories (tree : FileTree) (done : List (List Char)) :
    List (List Char) → Except FileFault Unit
  | [] => .ok ()
  | name :: r =>
      match tree (done ++ [name]) with
      | some .directory => makeDirectories tree (done ++ [name]) r
      | some (.file _) => .error (if r.isEmpty then .alreadyThere else .notDirectory)
      | none => .ok ()

/-- The words about a file that is no store. -/
def notStore : String :=
  "`error asserting migrations table`, `file is not a database`"

/-- Opens the store whose file has these octets. -/
def ofContents (contents : List UInt8) : Except Fault Store :=
  if contents.length ≤ 1 then .ok empty else .error (.migration notStore)

/-- Opens the store at a path. -/
def openAt (tree : FileTree) (path : String) : Except Fault Store := do
  let names := pathNames path
  (makeDirectories tree [] names.dropLast).mapError .file
  match tree names with
  | some .directory => .error (.table (.unopened path))
  | some (.file contents) => ofContents contents
  | none => return empty

end HealthWatch.Store
