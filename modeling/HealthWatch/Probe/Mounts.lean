import HealthWatch.Text.Blank
import HealthWatch.Text.Split

/-! # Mount tables — where drives are mounted

    Each line of a mount table names a device and its mount point, and more, in
    columns with blanks between them.  A blank, a tab, a line feed or a backslash
    in a path is written as a backslash with the octal digits of the character.

    * `unescape` reads the four escapes, one after the other over the whole path;
    * `mountPoints` lists the mount points of a table, each once. -/

namespace HealthWatch.Mounts

open Text

/-- Replaces every escape of the three octal digits by a character, from left to
    right. -/
def replaceEscape (octal : Char × Char × Char) (new : Char) : List Char → List Char
  | '\\' :: x :: y :: z :: r =>
      if (x, y, z) = octal then new :: replaceEscape octal new r
      else '\\' :: replaceEscape octal new (x :: y :: z :: r)
  | c :: r => c :: replaceEscape octal new r
  | [] => []

/-- The escapes of a path with the characters they stand for, in the order in
    which they are read. -/
def escapes : List ((Char × Char × Char) × Char) :=
  [(('0', '4', '0'), ' '), (('0', '1', '1'), '\t'), (('0', '1', '2'), '\n'),
   (('1', '3', '4'), '\\')]

/-- A path without escapes. -/
def unescape (path : List Char) : List Char :=
  escapes.foldl (fun p (octal, c) => replaceEscape octal c p) path

/-- The mount point of a line, none when it has a single column. -/
def mountPoint? (line : List Char) : Option (List Char) :=
  (words line)[1]?.map unescape

/-- A list with every member once, where it first stands. -/
def distinct {α : Type} [DecidableEq α] (xs : List α) : List α :=
  xs.foldl (fun seen x => if x ∈ seen then seen else seen ++ [x]) []

/-- The mount points of a table in the order of its lines, each once. -/
def mountPoints (table : String) : List String :=
  distinct (((lines table.toList).filterMap mountPoint?).map String.ofList)

end HealthWatch.Mounts
