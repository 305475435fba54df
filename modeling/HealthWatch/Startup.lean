import HealthWatch.Collector.Basic
import HealthWatch.Json.Place
import HealthWatch.Settings.Load
import HealthWatch.Store.Open

/-! # Starting — what can go wrong before a program runs

    A collector loads its settings, takes the address of the storage and makes its
    jobs; a storage server opens its store.  The first failure ends the program
    and is shown with its parts.

    * `collectorOf` and `storeOf` start the two programs;
    * `Fault.text` shows a failure. -/

namespace HealthWatch.Startup

open Text

/-- Why a program does not start. -/
inductive Fault where
  /-- Settings are wrong; the place is that of a fault of their text. -/
  | settings (fault : SettingsFault) (place : Json.Place)
  | report (fault : ReportFault)
  | store (fault : Store.Fault)
deriving Repr

/-- The place of a fault in a settings file. -/
def placeOf (file : Except FileFault String) (fault : SettingsFault) : Json.Place :=
  match fault, file with
  | .undecodable e, .ok text =>
      e.place (Json.Decode.body Settings.decodeFile) (Utf8.encode text.toList)
  | _, _ => .nowhere

/-- Wrong settings as a reason not to start. -/
def settingsFault (file : Except FileFault String) (fault : SettingsFault) : Fault :=
  .settings fault (placeOf file fault)

/-- Starts a collector: its jobs and where it reports to; `file` is what came of
    reading the settings file. -/
def collectorOfFile (host : Option String) (w : Surroundings)
    (file : Except FileFault String) : Except Fault (Collector Probe × Reporter) := do
  let settings ← (Settings.loadFile host w file).mapError (settingsFault file)
  let reporter ← (Reporter.to? settings.storageApi).mapError .report
  let collector ← (Collector.ofSettings .builtin settings).mapError (settingsFault file)
  return (collector, reporter)

/-- Starts a collector with a settings file of its surroundings. -/
def collectorOf (host : Option String) (w : Surroundings) :
    Except Fault (Collector Probe × Reporter) :=
  collectorOfFile host w (w.read (Settings.path w))

/-- Starts a storage server: its store. -/
def storeOf (tree : Store.FileTree) (w : Surroundings) : Except Fault Store :=
  (Store.openAt tree (ServerSettings.load w).storePath).mapError .store

/-! ## Texts -/

/-- A name with a value in parentheses. -/
def wrapped (name value : String) : String :=
  name ++ "(" ++ value ++ ")"

/-- A name with named values in braces. -/
def record (name : String) (fields : List (String × String)) : String :=
  name ++ " \x7b " ++ ", ".intercalate (fields.map fun (k, v) => k ++ ": " ++ v) ++ " \x7d"

/-- A fault of a file with its parts. -/
def fileText (e : FileFault) : String :=
  record "Os" [("code", natText e.code), ("kind", e.kind), ("message", quote e.words)]

/-- A fault of a text with its place. -/
def decodingText (fault : Json.Fault) (place : Json.Place) : String :=
  wrapped "Error" (quote fault.reason ++ ", line: " ++ natText place.line
    ++ ", column: " ++ natText place.column)

/-- A fault of a configuration with its parts. -/
def settingsText (place : Json.Place) : SettingsFault → String
  | .unreadable path reason =>
      record "Read" [("path", quote path), ("source", fileText reason)]
  | .undecodable fault => wrapped "Parse" (decodingText fault place)
  | .missing key => wrapped "Missing" (quote key)
  | .invalid key value => record "Invalid" [("key", quote key), ("value", quote value)]
  | .unknownKind name kind =>
      record "UnknownProbeType" [("name", quote name), ("kind", quote kind)]
  | .invalidCheck name reason =>
      record "InvalidCheck" [("name", quote name), ("reason", quote reason)]

/-- A fault of reporting with its parts. -/
def reportText : ReportFault → String
  | .address base => wrapped "Url" (quote base)
  | .status code body =>
      record "Status" [("status", natText code), ("body", quote body)]
  | .transport fault => wrapped "Transport" (quote fault.message)

/-- A fault of the store with its parts. -/
def storeText : Store.Fault → String
  | .file fault => wrapped "Io" (fileText fault)
  | .migration reason => wrapped "Migration" (quote reason)
  | .table (.unopened path) =>
      wrapped "Sqlite" (wrapped "SqliteFailure"
        (record "Error" [("code", "CannotOpen"), ("extended_code", "14")] ++ ", "
          ++ wrapped "Some" (quote (Store.TableFault.unopened path).message)))
  | .table fault => wrapped "Sqlite" (quote fault.message)
  | .lockPoisoned => "LockPoisoned"
  | .unregistered name => wrapped "UnregisteredCheck" (quote name)
  | .noClock => "NoClock"

/-- What a program shows before it ends. -/
def Fault.text : Fault → String
  | settings fault place => settingsText place fault
  | report fault => reportText fault
  | store fault => storeText fault

end HealthWatch.Startup
