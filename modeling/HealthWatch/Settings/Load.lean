import HealthWatch.Settings.Decode
import HealthWatch.Text.Decimal
import HealthWatch.Text.Split

/-! # Loading settings — files and environment variables

    The settings file is named by a variable or has a fixed name.  Variables that
    are set replace single settings before the settings are checked, so a value
    missing from the file can come from a variable.

    * `Surroundings` holds the files of the working directory and the variables;
    * `Settings.loadFile` overrides and checks the settings in a file, and
      `Settings.load` finds the file in its surroundings;
    * `ServerSettings.load` reads those of a storage server, which never fails. -/

namespace HealthWatch

open Text

/-- The files of the working directory, and the environment variables. -/
structure Surroundings where
  files : List (String × String)
  environment : List (String × String)
deriving Repr, Inhabited

namespace Surroundings

/-- The value of a variable. -/
def valueOf? (w : Surroundings) (name : String) : Option String :=
  w.environment.lookup name

/-- Walks along the parts of a path from the working directory, `depth` levels
    above it. -/
def walk (w : Surroundings) (depth : Nat) : List (List Char) → Except FileFault String
  | [] => .error .isDirectory
  | [] :: r => walk w depth r
  | ['.'] :: r => walk w depth r
  | ['.', '.'] :: r => walk w (depth + 1) r
  | name :: r =>
      if (String.ofList name).utf8ByteSize > 255 then .error .nameTooLong
      else if depth > 0 then .error .notFound
      else
        match w.files.lookup (String.ofList name) with
        | none => .error .notFound
        | some text => if r.isEmpty then .ok text else .error .notDirectory

/-- The text of the file at a path. -/
def read (w : Surroundings) (path : String) : Except FileFault String :=
  match path.toList with
  | [] => .error .notFound
  | '/' :: r => walk w 1 (pieces '/' r)
  | s => walk w 0 (pieces '/' s)

end Surroundings

namespace Settings

/-- Replaces a setting by the value of a variable, when it is set. -/
def override {α : Type} (w : Surroundings) (key : String) (read? : String → Option α)
    (set : Settings → α → Settings) (s : Settings) : Except SettingsFault Settings :=
  match w.valueOf? key with
  | none => .ok s
  | some value =>
      match read? value with
      | some a => .ok (set s a)
      | none => .error (.invalid key value)

/-- Replaces all settings that have a variable. -/
def overrideAll (w : Surroundings) (s : Settings) : Except SettingsFault Settings := do
  let s ← s.override w "HEALTHMON_APPLICATION_ID"
    (fun v => (Identifier.parse v.toList).toOption) fun s id => { s with applicationId := id }
  let s ← s.override w "HEALTHMON_SERVER_NAME" some fun s name => { s with serverName := name }
  let s ← s.override w "HEALTHMON_STORAGE_API" some fun s api => { s with storageApi := api }
  let s ← s.override w "HEALTHMON_CHECK_INTERVAL"
    (fun v => unsigned? wordBound v.toList) fun s n => { s with checkInterval := n }
  s.override w "HEALTHMON_HEALTH_PORT"
    (fun v => unsigned? portBound v.toList) fun s n => { s with healthPort := some n }

/-- The path of the settings file. -/
def path (w : Surroundings) : String :=
  (w.valueOf? "HEALTHMON_CONFIG").getD "appsettings.json"

/-- Loads the settings of a collector on the host of this name; `file` is what came
    of reading their file. -/
def loadFile (host : Option String) (w : Surroundings) (file : Except FileFault String) :
    Except SettingsFault Settings := do
  let text ← file.mapError (.unreadable (path w))
  let s ← parse text
  let s ← s.overrideAll w
  s.finish host

/-- Loads the settings of a collector from a file of its surroundings. -/
def load (host : Option String) (w : Surroundings) : Except SettingsFault Settings :=
  loadFile host w (w.read (path w))

end Settings

/-- The settings of a storage server. -/
structure ServerSettings where
  httpPort : Nat
  storePath : String
deriving DecidableEq, Repr

/-- Loads the settings of a storage server; a port that is no port is ignored. -/
def ServerSettings.load (w : Surroundings) : ServerSettings where
  httpPort :=
    ((w.valueOf? "HEALTHMON_HTTP_PORT").bind fun v => unsigned? portBound v.toList).getD 8080
  storePath := (w.valueOf? "HEALTHMON_DB_PATH").getD "monitoring.db"

end HealthWatch
