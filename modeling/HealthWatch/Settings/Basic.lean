import HealthWatch.FileFault
import HealthWatch.Identifier
import HealthWatch.Json.Decode
import HealthWatch.Status
import HealthWatch.Text.Blank
import HealthWatch.Text.Quoted

/-! # Settings — what a collector is told to do

    The settings name the application and the server, the storage they report
    to, the intervals and time limits in seconds, and the checks.  Keys of a
    check that are not common to all kinds are its options.

    * `Settings.check` says what is wrong with settings, if anything;
    * `Settings.finish` fills in the name of the server and checks the rest. -/

namespace HealthWatch

open Text

/-- The settings of one check. -/
structure CheckSettings where
  kind : String
  name : String
  description : String
  tags : List String
  timeout : Nat
  failureStatus : Status
  options : List (String × Json)
deriving Repr, Inhabited

/-- The settings of a collector. -/
structure Settings where
  applicationId : Identifier
  serverName : String
  checkInterval : Nat
  storageApi : String
  shutdownTimeout : Nat
  reportTimeout : Option Nat
  healthPort : Option Nat
  checks : List CheckSettings
deriving Repr, Inhabited

/-- What is wrong with a configuration. -/
inductive SettingsFault where
  | unreadable (path : String) (reason : FileFault)
  | undecodable (fault : Json.Fault)
  | missing (key : String)
  | invalid (key value : String)
  | unknownKind (name kind : String)
  | invalidCheck (name reason : String)
deriving Repr

/-- The words of a message for a fault. -/
def SettingsFault.message : SettingsFault → String
  | unreadable path reason => "failed to read " ++ path ++ ": " ++ reason.message
  | undecodable fault => "failed to parse configuration: " ++ fault.reason
  | missing key => "missing configuration value: " ++ key
  | invalid key value => "invalid value for " ++ key ++ ": " ++ value
  | unknownKind name kind =>
      "health check " ++ quote name ++ ": unknown type " ++ quote kind
  | invalidCheck name reason => "health check " ++ quote name ++ ": " ++ reason

namespace Settings

/-- The seconds before a call to the storage is abandoned: those of a shutdown
    unless there are own ones. -/
def effectiveReportTimeout (s : Settings) : Nat :=
  s.reportTimeout.getD s.shutdownTimeout

/-- What is wrong with the first check, in order, that has a blank name or the
    name of an earlier one; `seen` are the names before. -/
def checkNames (seen : List String) : List CheckSettings → Except SettingsFault Unit
  | [] => .ok ()
  | c :: r =>
      if isBlankText c.name then .error (.invalidCheck c.name "name must not be empty")
      else if c.name ∈ seen then
        .error (.invalidCheck c.name "name is configured more than once")
      else checkNames (c.name :: seen) r

/-- What is wrong with settings: the first of these that holds. -/
def check (s : Settings) : Except SettingsFault Unit :=
  if isBlankText s.storageApi then .error (.missing "Health.StorageApi")
  else if s.checkInterval = 0 then .error (.invalid "Health.CheckInterval" "0")
  else if s.reportTimeout = some 0 then .error (.invalid "Health.ReportTimeout" "0")
  else checkNames [] s.checks

/-- Settings with a blank server name replaced by the name of the host. -/
def withServerName (host : Option String) (s : Settings) : Settings :=
  if isBlankText s.serverName then { s with serverName := host.getD "localhost" } else s

/-- Fills in the server name and checks the settings. -/
def finish (host : Option String) (s : Settings) : Except SettingsFault Settings := do
  let s := s.withServerName host
  s.check
  return s

end Settings

end HealthWatch
