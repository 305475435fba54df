import HealthWatch.Settings.Basic
import HealthWatch.Wire.Scalar

/-! # Settings from JSON

    A settings file is an object whose member `Health` holds the settings; other
    members are for others.  Every setting but the kind and name of a check has
    a default.

    * `Settings.parse` decodes the text of a file without looking at its sense;
    * `Settings.fromJson` also checks the settings. -/

namespace HealthWatch

open Json Json.Decode Wire

/-- The number of arrays and objects inside each other that a text may have. -/
def Json.depthLimit : Nat := 127

namespace CheckSettings

/-- The members of a check read so far. -/
structure Draft where
  kind : Option String := none
  name : Option String := none
  description : Option String := none
  tags : Option (List String) := none
  timeout : Option Nat := none
  failureStatus : Option Status := none
  options : List (String × Json) := []

/-- Takes one member of a check; one that is not common to all kinds is an
    option, of which the last of a name counts. -/
def Draft.step (depth : Nat) (b : Draft) (key : String) (d : Document) :
    Except Json.Fault Draft :=
  match key with
  | "Type" => return { b with kind := ← once key string d b.kind }
  | "Name" => return { b with name := ← once key string d b.name }
  | "Description" => return { b with description := ← once key string d b.description }
  | "Tags" => return { b with tags := ← once key (list string) d b.tags }
  | "Timeout" => return { b with timeout := ← once key (unsigned 64) d b.timeout }
  | "FailureStatus" =>
      return { b with failureStatus := ← once key (decodeStatus .written) d b.failureStatus }
  | _ =>
      match d.value depth with
      | .ok v => return { b with options := insertMember key v.normalize b.options }
      | .error fault => .error (.malformed [.member key] fault)

/-- The check of the members read. -/
def Draft.finish (b : Draft) : Except Json.Fault CheckSettings := do
  let kind ← required "Type" b.kind
  let name ← required "Name" b.name
  return {
    kind
    name
    description := b.description.getD ""
    tags := b.tags.getD []
    timeout := b.timeout.getD 30
    failureStatus := b.failureStatus.getD .unhealthy
    options := b.options }

/-- The settings of a check from JSON, written inside `level` arrays and objects. -/
def decode (level : Nat) (d : Document) : Except Json.Fault CheckSettings :=
  match d with
  | .object ms ending => do
      let b ← members (Draft.step (Json.depthLimit - level - 1)) ending {} ms
      b.finish
  | _ => wrongType d "struct CheckSettings"

/-- The settings of a check from the text of one. -/
def fromJson (s : String) : Except Json.Fault CheckSettings :=
  whole (decode 0) s.toList

end CheckSettings

namespace Settings

/-- The settings read so far. -/
structure Draft where
  applicationId : Option Identifier := none
  serverName : Option String := none
  checkInterval : Option Nat := none
  storageApi : Option String := none
  shutdownTimeout : Option Nat := none
  reportTimeout : Option (Option Nat) := none
  healthPort : Option (Option Nat) := none
  checks : Option (List CheckSettings) := none

/-- The checks are written inside the file, the section and their list. -/
def decodeChecks : Document → Except Json.Fault (List CheckSettings) :=
  list (CheckSettings.decode 3)

/-- Takes one setting. -/
def Draft.step (b : Draft) (key : String) (d : Document) : Except Json.Fault Draft :=
  match key with
  | "ApplicationId" =>
      return { b with applicationId := ← once key decodeIdentifier d b.applicationId }
  | "ServerName" => return { b with serverName := ← once key string d b.serverName }
  | "CheckInterval" =>
      return { b with checkInterval := ← once key (unsigned 64) d b.checkInterval }
  | "StorageApi" => return { b with storageApi := ← once key string d b.storageApi }
  | "ShutdownTimeout" =>
      return { b with shutdownTimeout := ← once key (unsigned 64) d b.shutdownTimeout }
  | "ReportTimeout" =>
      return { b with reportTimeout := ← once key (option (unsigned 64)) d b.reportTimeout }
  | "HealthPort" =>
      return { b with healthPort := ← once key (option (unsigned 16)) d b.healthPort }
  | "HealthChecks" => return { b with checks := ← once key decodeChecks d b.checks }
  | _ => do
      skip key d
      return b

/-- The settings read, with defaults for the others. -/
def Draft.finish (b : Draft) : Except Json.Fault Settings :=
  return {
    applicationId := b.applicationId.getD .nil
    serverName := b.serverName.getD ""
    checkInterval := b.checkInterval.getD 10
    storageApi := b.storageApi.getD ""
    shutdownTimeout := b.shutdownTimeout.getD 5
    reportTimeout := b.reportTimeout.getD none
    healthPort := b.healthPort.getD none
    checks := b.checks.getD [] }

/-- Settings from their fields in a list. -/
def fields (fs : Fields) : Except Json.Fault (Settings × Fields) := do
  let (applicationId, fs) ← fs.nextD decodeIdentifier .nil
  let (serverName, fs) ← fs.nextD string ""
  let (checkInterval, fs) ← fs.nextD (unsigned 64) 10
  let (storageApi, fs) ← fs.nextD string ""
  let (shutdownTimeout, fs) ← fs.nextD (unsigned 64) 5
  let (reportTimeout, fs) ← fs.nextD (option (unsigned 64)) none
  let (healthPort, fs) ← fs.nextD (option (unsigned 16)) none
  let (checks, fs) ← fs.nextD decodeChecks []
  return ({ applicationId, serverName, checkInterval, storageApi, shutdownTimeout,
            reportTimeout, healthPort, checks }, fs)

/-- Settings from JSON. -/
def decode (d : Document) : Except Json.Fault Settings :=
  record "MonitorSettings" 8 .written {} Draft.step Draft.finish fields d

/-- The settings section of a file from JSON. -/
def decodeFile (d : Document) : Except Json.Fault Settings :=
  record "SettingsFile" 1 .written (none : Option Settings)
    (fun current key d =>
      if key = "Health" then once key decode d current
      else do
        skip key d
        return current)
    (required "Health") (fun fs => fs.next decode) d

/-- Decodes the text of a settings file. -/
def parse (s : String) : Except SettingsFault Settings :=
  match whole decodeFile s.toList with
  | .ok settings => .ok settings
  | .error e => .error (.undecodable e)

/-- Decodes and checks the text of a settings file. -/
def fromJson (host : Option String) (s : String) : Except SettingsFault Settings := do
  (← parse s).finish host

end Settings

end HealthWatch
