import HealthWatch.Probe.Disk
import HealthWatch.Probe.Transfer.Basic
import HealthWatch.Settings.Decode

/-! # Options — what a check is told beyond the common settings

    Each kind of check reads its own options and leaves the others alone.  All
    options have defaults; options of a wrong type make the check invalid.

    * `CheckSettings.readOptions` decodes the options of a check. -/

namespace HealthWatch

open Json Json.Decode

/-- Decodes the options of a check; a refusal names the check. -/
def CheckSettings.readOptions {α : Type} (decode : Document → Except Json.Fault α)
    (c : CheckSettings) : Except SettingsFault α :=
  match decode (.ofJson (.object c.options)) with
  | .ok a => .ok a
  | .error e => .error (.invalidCheck c.name e.reason)

namespace Options

/-- Reads one option of an object that holds others as well. -/
def only {α : Type} (name : String) (f : Document → Except Json.Fault α)
    (current : Option α) (key : String) (d : Document) : Except Json.Fault (Option α) :=
  if key = name then once key f d current else return current

/-- Options of which there is a single one, with a default. -/
def single {α : Type} (type name : String) (f : Document → Except Json.Fault α)
    (default : α) : Document → Except Json.Fault α :=
  record type 1 .ready none (only name f) (fun a => return a.getD default)
    (fun fs => fs.nextD f default)

/-- The greatest number of megabytes of memory. -/
def memory : Document → Except Json.Fault Nat :=
  single "AllocatedMemoryOptions" "MaximumMemory" (unsigned 64) 32768

/-- The members of a drive read so far. -/
structure DriveDraft where
  drive : Option String := none
  minimum : Option Nat := none

/-- Takes one member of a drive. -/
def DriveDraft.step (b : DriveDraft) (key : String) (d : Document) :
    Except Json.Fault DriveDraft :=
  match key with
  | "DriveName" => return { b with drive := ← once key string d b.drive }
  | "MinimumFreeSpace" => return { b with minimum := ← once key (unsigned 64) d b.minimum }
  | _ => return b

/-- The least number of free megabytes of one drive. -/
def threshold : Document → Except Json.Fault Disk.Threshold :=
  record "DriveThreshold" 2 .ready {} DriveDraft.step
    (fun b => return ⟨← required "DriveName" b.drive, ← required "MinimumFreeSpace" b.minimum⟩)
    (fun fs => do
      let (drive, fs) ← fs.next string
      let (minimum, fs) ← fs.next (unsigned 64)
      return (⟨drive, minimum⟩, fs))

/-- The drives to check. -/
def drives : Document → Except Json.Fault (List Disk.Threshold) :=
  single "DiskStorageOptions" "Drives" (list threshold) []

/-- A mail server. -/
structure MailServer where
  hostname : String
  port : Option Nat
  encrypted : Option Bool
deriving DecidableEq, Repr

/-- The port of a mail server: the standard one of its kind unless it has its own. -/
def MailServer.effectivePort (m : MailServer) : Nat :=
  m.port.getD (if m.encrypted.getD false then 443 else 25)

/-- The members of a mail server read so far. -/
structure MailDraft where
  hostname : Option String := none
  port : Option (Option Nat) := none
  encrypted : Option (Option Bool) := none

/-- Takes one member of a mail server. -/
def MailDraft.step (b : MailDraft) (key : String) (d : Document) :
    Except Json.Fault MailDraft :=
  match key with
  | "Hostname" => return { b with hostname := ← once key string d b.hostname }
  | "Port" => return { b with port := ← once key (option (unsigned 16)) d b.port }
  | "EnableSsl" => return { b with encrypted := ← once key (option boolean) d b.encrypted }
  | _ => return b

/-- The mail server to check. -/
def mail : Document → Except Json.Fault MailServer :=
  record "SmtpOptions" 3 .ready {} MailDraft.step
    (fun b => return ⟨b.hostname.getD "", b.port.getD none, b.encrypted.getD none⟩)
    (fun fs => do
      let (hostname, fs) ← fs.nextD string ""
      let (port, fs) ← fs.nextD (option (unsigned 16)) none
      let (encrypted, fs) ← fs.nextD (option boolean) none
      return (⟨hostname, port, encrypted⟩, fs))

/-- The hosts to look up. -/
def names : Document → Except Json.Fault (List String) :=
  single "DnsOptions" "Hosts" (list string) []

/-- The members of an endpoint read so far. -/
structure EndpointDraft where
  host : Option String := none
  service : Option String := none

/-- Takes one member of an endpoint. -/
def EndpointDraft.step (b : EndpointDraft) (key : String) (d : Document) :
    Except Json.Fault EndpointDraft :=
  match key with
  | "Host" => return { b with host := ← once key string d b.host }
  | "Service" => return { b with service := ← once key string d b.service }
  | _ => return b

/-- The address of one endpoint: its host with its service behind it. -/
def endpoint : Document → Except Json.Fault String :=
  record "RestEndpoint" 2 .ready {} EndpointDraft.step
    (fun b => return (← required "Host" b.host) ++ b.service.getD "")
    (fun fs => do
      let (host, fs) ← fs.next string
      let (service, fs) ← fs.nextD string ""
      return (host ++ service, fs))

/-- The addresses of the endpoints to call. -/
def endpoints : Document → Except Json.Fault (List String) :=
  single "RestOptions" "Hosts" (list endpoint) []

/-- The members of a file server read so far. -/
structure HostDraft where
  host : Option String := none
  user : Option (Option String) := none
  password : Option (Option String) := none

/-- Takes one member of a file server. -/
def HostDraft.step (b : HostDraft) (key : String) (d : Document) :
    Except Json.Fault HostDraft :=
  match key with
  | "Host" => return { b with host := ← once key string d b.host }
  | "User" => return { b with user := ← once key (option string) d b.user }
  | "Password" => return { b with password := ← once key (option string) d b.password }
  | _ => return b

/-- One file server. -/
def fileServer : Document → Except Json.Fault Transfer.Host :=
  record "FtpHost" 3 .ready {} HostDraft.step
    (fun b => return ⟨← required "Host" b.host, b.user.getD none, b.password.getD none⟩)
    (fun fs => do
      let (host, fs) ← fs.next string
      let (user, fs) ← fs.nextD (option string) none
      let (password, fs) ← fs.nextD (option string) none
      return (⟨host, user, password⟩, fs))

/-- The file servers to check. -/
def fileServers : Document → Except Json.Fault (List Transfer.Host) :=
  single "FtpOptions" "Hosts" (list fileServer) []

/-- The address of the hub to check. -/
def hub : Document → Except Json.Fault String :=
  single "SignalROptions" "Url" string ""

end Options

end HealthWatch
