import HealthWatch.Probe.Builtin
import HealthWatch.Text.Uppercase

/-! # Registries — which kind of check makes which probe

    A registry holds a factory under each tag.  Tags are the same when they differ
    only in case and in the blanks around them, and the latest factory under a tag
    counts.

    * `Registry.register`, `Registry.contains` and `Registry.build` put a factory
      in, look for a tag and make the probe of a check;
    * `Registry.builtin` makes the built-in probes. -/

namespace HealthWatch

open Text

/-- Makes a probe from the settings of a check. -/
abbrev ProbeFactory (α : Type) := CheckSettings → Except SettingsFault α

/-- Factories by tag, the latest first. -/
structure Registry (α : Type) where
  factories : List (List Char × ProbeFactory α)

namespace Registry

variable {α β : Type}

/-- The form in which tags are compared. -/
def normalTag (tag : String) : List Char :=
  uppercase (trim tag.toList)

/-- No factories. -/
def empty : Registry α := ⟨[]⟩

/-- Puts a factory under a tag. -/
def register (r : Registry α) (tag : String) (factory : ProbeFactory α) : Registry α :=
  ⟨(normalTag tag, factory) :: r.factories⟩

/-- The factory under a tag. -/
def factory? (r : Registry α) (tag : String) : Option (ProbeFactory α) :=
  r.factories.lookup (normalTag tag)

/-- Whether there is a factory under a tag. -/
def contains (r : Registry α) (tag : String) : Bool :=
  (r.factory? tag).isSome

/-- Makes the probe of a check. -/
def build (r : Registry α) (c : CheckSettings) : Except SettingsFault α :=
  match r.factory? c.kind with
  | some factory => factory c
  | none => .error (.unknownKind c.name c.kind)

/-- A registry whose probes are used as those of another type. -/
def map (f : α → β) (r : Registry α) : Registry β :=
  ⟨r.factories.map fun (tag, factory) => (tag, fun c => f <$> factory c)⟩

/-- Refuses a blank value of an option that has to be there. -/
def demand (option value : String) (c : CheckSettings) : Except SettingsFault Unit :=
  if isBlankText value then .error (.invalidCheck c.name (option ++ " is required"))
  else .ok ()

/-- The built-in tags and their factories.  A web client is taken to be there for the probes of
    endpoints and of hubs: that it cannot be made, which would refuse their checks as well, is
    left out. -/
def builtins : List (String × ProbeFactory Probe) := [
  ("APPLICATION STATE", fun _ => .ok .liveness),
  ("ALLOCATED MEMORY", fun c => Probe.memory <$> c.readOptions Options.memory),
  ("DISK STORAGE", fun c => Probe.drives <$> c.readOptions Options.drives),
  ("SMTP", fun c => do
    let server ← c.readOptions Options.mail
    demand "Hostname" server.hostname c
    return Probe.mail server),
  ("DNS", fun c => Probe.names <$> c.readOptions Options.names),
  ("REST", fun c => Probe.endpoints <$> c.readOptions Options.endpoints),
  ("FTP", fun c => Probe.files <$> c.readOptions Options.fileServers),
  ("SIGNALR", fun c => do
    let url ← c.readOptions Options.hub
    demand "Url" url c
    return Probe.hub url)]

/-- The registry of the built-in probes. -/
def builtin : Registry Probe :=
  builtins.foldl (fun r (tag, factory) => r.register tag factory) empty

end Registry

end HealthWatch
