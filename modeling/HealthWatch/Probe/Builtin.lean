import HealthWatch.Probe.Hub
import HealthWatch.Probe.Liveness
import HealthWatch.Probe.Mail
import HealthWatch.Probe.Memory
import HealthWatch.Probe.Names
import HealthWatch.Probe.Rest
import HealthWatch.Settings.Options

/-! # Built-in probes — the kinds of checks that are always there

    A probe is what a check looks at.  What it finds depends on its sources: the
    program itself, the machine and its network.

    * `Probe.check` looks at the sources of a probe. -/

namespace HealthWatch

/-- What a check looks at. -/
inductive Probe where
  /-- Whether the program is stopping. -/
  | liveness
  /-- The resident memory against a number of megabytes. -/
  | memory (maximum : Nat)
  /-- The free space of drives. -/
  | drives (thresholds : List Disk.Threshold)
  /-- The greeting of a mail server. -/
  | mail (server : Options.MailServer)
  /-- The addresses of hosts. -/
  | names (hosts : List String)
  /-- The answers of web endpoints. -/
  | endpoints (urls : List String)
  /-- The directories of file servers. -/
  | files (hosts : List Transfer.Host)
  /-- The negotiation with a message hub. -/
  | hub (url : String)
deriving DecidableEq, Repr

/-- All that probes look at. -/
structure Sources where
  stopping : Bool
  memory : Except String Nat
  drives : Disk.Inventory
  resolver : Names.Resolver
  mail : Options.MailServer → Connection
  files : Transfer.Network
  web : Http.Network

/-- What a probe finds. -/
def Probe.check (s : Sources) (ctx : ProbeContext) : Probe → ProbeResult
  | liveness => Liveness.check s.stopping
  | memory maximum => Memory.check maximum ctx s.memory
  | drives thresholds => Disk.check thresholds ctx s.drives
  | mail server => Mail.check ctx (s.mail server)
  | names hosts => (Names.lookUp s.resolver ctx hosts).1
  | endpoints urls => Rest.check s.web ctx urls
  | files hosts => (Transfer.check s.files ctx hosts).1
  | hub url => Hub.check s.web ctx url

end HealthWatch
