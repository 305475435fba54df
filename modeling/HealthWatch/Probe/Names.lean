import HealthWatch.Probe.Basic

/-! # Name resolution — every host has to have an address

    Hosts are looked up in order up to the first that has no address or whose
    look-up fails. -/

namespace HealthWatch.Names

/-- What looking up a host ends with: its addresses, or why there are none to
    be had. -/
abbrev Resolver := String → Except String (List String)

/-- The result for a list of hosts, and the hosts that were looked up. -/
def lookUp (resolve : Resolver) (ctx : ProbeContext) : List String → ProbeResult × List String
  | [] => (.healthy, [])
  | host :: rest =>
      match resolve host with
      | .error reason => (.failed .unhealthy (.io reason), [host])
      | .ok [] =>
          (.described ctx.failureStatus
            ("host " ++ host ++ " was not resolved from dns server"), [host])
      | .ok _ =>
          let (result, asked) := lookUp resolve ctx rest
          (result, host :: asked)

end HealthWatch.Names
