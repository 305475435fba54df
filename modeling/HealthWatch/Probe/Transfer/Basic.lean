import HealthWatch.Probe.Transfer.Address
import HealthWatch.Probe.Transfer.Dialogue

/-! # File servers — log in and print the working directory

    Servers are tried in order up to the first whose dialogue fails or ends with
    a code that does not name a directory. -/

namespace HealthWatch.Transfer

open Text

/-- A server and the credentials for it. -/
structure Host where
  host : String
  user : Option String
  password : Option String
deriving DecidableEq, Repr

/-- What comes of connecting to the server at an address. -/
abbrev Network := Address → Connection

/-- The dialogue with one server. -/
def talk (network : Network) (ctx : ProbeContext) (h : Host) : Dialogue :=
  match Address.parse? h.host with
  | none => .ended (.address h.host)
  | some address =>
      match (network address).channel ctx with
      | .error e => .ended e
      | .ok channel =>
          Dialogue.run (h.user.getD "anonymous") (h.password.getD "anonymous@") channel

/-- Whether a code says that there is a directory. -/
def isDirectoryCode (code : Nat) : Bool :=
  code = 257 || code = 226

/-- The result for a list of servers, and the commands sent to each that was
    tried. -/
def check (network : Network) (ctx : ProbeContext) :
    List Host → ProbeResult × List (List String)
  | [] => (.healthy, [])
  | h :: rest =>
      let d := talk network ctx h
      match d.outcome with
      | .error e => (.failed ctx.failureStatus e, [d.sent])
      | .ok reply =>
          if isDirectoryCode reply.code then
            let (result, sent) := check network ctx rest
            (result, d.sent :: sent)
          else
            (.described ctx.failureStatus ("Error connecting to ftp host " ++ h.host
              ++ " with exit code " ++ natText reply.code), [d.sent])

end HealthWatch.Transfer
