import HealthWatch.Api.Basic
import HealthWatch.Collector.Round
import HealthWatch.Startup
import HealthWatch.Wire.Report

/-! # The programs — a collector and a storage server

    Both programs take their settings from the environment, and one that cannot
    start shows why and ends with the code 1.  They have no sockets of their own:

    * the collector runs one round, in which nothing on the network answers, and
      shows its report;
    * the server takes its requests from standard input, one a line: the time at
      which it comes in, the method, the target and the body, with blanks between
      them.  It answers each with a line of the code and the body. -/

namespace HealthWatch.Programs

open Text

/-- The variables that the programs look at. -/
def variableNames : List String := [
  "HEALTHMON_CONFIG", "HEALTHMON_APPLICATION_ID", "HEALTHMON_SERVER_NAME",
  "HEALTHMON_STORAGE_API", "HEALTHMON_CHECK_INTERVAL", "HEALTHMON_HEALTH_PORT",
  "HEALTHMON_HTTP_PORT", "HEALTHMON_DB_PATH"]

/-- The environment of the program. -/
def surroundings : IO Surroundings := do
  let environment ← variableNames.filterMapM fun name => do
    return (← IO.getEnv name).map (name, ·)
  return { files := [], environment }

/-- The fault of a file behind an error. -/
def faultOf : IO.Error → FileFault
  | .alreadyExists .. => .alreadyThere
  | .inappropriateType .. => .isDirectory
  | .illegalOperation .. => .isDirectory
  | .invalidArgument .. => .nameTooLong
  | _ => .notFound

/-- Reads a file. -/
def textAt (path : String) : IO (Except FileFault String) := do
  try
    return .ok (← IO.FS.readFile path)
  catch e => return .error (faultOf e)

/-- The name of this host. -/
def hostName : IO (Option String) := do
  match ← textAt "/etc/hostname" with
  | .ok name => return some (String.ofList (trim name.toList))
  | .error _ => return none

/-- What there is at a path. -/
def nodeAt (path : String) : IO (Option Store.FileNode) := do
  try
    let place ← IO.FS.realPath path
    if ← place.isDir then return some .directory
    else return some (.file (← IO.FS.readBinFile place).toList)
  catch _ => return none

/-- The nodes on the way to a path. -/
def treeAlong (path : String) : IO Store.FileTree := do
  let names := Store.pathNames path
  let start := if path.startsWith "/" then "/" else ""
  let nodes ← (List.range names.length).filterMapM fun n => do
    let front := names.take (n + 1)
    let node ← nodeAt (start ++ "/".intercalate (front.map String.ofList))
    return node.map (front, ·)
  return fun names => if names.isEmpty then some .directory else nodes.lookup names

/-- What the probes of a program without sockets look at. -/
def sources (sample : Except String Nat) : Sources where
  stopping := false
  memory := sample
  drives := .unreadable "free space is not known"
  resolver := fun _ => .error "there is no resolver"
  mail := fun _ => .refused "there is no network"
  files := fun _ => .refused "there is no network"
  web := fun _ => none

/-- The answer of a probe.  Without a sample the memory probe crashes; no other probe asks
    for it. -/
def answer (resident : Except Overflow (Except String Nat)) (job : Job Probe) : Answer :=
  match resident, job.probe with
  | .error _, .memory _ => { crashes := true, outcome := none }
  | .error _, probe => { outcome := some (0, probe.check (sources (.ok 0)) job.context) }
  | .ok sample, probe => { outcome := some (0, probe.check (sources sample) job.context) }

/-- The peers of a round in which nobody listens to reports. -/
def peers (resident : Except Overflow (Except String Nat)) : Peers Probe Unit where
  ask job _ u := (answer resident job, u)
  register _ u := ((0, none), u)
  submit _ u := (0, u)
  stopFirst u := (false, u)
  wall _ := .epoch

/-- The resident memory of this program. -/
def resident : IO (Except Overflow (Except String Nat)) := do
  return Memory.sample ((← textAt "/proc/self/status").mapError FileFault.message)

/-- Shows why a program does not start. -/
def refuse (e : Startup.Fault) : IO UInt32 := do
  IO.eprintln ("Error: " ++ e.text)
  return 1

/-- The collector. -/
def collector : IO UInt32 := do
  let w ← surroundings
  match Startup.collectorOfFile (← hostName) w (← textAt (Settings.path w)) with
  | .error e => refuse e
  | .ok (c, _) =>
      let (report, _) := c.drain (peers (← resident)) { peers := () }
      IO.println (Wire.encodeReport report).render
      return 0

/-- The identifier of the fourth version with these random parts: 48, 12 and 62
    bits. -/
def randomIdentifier (high middle low : Nat) : Identifier :=
  .ofNat (((high * 65536 + 0x4000 + middle) * 4 + 2) * 4611686018427387904 + low)

/-- A random identifier. -/
def fresh : IO Identifier := do
  return randomIdentifier (← IO.rand 0 0xffffffffffff) (← IO.rand 0 0xfff)
    (← IO.rand 0 0x3fffffffffffffff)

/-- The time and the request on a line. -/
def request? (line : String) : Option (Instant × Http.Request) := do
  let (time, rest) ← cutFirst ' ' (trimEnd line.toList)
  let now ← (Instant.Rfc3339.parse time).toOption
  let (method, rest) ← cutFirst ' ' rest
  let (target, body) := (cutFirst ' ' rest).getD (rest, [])
  return (now, {
    method := String.ofList method
    target := String.ofList target
    headers := [("content-type", "application/json")]
    body := Utf8.encode body })

/-- Answers the requests on standard input. -/
partial def serve (input : IO.FS.Stream) (store : Store) : IO Unit := do
  let line ← input.getLine
  if line.isEmpty then return
  match request? line with
  | none =>
      IO.println "400"
      serve input store
  | some (now, request) =>
      let moment : Api.Moment :=
        { now, checkId := ← fresh, entryId := ← fresh, transitionId := ← fresh }
      let (response, store) := Api.answer moment request store
      IO.println (natText response.status ++ " "
        ++ String.ofList (Utf8.decodeLossy response.body))
      serve input store

/-- The storage server. -/
def server : IO UInt32 := do
  let w ← surroundings
  let tree ← treeAlong (ServerSettings.load w).storePath
  match Startup.storeOf tree w with
  | .error e => refuse e
  | .ok store =>
      serve (← IO.getStdin) store
      return 0

end HealthWatch.Programs

/-- Runs the program that the first argument names. -/
def main (args : List String) : IO UInt32 := do
  match args with
  | ["collector"] => HealthWatch.Programs.collector
  | ["server"] => HealthWatch.Programs.server
  | _ =>
      IO.eprintln "usage: healthwatch collector|server"
      return 2
