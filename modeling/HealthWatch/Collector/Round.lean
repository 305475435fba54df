import HealthWatch.Collector.Basic

/-! # Rounds — every probe once

    A round runs the probes in their order and submits each result as it comes.
    It ends early when the program stops, unless it is the last round, which runs
    on whatever happens.  A probe that was cut off is not submitted.

    * `Collector.register` registers all definitions;
    * `Collector.tick` is a round, `Collector.drain` the last one. -/

namespace HealthWatch.Collector

variable {α σ : Type}

/-- What cuts a round short. -/
inductive Cancel where
  | byStop
  | never
deriving DecidableEq, Repr

/-- The moment at which a round is cut short, as far as it is known. -/
def Cancel.moment? (c : Cancel) (w : World σ) : Option Nat :=
  match c with
  | byStop => w.stopAt
  | never => none

/-- Whether a round is cut short at this moment. -/
def Cancel.isDue (c : Cancel) (w : World σ) : Bool :=
  match c with
  | byStop => w.isStopping
  | never => false

/-- The entry of a result. -/
def entryOf (c : Collector α) (job : Job α) (result : ProbeResult) (now : Instant) : Entry where
  id := .nil
  applicationId := c.applicationId
  serverName := c.serverName
  name := job.definition.name
  description := result.summary
  status := result.status
  lastExecution := now
  lastDuration := result.duration
  check := none
  history := none

/-- Runs the probe of a job within its bounds; none when it crashes. -/
def runJob (peers : Peers α σ) (cancel : Cancel) (job : Job α) (w : World σ) :
    Option ProbeResult × World σ :=
  let (answer, s) := peers.ask job w.isStopping w.peers
  let (stopFirst, s) := peers.stopFirst s
  let w := { w with peers := s }
  let w := if answer.stops then w.stop else w
  if answer.crashes then (none, w)
  else
    let stop := (cancel.moment? w).map (· - w.moment)
    let (time, result) := ProbeResult.bounded job.context answer.outcome stop
      (stopFirst && !answer.stops)
    (some result, w.wait time)

/-- Submits the result of a job; a failure is only put on record. -/
def submit (c : Collector α) (peers : Peers α σ) (job : Job α) (result : ProbeResult)
    (w : World σ) : World σ :=
  let entry := c.entryOf job result (peers.wall w.moment)
  let (time, s) := peers.submit entry w.peers
  let after := ({ w with peers := s }.happen (.submitted entry)).wait time
  match peers.refusal entry w.peers with
  | some fault => after.happen (.complained entry.name fault)
  | none => after

/-- Runs jobs and puts their results into a report; none when a probe crashes. -/
def collectFrom (c : Collector α) (peers : Peers α σ) (cancel : Cancel) (report : Report) :
    List (Job α) → World σ → Option Report × World σ
  | [], w => (some report, w)
  | job :: rest, w =>
      if cancel.isDue w then (some report, w)
      else
        match runJob peers cancel job w with
        | (none, w) => (none, w)
        | (some result, w) =>
            if result.error = some .cancelled then (some report, w)
            else
              collectFrom c peers cancel (report.insert job.definition.name result) rest
                (c.submit peers job result w)

/-- A round: its report with the time it took, none when a probe crashes. -/
def collect (c : Collector α) (peers : Peers α σ) (cancel : Cancel) (w : World σ) :
    Option Report × World σ :=
  let (report, after) := c.collectFrom peers cancel {} c.jobs w
  (report.map fun r => { r with duration := .ofNanos (after.moment - w.moment) }, after)

/-- A round that the stop cuts short. -/
def tick (c : Collector α) (peers : Peers α σ) (w : World σ) : Option Report × World σ :=
  c.collect peers .byStop w

/-- The last round. -/
def drain (c : Collector α) (peers : Peers α σ) (w : World σ) : Option Report × World σ :=
  c.collect peers .never w

/-- A job that takes over the identifier of the stored definition, if there is one. -/
def adopt (job : Job α) : Option Check → Job α
  | some stored => { job with definition := { job.definition with id := stored.id } }
  | none => job

/-- Sends the definition of a job: what comes back, the time it takes, and the run
    at the moment of sending. -/
def sendDefinition (peers : Peers α σ) (job : Job α) (w : World σ) :
    Option Check × Nat × World σ :=
  let ((time, stored), s) := peers.register job.definition w.peers
  (stored, time, { w with peers := s }.happen (.registered job.definition))

/-- Registers the definitions of jobs. -/
def registerJobs (peers : Peers α σ) : List (Job α) → World σ → List (Job α) × World σ
  | [], w => ([], w)
  | job :: rest, w =>
      let (stored, time, w) := sendDefinition peers job w
      let (rest, w) := registerJobs peers rest (w.wait time)
      (adopt job stored :: rest, w)

/-- Registers all definitions; a failure is passed over. -/
def register (c : Collector α) (peers : Peers α σ) (w : World σ) : Collector α × World σ :=
  let (jobs, w) := registerJobs peers c.jobs w
  ({ c with jobs }, w)

end HealthWatch.Collector
