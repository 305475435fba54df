import HealthWatch.Collector.Reporter
import HealthWatch.Probe.Bounded
import HealthWatch.Probe.Registry
import HealthWatch.Report

/-! # Collectors — probes that are run and reported

    A collector has a job for each check: the definition it registers, the status
    and time limit of the probe, and the probe.  Everything else it works with
    belongs to its peers: how probes answer and how long reporting takes.

    * `Collector.ofSettings` makes the jobs of configured checks;
    * `World` is the state of a run, with all that happened in it. -/

namespace HealthWatch

/-- A probe with its definition and the settings for its runs. -/
structure Job (α : Type) where
  definition : Check
  context : ProbeContext
  probe : α
deriving Repr

/-- A collector of the checks of one application on one server. -/
structure Collector (α : Type) where
  applicationId : Identifier
  serverName : String
  /-- The time between two rounds in nanoseconds. -/
  interval : Nat
  jobs : List (Job α)
deriving Repr

/-- The nanoseconds of a number of seconds. -/
def nanosOfSeconds (n : Nat) : Nat := n * 1000000000

/-- The job of a configured check. -/
def Job.ofSettings {α : Type} (registry : Registry α) (c : CheckSettings) :
    Except SettingsFault (Job α) := do
  let probe ← registry.build c
  return {
    definition := { id := .nil, name := c.name, description := c.description, tags := c.tags }
    context := { failureStatus := c.failureStatus, timeout := .ofSeconds c.timeout }
    probe }

/-- The collector of settings, with a job for each check in its place. -/
def Collector.ofSettings {α : Type} (registry : Registry α) (s : Settings) :
    Except SettingsFault (Collector α) := do
  let jobs ← s.checks.mapM (Job.ofSettings registry)
  return {
    applicationId := s.applicationId
    serverName := s.serverName
    interval := nanosOfSeconds s.checkInterval
    jobs }

/-- What a probe does when it is called. -/
structure Answer where
  /-- It stops the program first. -/
  stops : Bool := false
  /-- It crashes. -/
  crashes : Bool := false
  /-- Its result and the time it takes; none when it never answers. -/
  outcome : Option (Nat × ProbeResult)
deriving Repr

/-- Everything around a collector, with a state of its own. -/
structure Peers (α σ : Type) where
  /-- Calls the probe of a job; it is told whether the program is stopping. -/
  ask : Job α → Bool → σ → Answer × σ
  /-- Registers a definition: the time it takes and the stored definition, if any. -/
  register : Check → σ → (Nat × Option Check) × σ
  /-- Submits a result: the time it takes. -/
  submit : Entry → σ → Nat × σ
  /-- Why the submission of a result fails, if it does. -/
  refusal : Entry → σ → Option ReportFault := fun _ _ => none
  /-- Whether the stop comes first of two events at one moment. -/
  stopFirst : σ → Bool × σ
  /-- The time at a moment. -/
  wall : Nat → Instant

/-- The states of a collector. -/
inductive Phase where
  | notStarted
  | registering
  | running
  | draining
  | stopped
deriving DecidableEq, Repr, Inhabited

/-- The name of a state. -/
def Phase.name : Phase → String
  | notStarted => "NotStarted"
  | registering => "Registering"
  | running => "Running"
  | draining => "Draining"
  | stopped => "Stopped"

/-- What a collector does that others see. -/
inductive Event where
  | entered (phase : Phase)
  | registered (definition : Check)
  | submitted (entry : Entry)
  /-- A result that could not be submitted is put on record. -/
  | complained (name : String) (fault : ReportFault)
  | published (report : Report)
deriving DecidableEq, Repr

/-- The state of a run: the moment, the moment of the stop when it is known, the
    state of the peers, and the events with their moments. -/
structure World (σ : Type) where
  moment : Nat := 0
  stopAt : Option Nat := none
  peers : σ
  events : List (Nat × Event) := []

namespace World

variable {σ : Type}

/-- Whether the program is stopping at this moment. -/
def isStopping (w : World σ) : Bool :=
  match w.stopAt with
  | some s => s ≤ w.moment
  | none => false

/-- From the moment of the stop on, the program is stopping. -/
theorem isStopping_of_le {w : World σ} {stop : Nat} (hstop : w.stopAt = some stop)
    (h : stop ≤ w.moment) : w.isStopping = true := by
  rw [isStopping, hstop]
  exact decide_eq_true h

/-- Stops the program at this moment, if it is not stopping yet. -/
def stop (w : World σ) : World σ :=
  { w with stopAt := some ((w.stopAt.getD w.moment).min w.moment) }

/-- Lets time go by. -/
def wait (time : Nat) (w : World σ) : World σ :=
  { w with moment := w.moment + time }

/-- Something happens at this moment. -/
def happen (e : Event) (w : World σ) : World σ :=
  { w with events := w.events ++ [(w.moment, e)] }

end World

end HealthWatch
