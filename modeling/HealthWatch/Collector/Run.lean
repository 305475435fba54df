import HealthWatch.Collector.Round

/-! # Runs — from registering to the last round

    A collector registers its definitions, runs rounds on its interval until the
    program stops, and then runs one last round.  When the program stops while it
    registers, it does nothing more.

    A round is due an interval after the one before was due; when that one began
    late, an interval after it began.  Of a stop and a round that are due together
    either may come first; a round that begins when the program is stopping does
    nothing.

    * `Collector.run` is the whole run, `Collector.phaseAfter` and
      `Collector.reportAfter` what can be seen of it at a moment;
    * `Collector.shutDown` says how waiting for its end goes. -/

namespace HealthWatch.Collector

variable {α σ : Type}

/-- Registers the definitions of jobs; none when the stop comes first. -/
def registerUntilStop (peers : Peers α σ) :
    List (Job α) → World σ → Option (List (Job α)) × World σ
  | jobs, w =>
      let (stopFirst, s) := peers.stopFirst w.peers
      let w := { w with peers := s }
      if w.isStopping && stopFirst then (none, w)
      else
        match jobs with
        | [] => (some [], w)
        | job :: rest =>
            let (stored, time, w) := sendDefinition peers job w
            let after := w.wait time
            match w.stopAt with
            | some stop =>
                if stop < after.moment then
                  (none, { w with moment := max w.moment stop })
                else
                  let (rest, w) := registerUntilStop peers rest after
                  (rest.map (adopt job stored :: ·), w)
            | none =>
                let (rest, w) := registerUntilStop peers rest after
                (rest.map (adopt job stored :: ·), w)

/-- How late a round may begin without counting as late. -/
def lateness : Nat := 5000000

/-- When the next round is due after one that was due and began at these moments. -/
def nextDue (interval due start : Nat) : Nat :=
  if due + lateness < start then start + interval else due + interval

/-- Rounds are due later and later. -/
theorem due_lt_nextDue {interval due start : Nat} (h : 0 < interval) :
    due < nextDue interval due start := by
  unfold nextDue
  split <;> omega

/-- A round that begins when the program is stopping does nothing. -/
theorem tick_of_isStopping (c : Collector α) (peers : Peers α σ) {w : World σ}
    (h : w.isStopping = true) : c.tick peers w = (some {}, w) := by
  have hnothing : c.collectFrom peers .byStop {} c.jobs w = (some {}, w) := by
    cases c.jobs with
    | nil => rfl
    | cons job rest => exact if_pos h
  rw [tick, collect, hnothing]
  simp only [Nat.sub_self, Option.map_some]
  rfl

/-- Ends the rounds of a program that is stopping.  A round may be due together with
    the stop, and as long as one is, either comes first. -/
def lastRounds (c : Collector α) (peers : Peers α σ) (positive : 0 < c.interval) (due : Nat)
    (w : World σ) (stopping : w.isStopping = true) : World σ × Bool :=
  if w.moment < due then (w, false)
  else
    let (stopFirst, s) := peers.stopFirst w.peers
    if stopFirst then ({ w with peers := s }, false)
    else
      match h : c.tick peers { w with peers := s } with
      | (none, after) => (after, true)
      | (some _, after) =>
          have hafter : after = { w with peers := s } := by
            rw [tick_of_isStopping (w := { w with peers := s }) c peers stopping] at h
            exact (congrArg Prod.snd h).symm
          lastRounds c peers positive (nextDue c.interval due w.moment) after
            (hafter ▸ stopping)
termination_by w.moment + 1 - due
decreasing_by
  have := @due_lt_nextDue c.interval due w.moment positive
  rw [hafter]
  simp only
  omega

/-- Runs rounds up to the stop, which comes at the moment `limit` or, when a probe
    stops the program, before it.  The next round is due at `due`.  The second part
    tells whether a probe crashed. -/
def rounds (c : Collector α) (peers : Peers α σ) (positive : 0 < c.interval) (limit due : Nat)
    (w : World σ) : World σ × Bool :=
  let stop := min limit (w.stopAt.getD limit)
  let start := max w.moment due
  if stop ≤ start then
    lastRounds c peers positive due
      { w with moment := max w.moment stop, stopAt := some stop }
      (World.isStopping_of_le rfl (Nat.le_max_right w.moment stop))
  else
    match c.tick peers { w with moment := start } with
    | (none, after) => (after, true)
    | (some report, after) =>
        rounds c peers positive limit (nextDue c.interval due start)
          (if after.isStopping then after else after.happen (.published report))
termination_by limit - due
decreasing_by
  have := @due_lt_nextDue c.interval due (max w.moment due) positive
  omega

/-- Runs the last round. -/
def finish (c : Collector α) (peers : Peers α σ) (w : World σ) : World σ × Bool :=
  match c.drain peers (w.happen (.entered .draining)) with
  | (none, w) => (w, true)
  | (some report, w) => ((w.happen (.published report)).happen (.entered .stopped), false)

/-- A whole run of a program that is stopped at the moment `stop` at the latest: its
    end, and whether it crashed. -/
def run (c : Collector α) (peers : Peers α σ) (stop : Nat) (s : σ) : World σ × Bool :=
  let w : World σ := { stopAt := some stop, peers := s }
  match registerUntilStop peers c.jobs (w.happen (.entered .registering)) with
  | (none, w) => (w.happen (.entered .stopped), false)
  | (some jobs, w) =>
      let w := w.happen (.entered .running)
      if h : 0 < c.interval then
        match rounds { c with jobs } peers h stop w.moment w with
        | (w, true) => (w, true)
        | (w, false) => finish { c with jobs } peers w
      else (w, true)

/-! ## Looking at a run -/

/-- The state that events have led to. -/
def phaseAfter (events : List (Nat × Event)) : Phase :=
  events.foldl (fun p (_, e) => match e with
    | .entered q => q
    | _ => p) .notStarted

/-- The latest report among events. -/
def reportAfter (events : List (Nat × Event)) : Option Report :=
  events.foldl (fun r (_, e) => match e with
    | .published report => some report
    | _ => r) none

/-- The events before a moment. -/
def eventsBefore (moment : Nat) (w : World σ) : List (Nat × Event) :=
  w.events.filter fun (m, _) => m < moment

/-- What waiting for the end of a run came to. -/
structure ShutDown where
  finished : Bool
  took : Nat
  events : List (Nat × Event)
deriving Repr

/-- Waits for the end of a run from the moment `asked` for the time `patience`; a run
    that has not ended then is broken off. -/
def shutDown (w : World σ) (asked patience : Nat) : ShutDown :=
  let limit := asked + patience
  if w.moment < limit then { finished := true, took := w.moment - asked, events := w.events }
  else { finished := false, took := patience, events := eventsBefore limit w }

end HealthWatch.Collector
