import HealthWatch.Collector.Round
import HealthWatch.Proofs.Report
import Mathlib.Data.List.TakeWhile

/-! # Turns — what a round submits and what it reports

    In a round the jobs have their turns one after the other.  A turn counts when the
    round was not cut short before it and its probe gave a result that is not that of
    a cut.  The first turn that does not count ends the round.

    * `Collector.turns` are the turns of all jobs, `Turn.counts` tells which count;
    * `acts_collectFrom` and `report_collectFrom`: a round submits the results of the
      turns up to the first one that does not count, and reports them;
    * `turns_alike`: whether submissions fail has no part in it. -/

namespace HealthWatch

/-! ## What a collector does to others -/

/-- Whether an event is only put on record. -/
def Event.isComplaint : Event → Bool
  | complained _ _ => true
  | _ => false

namespace World

variable {σ : Type}

/-- What was done to others, in its order. -/
def acts (w : World σ) : List Event :=
  (w.events.map Prod.snd).filter fun e => !e.isComplaint

@[simp] theorem acts_wait (time : Nat) (w : World σ) : (w.wait time).acts = w.acts := rfl

@[simp] theorem acts_stop (w : World σ) : w.stop.acts = w.acts := rfl

@[simp] theorem acts_with_peers (w : World σ) (s : σ) : { w with peers := s }.acts = w.acts := rfl

theorem acts_happen {e : Event} (h : e.isComplaint = false) (w : World σ) :
    (w.happen e).acts = w.acts ++ [e] := by
  simp [acts, happen, h]

/-- A complaint is no act. -/
@[simp] theorem acts_complained (w : World σ) (name : String) (fault : ReportFault) :
    (w.happen (.complained name fault)).acts = w.acts := by
  simp [acts, happen, Event.isComplaint]

end World

/-! ## Turns -/

/-- The turn of a job in a round. -/
structure Turn (α : Type) where
  job : Job α
  /-- The round was cut short before it. -/
  cut : Bool
  /-- What its probe gave, none when it crashed. -/
  outcome : Option ProbeResult
  /-- The time at which the probe ended. -/
  now : Instant
deriving Repr

namespace Turn

variable {α : Type}

/-- The name of the definition. -/
def name (t : Turn α) : String := t.job.definition.name

/-- The result, if the probe did not crash. -/
def result (t : Turn α) : ProbeResult := t.outcome.getD .healthy

/-- Whether the turn was begun and not cut off. -/
def counts (t : Turn α) : Bool :=
  !t.cut && t.outcome.any fun r => r.error ≠ some .cancelled

/-- Whether the turn was begun and its probe crashed. -/
def crashed (t : Turn α) : Bool := !t.cut && t.outcome.isNone

/-- A turn counts when it was not cut off, and its probe answered with something else than a
    cancellation. -/
theorem counts_iff (t : Turn α) : t.counts = true
    ↔ t.cut = false ∧ t.outcome = some t.result ∧ t.result.error ≠ some .cancelled := by
  rw [counts, result, Bool.and_eq_true, Bool.not_eq_true']
  cases t.outcome <;> simp

end Turn

namespace Collector

variable {α σ : Type}

/-- The entry that is submitted for a turn. -/
def entryOfTurn (c : Collector α) (t : Turn α) : Entry := c.entryOf t.job t.result t.now

/-- The turn that a job has when the run is here. -/
def turn (peers : Peers α σ) (cancel : Cancel) (job : Job α) (w : World σ) : Turn α :=
  let (outcome, after) := runJob peers cancel job w
  { job, cut := cancel.isDue w, outcome, now := peers.wall after.moment }

/-- The run after the turn of a job and the submission of its result. -/
def afterTurn (c : Collector α) (peers : Peers α σ) (cancel : Cancel) (job : Job α)
    (w : World σ) : World σ :=
  match runJob peers cancel job w with
  | (some result, after) => c.submit peers job result after
  | (none, after) => after

/-- The turns of jobs, as if nothing ended the round. -/
def turns (c : Collector α) (peers : Peers α σ) (cancel : Cancel) :
    List (Job α) → World σ → List (Turn α)
  | [], _ => []
  | job :: rest, w =>
      turn peers cancel job w :: turns c peers cancel rest (c.afterTurn peers cancel job w)

/-- The turns that come before the first one that does not count. -/
def counted (c : Collector α) (peers : Peers α σ) (cancel : Cancel) (jobs : List (Job α))
    (w : World σ) : List (Turn α) :=
  (c.turns peers cancel jobs w).takeWhile Turn.counts

/-- Whether the turn that ends the round is one whose probe crashed. -/
def crashes (c : Collector α) (peers : Peers α σ) (cancel : Cancel) (jobs : List (Job α))
    (w : World σ) : Bool :=
  ((c.turns peers cancel jobs w).dropWhile Turn.counts).head?.any Turn.crashed

/-- There is one turn for each job, in order. -/
theorem map_job_turns (c : Collector α) (peers : Peers α σ) (cancel : Cancel)
    (jobs : List (Job α)) (w : World σ) : (c.turns peers cancel jobs w).map Turn.job = jobs := by
  induction jobs generalizing w with
  | nil => rfl
  | cons job rest ih => exact congrArg (job :: ·) (ih _)

/-- What is counted are the first jobs. -/
theorem map_job_counted (c : Collector α) (peers : Peers α σ) (cancel : Cancel)
    (jobs : List (Job α)) (w : World σ) :
    (c.counted peers cancel jobs w).map Turn.job
      = jobs.take (c.counted peers cancel jobs w).length := by
  have hprefix := List.prefix_iff_eq_take.1
    (List.takeWhile_prefix (l := c.turns peers cancel jobs w) Turn.counts)
  have hjobs := congrArg (List.map Turn.job) hprefix
  rwa [List.map_take, map_job_turns] at hjobs

/-! ## One turn -/

section Step

variable (c : Collector α) (peers : Peers α σ) (cancel : Cancel)

/-- A probe is asked, crashes or answers, and is held to its bounds. -/
theorem exists_runJob_eq (job : Job α) (w : World σ) :
    let answer := (peers.ask job w.isStopping w.peers).1
    ∃ (asked : World σ) (stopFirst : Bool), asked.events = w.events
      ∧ runJob peers cancel job w
        = if answer.crashes then (none, asked)
          else
            let bounded := ProbeResult.bounded job.context answer.outcome
              ((cancel.moment? asked).map (· - asked.moment)) stopFirst
            (some bounded.2, asked.wait bounded.1) := by
  refine ⟨_, _, ?_, rfl⟩
  split <;> rfl

@[simp] theorem events_runJob (job : Job α) (w : World σ) :
    (runJob peers cancel job w).2.events = w.events := by
  obtain ⟨asked, stopFirst, hevents, hrun⟩ := exists_runJob_eq peers cancel job w
  rw [hrun]
  split <;> exact hevents

/-- Nothing can be seen of a job that runs. -/
@[simp] theorem acts_runJob (job : Job α) (w : World σ) :
    (runJob peers cancel job w).2.acts = w.acts := by
  rw [World.acts, events_runJob, World.acts]

/-- A submission takes the time that the peers take for it. -/
@[simp] theorem moment_submit (job : Job α) (result : ProbeResult) (w : World σ) :
    (c.submit peers job result w).moment = w.moment
      + (peers.submit (c.entryOf job result (peers.wall w.moment)) w.peers).1 := by
  rw [submit]
  dsimp only
  split <;> rfl

/-- A submission does not put off the stop. -/
@[simp] theorem stopAt_submit (job : Job α) (result : ProbeResult) (w : World σ) :
    (c.submit peers job result w).stopAt = w.stopAt := by
  rw [submit]
  dsimp only
  split <;> rfl

/-- A submission changes the peers as handing over the report does. -/
@[simp] theorem peers_submit (job : Job α) (result : ProbeResult) (w : World σ) :
    (c.submit peers job result w).peers
      = (peers.submit (c.entryOf job result (peers.wall w.moment)) w.peers).2 := by
  rw [submit]
  dsimp only
  split <;> rfl

/-- Of a submission, the report can be seen. -/
theorem acts_submit (job : Job α) (result : ProbeResult) (w : World σ) :
    (c.submit peers job result w).acts
      = w.acts ++ [.submitted (c.entryOf job result (peers.wall w.moment))] := by
  rw [submit]
  dsimp only
  split
  · rw [World.acts_complained, World.acts_wait, World.acts_happen rfl, World.acts_with_peers]
  · rw [World.acts_wait, World.acts_happen rfl, World.acts_with_peers]

/-- What a turn that counts comes from. -/
theorem runJob_of_counts {job : Job α} {w : World σ}
    (h : (turn peers cancel job w).counts = true) :
    cancel.isDue w = false ∧ ∃ result after, runJob peers cancel job w = (some result, after)
      ∧ result.error ≠ some .cancelled ∧ (turn peers cancel job w).result = result
      ∧ (turn peers cancel job w).now = peers.wall after.moment := by
  obtain ⟨hcut, houtcome, herror⟩ := (Turn.counts_iff _).1 h
  exact ⟨hcut, _, (runJob peers cancel job w).2, Prod.ext houtcome rfl, herror, rfl, rfl⟩

/-- A turn that counts is submitted and reported. -/
theorem collectFrom_of_counts {job : Job α} {w : World σ}
    (h : (turn peers cancel job w).counts = true) (report : Report) (rest : List (Job α)) :
    c.collectFrom peers cancel report (job :: rest) w
      = c.collectFrom peers cancel
          (report.insert job.definition.name (turn peers cancel job w).result) rest
          (c.afterTurn peers cancel job w) := by
  obtain ⟨hcut, result, after, hrun, herror, hresult, -⟩ := runJob_of_counts peers cancel h
  rw [collectFrom, if_neg (by simp [hcut]), hresult, afterTurn, hrun]
  exact if_neg herror

/-- A turn that does not count ends the round. -/
theorem collectFrom_of_not_counts {job : Job α} {w : World σ}
    (h : (turn peers cancel job w).counts = false) (report : Report) (rest : List (Job α)) :
    c.collectFrom peers cancel report (job :: rest) w
      = (if (turn peers cancel job w).crashed then none else some report,
          if cancel.isDue w then w else (runJob peers cancel job w).2) := by
  rcases hrun : runJob peers cancel job w with ⟨outcome, after⟩
  simp only [turn, hrun, Turn.counts, Turn.crashed] at h ⊢
  rw [collectFrom]
  by_cases hcut : cancel.isDue w = true
  · rw [if_pos hcut, if_pos hcut]
    simp [hcut]
  · rw [if_neg hcut, if_neg hcut]
    simp only [hrun]
    cases outcome with
    | none => simp [hcut]
    | some result =>
        have herror : result.error = some .cancelled := by simpa [hcut] using h
        simp [herror]

/-- A turn that does not count ends the round, and nothing is submitted any more. -/
theorem acts_collectFrom_of_not_counts {job : Job α} {w : World σ}
    (h : (turn peers cancel job w).counts = false) (report : Report) (rest : List (Job α)) :
    (c.collectFrom peers cancel report (job :: rest) w).2.acts = w.acts := by
  rw [collectFrom_of_not_counts c peers cancel h]
  dsimp only
  split
  · rfl
  · exact acts_runJob peers cancel job w

end Step

/-! ## The turns of a round -/

section Round

variable (c : Collector α) (peers : Peers α σ) (cancel : Cancel)

/-- After a turn that counts its report is submitted. -/
theorem acts_afterTurn {job : Job α} {w : World σ} (h : (turn peers cancel job w).counts = true) :
    (c.afterTurn peers cancel job w).acts
      = w.acts ++ [.submitted (c.entryOfTurn (turn peers cancel job w))] := by
  obtain ⟨-, result, after, hrun, -, hresult, hnow⟩ := runJob_of_counts peers cancel h
  have hafter := acts_runJob peers cancel job w
  rw [hrun] at hafter
  rw [afterTurn, hrun, entryOfTurn, hresult, hnow]
  exact (acts_submit c peers job result after).trans (by rw [hafter]; rfl)

/-- A round submits what is counted. -/
theorem acts_collectFrom (report : Report) (jobs : List (Job α)) (w : World σ) :
    (c.collectFrom peers cancel report jobs w).2.acts
      = w.acts ++ (c.counted peers cancel jobs w).map (.submitted <| c.entryOfTurn ·) := by
  induction jobs generalizing report w with
  | nil => exact (List.append_nil _).symm
  | cons job rest ih =>
      rw [counted, turns, List.takeWhile_cons]
      cases h : (turn peers cancel job w).counts with
      | true =>
          rw [collectFrom_of_counts c peers cancel h, ih, acts_afterTurn c peers cancel h,
            List.append_assoc]
          rfl
      | false =>
          rw [acts_collectFrom_of_not_counts c peers cancel h]
          exact (List.append_nil _).symm

/-- A round reports what is counted, unless it ends with a crash. -/
theorem report_collectFrom (report : Report) (jobs : List (Job α)) (w : World σ) :
    (c.collectFrom peers cancel report jobs w).1
      = if c.crashes peers cancel jobs w then none
        else some ((c.counted peers cancel jobs w).foldl
          (fun r t => r.insert t.name t.result) report) := by
  induction jobs generalizing report w with
  | nil => rfl
  | cons job rest ih =>
      rw [counted, crashes, turns, List.takeWhile_cons, List.dropWhile_cons]
      cases h : (turn peers cancel job w).counts with
      | true => rw [collectFrom_of_counts c peers cancel h, ih]; rfl
      | false => rw [collectFrom_of_not_counts c peers cancel h]; rfl

/-- The report of turns. -/
def reportOf (turns : List (Turn α)) (duration : Duration) : Report :=
  .ofList (turns.map fun t => (t.name, t.result)) duration

/-- A round submits the reports of the turns that count, in order, and nothing else. -/
theorem acts_collect (w : World σ) :
    (c.collect peers cancel w).2.acts
      = w.acts ++ (c.counted peers cancel c.jobs w).map (.submitted <| c.entryOfTurn ·) :=
  acts_collectFrom c peers cancel {} c.jobs w

/-- The report of a round has the results of the turns that count, unless a probe crashed. -/
theorem report_collect (w : World σ) :
    (c.collect peers cancel w).1
      = if c.crashes peers cancel c.jobs w then none
        else some (reportOf (c.counted peers cancel c.jobs w)
          (.ofNanos ((c.collect peers cancel w).2.moment - w.moment))) := by
  have hreport := report_collectFrom c peers cancel {} c.jobs w
  rw [collect]
  dsimp only
  rw [hreport]
  split
  · rfl
  · rw [reportOf, ← Report.foldl_insert_eq_ofList, List.foldl_map]
    rfl

end Round

end Collector

/-! ## Peers that differ in what fails -/

/-- Peers that answer alike and take the same times, as long as their states are
    related; which submissions fail is left open. -/
structure Peers.Alike {α σ τ : Type} (R : σ → τ → Prop) (p : Peers α σ) (q : Peers α τ) :
    Prop where
  ask : ∀ job stopping s t, R s t → (p.ask job stopping s).1 = (q.ask job stopping t).1
    ∧ R (p.ask job stopping s).2 (q.ask job stopping t).2
  stopFirst : ∀ s t, R s t → (p.stopFirst s).1 = (q.stopFirst t).1
    ∧ R (p.stopFirst s).2 (q.stopFirst t).2
  submit : ∀ entry s t, R s t → (p.submit entry s).1 = (q.submit entry t).1
    ∧ R (p.submit entry s).2 (q.submit entry t).2
  wall : ∀ moment, p.wall moment = q.wall moment

/-- Runs that are at the same point, apart from what has happened in them. -/
structure World.Alike {σ τ : Type} (R : σ → τ → Prop) (w : World σ) (v : World τ) : Prop where
  moment : w.moment = v.moment
  stopAt : w.stopAt = v.stopAt
  peers : R w.peers v.peers

namespace Collector

variable {α σ τ : Type} {R : σ → τ → Prop} {p : Peers α σ} {q : Peers α τ}
  {w : World σ} {v : World τ}

/-- Alike worlds stop at once. -/
theorem isStopping_alike (h : w.Alike R v) : w.isStopping = v.isStopping := by
  rw [World.isStopping, World.isStopping, h.stopAt, h.moment]

/-- A round is cut off in alike worlds alike. -/
theorem isDue_alike (cancel : Cancel) (h : w.Alike R v) : cancel.isDue w = cancel.isDue v := by
  cases cancel with
  | byStop => exact isStopping_alike h
  | never => rfl

/-- It is cut off at the same moment, too. -/
theorem moment?_alike (cancel : Cancel) (h : w.Alike R v) :
    cancel.moment? w = cancel.moment? v := by
  cases cancel with
  | byStop => exact h.stopAt
  | never => rfl

/-- A job runs in the same way in alike worlds, and leaves alike worlds. -/
theorem runJob_alike (hp : p.Alike R q) (cancel : Cancel) (job : Job α) (h : w.Alike R v) :
    (runJob p cancel job w).1 = (runJob q cancel job v).1
      ∧ (runJob p cancel job w).2.Alike R (runJob q cancel job v).2 := by
  obtain ⟨hanswer, hasked⟩ := hp.ask job w.isStopping _ _ h.peers
  obtain ⟨hfirst, hpeers⟩ := hp.stopFirst _ _ hasked
  rw [isStopping_alike h] at hanswer hasked hfirst hpeers
  simp only [runJob, isStopping_alike h]
  rw [← hanswer, ← hfirst]
  generalize (p.ask job v.isStopping w.peers).1 = answer
  generalize hu : (if answer.stops = true then World.stop { w with peers := _ } else _) = u
  generalize hu' : (if answer.stops = true then World.stop { v with peers := _ } else _) = u'
  have halike : u.Alike R u' := by
    subst hu hu'
    split
    · exact ⟨h.moment, by simp [World.stop, h.stopAt, h.moment], hpeers⟩
    · exact ⟨h.moment, h.stopAt, hpeers⟩
  rw [← moment?_alike cancel halike, ← halike.moment]
  split
  · exact ⟨rfl, halike⟩
  · exact ⟨rfl, ⟨congrArg (· + _) halike.moment, halike.stopAt, halike.peers⟩⟩

/-- Submitting leaves alike worlds, whether the submission fails or not. -/
theorem submit_alike (hp : p.Alike R q) (c : Collector α) (job : Job α) (result : ProbeResult)
    (h : w.Alike R v) : (c.submit p job result w).Alike R (c.submit q job result v) := by
  obtain ⟨htime, hpeers⟩ := hp.submit (c.entryOf job result (p.wall w.moment)) _ _ h.peers
  have hnow : p.wall w.moment = q.wall v.moment := by rw [h.moment, hp.wall]
  rw [hnow] at htime hpeers
  constructor
  · rw [moment_submit, moment_submit, hnow, htime, h.moment]
  · rw [stopAt_submit, stopAt_submit, h.stopAt]
  · rw [peers_submit, peers_submit, hnow]
    exact hpeers

/-- The turns of a job are the same in alike worlds. -/
theorem turn_alike (hp : p.Alike R q) (cancel : Cancel) (job : Job α) (h : w.Alike R v) :
    turn p cancel job w = turn q cancel job v := by
  obtain ⟨houtcome, hafter⟩ := runJob_alike hp cancel job h
  rw [turn, turn]
  simp only [isDue_alike cancel h, houtcome, hafter.moment, hp.wall]

/-- What follows a turn leaves alike worlds. -/
theorem afterTurn_alike (hp : p.Alike R q) (c : Collector α) (cancel : Cancel) (job : Job α)
    (h : w.Alike R v) :
    (c.afterTurn p cancel job w).Alike R (c.afterTurn q cancel job v) := by
  obtain ⟨houtcome, hafter⟩ := runJob_alike hp cancel job h
  rcases hrun : runJob p cancel job w with ⟨outcome, after⟩
  rcases hrun' : runJob q cancel job v with ⟨outcome', after'⟩
  rw [hrun, hrun'] at houtcome hafter
  obtain rfl : outcome = outcome' := houtcome
  rw [afterTurn, afterTurn, hrun, hrun']
  cases outcome with
  | none => exact hafter
  | some result => exact submit_alike hp c job result hafter

/-- All turns of jobs are the same in alike worlds. -/
theorem turns_alike (hp : p.Alike R q) (c : Collector α) (cancel : Cancel) (jobs : List (Job α))
    (h : w.Alike R v) : c.turns p cancel jobs w = c.turns q cancel jobs v := by
  induction jobs generalizing w v with
  | nil => rfl
  | cons job rest ih =>
      rw [turns, turns, turn_alike hp cancel job h, ih (afterTurn_alike hp c cancel job h)]

/-- So are those that count. -/
theorem counted_alike (hp : p.Alike R q) (c : Collector α) (cancel : Cancel)
    (jobs : List (Job α)) (h : w.Alike R v) :
    c.counted p cancel jobs w = c.counted q cancel jobs v :=
  congrArg (List.takeWhile Turn.counts) (turns_alike hp c cancel jobs h)

/-- A round comes to the same report in alike worlds, and leaves alike worlds. -/
theorem collectFrom_alike (hp : p.Alike R q) (c : Collector α) (cancel : Cancel)
    (report : Report) (jobs : List (Job α)) (h : w.Alike R v) :
    (c.collectFrom p cancel report jobs w).1 = (c.collectFrom q cancel report jobs v).1
      ∧ (c.collectFrom p cancel report jobs w).2.Alike R
        (c.collectFrom q cancel report jobs v).2 := by
  induction jobs generalizing report w v with
  | nil => exact ⟨rfl, h⟩
  | cons job rest ih =>
      have hturn := turn_alike hp cancel job h
      cases hcounts : (turn p cancel job w).counts with
      | true =>
          rw [collectFrom_of_counts c p cancel hcounts,
            collectFrom_of_counts c q cancel (hturn ▸ hcounts), hturn]
          exact ih _ (afterTurn_alike hp c cancel job h)
      | false =>
          rw [collectFrom_of_not_counts c p cancel hcounts,
            collectFrom_of_not_counts c q cancel (hturn ▸ hcounts), hturn, isDue_alike cancel h]
          refine ⟨rfl, ?_⟩
          dsimp only
          split
          · exact h
          · exact (runJob_alike hp cancel job h).2

/-- Peers that differ in what fails make no difference to a round. -/
theorem collect_alike (hp : p.Alike R q) (c : Collector α) (cancel : Cancel)
    (h : w.Alike R v) : (c.collect p cancel w).1 = (c.collect q cancel v).1 := by
  obtain ⟨hreport, hafter⟩ := collectFrom_alike hp c cancel {} c.jobs h
  rw [collect, collect]
  simp only [hreport, hafter.moment, h.moment]

/-! ## A round -/

/-- What an entry says of a turn. -/
structure Reports (c : Collector α) (t : Turn α) (e : Entry) : Prop where
  applicationId : e.applicationId = c.applicationId
  serverName : e.serverName = c.serverName
  name : e.name = t.job.definition.name
  status : e.status = t.result.status
  description : e.description = t.result.summary
  duration : e.lastDuration = t.result.duration

theorem reports_entryOfTurn (c : Collector α) (t : Turn α) : c.Reports t (c.entryOfTurn t) :=
  ⟨rfl, rfl, rfl, rfl, rfl, rfl⟩

/-- Under a name stands the result of the last turn with that name. -/
theorem lookup_reportOf (turns : List (Turn α)) (d : Duration) (name : String) :
    (reportOf turns d).entries.lookup name
      = (turns.reverse.find? fun t => t.name = name).map Turn.result := by
  rw [reportOf, Report.lookup_ofList, ← List.map_reverse, List.find?_map, Option.map_map]
  rfl

/-- A report has the names of its turns and no others. -/
theorem mem_names_reportOf (turns : List (Turn α)) (d : Duration) {name : String} :
    name ∈ (reportOf turns d).names ↔ name ∈ turns.map Turn.name := by
  rw [reportOf, Report.mem_names_ofList, List.map_map]
  rfl

/-- A round submits the results of the jobs that come before the first one that is cut
    short, cut off or crashed, one after the other, and no others.  Unless it crashed
    it reports the last result of each name among them.  Peers that differ in which
    submissions fail make no difference. -/
theorem collect_longest_prefix (c : Collector α) (p : Peers α σ) (cancel : Cancel)
    (w : World σ) :
    let counted := (c.turns p cancel c.jobs w).takeWhile Turn.counts
    let report := (c.collect p cancel w).1
    counted.map Turn.job = c.jobs.take counted.length
    ∧ (c.collect p cancel w).2.acts = w.acts ++ counted.map (.submitted <| c.entryOfTurn ·)
    ∧ (∀ t ∈ counted, t.cut = false ∧ t.outcome = some t.result
        ∧ t.result.error ≠ some .cancelled ∧ c.Reports t (c.entryOfTurn t))
    ∧ (report = none ↔ c.crashes p cancel c.jobs w = true)
    ∧ (∀ r, report = some r → r.names.Pairwise (· < ·)
        ∧ (∀ name, name ∈ r.names ↔ name ∈ counted.map Turn.name)
        ∧ ∀ name, r.entries.lookup name
          = (counted.reverse.find? fun t => t.name = name).map Turn.result)
    ∧ ∀ {τ : Type} {R : σ → τ → Prop} {q : Peers α τ} {v : World τ},
        p.Alike R q → w.Alike R v → (c.collect q cancel v).1 = report
          ∧ (c.collect q cancel v).2.acts
            = v.acts ++ counted.map (.submitted <| c.entryOfTurn ·) := by
  intro counted report
  refine ⟨map_job_counted c p cancel c.jobs w, acts_collect c p cancel w, ?_, ?_, ?_, ?_⟩
  · intro t ht
    obtain ⟨hcut, houtcome, herror⟩ := (Turn.counts_iff t).1 (List.mem_takeWhile_imp ht)
    exact ⟨hcut, houtcome, herror, reports_entryOfTurn c t⟩
  · simp only [report, report_collect]
    cases c.crashes p cancel c.jobs w <;> simp
  · intro r hr
    simp only [report, report_collect] at hr
    obtain rfl := Option.some.inj (Option.ite_none_left_eq_some.1 hr).2
    exact ⟨Report.pairwise_names_ofList _ _, fun name => mem_names_reportOf counted _,
      lookup_reportOf counted _⟩
  · intro τ R q v hp h
    refine ⟨(collect_alike hp c cancel h).symm, ?_⟩
    rw [acts_collect, ← counted_alike hp c cancel c.jobs h]
    rfl

namespace Sample

/-- A job whose probe gives a result after a time. -/
def job (name : String) (time : Nat) (result : ProbeResult) : Job (Nat × ProbeResult) where
  definition := { id := .nil, name, description := "", tags := [] }
  context := {}
  probe := (time, result)

/-- A collector that looks twice at the disk, then at the memory and the mail. -/
def collector : Collector (Nat × ProbeResult) where
  applicationId := .nil
  serverName := "alpha"
  interval := 60
  jobs := [job "disk" 5 .healthy, job "disk" 5 (.described .degraded "90 %"),
    job "memory" 5 .healthy, job "mail" 5 .healthy]

/-- Peers at which every submission takes a nanosecond and, if so told, fails. -/
def peers (fault : Option ReportFault) : Peers (Nat × ProbeResult) Nat where
  ask job _ s := ({ outcome := some job.probe }, s)
  register c s := ((0, some c), s)
  submit _ s := (1, s + 1)
  refusal _ _ := fault
  stopFirst s := (false, s)
  wall _ := .epoch

/-- A run that is stopped after fourteen nanoseconds. -/
def world (submissions : Nat) : World Nat := { stopAt := some 14, peers := submissions }

/-- The results that the stop lets through. -/
def results : List ProbeResult :=
  [{ ProbeResult.healthy with duration := .ofNanos 5 },
    { ProbeResult.described .degraded "90 %" with duration := .ofNanos 5 }]

end Sample

/-- A stop at the third of four jobs: two submissions of one name, the later one reported,
    whether or not they fail. -/
theorem collect_until_third_job :
    (Sample.collector.collect (Sample.peers none) .byStop (Sample.world 0)).2.acts
        = Sample.results.map (fun r => .submitted
          (Sample.collector.entryOf (Sample.job "disk" 5 .healthy) r .epoch))
      ∧ (Sample.collector.collect (Sample.peers (some (.status 500 ""))) .byStop
          (Sample.world 7)).2.acts
        = Sample.results.map (fun r => .submitted
          (Sample.collector.entryOf (Sample.job "disk" 5 .healthy) r .epoch))
      ∧ ∃ r, (Sample.collector.collect (Sample.peers none) .byStop (Sample.world 0)).1 = some r
        ∧ (Sample.collector.collect (Sample.peers (some (.status 500 ""))) .byStop
          (Sample.world 7)).1 = some r
        ∧ r.entries.lookup "disk" = Sample.results.getLast?
        ∧ "memory" ∉ r.names := by
  obtain ⟨-, hacts, -, hcrash, hreport, halike⟩ :=
    collect_longest_prefix Sample.collector (Sample.peers none) .byStop (Sample.world 0)
  obtain ⟨hreport', hacts'⟩ := @halike Nat (fun _ _ => True) (Sample.peers (some (.status 500 "")))
    (Sample.world 7) ⟨by intros; exact ⟨rfl, trivial⟩, by intros; exact ⟨rfl, trivial⟩,
      by intros; exact ⟨rfl, trivial⟩, fun _ => rfl⟩ ⟨rfl, rfl, trivial⟩
  refine ⟨hacts, hacts', ?_⟩
  obtain ⟨r, hr⟩ := Option.ne_none_iff_exists'.1 fun h => nomatch hcrash.1 h
  obtain ⟨-, hnames, hlookup⟩ := hreport r hr
  refine ⟨r, hr, hreport'.trans hr, hlookup "disk", ?_⟩
  rw [hnames]
  decide

end Collector

end HealthWatch
