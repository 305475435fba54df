import HealthWatch.Collector.Run
import HealthWatch.Proofs.Collector.Turns

/-! # Lives of collectors — what a run does from its start to its end

    When no probe itself gives the result of a cut, a round that the stop cuts short
    ends with the program stopping.  So a report that is published while the program is
    not stopping is one of a full round, and so is that of the last round, which
    nothing cuts short.

    * `isDue_of_not_counts`: a round that did not run all jobs was cut short;
    * `acts_registerUntilStop`, `acts_rounds` and `acts_finish` follow the three parts of
      a run;
    * `run_life_cycle` puts them together. -/

namespace HealthWatch

/-- A probe never gives the result of a cut itself. -/
def Peers.NeverCancels {α σ : Type} (peers : Peers α σ) (probe : α) : Prop :=
  ∀ job stopping s time result, job.probe = probe →
    (peers.ask job stopping s).1.outcome = some (time, result) → result.error ≠ some .cancelled

/-- A run within bounds that gives the result of a cut was cut, at the moment of the stop. -/
theorem ProbeResult.bounded_eq_cancelled {ctx : ProbeContext} {answer : Option (Nat × ProbeResult)}
    {stop : Option Nat} {stopFirst : Bool}
    (hanswer : ∀ time result, answer = some (time, result) → result.error ≠ some .cancelled)
    (h : (bounded ctx answer stop stopFirst).2.error = some .cancelled) :
    stop = some (bounded ctx answer stop stopFirst).1 := by
  have hanswered : (answered ctx answer).2.error ≠ some .cancelled := by
    cases answer with
    | none => exact fun h => nomatch h
    | some a =>
        dsimp only [answered]
        split
        · exact hanswer a.1 a.2 rfl
        · exact fun h => nomatch h
  rw [bounded] at h ⊢
  dsimp only at h ⊢
  by_cases hcut : isCut (answered ctx answer).1 stop stopFirst = true
  · rw [if_pos hcut]
    cases stop with
    | none => exact nomatch hcut
    | some s => rfl
  · rw [if_neg hcut] at h
    exact absurd h hanswered

namespace Collector

variable {α σ : Type}

/-! ## Rounds that are cut short -/

section Cut

variable (c : Collector α) (peers : Peers α σ) (cancel : Cancel)

/-- A probe that was cut off ends when the round is due to be cut. -/
theorem isDue_of_cancelled {job : Job α} {w after : World σ} {result : ProbeResult}
    (hprobe : peers.NeverCancels job.probe)
    (hrun : runJob peers cancel job w = (some result, after))
    (h : result.error = some .cancelled) : cancel.isDue after = true := by
  obtain ⟨u, stopFirst, -, heq⟩ := exists_runJob_eq peers cancel job w
  rw [heq] at hrun
  split at hrun
  · exact nomatch hrun
  · obtain ⟨hresult, rfl⟩ := Prod.mk.inj hrun
    obtain rfl := Option.some.inj hresult
    have hstop := ProbeResult.bounded_eq_cancelled
      (fun time result ho => hprobe job _ _ time result rfl ho) h
    generalize (ProbeResult.bounded _ _ _ _).1 = time at hstop
    cases cancel with
    | never => exact nomatch hstop
    | byStop =>
        obtain ⟨s, hs, rfl⟩ := Option.map_eq_some_iff.1 hstop
        have hs : u.stopAt = some s := hs
        rw [Cancel.isDue, World.isStopping]
        simp only [World.wait, hs, decide_eq_true_eq]
        omega

/-- A round that did not run all jobs crashed or was cut short. -/
theorem isDue_of_not_counts (report : Report) {jobs : List (Job α)} {w : World σ}
    (hprobes : ∀ job ∈ jobs, peers.NeverCancels job.probe)
    (hcrash : c.crashes peers cancel jobs w = false)
    (h : ∃ t ∈ c.turns peers cancel jobs w, t.counts = false) :
    cancel.isDue (c.collectFrom peers cancel report jobs w).2 = true := by
  induction jobs generalizing report w with
  | nil => exact absurd h (by simp [turns])
  | cons job rest ih =>
      obtain ⟨hprobe, hrest⟩ := List.forall_mem_cons.1 hprobes
      cases hcounts : (turn peers cancel job w).counts with
      | true =>
          rw [collectFrom_of_counts c peers cancel hcounts]
          rw [crashes, turns, List.dropWhile_cons_of_pos hcounts] at hcrash
          refine ih _ hrest hcrash ?_
          obtain ⟨t, ht, hnot⟩ := h
          rcases List.mem_cons.1 ht with rfl | ht
          · exact absurd hnot (by simp [hcounts])
          · exact ⟨t, ht, hnot⟩
      | false =>
          rw [crashes, turns, List.dropWhile_cons_of_neg (by simp [hcounts])] at hcrash
          rw [collectFrom_of_not_counts c peers cancel hcounts]
          dsimp only
          split
          · next hcut => exact hcut
          · next hcut =>
              -- the probe was begun and did not crash, so it was cut off
              rcases hrun : runJob peers cancel job w with ⟨outcome, after⟩
              simp only [turn, Turn.counts, hrun] at hcounts hcrash
              cases outcome with
              | none => simp [hcut, Turn.crashed] at hcrash
              | some result =>
                  exact isDue_of_cancelled peers cancel hprobe hrun (by simpa [hcut] using hcounts)

/-- In a full round every job has its turn, in the order of the jobs, and each counts. -/
structure Full (w : World σ) : Prop where
  inOrder : (c.turns peers cancel c.jobs w).map Turn.job = c.jobs
  counts : ∀ t ∈ c.turns peers cancel c.jobs w, t.counts = true

/-- The submissions of a round, in the order of its turns. -/
def submissions (turns : List (Turn α)) : List Event :=
  turns.map (.submitted <| c.entryOfTurn ·)

/-- What is done in a full round: all results are submitted, then its report is published. -/
def roundActs (w : World σ) : List Event :=
  c.submissions (c.turns peers cancel c.jobs w)
    ++ [.published (reportOf (c.turns peers cancel c.jobs w)
      (.ofNanos ((c.collect peers cancel w).2.moment - w.moment)))]

/-- A round that neither crashed nor was cut short is full. -/
theorem acts_of_full {w after : World σ} {report : Report}
    (hprobes : ∀ job ∈ c.jobs, peers.NeverCancels job.probe)
    (hround : c.collect peers cancel w = (some report, after))
    (hdue : cancel.isDue after = false) :
    c.Full peers cancel w
      ∧ (after.happen (.published report)).acts = w.acts ++ c.roundActs peers cancel w := by
  have hreport := report_collect c peers cancel w
  have hacts := acts_collect c peers cancel w
  rw [hround] at hreport hacts
  obtain ⟨hcrash, hsome⟩ := Option.ite_none_left_eq_some.1 hreport.symm
  have hfull : c.Full peers cancel w := by
    refine ⟨map_job_turns c peers cancel c.jobs w, fun t ht => ?_⟩
    by_contra hnot
    have := isDue_of_not_counts c peers cancel {} hprobes (by simpa using hcrash)
      ⟨t, ht, by simpa using hnot⟩
    have hafter : (c.collectFrom peers cancel {} c.jobs w).2 = after := congrArg Prod.snd hround
    rw [hafter, hdue] at this
    exact nomatch this
  refine ⟨hfull, ?_⟩
  have hcounted : c.counted peers cancel c.jobs w = c.turns peers cancel c.jobs w :=
    List.takeWhile_eq_self_iff.2 hfull.counts
  rw [World.acts_happen rfl, hacts, roundActs, hround, ← Option.some.inj hsome, hcounted,
    List.append_assoc]
  rfl

end Cut

/-! ## Registering -/

/-- A collector with the jobs of another one, apart from the identifiers of their
    definitions. -/
structure Registered (c c' : Collector α) : Prop where
  applicationId : c'.applicationId = c.applicationId
  serverName : c'.serverName = c.serverName
  interval : c'.interval = c.interval
  jobs : List.Forall₂ (fun job job' => ∃ stored, job' = adopt job stored) c.jobs c'.jobs

/-- A job keeps its probe when it takes over a stored definition. -/
@[simp] theorem probe_adopt (job : Job α) (stored : Option Check) :
    (adopt job stored).probe = job.probe := by
  cases stored <;> rfl

/-- The registrations of jobs, in their order. -/
def registrations (jobs : List (Job α)) : List Event :=
  jobs.map (.registered ·.definition)

/-- Of sending a definition, its registration can be seen. -/
theorem acts_sendDefinition (peers : Peers α σ) (job : Job α) (w : World σ) :
    (sendDefinition peers job w).2.2.acts = w.acts ++ registrations [job] := by
  rw [sendDefinition]
  dsimp only
  rw [World.acts_happen rfl, World.acts_with_peers]
  rfl

/-- With no job left, either the stop comes first or all is registered. -/
theorem registerUntilStop_nil (peers : Peers α σ) (w : World σ) :
    ∃ u : World σ, (registerUntilStop peers [] w = (none, u) ∧ u.isStopping = true
        ∨ registerUntilStop peers [] w = (some [], u)) ∧ u.acts = w.acts := by
  rw [registerUntilStop]
  dsimp only
  split
  · next h => exact ⟨_, .inl ⟨rfl, (Bool.and_eq_true_iff.1 h).1⟩, rfl⟩
  · exact ⟨_, .inr rfl, rfl⟩

/-- Either the stop comes before a definition is sent, or after it, or it is registered
    and the other jobs follow. -/
theorem registerUntilStop_cons (peers : Peers α σ) (job : Job α) (rest : List (Job α))
    (w : World σ) :
    ∃ u : World σ,
      (registerUntilStop peers (job :: rest) w = (none, u) ∧ u.isStopping = true
        ∧ u.acts = w.acts)
      ∨ (registerUntilStop peers (job :: rest) w = (none, u) ∧ u.isStopping = true
        ∧ u.acts = w.acts ++ registrations [job])
      ∨ ∃ stored, registerUntilStop peers (job :: rest) w
          = ((registerUntilStop peers rest u).1.map (adopt job stored :: ·),
            (registerUntilStop peers rest u).2)
        ∧ u.acts = w.acts ++ registrations [job] := by
  rw [registerUntilStop]
  dsimp only
  split
  · next h => exact ⟨_, .inl ⟨rfl, (Bool.and_eq_true_iff.1 h).1, rfl⟩⟩
  · have hsent := acts_sendDefinition peers job { w with peers := (peers.stopFirst w.peers).2 }
    split
    · next stop hstop =>
        split
        · exact ⟨_, .inr (.inl ⟨rfl, by simp [World.isStopping, hstop], hsent⟩)⟩
        · exact ⟨_, .inr (.inr ⟨_, rfl, hsent⟩)⟩
    · exact ⟨_, .inr (.inr ⟨_, rfl, hsent⟩)⟩

/-- When the stop comes first, only the first definitions are registered. -/
theorem acts_of_registerUntilStop_none {peers : Peers α σ} {jobs : List (Job α)}
    {w after : World σ} (h : registerUntilStop peers jobs w = (none, after)) :
    after.isStopping = true ∧ ∃ n, after.acts = w.acts ++ registrations (jobs.take n) := by
  induction jobs generalizing w with
  | nil =>
      obtain ⟨u, ⟨heq, hstopping⟩ | heq, hu⟩ := registerUntilStop_nil peers w
      · obtain rfl : u = after := congrArg Prod.snd (heq.symm.trans h)
        exact ⟨hstopping, 0, hu.trans (List.append_nil _).symm⟩
      · exact nomatch congrArg Prod.fst (heq.symm.trans h)
  | cons job rest ih =>
      obtain ⟨u, ⟨heq, hstopping, hu⟩ | ⟨heq, hstopping, hu⟩ | ⟨stored, heq, hu⟩⟩ :=
        registerUntilStop_cons peers job rest w
      · obtain rfl : u = after := congrArg Prod.snd (heq.symm.trans h)
        exact ⟨hstopping, 0, hu.trans (List.append_nil _).symm⟩
      · obtain rfl : u = after := congrArg Prod.snd (heq.symm.trans h)
        exact ⟨hstopping, 1, hu⟩
      · rw [h] at heq
        obtain ⟨hnone, hafter⟩ := Prod.mk.inj heq
        obtain ⟨hstopping, n, hn⟩ :=
          ih (Prod.ext (Option.map_eq_none_iff.1 hnone.symm) hafter.symm)
        refine ⟨hstopping, n + 1, ?_⟩
        rw [hn, hu, List.append_assoc]
        rfl

/-- When the stop does not come first, all definitions are registered. -/
theorem acts_of_registerUntilStop_some {peers : Peers α σ} {jobs jobs' : List (Job α)}
    {w after : World σ} (h : registerUntilStop peers jobs w = (some jobs', after)) :
    List.Forall₂ (fun job job' => ∃ stored, job' = adopt job stored) jobs jobs'
      ∧ after.acts = w.acts ++ registrations jobs := by
  induction jobs generalizing w jobs' with
  | nil =>
      obtain ⟨u, ⟨heq, -⟩ | heq, hu⟩ := registerUntilStop_nil peers w
      · exact nomatch congrArg Prod.fst (heq.symm.trans h)
      · obtain ⟨hjobs, rfl⟩ := Prod.mk.inj (heq.symm.trans h)
        obtain rfl := Option.some.inj hjobs
        exact ⟨.nil, hu.trans (List.append_nil _).symm⟩
  | cons job rest ih =>
      obtain ⟨u, ⟨heq, -⟩ | ⟨heq, -⟩ | ⟨stored, heq, hu⟩⟩ :=
        registerUntilStop_cons peers job rest w
      · exact nomatch congrArg Prod.fst (heq.symm.trans h)
      · exact nomatch congrArg Prod.fst (heq.symm.trans h)
      · rw [h] at heq
        obtain ⟨hsome, hafter⟩ := Prod.mk.inj heq
        obtain ⟨rest', hrest', rfl⟩ := Option.map_eq_some_iff.1 hsome.symm
        obtain ⟨hadopted, hacts⟩ := ih (Prod.ext hrest' hafter.symm)
        refine ⟨.cons ⟨stored, rfl⟩ hadopted, ?_⟩
        rw [hacts, hu, List.append_assoc]
        rfl

/-! ## Rounds until the stop -/

section Rounds

variable (c : Collector α) (peers : Peers α σ) (positive : 0 < c.interval)

/-- Rounds that are due while the program is stopping leave no trace. -/
theorem acts_lastRounds (due : Nat) (w : World σ) (stopping : w.isStopping = true) :
    (c.lastRounds peers positive due w stopping).1.acts = w.acts
      ∧ (c.lastRounds peers positive due w stopping).2 = false := by
  fun_induction lastRounds c peers positive due w stopping with
  | case1 => exact ⟨rfl, rfl⟩
  | case2 => exact ⟨rfl, rfl⟩
  | case3 due w stopping _ _ s _ _ after htick =>
      rw [tick_of_isStopping c peers (w := { w with peers := s }) stopping] at htick
      exact nomatch congrArg Prod.fst htick
  | case4 due w stopping _ _ s _ _ _ _ ih => exact ih

/-- So do all rounds of a program that is stopping. -/
theorem acts_rounds_of_isStopping (limit due : Nat) {w : World σ} (h : w.isStopping = true) :
    (c.rounds peers positive limit due w).1.acts = w.acts
      ∧ (c.rounds peers positive limit due w).2 = false := by
  have hstop : min limit (w.stopAt.getD limit) ≤ max w.moment due := by
    rw [World.isStopping] at h
    cases hs : w.stopAt with
    | none =>
        rw [hs] at h
        cases h
    | some s =>
        have hle : s ≤ w.moment := by simpa [hs] using h
        simp only [Option.getD_some]
        omega
  rw [rounds, if_pos hstop]
  exact acts_lastRounds c peers positive due _ _

/-- No turn counts once the program is stopping. -/
theorem counted_of_isStopping {w : World σ} (h : w.isStopping = true) :
    c.counted peers .byStop c.jobs w = [] := by
  rw [counted]
  cases c.jobs with
  | nil => rfl
  | cons job rest => exact List.takeWhile_cons_of_neg (by simp [turn, Turn.counts, Cancel.isDue, h])

/-- Rounds that end without a crash: full rounds with their reports, and after them the
    results of one that may have been cut short. -/
theorem acts_rounds (limit due : Nat) (w : World σ)
    (hprobes : ∀ job ∈ c.jobs, peers.NeverCancels job.probe)
    (h : (c.rounds peers positive limit due w).2 = false) :
    ∃ (full : List (World σ)) (cut : World σ), (∀ v ∈ full, c.Full peers .byStop v)
      ∧ (c.rounds peers positive limit due w).1.acts
        = w.acts ++ full.flatMap (c.roundActs peers .byStop)
          ++ c.submissions (c.counted peers .byStop c.jobs cut) := by
  fun_induction rounds c peers positive limit due w with
  | case1 due w stop start hle =>
      -- a round that begins when the program is stopping counts nothing
      have hstopping : ({ w with stopAt := some w.moment } : World σ).isStopping = true :=
        World.isStopping_of_le rfl (le_refl w.moment)
      refine ⟨[], { w with stopAt := some w.moment }, by simp, ?_⟩
      rw [counted_of_isStopping c peers hstopping, (acts_lastRounds c peers positive due _ _).1,
        submissions]
      simp [World.acts]
  | case2 => cases h
  | case3 due w stop start hlt report after htick ih =>
      by_cases hstopping : after.isStopping = true
      · -- the last round that leaves a trace; its report is not published
        refine ⟨[], { w with moment := start }, by simp, ?_⟩
        have hacts := acts_collect c peers .byStop { w with moment := start }
        rw [← tick, htick] at hacts
        rw [if_pos hstopping, (acts_rounds_of_isStopping c peers positive _ _ hstopping).1, hacts,
          submissions]
        simp [World.acts]
      · rw [if_neg hstopping] at h ⊢
        rw [dif_neg hstopping] at ih
        obtain ⟨full, cut, hfull, hacts⟩ := ih h
        obtain ⟨hround, hdone⟩ :=
          acts_of_full c peers .byStop hprobes htick (eq_false_of_ne_true hstopping)
        refine ⟨{ w with moment := start } :: full, cut, List.forall_mem_cons.2 ⟨hround, hfull⟩, ?_⟩
        rw [hacts, hdone, List.flatMap_cons]
        simp [World.acts]

end Rounds

/-! ## Whole runs -/

/-- The last round is a full one and its report is published. -/
theorem acts_finish (c : Collector α) (peers : Peers α σ) (w : World σ)
    (hprobes : ∀ job ∈ c.jobs, peers.NeverCancels job.probe)
    (h : (c.finish peers w).2 = false) :
    ∃ last : World σ, c.Full peers .never last
      ∧ (c.finish peers w).1.acts = w.acts ++ [.entered .draining] ++ c.roundActs peers .never last
        ++ [.entered .stopped] := by
  rw [finish] at h ⊢
  rcases hdrain : c.drain peers (w.happen (.entered .draining)) with ⟨_ | report, after⟩
  · rw [hdrain] at h
    exact nomatch h
  · obtain ⟨hfull, hacts⟩ := acts_of_full c peers .never hprobes hdrain rfl
    refine ⟨w.happen (.entered .draining), hfull, ?_⟩
    dsimp only
    rw [World.acts_happen rfl, hacts, World.acts_happen rfl]

/-- The states that are entered. -/
def phases (acts : List Event) : List Phase :=
  acts.filterMap fun e => match e with
    | .entered phase => some phase
    | _ => none

/-- The phases of a longer run come one after the other. -/
@[simp] theorem phases_append (a b : List Event) : phases (a ++ b) = phases a ++ phases b :=
  List.filterMap_append

@[simp] theorem phases_registrations (jobs : List (Job α)) : phases (registrations jobs) = [] := by
  rw [phases, registrations, List.filterMap_map]
  exact List.filterMap_eq_nil_iff.2 fun _ _ => rfl

@[simp] theorem phases_submissions (c : Collector α) (turns : List (Turn α)) :
    phases (c.submissions turns) = [] := by
  rw [phases, submissions, List.filterMap_map]
  exact List.filterMap_eq_nil_iff.2 fun _ _ => rfl

/-- No round enters a phase. -/
@[simp] theorem phases_roundActs (c : Collector α) (peers : Peers α σ) (cancel : Cancel)
    (w : World σ) : phases (c.roundActs peers cancel w) = [] := by
  rw [roundActs, phases_append, phases_submissions]
  rfl

@[simp] theorem phases_flatMap_roundActs (c : Collector α) (peers : Peers α σ) (cancel : Cancel)
    (full : List (World σ)) : phases (full.flatMap (c.roundActs peers cancel)) = [] := by
  induction full with
  | nil => rfl
  | cons v full ih => rw [List.flatMap_cons, phases_append, phases_roundActs, ih, List.append_nil]

@[simp] theorem phases_entered (phase : Phase) : phases [.entered phase] = [phase] := rfl

/-- Registering leaves the probes as they are. -/
theorem map_probe_of_adopted {jobs jobs' : List (Job α)}
    (h : List.Forall₂ (fun job job' => ∃ stored, job' = adopt job stored) jobs jobs') :
    jobs'.map Job.probe = jobs.map Job.probe := by
  induction h with
  | nil => rfl
  | cons hjob _ ih =>
      obtain ⟨stored, rfl⟩ := hjob
      rw [List.map_cons, List.map_cons, probe_adopt, ih]

/-- Registered jobs have probes that never cancel when those of the settings never do. -/
theorem Registered.neverCancels {c c' : Collector α} (h : c.Registered c') {peers : Peers α σ}
    (hprobes : ∀ job ∈ c.jobs, peers.NeverCancels job.probe) :
    ∀ job ∈ c'.jobs, peers.NeverCancels job.probe := by
  intro job' hjob'
  have hmem : job'.probe ∈ c.jobs.map Job.probe :=
    map_probe_of_adopted h.jobs ▸ List.mem_map_of_mem hjob'
  obtain ⟨job, hjob, hprobe⟩ := List.mem_map.1 hmem
  exact hprobe ▸ hprobes job hjob

/-- A run at its start. -/
def started (stop : Nat) (s : σ) : World σ :=
  ({ stopAt := some stop, peers := s } : World σ).happen (.entered .registering)

/-- The two ways in which a run ends without a crash. -/
theorem run_cases {c : Collector α} {peers : Peers α σ} {stop : Nat} {s : σ} {w : World σ}
    (h : c.run peers stop s = (w, false)) :
    (∃ after, registerUntilStop peers c.jobs (started stop s) = (none, after)
      ∧ w = after.happen (.entered .stopped))
    ∨ ∃ (jobs : List (Job α)) (after stopped : World σ) (positive : 0 < c.interval),
      registerUntilStop peers c.jobs (started stop s) = (some jobs, after)
      ∧ rounds { c with jobs } peers positive stop after.moment (after.happen (.entered .running))
        = (stopped, false)
      ∧ finish { c with jobs } peers stopped = (w, false) := by
  rw [run] at h
  dsimp only at h
  rcases hregister : registerUntilStop peers c.jobs (started stop s) with ⟨_ | jobs, after⟩
  · rw [← started, hregister] at h
    exact .inl ⟨after, rfl, (congrArg Prod.fst h).symm⟩
  · rw [← started, hregister] at h
    dsimp only at h
    split at h
    · next positive =>
        rcases hstop : rounds { c with jobs } peers positive stop
          (after.happen (.entered .running)).moment (after.happen (.entered .running))
          with ⟨stopped, _ | _⟩
        · rw [hstop] at h
          exact .inr ⟨jobs, after, stopped, positive, rfl, hstop, h⟩
        · rw [hstop] at h
          exact nomatch congrArg Prod.snd h
    · exact nomatch congrArg Prod.snd h

/-- What a collector does that is not stopped while it registers: it registers all
    definitions, runs full rounds and publishes their reports, submits what is counted
    of a round that may have been cut short, and ends with a full round and its report. -/
structure Life (c : Collector α) (peers : Peers α σ) (acts : List Event) (c' : Collector α)
    (full : List (World σ)) (cut last : World σ) : Prop where
  registered : c.Registered c'
  everyFull : ∀ v ∈ full, c'.Full peers .byStop v
  lastFull : c'.Full peers .never last
  acts_eq : acts = [.entered .registering] ++ registrations c.jobs ++ [.entered .running]
    ++ full.flatMap (c'.roundActs peers .byStop)
    ++ c'.submissions (c'.counted peers .byStop c'.jobs cut)
    ++ [.entered .draining] ++ c'.roundActs peers .never last ++ [.entered .stopped]

/-- A run that ends without a crash either is stopped while it registers, and then does
    nothing else, or goes through all states in their order.  Then every report before
    the last round is one of a full round, a round that was cut short only leaves the
    submissions of the jobs that ran, and the last round is full and its report the last
    one. -/
theorem run_life_cycle (c : Collector α) (peers : Peers α σ) (stop : Nat) (s : σ) (w : World σ)
    (hprobes : ∀ job ∈ c.jobs, peers.NeverCancels job.probe)
    (h : c.run peers stop s = (w, false)) :
    (phases w.acts = [.registering, .stopped] ∧ w.isStopping = true ∧ ∃ n,
      w.acts = [.entered .registering] ++ registrations (c.jobs.take n) ++ [.entered .stopped])
    ∨ phases w.acts = [.registering, .running, .draining, .stopped]
      ∧ ∃ (c' : Collector α) (full : List (World σ)) (cut last : World σ),
        c.Life peers w.acts c' full cut last := by
  have hstart : (started stop s).acts = [.entered .registering] := rfl
  obtain ⟨after, hregister, rfl⟩
    | ⟨jobs, after, stopped, positive, hregister, hrounds, hfinish⟩ := run_cases h
  · left
    obtain ⟨hstopping, n, hacts⟩ := acts_of_registerUntilStop_none hregister
    have hlife : (after.happen (.entered .stopped)).acts
        = [.entered .registering] ++ registrations (c.jobs.take n) ++ [.entered .stopped] := by
      rw [World.acts_happen rfl, hacts, hstart]
    refine ⟨?_, hstopping, n, hlife⟩
    rw [hlife]
    simp only [phases_append, phases_registrations]
    rfl
  · right
    obtain ⟨hadopted, hacts⟩ := acts_of_registerUntilStop_some hregister
    have hregistered : c.Registered { c with jobs } := ⟨rfl, rfl, rfl, hadopted⟩
    have hprobes' := hregistered.neverCancels hprobes
    obtain ⟨full, cut, hfull, hstopped⟩ := acts_rounds { c with jobs } peers positive stop
      after.moment (after.happen (.entered .running)) hprobes' (by rw [hrounds])
    obtain ⟨last, hlast, hlife⟩ := acts_finish { c with jobs } peers stopped hprobes'
      (by rw [hfinish])
    rw [hrounds, World.acts_happen rfl, hacts, hstart] at hstopped
    rw [hfinish, hstopped] at hlife
    refine ⟨?_, { c with jobs }, full, cut, last, ⟨hregistered, hfull, hlast, hlife⟩⟩
    rw [hlife]
    simp only [phases_append, phases_registrations, phases_flatMap_roundActs,
      phases_submissions, phases_roundActs]
    rfl

namespace Sample

/-- A run that is stopped in its second round. -/
def life : World Nat := (collector.run (peers none) 72 0).1

/-- The names in the reports that are published. -/
def published (acts : List Event) : List (List String) :=
  acts.filterMap fun e => match e with
    | .published report => some report.names
    | _ => none

theorem neverCancels (job : Job (Nat × ProbeResult)) (h : job ∈ collector.jobs) :
    (peers none).NeverCancels job.probe := by
  intro job' stopping s time result hprobe houtcome
  have hresult : result = job.probe.2 := by
    rw [← hprobe]
    exact congrArg Prod.snd (Option.some.inj houtcome).symm
  have hresults : ∀ job ∈ collector.jobs, job.probe.2.error ≠ some .cancelled := by decide
  exact hresult ▸ hresults job h

end Sample

/-- The second of two rounds is cut short: it publishes no report, but the last round
    does. -/
theorem life_of_second_round_cut :
    (∃ c' full cut last,
        Sample.collector.Life (Sample.peers none) Sample.life.acts c' full cut last)
      ∧ Sample.published Sample.life.acts
        = [["disk", "mail", "memory"], ["disk", "mail", "memory"]] := by
  have hphases : phases Sample.life.acts = [.registering, .running, .draining, .stopped] := by
    decide +kernel
  obtain ⟨h, -⟩ | ⟨-, h⟩ := run_life_cycle Sample.collector (Sample.peers none) 72 0 Sample.life
    Sample.neverCancels (Prod.ext rfl (by decide +kernel))
  · exact absurd (hphases.symm.trans h) (by decide)
  · exact ⟨h, by decide +kernel⟩

end Collector

end HealthWatch
