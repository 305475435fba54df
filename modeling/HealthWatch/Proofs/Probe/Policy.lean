import HealthWatch.Probe.Builtin
import HealthWatch.Proofs.Collector.Life
import HealthWatch.Proofs.Probe.Error

/-! # Policy of the built-in probes — how trouble is told

    A probe that finds nothing wrong gives the healthy result.  Trouble is told with
    words or with the error that led to it, never with both, under the status that its
    context has for trouble.  Four kinds of trouble have a status of their own.  No
    error is that of a cut: all come from connecting, from reading, from a server that
    breaks its protocol, or from an address.

    * `ProbeResult.Follows` is the rule for the result of one probe, with the trouble
      that has a status of its own;
    * the rule is shown for each probe by the recursion of the probe;
    * `builtin_probes_keep_policy` puts the probes together, and a round of them that
      ends early was cut by the stop or by a crash. -/

namespace HealthWatch

open Text

/-! ## Forms of results -/

namespace ProbeResult

/-- What a result tells besides its status. -/
inductive Form where
  /-- Nothing, and all is well. -/
  | fine
  | words
  | error

/-- Whether a result has a form. -/
def HasForm (r : ProbeResult) : Form → Prop
  | .fine => r.status = .healthy ∧ r.description = none ∧ r.error = none
  | .words => (∃ text, r.description = some text ∧ text ≠ "") ∧ r.error = none
  | .error => r.description = none ∧ ∃ e, r.error = some e

/-- A result has one form. -/
theorem HasForm.unique {r : ProbeResult} {f g : Form} (hf : r.HasForm f) (hg : r.HasForm g) :
    f = g := by
  cases f <;> cases g <;> simp_all [HasForm]

/-- A result that tells of trouble under a status. -/
inductive Tells (status : Status) : ProbeResult → Prop where
  | words {text : String} (h : text ≠ "") : Tells status (described status text)
  | error {e : ProbeError} (h : e ≠ .cancelled) : Tells status (failed status e)

/-- The rule for a result: trouble of the special kind has a status of its own, all other
    trouble has the usual one. -/
inductive Follows (special : Prop) (own usual : Status) (r : ProbeResult) : Prop where
  | special (h : special) (tells : r.Tells own)
  | usual (h : ¬ special) (tells : r.Tells usual)
  | fine (h : ¬ special) (heq : r = .healthy)

/-- The condition of a rule may be put in other words. -/
theorem Follows.congr {p q : Prop} (h : p ↔ q) {own usual : Status} {r : ProbeResult}
    (hr : r.Follows p own usual) : r.Follows q own usual :=
  propext h ▸ hr

end ProbeResult

/-! ## Each probe -/

/-- Nothing is said only when there is nothing to say. -/
theorem intercalate_ne_empty {separator : String} {messages : List String} (hne : messages ≠ [])
    (h : ∀ m ∈ messages, m ≠ "") : separator.intercalate messages ≠ "" := by
  cases messages with
  | nil => exact absurd rfl hne
  | cons m rest =>
      have hm : m ≠ "" := h m List.mem_cons_self
      cases rest with
      | nil => rwa [String.intercalate_singleton]
      | cons n rest =>
          rw [String.intercalate_cons_cons]
          simp [String.append_eq_empty_iff, hm]

open ProbeResult (Follows Tells)

/-- The check of the program is unhealthy when the program is stopping. -/
theorem Liveness.follows (stopping : Bool) (usual : Status) :
    (check stopping).Follows (stopping = true) .unhealthy usual := by
  cases stopping with
  | true => exact .special rfl (.words (by decide))
  | false => exact .fine (by decide) rfl

/-- The check of the memory is unhealthy when the maximum is reached. -/
theorem Memory.follows (maximum : Nat) (ctx : ProbeContext) (sample : Except String Nat) :
    (check maximum ctx sample).Follows (∃ bytes, sample = .ok bytes ∧ maximum ≤ bytes / 1024 / 1024)
      .unhealthy ctx.failureStatus := by
  cases sample with
  | error reason =>
      refine .usual ?_ (.error (by rintro ⟨⟩))
      rintro ⟨bytes, ⟨⟩, -⟩
  | ok bytes =>
      by_cases h : maximum ≤ bytes / 1024 / 1024
      · refine .special ⟨bytes, rfl, h⟩ ?_
        rw [check, if_pos h]
        exact .words (by simp [String.append_eq_empty_iff])
      · refine .fine ?_ (by rw [check, if_neg h])
        rintro ⟨_, ⟨⟩, hmax⟩
        exact h hmax

/-- A broken minimum is never told without words. -/
theorem Disk.violation_ne_empty {drives : List Drive} {t : Threshold} {message : String}
    (h : violation? drives t = some message) : message ≠ "" := by
  rw [violation?] at h
  split at h
  · cases h
    simp [String.append_eq_empty_iff]
  · dsimp only at h
    split at h
    · cases h
      simp [String.append_eq_empty_iff]
    · cases h

/-- The check of the drives has only the status for trouble. -/
theorem Disk.follows (thresholds : List Threshold) (ctx : ProbeContext) (inventory : Inventory)
    (own : Status) : (check thresholds ctx inventory).Follows False own ctx.failureStatus := by
  cases inventory with
  | unreadable reason => exact .usual not_false (.error (by rintro ⟨⟩))
  | crashed reason => exact .usual not_false (.error (by rintro ⟨⟩))
  | drives drives =>
      rw [check]
      cases hv : thresholds.filterMap (violation? drives) with
      | nil => exact .fine not_false rfl
      | cons m rest =>
          refine .usual not_false (.words (intercalate_ne_empty (List.cons_ne_nil m rest) ?_))
          intro message hmem
          rw [← hv, List.mem_filterMap] at hmem
          obtain ⟨t, -, ht⟩ := hmem
          exact violation_ne_empty ht

/-- So has that of a mail server. -/
theorem Mail.follows (ctx : ProbeContext) (server : Connection) (own : Status) :
    (check ctx server).Follows False own ctx.failureStatus := by
  have hcut := (uncut_channel ctx server).bind fun c => uncut_greeting c.stream
  rw [check]
  split
  · split
    · exact .fine not_false rfl
    · exact .usual not_false (.words (by decide))
  · next e he => exact .usual not_false (.error (hcut.ne he))

namespace Names

/-- The first host that does not come out with addresses is one whose look-up fails. -/
inductive Fails (resolve : Resolver) : List String → Prop where
  | here {host reason : String} {rest : List String} (h : resolve host = .error reason) :
      Fails resolve (host :: rest)
  | later {host : String} {addresses rest : List String} (h : resolve host = .ok addresses)
      (hne : addresses ≠ []) (hrest : Fails resolve rest) : Fails resolve (host :: rest)

/-- The check of names is unhealthy when an address is missing. -/
theorem follows (resolve : Resolver) (ctx : ProbeContext) (hosts : List String) :
    (lookUp resolve ctx hosts).1.Follows (Fails resolve hosts) .unhealthy ctx.failureStatus := by
  induction hosts with
  | nil => exact .fine (by rintro ⟨⟩) rfl
  | cons host rest ih =>
      rw [lookUp]
      cases hhost : resolve host with
      | error reason => exact .special (.here hhost) (.error (by rintro ⟨⟩))
      | ok addresses =>
          cases addresses with
          | nil =>
              refine .usual ?_ (.words (by simp [String.append_eq_empty_iff]))
              rintro (h | ⟨h, hne, -⟩)
              · cases hhost.symm.trans h
              · cases hhost.symm.trans h
                exact hne rfl
          | cons a as =>
              -- the host is passed over on both sides
              have hiff : Fails resolve rest ↔ Fails resolve (host :: rest) := by
                refine ⟨.later hhost (List.cons_ne_nil a as), ?_⟩
                rintro (h | ⟨-, -, hrest⟩)
                · cases hhost.symm.trans h
                · exact hrest
              exact ih.congr hiff

end Names

namespace Rest

open Http

/-- An endpoint answers with success, or it asks for authorization. -/
def Attempt.Reachable (a : Attempt) : Prop :=
  ∃ response, a.outcome = .ok response ∧ (isSuccess response.status = true ∨ response.status = 401)

/-- An endpoint asks for authorization. -/
def Attempt.Unauthorized (a : Attempt) : Prop :=
  ∃ response, a.outcome = .ok response ∧ response.status = 401

/-- Every endpoint answers with success or asks for authorization, and some one asks. -/
def OnlyUnauthorized (attempts : List Attempt) : Prop :=
  (∀ a ∈ attempts, a.Reachable) ∧ ∃ a ∈ attempts, a.Unauthorized

theorem statusMessage_ne_empty (endpoint : String) (code : Nat) :
    statusMessage endpoint code ≠ "" := by
  simp [statusMessage, String.append_eq_empty_iff]

/-- What an attempt can mean. -/
theorem Attempt.finding_cases (a : Attempt) :
    (a.finding = .fine ∧ a.Reachable ∧ ¬ a.Unauthorized)
      ∨ (∃ m, m ≠ "" ∧ a.finding = .warning m ∧ a.Reachable ∧ a.Unauthorized)
      ∨ ∃ m, m ≠ "" ∧ a.finding = .failure m ∧ ¬ a.Reachable := by
  obtain ⟨endpoint, outcome⟩ := a
  cases outcome with
  | error e =>
      refine Or.inr (Or.inr ⟨_, ?_, rfl, ?_⟩)
      · simp [String.append_eq_empty_iff]
      · rintro ⟨_, ⟨⟩, -⟩
  | ok response =>
      dsimp only [finding]
      by_cases hs : isSuccess response.status = true
      · refine Or.inl ⟨if_pos hs, ⟨response, rfl, Or.inl hs⟩, ?_⟩
        rintro ⟨_, ⟨⟩, h401⟩
        rw [h401] at hs
        exact absurd hs (by decide)
      · rw [if_neg hs]
        by_cases h401 : response.status = 401
        · rw [if_pos h401]
          exact Or.inr (Or.inl ⟨_, statusMessage_ne_empty _ _, rfl,
            ⟨response, rfl, Or.inr h401⟩, response, rfl, h401⟩)
        · rw [if_neg h401]
          refine Or.inr (Or.inr ⟨_, statusMessage_ne_empty _ _, rfl, ?_⟩)
          rintro ⟨_, ⟨⟩, hr | hr⟩
          · exact hs hr
          · exact h401 hr

/-- No failure is found in an attempt that reached its endpoint. -/
theorem Attempt.failure?_eq_none_iff (a : Attempt) : a.finding.failure? = none ↔ a.Reachable := by
  rcases a.finding_cases with ⟨h, hr, -⟩ | ⟨m, -, h, hr, -⟩ | ⟨m, -, h, hr⟩ <;>
    simp [h, hr, Finding.failure?]

/-- A warning is found when the endpoint asks for credentials. -/
theorem Attempt.warning?_eq_none_iff (a : Attempt) :
    a.finding.warning? = none ↔ ¬ a.Unauthorized := by
  rcases a.finding_cases with ⟨h, -, hu⟩ | ⟨m, -, h, -, hu⟩ | ⟨m, -, h, hr⟩
  · simp [h, hu, Finding.warning?]
  · simp [h, hu, Finding.warning?]
  · have hu : ¬ a.Unauthorized := fun ⟨response, ho, h401⟩ => hr ⟨response, ho, Or.inr h401⟩
    simp [h, hu, Finding.warning?]

/-- Neither is ever told without words. -/
theorem Attempt.message_ne_empty {a : Attempt} {m : String}
    (h : a.finding.failure? = some m ∨ a.finding.warning? = some m) : m ≠ "" := by
  rcases a.finding_cases with ⟨ha, -⟩ | ⟨n, hn, ha, -⟩ | ⟨n, hn, ha, -⟩
  · rw [ha] at h
    rcases h with h | h <;> cases h
  · rw [ha] at h
    rcases h with h | h <;> cases h
    exact hn
  · rw [ha] at h
    rcases h with h | h <;> cases h
    exact hn

/-- A message stands for an attempt that has it. -/
theorem exists_of_mem_messages {message? : Finding → Option String} {attempts : List Attempt}
    {m : String} (h : m ∈ (attempts.map Attempt.finding).filterMap message?) :
    ∃ a ∈ attempts, message? a.finding = some m := by
  rwa [List.filterMap_map, List.mem_filterMap] at h

/-- Without messages no attempt has one. -/
theorem eq_none_of_messages {message? : Finding → Option String} {attempts : List Attempt}
    (h : (attempts.map Attempt.finding).filterMap message? = []) :
    ∀ a ∈ attempts, message? a.finding = none := by
  rwa [List.filterMap_map, List.filterMap_eq_nil_iff] at h

/-- Attempts are judged as degraded when warnings are all that was found. -/
theorem judge_follows (ctx : ProbeContext) (attempts : List Attempt) :
    (judge ctx attempts).Follows (OnlyUnauthorized attempts) .degraded ctx.failureStatus := by
  rw [judge]
  cases hfailures : (attempts.map Attempt.finding).filterMap Finding.failure? with
  | cons m rest =>
      -- the first failure is that of an endpoint which cannot be reached
      refine .usual ?_ (.words (intercalate_ne_empty (List.cons_ne_nil m rest) fun n hn => ?_))
      · rintro ⟨hreach, -⟩
        obtain ⟨a, ha, hm⟩ := exists_of_mem_messages (hfailures ▸ List.mem_cons_self)
        cases (a.failure?_eq_none_iff.2 (hreach a ha)).symm.trans hm
      · obtain ⟨a, -, hm⟩ := exists_of_mem_messages (hfailures ▸ hn)
        exact Attempt.message_ne_empty (Or.inl hm)
  | nil =>
      have hreach : ∀ a ∈ attempts, a.Reachable := fun a ha =>
        a.failure?_eq_none_iff.1 (eq_none_of_messages hfailures a ha)
      cases hwarnings : (attempts.map Attempt.finding).filterMap Finding.warning? with
      | nil =>
          refine .fine ?_ rfl
          rintro ⟨-, a, ha, hu⟩
          exact a.warning?_eq_none_iff.1 (eq_none_of_messages hwarnings a ha) hu
      | cons m rest =>
          refine .special ⟨hreach, ?_⟩
            (.words (intercalate_ne_empty (List.cons_ne_nil m rest) fun n hn => ?_))
          · obtain ⟨a, ha, hm⟩ := exists_of_mem_messages (hwarnings ▸ List.mem_cons_self)
            refine ⟨a, ha, ?_⟩
            by_contra hu
            cases (a.warning?_eq_none_iff.2 hu).symm.trans hm
          · obtain ⟨a, -, hm⟩ := exists_of_mem_messages (hwarnings ▸ hn)
            exact Attempt.message_ne_empty (Or.inr hm)

end Rest

/-- The check of file servers has only the status for trouble. -/
theorem Transfer.follows (network : Network) (ctx : ProbeContext) (hosts : List Host)
    (own : Status) : (check network ctx hosts).1.Follows False own ctx.failureStatus := by
  induction hosts with
  | nil => exact .fine not_false rfl
  | cons h rest ih =>
      rw [check]
      dsimp only
      split
      · next e he => exact .usual not_false (.error ((uncut_talk network ctx h).ne he))
      · split
        · exact ih
        · exact .usual not_false (.words (by simp [String.append_eq_empty_iff]))

/-- So has that of a hub. -/
theorem Hub.follows (network : Http.Network) (ctx : ProbeContext) (url : String) (own : Status) :
    (check network ctx url).Follows False own ctx.failureStatus := by
  rw [check]
  generalize (call (address url)).bind (Http.Call.send network) = outcome
  rw [judge]
  split
  · next e he => exact .usual not_false (.error ((uncut_negotiation _ outcome).ne he))
  · split
    · exact .usual not_false (.words (by simp [String.append_eq_empty_iff]))
    · split
      · exact .fine not_false rfl
      · exact .usual not_false (.words (by simp [String.append_eq_empty_iff]))

/-! ## All probes -/

/-- Trouble that has a status of its own. -/
def Probe.Special (s : Sources) : Probe → Prop
  | liveness => s.stopping = true
  | memory maximum => ∃ bytes, s.memory = .ok bytes ∧ maximum ≤ bytes / 1024 / 1024
  | names hosts => Names.Fails s.resolver hosts
  | endpoints urls => Rest.OnlyUnauthorized (urls.map (Rest.attempt s.web))
  | drives _ | mail _ | files _ | hub _ => False

/-- The status of such trouble. -/
def Probe.specialStatus : Probe → Status
  | endpoints _ => .degraded
  | _ => .unhealthy

/-- Every built-in probe has one status of its own at most, next to the status for trouble. -/
theorem Probe.follows (s : Sources) (ctx : ProbeContext) (p : Probe) :
    (p.check s ctx).Follows (p.Special s) p.specialStatus ctx.failureStatus := by
  cases p with
  | liveness => exact Liveness.follows s.stopping ctx.failureStatus
  | memory maximum => exact Memory.follows maximum ctx s.memory
  | drives thresholds => exact Disk.follows thresholds ctx s.drives .unhealthy
  | mail server => exact Mail.follows ctx (s.mail server) .unhealthy
  | names hosts => exact Names.follows s.resolver ctx hosts
  | endpoints urls => exact Rest.judge_follows ctx (urls.map (Rest.attempt s.web))
  | files hosts => exact Transfer.follows s.files ctx hosts .unhealthy
  | hub url => exact Hub.follows s.web ctx url .unhealthy

/-- What is promised of the result of a probe. -/
structure Probe.Keeps (s : Sources) (ctx : ProbeContext) (p : Probe) (r : ProbeResult) : Prop where
  form : ∃! f, r.HasForm f
  /-- Trouble of the special kind is told, and under its own status. -/
  special : p.Special s → ¬ r.HasForm .fine ∧ r.status = p.specialStatus
  /-- All other trouble is told under the status of the context. -/
  usual : ¬ p.Special s → r.HasForm .fine ∨ r.status = ctx.failureStatus
  not_cancelled : r.error ≠ some .cancelled
  /-- Only a probe that finds nothing wrong has nothing to say. -/
  summary : r.summary = none ↔ r = .healthy

namespace ProbeResult

theorem hasForm_healthy : healthy.HasForm .fine :=
  ⟨rfl, rfl, rfl⟩

/-- Trouble is told in one form. -/
theorem Tells.existsUnique_form {status : Status} {r : ProbeResult} (h : r.Tells status) :
    (∃! f, r.HasForm f) ∧ ¬ r.HasForm .fine := by
  obtain ⟨f, hf, hne⟩ : ∃ f, r.HasForm f ∧ f ≠ .fine := by
    cases h with
    | words hne => exact ⟨.words, ⟨⟨_, rfl, hne⟩, rfl⟩, by rintro ⟨⟩⟩
    | error => exact ⟨.error, ⟨rfl, _, rfl⟩, by rintro ⟨⟩⟩
  exact ⟨⟨f, hf, fun g hg => hg.unique hf⟩, fun hfine => hne (hf.unique hfine)⟩

/-- A result tells of its own status. -/
theorem Tells.status_eq {status : Status} {r : ProbeResult} (h : r.Tells status) :
    r.status = status := by
  cases h <;> rfl

/-- What tells of a failure is no cancellation. -/
theorem Tells.not_cancelled {status : Status} {r : ProbeResult} (h : r.Tells status) :
    r.error ≠ some .cancelled := by
  cases h with
  | words => rintro ⟨⟩
  | error he => exact fun h => he (Option.some.inj h)

/-- What tells of a failure has a summary. -/
theorem Tells.summary_ne_none {status : Status} {r : ProbeResult} (h : r.Tells status) :
    r.summary ≠ none := by
  cases h <;> rintro ⟨⟩

end ProbeResult

/-- A result that follows the rule keeps all that is promised. -/
theorem Probe.keeps_of_follows {s : Sources} {ctx : ProbeContext} {p : Probe} {r : ProbeResult}
    (h : r.Follows (p.Special s) p.specialStatus ctx.failureStatus) : p.Keeps s ctx r := by
  have htold : ∀ {status}, r.Tells status → (r.summary = none ↔ r = .healthy) := fun tells =>
    iff_of_false tells.summary_ne_none fun heq => tells.summary_ne_none (heq ▸ rfl)
  cases h with
  | special h tells =>
      obtain ⟨hform, hfine⟩ := tells.existsUnique_form
      exact ⟨hform, fun _ => ⟨hfine, tells.status_eq⟩, fun hnot => absurd h hnot,
        tells.not_cancelled, htold tells⟩
  | usual h tells =>
      exact ⟨tells.existsUnique_form.1, fun hs => absurd hs h, fun _ => Or.inr tells.status_eq,
        tells.not_cancelled, htold tells⟩
  | fine h heq =>
      subst heq
      have hfine := ProbeResult.hasForm_healthy
      exact ⟨⟨.fine, hfine, fun g hg => hg.unique hfine⟩, fun hs => absurd hs h,
        fun _ => Or.inl hfine, by rintro ⟨⟩, iff_of_true rfl rfl⟩

/-! ## Rounds of built-in probes -/

/-- A probe answers with what it finds, if it answers at all. -/
def Peers.AskBuiltin {σ : Type} (peers : Peers Probe σ) : Prop :=
  ∀ job stopping t time result, (peers.ask job stopping t).1.outcome = some (time, result) →
    ∃ s : Sources, result = job.probe.check s job.context

/-- Peers that run the built-in probes never cancel one. -/
theorem Peers.AskBuiltin.neverCancels {σ : Type} {peers : Peers Probe σ} (h : peers.AskBuiltin)
    (p : Probe) : peers.NeverCancels p := by
  intro job stopping t time result _ houtcome
  obtain ⟨s, rfl⟩ := h job stopping t time result houtcome
  exact (Probe.keeps_of_follows (job.probe.follows s job.context)).not_cancelled

namespace Probe

/-- Every built-in probe gives a result of one form, under the status of its context unless the
    trouble has one of its own, and never that of a cut: a round that does not run all jobs
    ended with a crash or because the program stops. -/
theorem builtin_probes_keep_policy :
    (∀ (s : Sources) (ctx : ProbeContext) (p : Probe), p.Keeps s ctx (p.check s ctx))
      ∧ ∀ {σ : Type} (c : Collector Probe) (peers : Peers Probe σ) (cancel : Collector.Cancel)
          (w : World σ), peers.AskBuiltin →
        (∃ t ∈ c.turns peers cancel c.jobs w, t.counts = false) →
          c.crashes peers cancel c.jobs w = true
            ∨ cancel.isDue (c.collect peers cancel w).2 = true := by
  refine ⟨fun s ctx p => keeps_of_follows (p.follows s ctx), ?_⟩
  intro σ c peers cancel w hask hcut
  cases hcrash : c.crashes peers cancel c.jobs w with
  | true => exact Or.inl rfl
  | false =>
      exact Or.inr (c.isDue_of_not_counts peers cancel {}
        (fun job _ => hask.neverCancels job.probe) hcrash hcut)

namespace Sample

/-- Web endpoints that ask for authorization, and nothing else that is wrong. -/
def sources (stopping : Bool) : Sources where
  stopping := stopping
  memory := .ok 0
  drives := .drives []
  resolver _ := .ok ["192.0.2.1"]
  mail _ := .silent
  files _ := .refused "connection refused"
  web _ := some (.empty 401)

/-- A job for a probe. -/
def job (name : String) (probe : Probe) : Job Probe where
  definition := { id := .nil, name, description := "", tags := [] }
  context := {}
  probe

/-- A collector with two probes. -/
def collector : Collector Probe where
  applicationId := .nil
  serverName := "alpha"
  interval := 60
  jobs := [job "web" (.endpoints ["http://localhost/"]), job "app" .liveness]

/-- Probes that take five nanoseconds each. -/
def peers : Peers Probe Unit where
  ask job stopping t := ({ outcome := some (5, job.probe.check (sources stopping) job.context) }, t)
  register c t := ((0, some c), t)
  submit _ t := (0, t)
  stopFirst t := (false, t)
  wall _ := .epoch

/-- A run that is stopped after three nanoseconds. -/
def world : World Unit := { stopAt := some 3, peers := () }

theorem askBuiltin_peers : peers.AskBuiltin := by
  intro job stopping t time result h
  cases h
  exact ⟨sources stopping, rfl⟩

theorem special_endpoints : (endpoints ["http://localhost/"]).Special (sources false) := by
  refine ⟨fun a ha => ?_, Rest.attempt (sources false).web "http://localhost/", by simp,
    .empty 401, by decide +kernel, rfl⟩
  obtain rfl := List.mem_singleton.1 ha
  exact ⟨.empty 401, by decide +kernel, Or.inr rfl⟩

end Sample

/-- An endpoint that asks for authorization is a warning, and a round is cut at its first probe
    by the stop and not by what the probe says. -/
theorem warning_in_round_cut_by_stop :
    ((endpoints ["http://localhost/"]).check (Sample.sources false) {}).status = .degraded
      ∧ Sample.peers.AskBuiltin
      ∧ (∃ t ∈ Sample.collector.turns Sample.peers .byStop Sample.collector.jobs Sample.world,
          t.counts = false)
      ∧ Collector.Cancel.byStop.isDue
          (Sample.collector.collect Sample.peers .byStop Sample.world).2 = true := by
  obtain ⟨hkeeps, hround⟩ := builtin_probes_keep_policy
  have hcut : ∃ t ∈ Sample.collector.turns Sample.peers .byStop Sample.collector.jobs Sample.world,
      t.counts = false := ⟨_, List.mem_cons_self, by decide +kernel⟩
  refine ⟨((hkeeps _ _ _).special Sample.special_endpoints).2, Sample.askBuiltin_peers, hcut, ?_⟩
  obtain hcrash | hdue := hround Sample.collector Sample.peers .byStop Sample.world
    Sample.askBuiltin_peers hcut
  · exact absurd hcrash (by decide +kernel)
  · exact hdue

end Probe

end HealthWatch
