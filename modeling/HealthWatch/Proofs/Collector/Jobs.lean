import HealthWatch.Collector.Basic
import HealthWatch.Proofs.Probe.Registry
import HealthWatch.Proofs.Traversal

/-! # Jobs — what a collector is made of

    A collector is made of settings with a registry.  Each check is looked up by its kind,
    and its factory makes the probe of the job in its place; the first check for which
    this fails makes it fail altogether.

    * `job_eq_ok_iff` and `job_eq_error_iff` say it for a single check;
    * `jobs_of_registered` says it for settings and everything that can be registered. -/

namespace HealthWatch

open Json Text

variable {α : Type}

/-! ## One check -/

/-- A job serves a check: its probe comes from the factory under the kind of the check, all
    else from the check itself. -/
structure Job.Serves (r : Registry α) (c : CheckSettings) (job : Job α) : Prop where
  definition : job.definition =
    { id := .nil, name := c.name, description := c.description, tags := c.tags }
  context : job.context = { failureStatus := c.failureStatus, timeout := .ofSeconds c.timeout }
  probe : ∃ factory, r.factory? c.kind = some factory ∧ factory c = .ok job.probe

/-- What is made of a check is the job that serves it. -/
theorem job_eq_ok_iff {r : Registry α} {c : CheckSettings} {job : Job α} :
    Job.ofSettings r c = .ok job ↔ job.Serves r c := by
  constructor
  · intro h
    obtain ⟨probe, hprobe, h⟩ := bind_eq_ok h
    cases h
    exact ⟨rfl, rfl, Registry.build_eq_ok_iff.1 hprobe⟩
  · rintro ⟨hdefinition, hcontext, hprobe⟩
    rw [Job.ofSettings, Registry.build_eq_ok_iff.2 hprobe]
    obtain ⟨definition, context, probe⟩ := job
    cases hdefinition
    cases hcontext
    rfl

/-- No job is made when no probe is, and for the same reason. -/
theorem job_eq_error_iff {r : Registry α} {c : CheckSettings} {e : SettingsFault} :
    Job.ofSettings r c = .error e ↔ r.build c = .error e := by
  rw [Job.ofSettings, bind_eq_error_iff]
  refine or_iff_left ?_
  rintro ⟨_, _, ⟨⟩⟩

/-- A check can be served when its kind is known and its factory makes a probe. -/
def Registry.CanServe (r : Registry α) (c : CheckSettings) : Prop :=
  ∃ factory, r.factory? c.kind = some factory ∧ ∃ probe, factory c = .ok probe

/-- A check can be served when a job is made of it. -/
theorem canServe_iff {r : Registry α} {c : CheckSettings} :
    r.CanServe c ↔ ∃ job, Job.ofSettings r c = .ok job := by
  simp only [job_eq_ok_iff]
  constructor
  · rintro ⟨factory, hfactory, probe, hprobe⟩
    exact ⟨⟨_, _, probe⟩, rfl, rfl, factory, hfactory, hprobe⟩
  · rintro ⟨job, -, -, factory, hfactory, hprobe⟩
    exact ⟨factory, hfactory, job.probe, hprobe⟩

/-! ## All checks -/

namespace Collector

variable {r : Registry α} {s : Settings}

/-- A collector has the names of its settings, their interval, and a job for each check in its
    place. -/
theorem ofSettings_eq_ok_iff {c : Collector α} : ofSettings r s = .ok c ↔
    c.applicationId = s.applicationId ∧ c.serverName = s.serverName ∧
      c.interval = nanosOfSeconds s.checkInterval ∧
      List.Forall₂ (fun check job => job.Serves r check) s.checks c.jobs := by
  have hjobs : ∀ jobs, s.checks.mapM (Job.ofSettings r) = .ok jobs
      ↔ List.Forall₂ (fun check job => job.Serves r check) s.checks jobs := by
    intro jobs
    simp only [mapM_eq_ok_iff, job_eq_ok_iff]
  constructor
  · intro h
    obtain ⟨jobs, hmade, h⟩ := bind_eq_ok h
    cases h
    exact ⟨rfl, rfl, rfl, (hjobs jobs).1 hmade⟩
  · rintro ⟨hid, hserver, hinterval, hserve⟩
    rw [ofSettings, (hjobs c.jobs).2 hserve]
    obtain ⟨_, _, _, _⟩ := c
    cases hid
    cases hserver
    cases hinterval
    rfl

/-- No collector is made when a check cannot be served; the first such check gives the reason. -/
theorem ofSettings_eq_error_iff {e : SettingsFault} : ofSettings r s = .error e ↔
    ∃ front check rest, s.checks = front ++ check :: rest ∧
      (∀ earlier ∈ front, r.CanServe earlier) ∧ r.build check = .error e := by
  rw [ofSettings, bind_eq_error_iff, or_iff_left (by rintro ⟨_, _, ⟨⟩⟩), mapM_eq_error_iff]
  simp only [canServe_iff, job_eq_error_iff]

/-- Nothing stands between settings and a collector but checks that cannot be served. -/
theorem exists_ofSettings_iff :
    (∃ c, ofSettings r s = .ok c) ↔ ∀ check ∈ s.checks, r.CanServe check := by
  constructor
  · rintro ⟨c, hc⟩ check hcheck
    obtain ⟨-, -, -, hserve⟩ := ofSettings_eq_ok_iff.1 hc
    obtain ⟨job, -, hjob⟩ := exists_mem_of_forall₂ hserve hcheck
    exact canServe_iff.2 ⟨job, job_eq_ok_iff.2 hjob⟩
  · intro h
    cases hc : ofSettings r s with
    | ok c => exact ⟨c, rfl⟩
    | error e =>
        obtain ⟨front, check, rest, hsplit, -, hrefused⟩ := ofSettings_eq_error_iff.1 hc
        obtain ⟨job, hjob⟩ := canServe_iff.1 (h check (by simp [hsplit]))
        cases hjob.symm.trans (job_eq_error_iff.2 hrefused)

end Collector

/-! ## Everything that can be registered -/

open Registry (Registration Start Fair IsLast normalTag)

/-- What a registry makes of a tag is settled by all that has been registered in it. -/
structure Registry.Resolves (r : Registry α) (registered : List (Registration α)) : Prop where
  last : ∀ tag factory, r.factory? tag = some factory ↔ IsLast registered tag factory
  known : ∀ tag, r.contains tag = true ↔ ∃ x ∈ registered, normalTag x.1 = normalTag tag
  spelling : ∀ tag other, Respells tag.toList other.toList →
    r.factory? tag = r.factory? other ∧
      ∀ factory, r.register tag factory = r.register other factory
  others : ∀ own tag factory, normalTag own ≠ normalTag tag →
    (r.register own factory).factory? tag = r.factory? tag
  refusal : ∀ c e, r.build c = .error e ↔
    (r.contains c.kind = false ∧ e = .unknownKind c.name c.kind) ∨
      ∃ factory, r.factory? c.kind = some factory ∧ factory c = .error e

/-- Whatever was registered, a kind stands for the last factory under its tag. -/
theorem resolves_of_registered (start : Start α) (added : List (Registration α)) :
    (start.registry.adds added).Resolves (start.followedBy added) where
  last tag factory := by
    rw [Registry.registered_eq]
    exact Registry.factory?_eq_some_iff
  known tag := by
    rw [Registry.registered_eq]
    exact Registry.contains_adds
  spelling tag other h := by
    have hnormal := Registry.normalTag_eq_of_respells h
    refine ⟨?_, fun factory => ?_⟩
    · rw [Registry.factory?, hnormal, ← Registry.factory?]
    · rw [Registry.register, hnormal, ← Registry.register]
  others own tag factory h := Registry.factory?_register_of_ne h _ factory
  refusal _ _ := Registry.build_eq_error_iff

/-- A collector of settings has a job for each check in its place, whatever was registered.
    It is made exactly when every check can be served, and refused for the first one that
    cannot.  When the added factories refuse nothing but the options of their checks, the
    refusal names the check, and an unknown kind is one that the registry does not contain. -/
theorem jobs_of_registered (start : Start α) (added : List (Registration α))
    (s : Settings) :
    let r := start.registry.adds added
    r.Resolves (start.followedBy added) ∧
    ((∃ c, Collector.ofSettings r s = .ok c) ↔ ∀ check ∈ s.checks, r.CanServe check) ∧
    (∀ c, Collector.ofSettings r s = .ok c ↔
      c.applicationId = s.applicationId ∧ c.serverName = s.serverName ∧
        c.interval = nanosOfSeconds s.checkInterval ∧
        List.Forall₂ (fun check job => job.Serves r check) s.checks c.jobs) ∧
    (∀ e, Collector.ofSettings r s = .error e ↔
      ∃ front check rest, s.checks = front ++ check :: rest ∧
        (∀ earlier ∈ front, r.CanServe earlier) ∧ r.build check = .error e) ∧
    ((∀ x ∈ added, Fair x.2) →
      (∀ c, r.contains c.kind = true ↔ ∀ name kind, r.build c ≠ .error (.unknownKind name kind)) ∧
      ∀ c e, r.build c = .error e →
        e = .unknownKind c.name c.kind ∨ ∃ reason, e = .invalidCheck c.name reason) := by
  intro r
  refine ⟨resolves_of_registered start added, Collector.exists_ofSettings_iff,
    fun _ => Collector.ofSettings_eq_ok_iff, fun _ => Collector.ofSettings_eq_error_iff,
    fun hfair => ⟨fun c => ⟨fun hknown name kind he => ?_, fun h => ?_⟩, fun c e he => ?_⟩⟩
  · rcases Registry.refusal_cases hfair he with ⟨hunknown, -⟩ | ⟨-, reason, hreason⟩
    · cases hknown.symm.trans hunknown
    · cases hreason
  · rw [← Bool.not_eq_false]
    exact fun hunknown => h c.name c.kind (Registry.build_eq_error_iff.2 (Or.inl ⟨hunknown, rfl⟩))
  · exact (Registry.refusal_cases hfair he).imp And.right And.right

/-- A factory put in again under a built-in tag serves the checks of that kind, however it is
    spelled, and the first check of a kind that is not there refuses the settings by name. -/
theorem mail_registered_again :
    let mail : ProbeFactory Probe := fun _ => .ok .liveness
    let served : CheckSettings := ⟨" sMTP\t", "mail", "", [], 30, .unhealthy, []⟩
    let unknown : CheckSettings := ⟨"Ping", "ping", "", [], 30, .unhealthy, []⟩
    let r := (Start.builtin id).registry.adds [(" Smtp ", mail)]
    let s : Settings := { (default : Settings) with checks := [served, unknown] }
    Fair mail ∧ r.factory? served.kind = some mail ∧ r.contains served.kind = true ∧
      Collector.ofSettings r s = .error (.unknownKind "ping" "Ping") := by
  intro mail served unknown r s
  obtain ⟨hresolves, -, -, hrefused, hnames⟩ :=
    jobs_of_registered (Start.builtin id) [(" Smtp ", mail)] s
  have hfair : Fair mail := Registry.fair_ok _
  have hserved : r.factory? served.kind = some mail :=
    (hresolves.last _ _).2 ⟨(Start.builtin id).registered, " Smtp ", [], rfl,
      by decide +kernel, fun _ h => nomatch h⟩
  have hmade : r.build served = .ok .liveness :=
    Registry.build_eq_ok_iff.2 ⟨mail, hserved, rfl⟩
  have hunknown : r.build unknown = .error (.unknownKind "ping" "Ping") := by
    refine (hresolves.refusal unknown _).2 (Or.inl ⟨?_, rfl⟩)
    decide +kernel
  refine ⟨hfair, hserved, ?_, (hrefused _).2 ⟨[served], unknown, [], rfl, ?_, hunknown⟩⟩
  · refine ((hnames (List.forall_mem_singleton.2 hfair)).1 served).2 fun _ _ h => ?_
    cases hmade.symm.trans h
  · rintro _ (_ | ⟨_, ⟨⟩⟩)
    exact ⟨mail, hserved, .liveness, rfl⟩

end HealthWatch
