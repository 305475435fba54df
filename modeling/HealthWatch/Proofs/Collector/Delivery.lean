import HealthWatch.Proofs.Api.Acceptance
import HealthWatch.Proofs.Collector.Life
import HealthWatch.Proofs.Http.Client
import HealthWatch.Proofs.Settings
import Mathlib.Data.List.Forall2

/-! # Delivery — what a collector sends, the interface accepts

    A collector made of accepted settings talks to a storage server over a link that
    delivers every call.  Its definitions have names and no identifiers, so all of them
    are registered; from then on every report names its server and a registered check, so
    it is taken over, and the view of its check shows it.

    * `Link.peers` puts a server at the other end of a collector's calls;
    * `Serves` is what holds of collector and server as long as bodies are not too long;
    * `holds_sendDefinition` and `holds_submit` keep it through one call,
      `holds_registerJobs` and `holds_collect` through all calls of a registration and of
      a round. -/

namespace HealthWatch

open Http

/-! ## Links -/

/-- A storage server: its store, and the exchanges that it has had. -/
structure Server where
  store : Store := .empty
  log : List Api.Exchange := []

namespace Server

/-- The server after an exchange. -/
def took (s : Server) (x : Api.Exchange) : Server := ⟨x.after, s.log ++ [x]⟩

/-- In all exchanges the identifiers for new rows were fresh and the body was not too
    long. -/
def Fits (s : Server) : Prop :=
  ∀ x ∈ s.log, x.Fresh ∧ x.request.body.length ≤ Api.bodyLimit

instance (s : Server) : Decidable s.Fits :=
  inferInstanceAs (Decidable (∀ x ∈ s.log, _))

end Server

/-- What lies between a collector and a server. -/
structure Link where
  reporter : Reporter
  /-- The request that a call is when it arrives. -/
  carry : Call → Request
  /-- What the server takes from outside for each of its exchanges. -/
  moments : Nat → Api.Moment

namespace Link

/-- The exchange of a call that arrives. -/
def exchange (l : Link) (s : Server) (call : Call) : Api.Exchange :=
  ⟨s.store, l.moments s.log.length, l.carry call⟩

/-- The network that answers calls as the server does. -/
def network (l : Link) (s : Server) : Network := fun call => some (l.exchange s call).response

/-- The server after a call, if the call can be made. -/
def send (l : Link) (s : Server) : Except CallFault Call → Server
  | .ok call => s.took (l.exchange s call)
  | .error _ => s

/-- Peers whose storage interface is a server behind the link; everything else is done by
    other peers. -/
def peers {α τ : Type} (l : Link) (p : Peers α τ) : Peers α (τ × Server) where
  ask job stopping s :=
    let (answer, t) := p.ask job stopping s.1
    (answer, t, s.2)
  register c s :=
    let ((time, _), t) := p.register c s.1
    ((time, (l.reporter.register (l.network s.2) c).toOption),
      t, l.send s.2 (l.reporter.registerCall c))
  submit e s :=
    let (time, t) := p.submit e s.1
    (time, t, l.send s.2 (l.reporter.submitCall e))
  refusal e s :=
    match l.reporter.submit (l.network s.2) e with
    | .ok _ => none
    | .error fault => some fault
  stopFirst s :=
    let (stopFirst, t) := p.stopFirst s.1
    (stopFirst, t, s.2)
  wall := p.wall

section Peers

variable {α τ : Type} (l : Link) (p : Peers α τ) (s : τ × Server)

/-- A registration reaches the server as one request. -/
theorem server_register (c : Check) :
    ((l.peers p).register c s).2.2 = l.send s.2 (l.reporter.registerCall c) := by
  rw [peers]

/-- So does a report. -/
theorem server_submit (e : Entry) :
    ((l.peers p).submit e s).2.2 = l.send s.2 (l.reporter.submitCall e) := by
  rw [peers]

/-- A submission is refused when the reporter says so of the answer. -/
theorem refusal_peers (e : Entry) : (l.peers p).refusal e s
    = match l.reporter.submit (l.network s.2) e with
      | .ok _ => none
      | .error fault => some fault := by
  rw [peers]

theorem wall_peers (moment : Nat) : (l.peers p).wall moment = p.wall moment := rfl

end Peers

/-- A call as it arrives: at the path of its action, and with what it was sent with. -/
structure Arrives (action : String) (call : Call) (request : Request) : Prop where
  path : request.path = Api.path action
  method : request.method = call.request.method
  contentType : request.headers.value? "content-type" = call.request.headers.value? "content-type"
  body : request.body = call.request.body

/-- Every call can be made and arrives. -/
def Delivers (l : Link) : Prop :=
  ∀ action ∈ ["RegisterHealthCheck", "AddHealthCheck"], ∀ v, ∃ call,
    l.reporter.call action v = .ok call ∧ Arrives action call (l.carry call)

/-- A call is a request with a value. -/
theorem call_eq_ok {r : Reporter} {action : String} {v : Json} {call : Call}
    (h : r.call action v = .ok call) : call.request.method = "POST"
      ∧ call.request.headers = [("content-type", "application/json")]
      ∧ call.request.body = jsonBody v := by
  obtain ⟨-, -, hrequest⟩ := Call.to?_eq_ok_iff.1 h
  rw [hrequest]
  exact ⟨rfl, rfl, rfl⟩

/-- What arrives brings the value that was sent. -/
theorem Arrives.brings {action : String} {call : Call} {request : Request}
    (h : Arrives action call request) {r : Reporter} {v : Json}
    (hcall : r.call action v = .ok call) (hlength : request.body.length ≤ Api.bodyLimit) :
    request.method = "POST" ∧ Api.Brings request v := by
  obtain ⟨hmethod, hheaders, hbody⟩ := call_eq_ok hcall
  have hvalue := h.body.trans hbody
  refine ⟨h.method.trans hmethod, ?_, hvalue, hvalue ▸ hlength⟩
  rw [Api.saysJson, h.contentType, hheaders]
  decide +kernel

/-- A report that the server answers with success is not refused. -/
theorem submit_eq_ok {l : Link} {s : Server} {e : Entry} {call : Call}
    (hcall : l.reporter.submitCall e = .ok call) (hstatus : (l.exchange s call).response.status = 200) :
    l.reporter.submit (l.network s) e = .ok () := by
  have hsuccess : isSuccess (l.exchange s call).response.status = true := by
    rw [hstatus]
    rfl
  rw [Reporter.submit, Reporter.send, hcall]
  simp only [Except.bind, Call.send, network, Except.mapError, bind, pure, Except.pure, hsuccess]
  rfl

end Link

/-! ## Traffic -/

/-- Whether an event has to do with the storage interface: something is sent there, or a
    failure of that is put on record. -/
def Event.isTraffic : Event → Bool
  | registered _ => true
  | submitted _ => true
  | complained _ _ => true
  | _ => false

namespace World

variable {σ : Type}

/-- What has to do with the storage interface, in its order. -/
def traffic (w : World σ) : List Event :=
  (w.events.map Prod.snd).filter Event.isTraffic

@[simp] theorem traffic_wait (time : Nat) (w : World σ) : (w.wait time).traffic = w.traffic := rfl

@[simp] theorem traffic_with_peers (w : World σ) (s : σ) :
    { w with peers := s }.traffic = w.traffic := rfl

theorem traffic_happen {e : Event} (h : e.isTraffic = true) (w : World σ) :
    (w.happen e).traffic = w.traffic ++ [e] := by
  simp [traffic, happen, h]

end World

/-- An answer that accepts what a collector sends.  That of a report is shown by the view of
    its check. -/
inductive Link.Accepts {α : Type} (l : Link) (c : Collector α) : Event → Api.Exchange → Prop
  | registered {job : Job α} {call : Call} {x : Api.Exchange} : job ∈ c.jobs →
      l.reporter.registerCall job.definition = .ok call → x.request = l.carry call →
      x.response.status = 200 → Accepts l c (.registered job.definition) x
  | submitted {job : Job α} {result : ProbeResult} {now : Instant} {call : Call}
      {x : Api.Exchange} : job ∈ c.jobs →
      l.reporter.submitCall (c.entryOf job result now) = .ok call → x.request = l.carry call →
      x.response.status = 200 → Api.Shows x.after (c.entryOf job result now) →
      Accepts l c (.submitted (c.entryOf job result now)) x

namespace Collector

variable {α τ : Type}

/-- The server has accepted all that was sent, nothing failed, and the definitions of these
    names are stored. -/
structure Serves (l : Link) (c : Collector α) (names : List String)
    (w : World (τ × Server)) : Prop where
  ran : Api.Ran w.peers.2.store
  accepted : List.Forall₂ (l.Accepts c) w.traffic w.peers.2.log
  knows : ∀ name ∈ names, Api.Knows w.peers.2.store name

/-- The server serves the collector as long as the identifiers for new rows are fresh and bodies are
    not too long. -/
def Holds (l : Link) (c : Collector α) (names : List String) (w : World (τ × Server)) : Prop :=
  w.peers.2.Fits → c.Serves l names w

/-! ## One call -/

section Call

variable {l : Link} {p : Peers α τ} {c : Collector α} {names : List String}
  {w w' : World (τ × Server)}

/-- One more exchange that accepts what is sent. -/
theorem Serves.took (h : c.Serves l names w) {x : Api.Exchange} {e : Event}
    (hbefore : x.before = w.peers.2.store) (hfresh : x.Fresh) (haccepts : l.Accepts c e x)
    (hserver : w'.peers.2 = w.peers.2.took x) (htraffic : w'.traffic = w.traffic ++ [e]) :
    c.Serves l names w' where
  ran := hserver ▸ Api.Exchange.ran_after (hbefore ▸ h.ran) hfresh
  accepted := by
    rw [hserver, htraffic]
    exact List.rel_append h.accepted (.cons haccepts .nil)
  knows := by
    intro name hname
    rw [hserver]
    exact Api.Exchange.knows_after (hbefore ▸ h.ran) hfresh (hbefore ▸ h.knows name hname)

/-- Where nothing is sent, nothing changes. -/
theorem Holds.of_eq (h : c.Holds l names w) (hserver : w'.peers.2 = w.peers.2)
    (htraffic : w'.traffic = w.traffic) : c.Holds l names w' := by
  intro hfits
  rw [hserver] at hfits
  obtain ⟨hran, haccepted, hknows⟩ := h hfits
  exact ⟨hserver ▸ hran, by rw [hserver, htraffic]; exact haccepted, hserver ▸ hknows⟩

/-- Sending a definition changes its peers as a registration does. -/
theorem peers_sendDefinition {σ : Type} (peers : Peers α σ) (job : Job α) (w : World σ) :
    (sendDefinition peers job w).2.2.peers = (peers.register job.definition w.peers).2 := rfl

/-- The registration of the definition is all the traffic of it. -/
theorem traffic_sendDefinition {σ : Type} (peers : Peers α σ) (job : Job α) (w : World σ) :
    (sendDefinition peers job w).2.2.traffic = w.traffic ++ registrations [job] :=
  World.traffic_happen rfl _

/-- A definition that is sent is registered. -/
theorem holds_sendDefinition (hl : l.Delivers) (hc : c.Named) {job : Job α} (hjob : job ∈ c.jobs)
    (h : c.Holds l names w) :
    c.Holds l (job.definition.name :: names) (sendDefinition (l.peers p) job w).2.2 := by
  intro hfits
  obtain ⟨call, hcall, harrives⟩ :=
    hl "RegisterHealthCheck" List.mem_cons_self (Wire.encodeCheck job.definition)
  have hserver : (sendDefinition (l.peers p) job w).2.2.peers.2
      = w.peers.2.took (l.exchange w.peers.2 call) := by
    rw [peers_sendDefinition, Link.server_register, Reporter.registerCall, hcall, Link.send]
  have htraffic := traffic_sendDefinition (l.peers p) job w
  rw [hserver] at hfits
  obtain ⟨hbefore, hlast⟩ := List.forall_mem_append.1 hfits
  obtain ⟨hfresh, hlength⟩ := hlast _ (List.mem_singleton_self _)
  have hserves := h hbefore
  obtain ⟨hmethod, hbrings⟩ := harrives.brings hcall hlength
  obtain ⟨hname, hnil⟩ := hc.jobs job hjob
  obtain ⟨hstatus, hknows⟩ := Api.Exchange.register_accepted (x := l.exchange w.peers.2 call)
    hserves.ran hfresh harrives.path hmethod hbrings hname hnil
  have hafter := hserves.took rfl hfresh (.registered hjob hcall rfl hstatus) hserver htraffic
  exact ⟨hafter.ran, hafter.accepted, List.forall_mem_cons.2 ⟨hserver ▸ hknows, hafter.knows⟩⟩

/-- A report of a registered check is taken over and shown. -/
theorem holds_submit (hl : l.Delivers) (hc : c.Named) {c' : Collector α} {job job' : Job α}
    (hjob : job ∈ c.jobs) (hentry : c'.entryOf job' = c.entryOf job)
    (hname : job.definition.name ∈ names) (result : ProbeResult) (h : c.Holds l names w) :
    c.Holds l names (c'.submit (l.peers p) job' result w) := by
  intro hfits
  have he : c'.entryOf job' result (p.wall w.moment) = c.entryOf job result (p.wall w.moment) := by
    rw [hentry]
  obtain ⟨call, hcall, harrives⟩ := hl "AddHealthCheck" (List.mem_cons_of_mem _ List.mem_cons_self)
    (Wire.encodeEntry (c.entryOf job result (p.wall w.moment)))
  have hserver : (c'.submit (l.peers p) job' result w).peers.2
      = w.peers.2.took (l.exchange w.peers.2 call) := by
    rw [peers_submit, Link.server_submit, Link.wall_peers, he, Reporter.submitCall, hcall, Link.send]
  rw [hserver] at hfits
  obtain ⟨hbefore, hlast⟩ := List.forall_mem_append.1 hfits
  obtain ⟨hfresh, hlength⟩ := hlast _ (List.mem_singleton_self _)
  have hserves := h hbefore
  obtain ⟨hmethod, hbrings⟩ := harrives.brings hcall hlength
  obtain ⟨hstatus, hshows⟩ := Api.Exchange.add_accepted (x := l.exchange w.peers.2 call)
    hserves.ran hfresh harrives.path hmethod hbrings (hc.jobs job hjob).1 hc.server
    (hserves.knows _ hname)
  -- what is accepted is not complained of
  have hrefusal : (l.peers p).refusal (c'.entryOf job' result (p.wall w.moment)) w.peers = none := by
    rw [he, Link.refusal_peers, Link.submit_eq_ok hcall hstatus]
  have htraffic : (c'.submit (l.peers p) job' result w).traffic
      = w.traffic ++ [.submitted (c.entryOf job result (p.wall w.moment))] := by
    rw [submit]
    dsimp only
    rw [Link.wall_peers, hrefusal, he]
    exact World.traffic_happen rfl _
  exact hserves.took rfl hfresh (.submitted hjob hcall rfl hstatus hshows) hserver htraffic

end Call

/-! ## All calls of a registration -/

section Registration

variable {l : Link} {p : Peers α τ} {c : Collector α}

/-- After the jobs were registered, the server knows all their names. -/
theorem holds_registerJobs (hl : l.Delivers) (hc : c.Named) {jobs : List (Job α)}
    (hjobs : ∀ job ∈ jobs, job ∈ c.jobs) {names : List String} {w : World (τ × Server)}
    (h : c.Holds l names w) :
    c.Holds l ((jobs.map (·.definition.name)).reverse ++ names)
      (registerJobs (l.peers p) jobs w).2 := by
  -- on the jobs, with the names of those that are registered
  induction jobs generalizing names w with
  | nil => exact h
  | cons job rest ih =>
      obtain ⟨hjob, hrest⟩ := List.forall_mem_cons.1 hjobs
      have hsent := holds_sendDefinition (p := p) hl hc hjob h
      have hwaited : c.Holds l (job.definition.name :: names)
          ((sendDefinition (l.peers p) job w).2.2.wait (sendDefinition (l.peers p) job w).2.1) :=
        hsent.of_eq rfl rfl
      rw [List.map_cons, List.reverse_cons, List.append_assoc]
      exact ih hrest hwaited

/-- The traffic of registering is one registration for each job, in order. -/
theorem traffic_registerJobs (peers : Peers α τ) (jobs : List (Job α)) (w : World τ) :
    (registerJobs peers jobs w).2.traffic = w.traffic ++ registrations jobs := by
  induction jobs generalizing w with
  | nil => exact (List.append_nil _).symm
  | cons job rest ih =>
      rw [registerJobs]
      dsimp only
      rw [ih, World.traffic_wait, traffic_sendDefinition, List.append_assoc]
      rfl

/-- Registering jobs changes nothing in them but their definitions. -/
theorem adopted_registerJobs (peers : Peers α τ) (jobs : List (Job α)) (w : World τ) :
    List.Forall₂ (fun job job' => ∃ stored, job' = adopt job stored) jobs
      (registerJobs peers jobs w).1 := by
  induction jobs generalizing w with
  | nil => exact .nil
  | cons job rest ih => exact .cons ⟨_, rfl⟩ (ih _)

/-- After its registration a collector has the jobs that it had, apart from their
    identifiers. -/
theorem registered_register (c : Collector α) (peers : Peers α τ) (w : World τ) :
    Registered c (c.register peers w).1 :=
  ⟨rfl, rfl, rfl, adopted_registerJobs peers c.jobs w⟩

/-- Identifiers of definitions have no part in reports. -/
theorem Registered.exists_entryOf_eq {c c' : Collector α} (h : Registered c c') {job' : Job α}
    (hjob' : job' ∈ c'.jobs) : ∃ job ∈ c.jobs, c'.entryOf job' = c.entryOf job := by
  obtain ⟨job, hjob, stored, rfl⟩ : ∃ job ∈ c.jobs, ∃ stored, job' = adopt job stored := by
    obtain ⟨i, hi, rfl⟩ := List.getElem_of_mem hjob'
    have hi' : i < c.jobs.length := h.jobs.length_eq ▸ hi
    exact ⟨c.jobs[i], List.getElem_mem hi', h.jobs.get hi' hi⟩
  refine ⟨job, hjob, ?_⟩
  funext result now
  rw [entryOf, entryOf, h.applicationId, h.serverName]
  cases stored <;> rfl

end Registration

/-! ## All calls of a round -/

section Round

variable {l : Link} {p : Peers α τ} {c c' : Collector α} {names : List String}
  {w : World (τ × Server)}

/-- A probe that runs has nothing to do with the server. -/
theorem server_runJob (l : Link) (p : Peers α τ) (cancel : Cancel) (job : Job α)
    (w : World (τ × Server)) : (runJob (l.peers p) cancel job w).2.peers.2 = w.peers.2 := by
  rw [runJob]
  dsimp only
  split
  · split <;> rfl
  · split <;> rfl

/-- Running a job sends nothing to the server. -/
theorem holds_runJob (cancel : Cancel) (job : Job α) (h : c.Holds l names w) :
    c.Holds l names (runJob (l.peers p) cancel job w).2 := by
  refine h.of_eq (server_runJob l p cancel job w) ?_
  rw [World.traffic, events_runJob, World.traffic]

/-- A round keeps what links collector and server, from any of its jobs on. -/
theorem holds_collectFrom (hl : l.Delivers) (hc : c.Named)
    (hknown : ∀ job ∈ c.jobs, job.definition.name ∈ names) (cancel : Cancel) (report : Report)
    {jobs : List (Job α)} (hjobs : ∀ job' ∈ jobs, ∃ job ∈ c.jobs, c'.entryOf job' = c.entryOf job)
    (h : c.Holds l names w) :
    c.Holds l names (c'.collectFrom (l.peers p) cancel report jobs w).2 := by
  induction jobs generalizing report w with
  | nil => exact h
  | cons job' rest ih =>
      obtain ⟨⟨job, hjob, hentry⟩, hrest⟩ := List.forall_mem_cons.1 hjobs
      have hran := holds_runJob (p := p) cancel job' h
      rw [collectFrom]
      split
      · exact h
      · split
        · next after heq =>
            rw [heq] at hran
            exact hran
        · next result after heq =>
            rw [heq] at hran
            split
            · exact hran
            · exact ih _ hrest (holds_submit hl hc hjob hentry (hknown job hjob) result hran)

/-- A round of the collector that has registered. -/
theorem holds_collect (hl : l.Delivers) (hc : c.Named) (hregistered : Registered c c')
    (hknown : ∀ job ∈ c.jobs, job.definition.name ∈ names) (cancel : Cancel)
    (h : c.Holds l names w) : c.Holds l names (c'.collect (l.peers p) cancel w).2 :=
  holds_collectFrom hl hc hknown cancel {} (fun _ hjob' => hregistered.exists_entryOf_eq hjob') h

end Round

/-! ## Whole runs -/

/-- What a collector comes to: it runs rounds, which the stop may cut short or not, and
    between them anything may happen that is neither an exchange nor traffic. -/
inductive Reaches (c : Collector α) (peers : Peers α (τ × Server)) :
    World (τ × Server) → World (τ × Server) → Prop
  | refl (w) : Reaches c peers w w
  | round {w w'} (cancel : Cancel) : Reaches c peers w w' →
      Reaches c peers w (c.collect peers cancel w').2
  | pause {w w' w''} : Reaches c peers w w' → w''.peers.2 = w'.peers.2 →
      w''.traffic = w'.traffic → Reaches c peers w w''

/-- What links collector and server holds in everything that is reached. -/
theorem Reaches.holds {l : Link} {p : Peers α τ} {c c' : Collector α} {names : List String}
    {w w' : World (τ × Server)} (hreaches : Reaches c' (l.peers p) w w') (hl : l.Delivers)
    (hc : c.Named) (hregistered : Registered c c')
    (hknown : ∀ job ∈ c.jobs, job.definition.name ∈ names) (h : c.Holds l names w) :
    c.Holds l names w' := by
  induction hreaches with
  | refl => exact h
  | round cancel _ ih => exact holds_collect hl hc hregistered hknown cancel ih
  | pause _ hserver htraffic ih => exact ih.of_eq hserver htraffic

/-- A collector of accepted settings registers over a link that delivers every call at a
    server with an empty store, and then runs rounds.  The name of its host, if it has one,
    is not blank: names of hosts have letters, digits, hyphens and points only.  As long as
    the identifiers for new rows are fresh and bodies are not too long, the server accepts
    everything: each definition, and each report, which the view of its check shows then.
    So no failure is put on record. -/
theorem everything_sent_is_accepted {host : Option String}
    (hhost : ∀ name, host = some name → Text.isBlankText name = false) {text : String}
    {settings : Settings} (hsettings : Settings.fromJson host text = .ok settings)
    {registry : Registry α} {c : Collector α} (hc : ofSettings registry settings = .ok c)
    {l : Link} (hl : l.Delivers) (p : Peers α τ) {start : World (τ × Server)}
    (hserver : start.peers.2 = {}) (hstart : start.traffic = []) :
    let (c', registered) := c.register (l.peers p) start
    registered.traffic = registrations c.jobs
    ∧ ∀ w, Reaches c' (l.peers p) registered w → w.peers.2.Fits →
        List.Forall₂ (l.Accepts c) w.traffic w.peers.2.log := by
  have hnamed := named_of_settings (Settings.named_of_fromJson hhost hsettings) hc
  have hfirst : c.Holds l [] start := by
    intro _
    refine ⟨?_, ?_, fun name hname => nomatch hname⟩
    · exact hserver ▸ ⟨[], trivial, rfl⟩
    · rw [hserver, hstart]
      exact .nil
  refine ⟨?_, fun w hw hfits => ?_⟩
  · exact (traffic_registerJobs (l.peers p) c.jobs start).trans (by rw [hstart]; rfl)
  · have hregistered := holds_registerJobs (p := p) hl hnamed (fun _ hjob => hjob) hfirst
    refine (hw.holds hl hnamed (registered_register c (l.peers p) start) ?_ hregistered hfits).accepted
    intro job hjob
    rw [List.append_nil, List.mem_reverse]
    exact List.mem_map_of_mem hjob

namespace Sample

/-- A settings file with one check and without the name of the server. -/
def text : String :=
  "\x7b\"Health\": \x7b\"StorageApi\": \"http://localhost:8080/\", \"HealthChecks\": "
    ++ "[\x7b\"Type\": \"Memory\", \"Name\": \"memory\"\x7d]\x7d\x7d"

/-- The only probe finds little memory left. -/
def registry : Registry (Nat × ProbeResult) :=
  Registry.empty.register "memory" fun _ => .ok (5, .described .degraded "90 %")

/-- The collector of these settings on the host "alpha". -/
def monitor : Except SettingsFault (Collector (Nat × ProbeResult)) := do
  let settings ← Settings.fromJson (some "alpha") text
  ofSettings registry settings

/-- A link to a server that gets every call as it was sent. -/
def link : Link where
  reporter := ⟨"http://localhost:8080"⟩
  carry := Call.request
  moments := Api.Sample.moment

/-- The link of the sample brings every call as it was sent. -/
theorem delivers_link : link.Delivers := by
  have hurl : ∀ action ∈ ["RegisterHealthCheck", "AddHealthCheck"],
      (Url.parse? (link.reporter.endpoint action).toList).map (fun url => (decide url.IsWeb,
        Request.path { method := "POST", target := url.target, headers := [], body := [] }))
        = some (true, Api.path action) := by
    decide +kernel
  intro action haction v
  obtain ⟨url, hparse, heq⟩ := Option.map_eq_some_iff.1 (hurl action haction)
  obtain ⟨hweb, hpath⟩ := Prod.mk.inj heq
  refine ⟨⟨url, "POST", url.target, [("content-type", "application/json")], jsonBody v⟩, ?_,
    hpath, rfl, rfl, rfl⟩
  rw [Reporter.call, Call.to?, hparse]
  exact if_pos (of_decide_eq_true hweb)

/-- A run at its start, with a server that has had no exchange. -/
def fresh : World (Nat × Server) := { peers := (0, {}) }

/-- The collector registers and runs a round. -/
def firstRound (c : Collector (Nat × ProbeResult)) : World (Nat × Server) :=
  let (c, w) := c.register (link.peers (peers none)) fresh
  (c.tick (link.peers (peers none)) w).2

/-- Its two exchanges have fresh identifiers and short bodies. -/
theorem fits_firstRound : (monitor.toOption.map fun c => decide
    ((firstRound c).peers.2.log.length = 2 ∧ (firstRound c).peers.2.Fits)) = some true := by
  decide +kernel

end Sample

/-- The definition of the only check and its first report are accepted. -/
theorem first_report_is_accepted :
    ∃ settings c, Settings.fromJson (some "alpha") Sample.text = .ok settings
      ∧ ofSettings Sample.registry settings = .ok c
      ∧ (Sample.firstRound c).peers.2.log.length = 2
      ∧ List.Forall₂ (Sample.link.Accepts c) (Sample.firstRound c).traffic
        (Sample.firstRound c).peers.2.log := by
  have hround := Sample.fits_firstRound
  cases hmonitor : Sample.monitor with
  | error e =>
      rw [hmonitor] at hround
      exact nomatch hround
  | ok c =>
      rw [hmonitor] at hround
      obtain ⟨hlength, hfits⟩ := of_decide_eq_true (Option.some.inj hround)
      obtain ⟨settings, hsettings, hc⟩ := Json.bind_eq_ok hmonitor
      have hhost : ∀ name, some "alpha" = some name → Text.isBlankText name = false := by
        rintro name ⟨⟩
        decide +kernel
      obtain ⟨-, haccepted⟩ := everything_sent_is_accepted hhost hsettings hc Sample.delivers_link
        (Sample.peers none) (rfl : Sample.fresh.peers.2 = {}) rfl
      exact ⟨settings, c, hsettings, hc, hlength, haccepted _ (.round .byStop (.refl _)) hfits⟩

end Collector

end HealthWatch
