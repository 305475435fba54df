import HealthWatch.Proofs.Http.Client
import HealthWatch.Proofs.Json.Decode
import HealthWatch.Proofs.Probe.Policy

/-! # Web endpoints — all are tried, and what they answer is judged together

    Every endpoint is tried once and in its place, whatever became of those before it.
    Peers may answer each call differently, also calls to one address, so the `n`th
    endpoint has a network of its own here.

    * `Tries` says what trying an endpoint is: at most one call, and what is heard of it;
    * `Verdict` says what the attempts come to, and `status_judge` that this hangs on which
      kinds of answers there are and not on their order;
    * `endpoints_judged_together` puts the endpoints of a check together. -/

namespace HealthWatch.Rest

open Http Json

/-! ## Endpoints of a check -/

/-- An endpoint as it stands in the settings. -/
structure Endpoint where
  host : String
  service : Option String

/-- The address of an endpoint: its host with its service behind it. -/
def Endpoint.url (e : Endpoint) : String :=
  e.host ++ e.service.getD ""

/-- An endpoint in JSON. -/
def Endpoint.encode (e : Endpoint) : Json :=
  .object (("Host", .text e.host) :: member? "Service" .text e.service)

/-- The options of a check of these endpoints. -/
def encodeOptions (endpoints : List Endpoint) : Json :=
  .object [("Hosts", .array (endpoints.map Endpoint.encode))]

/-- An endpoint is read back from the settings as its address. -/
theorem endpoint_encode (e : Endpoint) : Options.endpoint (.ofJson e.encode) = .ok e.url := by
  obtain ⟨host, service⟩ := e
  cases service with
  | none => rfl
  | some service => rfl

/-- So are all endpoints, in their order. -/
theorem endpoints_encodeOptions (endpoints : List Endpoint) :
    Options.endpoints (.ofJson (encodeOptions endpoints)) = .ok (endpoints.map Endpoint.url) := by
  have hitems : Decode.list Options.endpoint (.ofJson (.array (endpoints.map Endpoint.encode)))
      = .ok (endpoints.map Endpoint.url) := items_ofItems endpoint_encode 0 endpoints
  -- the only member is that of the endpoints
  have hmember : Decode.members (Options.only "Hosts" (Decode.list Options.endpoint)) .closed none
      (Document.ofMembers [("Hosts", .array (endpoints.map Endpoint.encode))])
      = .ok (some (endpoints.map Endpoint.url)) := by
    rw [Document.ofMembers, Decode.members, Options.only, if_pos rfl, Decode.once, hitems]
    rfl
  show (Decode.members _ _ _ _ >>= fun hosts : Option (List String) => pure (hosts.getD [])) = _
  rw [hmember]
  rfl

/-! ## Trying an endpoint -/

/-- The call that goes out to an endpoint, if any does, and what becomes of it. -/
structure Try where
  sent : Option Call
  attempt : Attempt

/-- Tries an endpoint. -/
def tryOnce (network : Network) (url : String) : Try :=
  match call url with
  | .ok c => ⟨some c, url, c.send network⟩
  | .error e => ⟨none, url, .error e⟩

/-- Tries endpoints in their order; `peers n` answers what the one behind `n` others is asked. -/
def tryEach (peers : Nat → Network) (urls : List String) : List Try :=
  urls.mapIdx fun n url => tryOnce (peers n) url

/-- Checks endpoints whose peers may answer each call differently. -/
def checkEach (peers : Nat → Network) (ctx : ProbeContext) (urls : List String) : ProbeResult :=
  judge ctx ((tryEach peers urls).map Try.attempt)

/-- The request for what stands at an address. -/
def getRequest (u : Url) : Request where
  method := "GET"
  target := u.target
  headers := [("accept", "application/json")]
  body := []

/-- A call that gets what stands at an address. -/
structure Gets (url : String) (c : Call) : Prop where
  parsed : Url.parse? url.toList = some c.url
  web : c.url.IsWeb
  request : c.request = getRequest c.url

/-- The call for an endpoint is the one that gets what stands there. -/
theorem call_eq_ok_iff {url : String} {c : Call} : call url = .ok c ↔ Gets url c := by
  rw [call, Call.to?_eq_ok_iff]
  exact ⟨fun ⟨hparse, hweb, hrequest⟩ => ⟨hparse, hweb, hrequest⟩,
    fun h => ⟨h.parsed, h.web, h.request⟩⟩

/-- Trying an endpoint sends its call, if its text is an address, and brings the answer to this
    call and nothing else. -/
structure Tries (network : Network) (url : String) (t : Try) : Prop where
  endpoint : t.attempt.endpoint = url
  sent : ∀ c, t.sent = some c ↔ Gets url c
  heard : t.attempt.outcome.toOption = t.sent.bind network

/-- Trying an endpoint sends at most its call. -/
theorem tries_tryOnce (network : Network) (url : String) :
    Tries network url (tryOnce network url) := by
  have hsent := fun c => @call_eq_ok_iff url c
  cases hcall : call url with
  | error e =>
      have htry : tryOnce network url = ⟨none, url, .error e⟩ := by rw [tryOnce, hcall]
      rw [htry]
      refine ⟨rfl, fun c => ?_, rfl⟩
      rw [← hsent, hcall]
      exact iff_of_false (fun h => nomatch h) fun h => nomatch h
  | ok c =>
      have htry : tryOnce network url = ⟨some c, url, c.send network⟩ := by rw [tryOnce, hcall]
      rw [htry]
      refine ⟨rfl, fun d => ?_, ?_⟩
      · rw [← hsent, hcall, Option.some.injEq, Except.ok.injEq]
      · exact c.toOption_send network

/-- What is heard does not depend on whether the call is kept. -/
theorem attempt_tryOnce (network : Network) (url : String) :
    (tryOnce network url).attempt = attempt network url := by
  rw [tryOnce, attempt]
  cases call url <;> rfl

/-! ## What attempts come to -/

/-- The words about an attempt. -/
def Attempt.message (a : Attempt) : String :=
  match a.outcome with
  | .ok response => statusMessage a.endpoint response.status
  | .error e => "rest api " ++ a.endpoint ++ " is unreachable: " ++ e.message

instance (a : Attempt) : Decidable a.Reachable :=
  decidable_of_iff _ a.failure?_eq_none_iff

instance (a : Attempt) : Decidable a.Unauthorized :=
  decidable_of_iff (¬ a.finding.warning? = none) (by rw [a.warning?_eq_none_iff, not_not])

/-- The words of a finding are those about its attempt. -/
theorem Attempt.eq_message {a : Attempt} {m : String}
    (h : a.finding = .failure m ∨ a.finding = .warning m) : m = a.message := by
  obtain ⟨endpoint, outcome⟩ := a
  cases outcome with
  | error e =>
      rcases h with h | h
      · cases h
        rfl
      · cases h
  | ok response =>
      rw [finding] at h
      dsimp only at h
      split at h
      · rcases h with h | h <;> cases h
      · split at h
        · next h401 =>
            rcases h with h | h <;> cases h
            show statusMessage endpoint 401 = statusMessage endpoint response.status
            rw [h401]
        · rcases h with h | h <;> cases h
          rfl

/-- What did not reach its endpoint is told as a failure. -/
theorem Attempt.failure?_eq (a : Attempt) :
    a.finding.failure? = if ¬ a.Reachable then some a.message else none := by
  rcases a.finding_cases with ⟨h, hr, -⟩ | ⟨m, -, h, hr, -⟩ | ⟨m, -, h, hr⟩
  · rw [h, if_neg (not_not_intro hr)]
    rfl
  · rw [h, if_neg (not_not_intro hr)]
    rfl
  · rw [h, if_pos hr, ← Attempt.eq_message (Or.inl h)]
    rfl

/-- What needs credentials is told as a warning. -/
theorem Attempt.warning?_eq (a : Attempt) :
    a.finding.warning? = if a.Unauthorized then some a.message else none := by
  rcases a.finding_cases with ⟨h, -, hu⟩ | ⟨m, -, h, -, hu⟩ | ⟨m, -, h, hr⟩
  · rw [h, if_neg hu]
    rfl
  · rw [h, if_pos hu, ← Attempt.eq_message (Or.inr h)]
    rfl
  · have hu : ¬ a.Unauthorized := fun ⟨response, ho, h401⟩ => hr ⟨response, ho, Or.inr h401⟩
    rw [h, if_neg hu]
    rfl

section Messages

variable {message? : Finding → Option String} {p : Attempt → Prop} [DecidablePred p]
  (h : ∀ a, message? a.finding = if p a then some a.message else none) (attempts : List Attempt)
include h

/-- Messages of one kind are those of the attempts of this kind, in their order. -/
theorem messages_eq : (attempts.map Attempt.finding).filterMap message?
    = (attempts.filter fun a => p a).map Attempt.message := by
  induction attempts with
  | nil => rfl
  | cons a rest ih =>
      rw [List.map_cons]
      by_cases ha : p a
      · rw [List.filterMap_cons_some ((h a).trans (if_pos ha)),
          List.filter_cons_of_pos (by simpa using ha), List.map_cons, ih]
      · rw [List.filterMap_cons_none ((h a).trans (if_neg ha)),
          List.filter_cons_of_neg (by simpa using ha), ih]

/-- There are no messages when there is nothing to tell. -/
theorem messages_eq_nil_iff :
    (attempts.map Attempt.finding).filterMap message? = [] ↔ ∀ a ∈ attempts, ¬ p a := by
  rw [messages_eq h]
  simp

end Messages

/-- What a check says of its attempts: failures hide warnings, and each message stands for one
    attempt, in their order. -/
inductive Verdict (ctx : ProbeContext) (attempts : List Attempt) : ProbeResult → Prop
  | failed (h : ∃ a ∈ attempts, ¬ a.Reachable) :
      Verdict ctx attempts (.described ctx.failureStatus
        (";".intercalate ((attempts.filter fun a => ¬ a.Reachable).map Attempt.message)))
  | warned (h : ∀ a ∈ attempts, a.Reachable) (hwarned : ∃ a ∈ attempts, a.Unauthorized) :
      Verdict ctx attempts (.described .degraded
        (";".intercalate ((attempts.filter fun a => a.Unauthorized).map Attempt.message)))
  | fine (h : ∀ a ∈ attempts, a.Reachable) (hwarned : ∀ a ∈ attempts, ¬ a.Unauthorized) :
      Verdict ctx attempts .healthy

/-- What the check makes of its attempts is their verdict. -/
theorem verdict_judge (ctx : ProbeContext) (attempts : List Attempt) :
    Verdict ctx attempts (judge ctx attempts) := by
  have hfailures := messages_eq Attempt.failure?_eq attempts
  have hwarnings := messages_eq Attempt.warning?_eq attempts
  have hreachable := messages_eq_nil_iff Attempt.failure?_eq attempts
  have hunwarned := messages_eq_nil_iff Attempt.warning?_eq attempts
  simp only [not_not] at hreachable
  rw [judge]
  cases hf : (attempts.map Attempt.finding).filterMap Finding.failure? with
  | cons m rest =>
      have hfailed : ∃ a ∈ attempts, ¬ a.Reachable := by
        by_contra hnone
        have hall : ∀ a ∈ attempts, a.Reachable := by simpa using hnone
        cases (hreachable.2 hall).symm.trans hf
      have hverdict : Verdict ctx attempts _ := .failed hfailed
      rw [← hfailures, hf] at hverdict
      exact hverdict
  | nil =>
      have hall := hreachable.1 hf
      cases hw : (attempts.map Attempt.finding).filterMap Finding.warning? with
      | cons m rest =>
          have hwarned : ∃ a ∈ attempts, a.Unauthorized := by
            by_contra hnone
            have hfine : ∀ a ∈ attempts, ¬ a.Unauthorized := by simpa using hnone
            cases (hunwarned.2 hfine).symm.trans hw
          have hverdict : Verdict ctx attempts _ := .warned hall hwarned
          rw [← hwarnings, hw] at hverdict
          exact hverdict
      | nil => exact .fine hall (hunwarned.1 hw)

/-- The status of a check hangs on which kinds of answers there are among its attempts. -/
theorem Verdict.status_eq {ctx : ProbeContext} {attempts : List Attempt} {r : ProbeResult}
    (h : Verdict ctx attempts r) :
    r.status = if ∃ a ∈ attempts, ¬ a.Reachable then ctx.failureStatus
      else if ∃ a ∈ attempts, a.Unauthorized then .degraded else .healthy := by
  cases h with
  | failed h => exact (if_pos h).symm
  | warned h hwarned =>
      have hnone : ¬ ∃ a ∈ attempts, ¬ a.Reachable := by simpa using h
      rw [if_neg hnone, if_pos hwarned]
      rfl
  | fine h hwarned =>
      have hnone : ¬ ∃ a ∈ attempts, ¬ a.Reachable := by simpa using h
      have hnone' : ¬ ∃ a ∈ attempts, a.Unauthorized := by simpa using hwarned
      rw [if_neg hnone, if_neg hnone']
      rfl

/-- The order of attempts makes no difference to the status. -/
theorem status_judge_perm {ctx : ProbeContext} {attempts others : List Attempt}
    (h : attempts.Perm others) : (judge ctx attempts).status = (judge ctx others).status := by
  rw [(verdict_judge ctx attempts).status_eq, (verdict_judge ctx others).status_eq]
  simp only [h.mem_iff]

/-! ## Checks -/

/-- With one network for all calls, the attempts are those of the probe. -/
theorem map_attempt_tryEach (network : Network) (urls : List String) :
    (tryEach (fun _ => network) urls).map Try.attempt = urls.map (attempt network) := by
  refine List.ext_getElem? fun n => ?_
  rw [tryEach, List.getElem?_map, List.getElem?_map, List.getElem?_mapIdx, Option.map_map]
  exact congrArg (Option.map · urls[n]?) (funext fun url => attempt_tryOnce network url)

/-- Every endpoint of a check is tried once, in its place, with a call for its host and its
    service taken together; all of them are judged together, and the order in which the same
    attempts are made makes no difference to the status.  With a network that answers equal
    calls alike this is what the probe does.  An endpoint that is no address for `Url.parse?`,
    as one with a host beyond ASCII, is tried without a call. -/
theorem endpoints_judged_together (endpoints : List Endpoint) (peers : Nat → Network)
    (ctx : ProbeContext) (network : Network) :
    let urls := endpoints.map Endpoint.url
    let attempts := (tryEach peers urls).map Try.attempt
    Options.endpoints (.ofJson (encodeOptions endpoints)) = .ok urls
      ∧ (tryEach peers urls).length = endpoints.length
      ∧ (∀ n t, (tryEach peers urls)[n]? = some t →
          ∃ e, endpoints[n]? = some e ∧ Tries (peers n) e.url t)
      ∧ Verdict ctx attempts (checkEach peers ctx urls)
      ∧ (∀ peers' urls', ((tryEach peers' urls').map Try.attempt).Perm attempts →
          (checkEach peers' ctx urls').status = (checkEach peers ctx urls).status)
      ∧ checkEach (fun _ => network) ctx urls = check network ctx urls := by
  refine ⟨endpoints_encodeOptions endpoints, by simp [tryEach], ?_, verdict_judge ctx _,
    fun peers' urls' h => status_judge_perm h, ?_⟩
  · intro n t ht
    rw [tryEach, List.getElem?_mapIdx, List.getElem?_map, Option.map_map] at ht
    obtain ⟨e, he, rfl⟩ := Option.map_eq_some_iff.1 ht
    exact ⟨e, he, tries_tryOnce (peers n) e.url⟩
  · rw [checkEach, map_attempt_tryEach]
    rfl

end HealthWatch.Rest
