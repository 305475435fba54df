import HealthWatch.Proofs.Http.Client
import HealthWatch.Proofs.Http.Url
import HealthWatch.Proofs.Probe.Disk
import HealthWatch.Proofs.Probe.Negotiation

/-! # Message hubs — one call, and an answer that has to be a welcome

    A check asks a hub once how to connect.  The address of this call is made of the text
    of the hub, so it is an address as well, on the same server.  Whatever comes back, or
    fails to, is told under the status for trouble, unless it is a welcome.

    * `exists_call` gives the call, and `course` the calls of a whole check;
    * `Says` is what an answer has to be to count, `Welcomes` what is healthy in it;
    * `Verdict` lists what can be answered and what is told of it;
    * `hub_is_asked_once` puts them together. -/

namespace HealthWatch.Hub

open Http Json

/-! ## Asking -/

/-- The text of a hub on a server of the web, whose host is one for `Url.parse?`: in ASCII.
    Blanks behind it would be no part of its address, but they would be one in the middle of a
    longer text. -/
structure IsHub (url : String) (u : Url) : Prop where
  parsed : Url.parse? url.toList = some u
  scheme : u.scheme = "http".toList
  endsSolid : Url.EndsSolid url.toList

/-- The text of a hub is its address with slashes behind it. -/
structure Trims (url address : String) : Prop where
  slashes : ∃ n, url.toList = address.toList ++ List.replicate n '/'
  last : address.toList.getLast? ≠ some '/'

theorem toList_address (url : String) : (address url).toList = Disk.bare url.toList := by
  rw [address, String.toList_ofList]
  rfl

/-- The address of a hub is its text without the slashes at its end. -/
theorem trims_address (url : String) : Trims url (address url) where
  slashes := by
    rw [toList_address]
    exact Disk.exists_slashes url.toList
  last := by
    rw [toList_address, Disk.bare]
    intro h
    have hne : url.toList.rdropWhile (· == '/') ≠ [] := by
      rintro hnil
      rw [hnil] at h
      cases h
    rw [List.getLast?_eq_some_getLast hne, Option.some.injEq] at h
    exact List.rdropWhile_last_not _ _ hne (by simp [h])

/-- The call that asks a hub: with nothing in it, for a place on the server of the hub. -/
structure Asks (url : String) (u : Url) (c : Call) : Prop where
  parsed : Url.parse? (address url ++ "/negotiate?negotiateVersion=1").toList = some c.url
  scheme : c.url.scheme = u.scheme
  host : c.url.host = u.host
  port : c.url.port = u.port
  request : c.request
    = { method := "POST", target := c.url.target, headers := [], body := [] }

/-- Slashes may stand behind an authority. -/
theorem tail_slashes (n : Nat) : Url.Tail (List.replicate n '/') where
  start := by
    cases n with
    | zero => exact Or.inl rfl
    | succ n => exact Or.inr ⟨'/', List.replicate n '/', rfl, rfl⟩
  solid c hc := by
    rw [List.eq_of_mem_replicate hc]
    rfl
  noColon h := absurd (List.eq_of_mem_replicate h) (by decide)

/-- So may the path and the query that ask a hub. -/
theorem tail_negotiate : Url.Tail "/negotiate?negotiateVersion=1".toList where
  start := Or.inr ⟨'/', _, rfl, rfl⟩
  solid c hc := by
    have hall : "/negotiate?negotiateVersion=1".toList.all (fun c => !Url.isPad c) = true := by
      decide +kernel
    simpa using List.all_eq_true.1 hall c hc
  noColon := by decide +kernel

/-- A hub can be asked. -/
theorem exists_call {url : String} {u : Url} (h : IsHub url u) :
    ∃ c, call (address url) = .ok c ∧ Asks url u c := by
  obtain ⟨n, hslashes⟩ := (trims_address url).slashes
  have hparsed := h.parsed
  have hends := h.endsSolid
  rw [hslashes] at hparsed hends
  have hweb : (Url.standardPort? u.scheme).isSome := by
    rw [h.scheme]
    decide
  have hends' : Url.EndsSolid ((address url).toList ++ "/negotiate?negotiateVersion=1".toList) := by
    intro c hc
    rw [List.getLast?_append] at hc
    cases hc
    rfl
  obtain ⟨v, hv, hscheme, hhost, hport, hsome⟩ := Url.parse?_append hparsed hweb (tail_slashes n)
    (fun c hc => by rw [List.eq_of_mem_replicate hc]; rfl) hends tail_negotiate hends'
  rw [← String.toList_append] at hv
  let c : Call := ⟨v, "POST", v.target, [], []⟩
  have hcall : v.IsWeb := ⟨hsome, by rw [hscheme, h.scheme]; decide⟩
  exact ⟨c, Call.to?_eq_ok_iff.2 ⟨hv, hcall, rfl⟩, hv, hscheme, hhost, hport, rfl⟩

/-- The calls that go out in a check, and what it comes to. -/
structure Course where
  sent : List Call
  result : ProbeResult

/-- Checks a hub, keeping the calls. -/
def course (network : Network) (ctx : ProbeContext) (url : String) : Course :=
  match call (address url) with
  | .ok c => ⟨[c], judge ctx (address url) (c.send network)⟩
  | .error e => ⟨[], judge ctx (address url) (.error e)⟩

/-- The result of the check does not depend on whether its calls are kept. -/
theorem result_course (network : Network) (ctx : ProbeContext) (url : String) :
    (course network ctx url).result = check network ctx url := by
  rw [course, check]
  cases call (address url) <;> rfl

/-! ## Answers -/

/-- An answer says how to connect. -/
structure Says (response : Response) (n : Negotiation) : Prop where
  success : 200 ≤ response.status ∧ response.status < 300
  body : ∃ d, treeOf? response.body = some d ∧ Reads d n

/-- A connection has a name, or is to be made elsewhere. -/
def Negotiation.Leads (n : Negotiation) : Prop :=
  n.connectionId ≠ none ∨ n.connectionToken ≠ none ∨ n.url ≠ none

/-- An answer that welcomes a client. -/
def Welcomes (answer : Option Response) : Prop :=
  ∃ response n, answer = some response ∧ Says response n ∧ n.error = none ∧ n.Leads

/-- What is told of the answer to a call, or of none. -/
inductive Verdict (ctx : ProbeContext) (hub : String) (c : Call) :
    Option Response → ProbeResult → Prop
  | unanswered : Verdict ctx hub c none (.failed ctx.failureStatus
      (.http ("error sending request for url (" ++ c.url.toText ++ ")")))
  | failed {response : Response} (h : ¬ (200 ≤ response.status ∧ response.status < 300)) :
      Verdict ctx hub c (some response) (.failed ctx.failureStatus
        (.protocol ("hub " ++ hub ++ " returns status code " ++ statusText response.status)))
  | undecodable {response : Response} (h : 200 ≤ response.status ∧ response.status < 300)
      (hbody : ∀ n, ¬ Says response n) :
      Verdict ctx hub c (some response)
        (.failed ctx.failureStatus (.http "error decoding response body"))
  | refused {response : Response} {n : Negotiation} {reason : String} (h : Says response n)
      (herror : n.error = some reason) :
      Verdict ctx hub c (some response) (.described ctx.failureStatus
        ("hub " ++ hub ++ " refused connection: " ++ reason))
  | unexpected {response : Response} {n : Negotiation} (h : Says response n)
      (herror : n.error = none) (hnowhere : ¬ n.Leads) :
      Verdict ctx hub c (some response) (.described ctx.failureStatus
        ("hub " ++ hub ++ " returned an unexpected negotiate response"))
  | welcome {response : Response} {n : Negotiation} (h : Says response n)
      (herror : n.error = none) (hleads : n.Leads) :
      Verdict ctx hub c (some response) .healthy

/-- An answer says something when it is a success with a body that decodes. -/
theorem says_iff {response : Response} {n : Negotiation} : Says response n ↔
    isSuccess response.status = true ∧
      Decode.body Negotiation.decode response.body = .ok n := by
  rw [body_eq_ok_iff, isSuccess, Bool.and_eq_true, decide_eq_true_iff, decide_eq_true_iff]
  simp only [decode_eq_ok_iff]
  exact ⟨fun h => ⟨h.success, h.body⟩, fun h => ⟨h.1, h.2⟩⟩

/-- An answer says one thing. -/
theorem Says.unique {response : Response} {n n' : Negotiation} (h : Says response n)
    (h' : Says response n') : n = n' :=
  Except.ok.inj ((says_iff.1 h).2.symm.trans (says_iff.1 h').2)

/-- An answer leads on when one of three members has a text. -/
theorem leads_iff {n : Negotiation} : n.Leads
    ↔ (n.connectionId.isSome || n.connectionToken.isSome || n.url.isSome) = true := by
  simp [Negotiation.Leads, Option.isSome_iff_ne_none, or_assoc]

/-- What a negotiation comes to when there is no trouble before it. -/
theorem verdict_of_says (ctx : ProbeContext) (hub : String) (c : Call) {response : Response}
    {n : Negotiation} (h : Says response n)
    (hread : negotiation hub (.ok response) = .ok n) :
    Verdict ctx hub c (some response) (judge ctx hub (.ok response)) := by
  rw [judge, hread]
  cases herror : n.error with
  | some reason =>
      simp only [herror]
      exact .refused h herror
  | none =>
      simp only [herror]
      split
      · next hleads => exact .welcome h herror (leads_iff.2 hleads)
      · next hnowhere => exact .unexpected h herror fun hleads => hnowhere (leads_iff.1 hleads)

/-- What the check makes of an answer is its verdict. -/
theorem verdict_judge (ctx : ProbeContext) (hub : String) (c : Call) (network : Network) :
    Verdict ctx hub c (network c) (judge ctx hub (c.send network)) := by
  rw [Call.send]
  cases network c with
  | none => exact .unanswered
  | some response =>
      dsimp only
      by_cases hsuccess : isSuccess response.status = true
      · have hstatus : 200 ≤ response.status ∧ response.status < 300 := by
          simpa [isSuccess] using hsuccess
        have hread : negotiation hub (.ok response)
            = (response.decode Negotiation.decode).mapError fun e => .http e.message := by
          rw [negotiation, hsuccess]
          rfl
        rcases response.decode_cases Negotiation.decode with ⟨n, hbody, hdecode⟩ | ⟨hbody, hdecode⟩
        · rw [hdecode] at hread
          exact verdict_of_says ctx hub c (says_iff.2 ⟨hsuccess, hbody⟩) hread
        · rw [hdecode] at hread
          rw [judge, hread]
          exact .undecodable hstatus fun n hn => hbody n (says_iff.1 hn).2
      · have hread : negotiation hub (.ok response) = .error (.protocol
            ("hub " ++ hub ++ " returns status code " ++ statusText response.status)) := by
          rw [negotiation, Bool.eq_false_iff.2 hsuccess]
          rfl
        rw [judge, hread]
        exact .failed fun hstatus => hsuccess (by simpa [isSuccess] using hstatus)

section Verdict

variable {ctx : ProbeContext} {hub : String} {c : Call} {answer : Option Response} {r : ProbeResult}

/-- Only a welcome is healthy with nothing said about it. -/
theorem Verdict.eq_healthy_iff (h : Verdict ctx hub c answer r) :
    r = .healthy ↔ Welcomes answer := by
  constructor
  · intro hr
    cases h with
    | welcome h herror hleads => exact ⟨_, _, rfl, h, herror, hleads⟩
    | refused => cases congrArg ProbeResult.description hr
    | unexpected => cases congrArg ProbeResult.description hr
    | _ => cases congrArg ProbeResult.error hr
  · rintro ⟨response, n, rfl, hn, hnone, hn_leads⟩
    cases h with
    | failed h => exact absurd hn.success h
    | undecodable _ hbody => exact absurd hn (hbody n)
    | refused h herror =>
        rw [h.unique hn, hnone] at herror
        cases herror
    | unexpected h _ hnowhere => exact absurd (h.unique hn ▸ hn_leads) hnowhere
    | welcome => rfl

/-- All else is told under the status for trouble. -/
theorem Verdict.status_of_not_welcomes (h : Verdict ctx hub c answer r)
    (hnot : ¬ Welcomes answer) : r.status = ctx.failureStatus := by
  cases h with
  | welcome h herror hleads => exact absurd ⟨_, _, rfl, h, herror, hleads⟩ hnot
  | _ => rfl

end Verdict

/-! ## Checks -/

/-- A check of a hub makes one call, the same for every network, and hangs on nothing but the
    answer to it.  It is healthy with nothing said about it exactly when the answer is a
    welcome; everything else has the status for trouble, with the words or the error that the
    answer calls for. -/
theorem hub_is_asked_once {url : String} {u : Url} (h : IsHub url u) :
    Trims url (address url) ∧
    ∃ c, Asks url u c ∧ ∀ (network : Network) (ctx : ProbeContext),
      (course network ctx url).sent = [c] ∧
      (course network ctx url).result = check network ctx url ∧
      (∀ other : Network, other c = network c → check other ctx url = check network ctx url) ∧
      Verdict ctx (address url) c (network c) (check network ctx url) ∧
      (check network ctx url = .healthy ↔ Welcomes (network c)) ∧
      (¬ Welcomes (network c) → (check network ctx url).status = ctx.failureStatus) ∧
      (ctx.failureStatus ≠ .healthy →
        ((check network ctx url).status = .healthy ↔ Welcomes (network c))) := by
  obtain ⟨c, hcall, hasks⟩ := exists_call h
  refine ⟨trims_address url, c, hasks, fun network ctx => ?_⟩
  have hcheck : ∀ network, check network ctx url = judge ctx (address url) (c.send network) := by
    intro network
    rw [check, hcall]
    rfl
  have hverdict : Verdict ctx (address url) c (network c) (check network ctx url) := by
    rw [hcheck]
    exact verdict_judge ctx (address url) c network
  have hstatus := hverdict.status_of_not_welcomes
  refine ⟨?_, result_course network ctx url, fun other hother => ?_, hverdict,
    hverdict.eq_healthy_iff, hstatus, fun hfailure => ⟨fun hs => ?_, fun hw => ?_⟩⟩
  · rw [course, hcall]
  · rw [hcheck, hcheck, Call.send, Call.send, hother]
  · by_contra hnot
    exact hfailure ((hstatus hnot).symm.trans hs)
  · rw [hverdict.eq_healthy_iff.2 hw]
    rfl

/-- A refusal is a refusal although the answer names a connection. -/
theorem refusal_with_connection :
    let url := "http://hub.example:5000/status//"
    let u : Url :=
      ⟨"http".toList, some "hub.example".toList, some 5000, "/status//".toList, none, none⟩
    let answer : Response := .json 200 (.object [
      ("connectionId", .text "abc"), ("availableTransports", .array []),
      ("error", .text "closing")])
    IsHub url u ∧
    ∃ c, Asks url u c ∧ (course (fun _ => some answer) {} url).sent = [c] ∧
      ¬ Welcomes (some answer) ∧
      check (fun _ => some answer) {} url = .described .unhealthy
        "hub http://hub.example:5000/status refused connection: closing" := by
  intro url u answer
  have hub : IsHub url u := by
    refine ⟨by decide +kernel, rfl, fun c hc => ?_⟩
    have hlast : url.toList.getLast? = some '/' := by decide +kernel
    cases hlast.symm.trans hc
    rfl
  have hresult : check (fun _ => some answer) {} url = .described .unhealthy
      "hub http://hub.example:5000/status refused connection: closing" := by decide +kernel
  obtain ⟨-, c, hasks, hall⟩ := hub_is_asked_once hub
  obtain ⟨hsent, -, -, -, hhealthy, -⟩ := hall (fun _ => some answer) {}
  refine ⟨hub, c, hasks, hsent, fun hw => ?_, hresult⟩
  cases hresult.symm.trans (hhealthy.2 hw)

end HealthWatch.Hub
