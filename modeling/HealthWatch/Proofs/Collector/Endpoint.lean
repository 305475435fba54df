import HealthWatch.Collector.Endpoint
import HealthWatch.Proofs.Http.Router
import HealthWatch.Proofs.Json.Octets
import HealthWatch.Proofs.Report

/-! # The local endpoint — the latest report, and nothing of those before

    Reports are published and requests come in, in any order.  No request changes what the
    next one finds, and a report takes the place of the one before.

    * `after_eq`: what is left of all that happened is the last publication;
    * `Shows` says what an answer tells of a publication, and `shows_report` that it does;
    * `last_publication_is_shown` puts both together. -/

namespace HealthWatch.Endpoint

open Http Json

/-! ## What happens to the endpoint -/

/-- A report that is published: results in the order in which they were put in. -/
structure Publication where
  results : List (String × ProbeResult)
  duration : Duration

/-- The report of a publication. -/
def Publication.report (p : Publication) : Report :=
  .ofList p.results p.duration

/-- The result that counts under a name. -/
def Publication.last? (p : Publication) (name : String) : Option ProbeResult :=
  Report.last? p.results name

/-- A report is published, or a request comes in. -/
inductive Turn where
  | published (p : Publication)
  | asked (request : Request)

/-- What a turn leaves. -/
def Turn.leave (latest : Option Report) : Turn → Option Report
  | published p => some p.report
  | asked request => (answer request latest).2

/-- What is left after turns. -/
def after (turns : List Turn) : Option Report :=
  turns.foldl Turn.leave none

/-- The publication of a turn. -/
def Turn.publication? : Turn → Option Publication
  | published p => some p
  | asked _ => none

/-- The last publication among turns. -/
def lastOf (turns : List Turn) : Option Publication :=
  turns.reverse.findSome? Turn.publication?

/-- A request leaves the latest report as it was. -/
theorem answer_snd (request : Request) (latest : Option Report) :
    (answer request latest).2 = latest := by
  rcases Router.answer_cases routes request latest with ⟨-, h⟩ | ⟨route, hroute, -, h⟩
  · exact h
  · obtain rfl := List.mem_singleton.1 hroute.mem
    exact h

/-- The last turn acts on what those before it left. -/
theorem after_concat (turns : List Turn) (t : Turn) :
    after (turns ++ [t]) = t.leave (after turns) := by
  rw [after, List.foldl_append]
  rfl

/-- Nothing is left but the last publication. -/
theorem after_eq (turns : List Turn) : after turns = (lastOf turns).map Publication.report := by
  induction turns using List.reverseRecOn with
  | nil => rfl
  | append_singleton turns t ih =>
      rw [after_concat, lastOf, List.reverse_append, List.reverse_singleton, List.singleton_append,
        List.findSome?_cons]
      cases t with
      | published p => rfl
      | asked request => rw [Turn.leave, answer_snd, ih]; rfl

/-! ## What an answer shows -/

/-- A request for the latest report. -/
structure Asks (request : Request) : Prop where
  path : request.path = "/health"
  method : request.method = "GET"

/-- A request for the latest report gets it, with the code that goes with it. -/
theorem answer_of_asks {request : Request} (h : Asks request) (latest : Option Report) :
    (answer request latest).1 = .json (statusCode latest) (Wire.encodeReport latest) := by
  have hpath : Router.ofPath routes request.path = [⟨"/health", "GET", Endpoint.latest⟩] := by
    rw [h.path]
    rfl
  have hmethod : request.method
      ∈ Route.methods (⟨"/health", "GET", Endpoint.latest⟩ : Route (Option Report)) := by
    rw [h.method]
    exact List.mem_cons_self
  rw [answer, Router.answer_of_answers hpath hmethod, Request.sent, h.method, if_neg (by decide)]
  rfl

/-- What an answer shows of a publication, with its status and its entries. -/
structure Shows (p : Publication) (response : Response) (worst : Status)
    (entries : List (String × Json)) : Prop where
  /-- The body is read back as one object. -/
  body : treeOf? response.body = some (.ofJson (.object [
    ("entries", .object entries),
    ("status", .text worst.name),
    ("totalDuration", .ofChars (TimeSpan.format p.duration))]))
  names : ∀ name, name ∈ entries.map Prod.fst ↔ name ∈ p.results.map Prod.fst
  distinct : (entries.map Prod.fst).Nodup
  /-- Under a name stands the last result of that name. -/
  entry : ∀ name shown, (name, shown) ∈ entries ↔ ∃ r, p.last? name = some r ∧
    shown = .object [
      ("description", .ofOption .text r.summary),
      ("duration", .ofChars (TimeSpan.format r.duration)),
      ("status", .text r.status.name)]
  worst : Status.IsWorst (fun s => ∃ name r, p.last? name = some r ∧ r.status = s) worst

theorem numberFree_ofOption_text (s : Option String) : NumberFree (.ofOption .text s) := by
  cases s with
  | none => exact .null
  | some text => exact .text text

theorem numberFree_encodeResult (r : ProbeResult) : NumberFree (Wire.encodeResult r) := by
  refine .object fun member h => ?_
  simp only [List.mem_cons, List.not_mem_nil, or_false] at h
  rcases h with rfl | rfl | rfl
  · exact numberFree_ofOption_text r.summary
  · exact .text _
  · exact .text _

theorem numberFree_encodeResults (r : Report) : NumberFree (Wire.encodeResults r) := by
  refine .object fun member h => ?_
  obtain ⟨⟨name, result⟩, -, rfl⟩ := List.mem_map.1 h
  exact numberFree_encodeResult result

/-- There are no numbers in the text of a report. -/
theorem numberFree_encodeReport (latest : Option Report) :
    NumberFree (Wire.encodeReport latest) := by
  cases latest with
  | none =>
      refine .object fun member h => ?_
      simp only [List.mem_cons, List.not_mem_nil, or_false] at h
      rcases h with rfl | rfl
      · exact .object fun member h => (nomatch h)
      · exact .text _
  | some r =>
      refine .object fun member h => ?_
      simp only [List.mem_cons, List.not_mem_nil, or_false] at h
      rcases h with rfl | rfl | rfl
      · exact numberFree_encodeResults r
      · exact .text _
      · exact .text _

/-- The entries of a report as they are shown. -/
def shownEntries (r : Report) : List (String × Json) :=
  r.entries.map fun e => (e.1, Wire.encodeResult e.2)

/-- Entries are shown under the names of the report. -/
theorem names_shownEntries (r : Report) : (shownEntries r).map Prod.fst = r.names := by
  rw [shownEntries, List.map_map]
  rfl

/-- Under each name the last of its results is shown. -/
theorem mem_shownEntries {p : Publication} {name : String} {shown : Json} :
    (name, shown) ∈ shownEntries p.report
      ↔ ∃ r, p.last? name = some r ∧ shown = Wire.encodeResult r := by
  rw [shownEntries, List.mem_map]
  constructor
  · rintro ⟨⟨n, r⟩, hmem, he⟩
    cases he
    exact ⟨r, Report.mem_entries_ofList.1 hmem, rfl⟩
  · rintro ⟨r, hr, rfl⟩
    exact ⟨(name, r), Report.mem_entries_ofList.2 hr, rfl⟩

/-- The duration of a report is the one it was published with. -/
theorem duration_report (p : Publication) : p.report.duration = p.duration :=
  congrArg Report.duration (Report.foldl_insert_eq_ofList p.results p.duration).symm

/-- The answer to a request shows the report that is there. -/
theorem shows_report {request : Request} (h : Asks request) (p : Publication) :
    Shows p (answer request (some p.report)).1 p.report.status (shownEntries p.report) where
  body := by
    rw [answer_of_asks h, Response.json, treeOf?_jsonBody (numberFree_encodeReport _),
      ← duration_report]
    rfl
  names name := by
    rw [names_shownEntries]
    exact Report.mem_names_ofList p.results p.duration
  distinct := by
    rw [names_shownEntries]
    exact (Report.pairwise_names_ofList p.results p.duration).imp fun hlt => ne_of_lt hlt
  entry _ _ := mem_shownEntries
  worst := Report.isWorst_status_ofList p.results p.duration

/-! ## After any turns -/

/-- There are two codes and no other. -/
theorem statusCode_eq_or_eq (latest : Option Report) :
    statusCode latest = 503 ∨ statusCode latest = 200 := by
  cases latest with
  | none => exact Or.inl rfl
  | some r =>
      rw [statusCode]
      split
      · exact Or.inl rfl
      · exact Or.inr rfl

/-- The code of a report tells whether a result that counts is unhealthy. -/
theorem statusCode_report (p : Publication) : statusCode (some p.report) = 503
    ↔ ∃ name r, p.last? name = some r ∧ r.status = .unhealthy := by
  have hworst := Report.isWorst_status_ofList p.results p.duration
  refine Iff.trans ?_ hworst.eq_unhealthy_iff
  rw [statusCode, Publication.report]
  split
  · next h => exact iff_of_true rfl h
  · next h => exact iff_of_false (by decide) h

/-- Publications with the same results in the same order under every name. -/
structure SameByName (p q : Publication) : Prop where
  results : ∀ name, (p.results.filter fun x => x.1 = name) = q.results.filter fun x => x.1 = name
  duration : p.duration = q.duration

/-- The order of results with different names makes no difference to a report. -/
theorem SameByName.report_eq {p q : Publication} (h : SameByName p q) : p.report = q.report := by
  rw [Publication.report, Publication.report, ← h.duration]
  refine Report.ofList_congr (fun name => ?_) p.duration
  rw [← Report.last?_filter p.results, h.results name, Report.last?_filter]

/-- The last publication is what a request finds.  Its code says whether something is
    unhealthy, its body shows the results that count, and nothing else makes a difference:
    neither what was published before, nor the order of different names. -/
theorem last_publication_is_shown {request : Request} (h : Asks request) (turns : List Turn) :
    let response := (answer request (after turns)).1
    (response.status = 503 ↔ lastOf turns = none ∨
      ∃ p, lastOf turns = some p ∧ ∃ name r, p.last? name = some r ∧ r.status = .unhealthy) ∧
    (response.status = 503 ∨ response.status = 200) ∧
    (∀ p, lastOf turns = some p → ∃ worst entries, Shows p response worst entries) ∧
    (∀ others, lastOf others = lastOf turns → (answer request (after others)).1 = response) ∧
    ∀ others p q, lastOf turns = some p → lastOf others = some q → SameByName p q →
      (answer request (after others)).1 = response := by
  dsimp only
  simp only [after_eq]
  refine ⟨?_, ?_, fun p hp => ?_, fun others ho => by rw [ho], fun others p q hp hq hpq => ?_⟩
  · rw [answer_of_asks h]
    cases lastOf turns with
    | none => exact iff_of_true rfl (Or.inl rfl)
    | some p =>
        refine (statusCode_report p).trans ⟨fun hu => Or.inr ⟨p, rfl, hu⟩, ?_⟩
        rintro (hnone | ⟨q, hq, hu⟩)
        · cases hnone
        · cases hq
          exact hu
  · rw [answer_of_asks h]
    exact statusCode_eq_or_eq _
  · rw [hp]
    exact ⟨_, _, shows_report h p⟩
  · rw [hp, hq, Option.map_some, Option.map_some, hpq.report_eq]

/-- An unhealthy result is shown until the next report, which makes it forgotten. -/
theorem recovery_is_shown :
    let request : Request := ⟨"GET", "/health?verbose", [], []⟩
    let down : Publication := ⟨[("app", .healthy), ("app", .failed .unhealthy .cancelled)], .zero⟩
    let up : Publication := ⟨[("disk", .described .degraded "low"), ("app", .healthy)], .zero⟩
    let other : Publication := ⟨[("app", .healthy), ("disk", .described .degraded "low")], .zero⟩
    Asks request ∧
    (answer request (after [.published up, .published down])).1.status = 503 ∧
    SameByName up other ∧
    (answer request (after [.published other])).1
      = (answer request (after [.published down, .asked request, .published up])).1 := by
  intro request down up other
  have hasks : Asks request := ⟨by decide, rfl⟩
  have hsame : SameByName up other := by
    refine ⟨fun name => ?_, rfl⟩
    by_cases ha : "app" = name
    · subst ha
      rfl
    · by_cases hd : "disk" = name
      · subst hd
        rfl
      · simp [up, other, ha, hd]
  refine ⟨hasks, ?_, hsame, ?_⟩
  · exact (last_publication_is_shown hasks [.published up, .published down]).1.2
      (Or.inr ⟨down, rfl, "app", .failed .unhealthy .cancelled, rfl, rfl⟩)
  · exact (last_publication_is_shown hasks
      [.published down, .asked request, .published up]).2.2.2.2 [.published other] up other rfl rfl
      hsame

end HealthWatch.Endpoint
