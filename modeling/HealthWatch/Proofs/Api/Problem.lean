import HealthWatch.Proofs.Api.Session

/-! # Problem documents — how failures are told

    Whatever the store holds, a failure is answered with a document whose status member
    is the status of the answer.  A query that is refused is the exception: it is
    answered with a plain text (`failure_is_problem_iff`). -/

namespace HealthWatch

open Http

/-- A response with a document about a failure: an object with a title, the status of
    the response and the details. -/
def Http.Response.IsProblem (r : Response) : Prop :=
  r.headers.value? "content-type" = some "application/problem+json"
    ∧ ∃ title detail, r.body = jsonBody (.object [
        ("title", .text title), ("status", .ofNat r.status), ("detail", .text detail)])

namespace Api

/-! ## What handlers answer -/

/-- An answer that tells of a success or is a document about a failure. -/
def Told (r : Response) : Prop := isSuccess r.status = true ∨ r.IsProblem

theorem isProblem_response (e : Failure) : e.response.IsProblem :=
  ⟨rfl, e.title, e.detail, rfl⟩

/-- What becomes of a registration is told, whatever the request is. -/
theorem told_register (m : Moment) (request : Request) (s : Store) :
    Told (register m request s).1 := by
  rw [register]
  cases checkOf request with
  | error e => exact .inr (isProblem_response e)
  | ok c =>
      dsimp only
      split
      · exact .inl rfl
      · exact .inr (isProblem_response _)

/-- What becomes of a report is told, whatever the request is. -/
theorem told_add (m : Moment) (request : Request) (s : Store) : Told (add m request s).1 := by
  rw [add]
  cases reportOf m.now request with
  | error e => exact .inr (isProblem_response e)
  | ok report =>
      dsimp only
      split
      · exact .inl rfl
      · exact .inr (isProblem_response _)

/-- What is read is told, and so is why it cannot be read. -/
theorem told_viewed {α : Type} (encode : α → Json) (result : Except Store.Fault α) :
    Told (viewed encode result) := by
  cases result with
  | ok a => exact .inl rfl
  | error e => exact .inr (isProblem_response _)

/-- The views of an application are refused for the query only. -/
theorem applicationStatus_cases (request : Request) (s : Store) :
    (∃ e, Query.application request = .error e ∧ (applicationStatus request s).1 = e.response)
      ∨ (∀ e, Query.application request ≠ .error e) ∧ Told (applicationStatus request s).1 := by
  rw [applicationStatus]
  cases Query.application request with
  | error e => exact .inl ⟨e, rfl, rfl⟩
  | ok id => exact .inr ⟨by rintro _ ⟨⟩, told_viewed _ _⟩

/-- So is the view of a check. -/
theorem checkStatus_cases (request : Request) (s : Store) :
    (∃ e, Query.check request = .error e ∧ (checkStatus request s).1 = e.response)
      ∨ (∀ e, Query.check request ≠ .error e) ∧ Told (checkStatus request s).1 := by
  rw [checkStatus]
  cases Query.check request with
  | error e => exact .inl ⟨e, rfl, rfl⟩
  | ok query => exact .inr ⟨by rintro _ ⟨⟩, told_viewed _ _⟩

/-! ## What is sent -/

namespace Exchange

variable {x : Exchange}

/-- A route answers the request. -/
def Routed (x : Exchange) : Prop :=
  ∃ route : Route Store, route.Answers (routes x.moment) x.request

/-- The request asks for views, but its query is refused. -/
def Refuses (x : Exchange) (e : QueryFault) : Prop :=
  (x.request.path = path "GetApplicationStatus" ∧ Query.application x.request = .error e)
    ∨ (x.request.path = path "GetHealthCheck" ∧ Query.check x.request = .error e)

/-- The answer is this response of a handler, open to every origin; a request for the
    header fields alone gets no body. -/
structure Sends (x : Exchange) (r : Response) : Prop where
  status : x.response.status = r.status
  headers : x.response.headers = r.headers ++ anyOrigin
  body : x.response.body = if x.request.method = "HEAD" then [] else r.body

/-- Of a path with one route, the handler of that route answers. -/
theorem sends_of_answers {route : Route Store}
    (hroute : (routes x.moment).ofPath x.request.path = [route])
    (hmethod : x.request.method ∈ route.methods) (hoptions : "OPTIONS" ∉ route.methods) :
    x.Sends (route.handler x.request x.before).1 := by
  have hresponse : x.response = { x.request.sent (route.handler x.request x.before).1 with
      headers := (route.handler x.request x.before).1.headers ++ anyOrigin } :=
    congrArg Prod.fst
      (crossOrigin_of_answers hroute hmethod (fun h => hoptions (h ▸ hmethod)) x.before)
  rw [Request.sent] at hresponse
  split at hresponse
  · next hhead => exact ⟨by rw [hresponse], by rw [hresponse], by rw [hresponse, if_pos hhead]⟩
  · next hhead => exact ⟨by rw [hresponse], by rw [hresponse], by rw [hresponse, if_neg hhead]⟩

/-- The answer is that of the handler of a route with this path. -/
theorem exists_sends (h : x.Routed) :
    ∃ route ∈ routes x.moment, route.path = x.request.path
      ∧ x.Sends (route.handler x.request x.before).1 := by
  obtain ⟨route, hmem, hpath, hmethod⟩ := h
  refine ⟨route, hmem, hpath, ?_⟩
  simp only [routes, List.mem_cons, List.not_mem_nil, or_false] at hmem
  -- the four paths differ, so each has its one route
  rcases hmem with rfl | rfl | rfl | rfl
  all_goals exact sends_of_answers (by rw [← hpath]; rfl) hmethod (by simp [Route.methods])

/-- A path has one action. -/
theorem action_eq {a b : String} (ha : path a = x.request.path) (hb : x.request.path = path b) :
    a = b :=
  (String.append_right_inj _).1 (ha.trans hb)

/-- A query is refused for one reason. -/
theorem Refuses.unique {e e' : QueryFault} (h : x.Refuses e) (h' : x.Refuses e') : e = e' := by
  rcases h with ⟨hpath, h⟩ | ⟨hpath, h⟩ <;> rcases h' with ⟨hpath', h'⟩ | ⟨hpath', h'⟩
  · exact Except.error.inj (h.symm.trans h')
  · exact absurd (action_eq hpath.symm hpath') (by decide)
  · exact absurd (action_eq hpath.symm hpath') (by decide)
  · exact Except.error.inj (h.symm.trans h')

/-- A request for neither view is not refused for its query. -/
theorem not_refuses {action : String} (hpath : path action = x.request.path)
    (happlication : action ≠ "GetApplicationStatus") (hcheck : action ≠ "GetHealthCheck")
    (e : QueryFault) : ¬x.Refuses e := by
  rintro (⟨hother, -⟩ | ⟨hother, -⟩)
  · exact happlication (action_eq hpath hother)
  · exact hcheck (action_eq hpath hother)

/-- A request that a route answers is refused for its query, or answered with a success
    or a document about a failure. -/
theorem sends_cases (h : x.Routed) :
    (∃ e, x.Refuses e ∧ x.Sends e.response) ∨ (∀ e, ¬x.Refuses e) ∧ ∃ r, Told r ∧ x.Sends r := by
  obtain ⟨route, hmem, hpath, hsends⟩ := exists_sends h
  simp only [routes, List.mem_cons, List.not_mem_nil, or_false] at hmem
  rcases hmem with rfl | rfl | rfl | rfl
  · exact .inr ⟨not_refuses hpath (by decide) (by decide), _,
      told_register x.moment x.request x.before, hsends⟩
  · exact .inr ⟨not_refuses hpath (by decide) (by decide), _,
      told_add x.moment x.request x.before, hsends⟩
  · rcases applicationStatus_cases x.request x.before with ⟨e, hquery, heq⟩ | ⟨hquery, htold⟩
    · exact .inl ⟨e, .inl ⟨hpath.symm, hquery⟩, heq ▸ hsends⟩
    · refine .inr ⟨?_, _, htold, hsends⟩
      rintro e (⟨-, herror⟩ | ⟨hother, -⟩)
      · exact hquery e herror
      · exact absurd (action_eq hpath hother) (by decide)
  · rcases checkStatus_cases x.request x.before with ⟨e, hquery, heq⟩ | ⟨hquery, htold⟩
    · exact .inl ⟨e, .inr ⟨hpath.symm, hquery⟩, heq ▸ hsends⟩
    · refine .inr ⟨?_, _, htold, hsends⟩
      rintro e (⟨hother, -⟩ | ⟨-, herror⟩)
      · exact absurd (action_eq hpath hother) (by decide)
      · exact hquery e herror

/-- The header fields of the response come before those of the interface. -/
theorem Sends.value? {r : Response} (h : x.Sends r) {name value : String}
    (hvalue : r.headers.value? name = some value) :
    x.response.headers.value? name = some value := by
  rw [Headers.value?] at hvalue ⊢
  rw [h.headers, List.lookup_append, hvalue]
  rfl

end Exchange

/-- An object is never written as nothing. -/
theorem jsonBody_object_ne_nil (members : List (String × Json)) :
    jsonBody (.object members) ≠ [] := by
  rw [jsonBody, Json.write, Text.Utf8.encode, List.cons_append, List.flatMap_cons]
  exact List.append_ne_nil_of_left_ne_nil (Text.Utf8.encodeChar_ne_nil _) _

/-- A failure of a request that a route answers is told by a document, unless the query
    is refused: that is told by a plain text.  A request for the header fields alone gets
    those of the same answer. -/
theorem failure_is_problem_iff {x : Exchange} (hroute : x.Routed)
    (hfailure : isSuccess x.response.status = false) :
    (x.response.IsProblem ↔ x.request.method ≠ "HEAD" ∧ ∀ e, ¬x.Refuses e)
      ∧ (x.response.headers.value? "content-type" = some "application/problem+json"
        ↔ ∀ e, ¬x.Refuses e)
      ∧ ∀ e, x.Refuses e → x.response.status = 400
        ∧ x.response.headers.value? "content-type" = some "text/plain; charset=utf-8"
        ∧ (x.request.method ≠ "HEAD" → x.response.body = Text.Utf8.encode e.message.toList) := by
  rcases Exchange.sends_cases hroute with ⟨e, hrefuses, hsends⟩ | ⟨hserved, r, htold, hsends⟩
  · have htype := hsends.value? (show e.response.headers.value? "content-type" = _ from rfl)
    have hplain : x.response.headers.value? "content-type" ≠ some "application/problem+json" := by
      rw [htype]
      decide
    refine ⟨iff_of_false (fun h => hplain h.1) fun h => h.2 e hrefuses,
      iff_of_false hplain fun h => h e hrefuses, ?_⟩
    intro e' hrefuses'
    obtain rfl := hrefuses.unique hrefuses'
    refine ⟨hsends.status, htype, fun hhead => ?_⟩
    rw [hsends.body, if_neg hhead]
    rfl
  · have hproblem : r.IsProblem := by
      rcases htold with hsuccess | hproblem
      · rw [hsends.status, hsuccess] at hfailure
        exact nomatch hfailure
      · exact hproblem
    obtain ⟨htype, title, detail, hbody⟩ := hproblem
    have htype' := hsends.value? htype
    refine ⟨⟨fun h => ⟨?_, hserved⟩, ?_⟩, iff_of_true htype' hserved,
      fun e he => absurd he (hserved e)⟩
    · intro hhead
      obtain ⟨-, title', detail', hbody'⟩ := h
      rw [hsends.body, if_pos hhead] at hbody'
      exact jsonBody_object_ne_nil _ hbody'.symm
    · rintro ⟨hhead, -⟩
      refine ⟨htype', title, detail, ?_⟩
      rw [hsends.body, if_neg hhead, hbody, hsends.status]

namespace Sample

/-- A request for the view of a check, to a store whose lock is poisoned. -/
def behindLock : Exchange where
  before := { poisoned := true }
  moment := moment 0
  request := {
    method := "GET"
    target := path "GetHealthCheck?checkName=disk&applicationId="
      ++ (Identifier.ofNat 7).toText
    headers := []
    body := [] }

/-- A request for views that does not say of which application. -/
def ofNobody : Exchange where
  before := .empty
  moment := moment 0
  request := { method := "GET", target := path "GetApplicationStatus", headers := [], body := [] }

theorem routed_ofNobody : ofNobody.Routed :=
  ⟨⟨path "GetApplicationStatus", "GET", applicationStatus⟩,
    List.mem_cons_of_mem _ (List.mem_cons_of_mem _ List.mem_cons_self), by decide +kernel, by decide⟩

theorem routed_behindLock : behindLock.Routed :=
  ⟨⟨path "GetHealthCheck", "GET", checkStatus⟩,
    List.mem_cons_of_mem _ (List.mem_cons_of_mem _ (List.mem_cons_of_mem _ List.mem_cons_self)),
    by decide +kernel, by decide⟩

end Sample

/-- Behind a poisoned lock every view is refused, and a document tells so. -/
theorem problem_behind_lock : Sample.behindLock.response.status = 500
    ∧ Sample.behindLock.response.IsProblem := by
  have hstatus : Sample.behindLock.response.status = 500 := by decide +kernel
  have hquery : Query.check Sample.behindLock.request = .ok (.ofNat 7, "disk") := by
    decide +kernel
  refine ⟨hstatus, ((failure_is_problem_iff Sample.routed_behindLock (by rw [hstatus]; rfl)).1).2
    ⟨by decide, ?_⟩⟩
  rintro e (⟨hpath, -⟩ | ⟨-, herror⟩)
  · exact absurd hpath (by decide +kernel)
  · exact nomatch hquery.symm.trans herror

/-- A query that is refused is a failure without such a document. -/
theorem plain_text_of_missing_application :
    ¬∀ x : Exchange, x.Routed → x.request.method ≠ "HEAD" → isSuccess x.response.status = false →
      x.response.IsProblem := by
  intro h
  have hproblem := (h Sample.ofNobody Sample.routed_ofNobody (by decide) (by decide +kernel)).1
  have htype : Sample.ofNobody.response.headers.value? "content-type"
      = some "text/plain; charset=utf-8" := by
    decide +kernel
  exact absurd (htype.symm.trans hproblem) (by decide)

end Api

end HealthWatch
