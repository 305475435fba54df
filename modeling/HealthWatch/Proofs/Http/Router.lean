import HealthWatch.Http.Router

/-! # Routing — every answer is a handler's, or changes nothing

    `crossOrigin_cases` lists what can become of a request: it is answered without any
    handler and without a change, or the handler of its path and method answers it.
    `crossOrigin_of_answers` says when the latter happens, and what is sent then. -/

namespace HealthWatch.Http

variable {σ : Type} {routes : Router σ} {route : Route σ} {request : Request}

/-- A handler answers for its route. -/
structure Route.Answers (route : Route σ) (routes : Router σ) (request : Request) : Prop where
  mem : route ∈ routes
  path : route.path = request.path
  method : request.method ∈ route.methods

/-- A request is answered by one of the routes, or refused and nothing is changed. -/
theorem Router.answer_cases (routes : Router σ) (request : Request) (state : σ) :
    ((routes.answer request state).1.status ∈ [404, 405] ∧ (routes.answer request state).2 = state)
      ∨ ∃ route : Route σ, route.Answers routes request
        ∧ (routes.answer request state).1.status = (route.handler request state).1.status
        ∧ (routes.answer request state).2 = (route.handler request state).2 := by
  rw [answer]
  split
  · exact .inl ⟨List.mem_cons_self, rfl⟩
  · split
    · exact .inl ⟨List.mem_cons_of_mem _ List.mem_cons_self, rfl⟩
    · next route hfind =>
        obtain ⟨hroute, hpath⟩ := List.mem_filter.1 (List.mem_of_find?_eq_some hfind)
        have hmethod := List.find?_some hfind
        refine .inr ⟨route, ⟨hroute, of_decide_eq_true hpath, ?_⟩, ?_⟩
        · exact of_decide_eq_true hmethod
        · dsimp only
          split <;> exact ⟨rfl, rfl⟩

/-- A request is answered without a handler and leaves the state as it was, or a handler
    of its path and method answers it. -/
theorem crossOrigin_cases (routes : Router σ) (request : Request) (state : σ) :
    ((crossOrigin routes request state).1.status ∈ [200, 404, 405]
        ∧ (crossOrigin routes request state).2 = state)
      ∨ ∃ route : Route σ, route.Answers routes request
        ∧ (crossOrigin routes request state).1.status = (route.handler request state).1.status
        ∧ (crossOrigin routes request state).2 = (route.handler request state).2 := by
  rw [crossOrigin]
  split
  · exact .inl ⟨List.mem_cons_self, rfl⟩
  · rcases Router.answer_cases routes request state with ⟨hstatus, hstate⟩ | hroute
    · exact .inl ⟨List.mem_cons_of_mem _ hstatus, hstate⟩
    · exact .inr hroute

/-- What of a response is sent: no body when the request asks for the header fields
    alone. -/
def Request.sent (request : Request) (response : Response) : Response :=
  if request.method = "HEAD" then { response with body := [] } else response

/-- The only route of a path answers all of its methods. -/
theorem Router.answer_of_answers (hpath : routes.ofPath request.path = [route])
    (hmethod : request.method ∈ route.methods) (state : σ) :
    routes.answer request state
      = (request.sent (route.handler request state).1, (route.handler request state).2) := by
  rw [Router.answer, hpath]
  simp only [List.find?_cons, decide_eq_true hmethod, Request.sent]
  split <;> rfl

/-- The only route of a path answers requests of its methods. -/
theorem crossOrigin_of_answers (hpath : routes.ofPath request.path = [route])
    (hmethod : request.method ∈ route.methods) (hoptions : request.method ≠ "OPTIONS")
    (state : σ) :
    crossOrigin routes request state
      = ({ request.sent (route.handler request state).1 with
            headers := (route.handler request state).1.headers ++ anyOrigin },
          (route.handler request state).2) := by
  have hanswer := Router.answer_of_answers hpath hmethod state
  have hheaders : (request.sent (route.handler request state).1).headers
      = (route.handler request state).1.headers := by
    rw [Request.sent]
    split <;> rfl
  rw [crossOrigin, if_neg hoptions]
  simp only [hanswer, hheaders]

/-- To a request that asks for more than the header fields, the whole response is sent. -/
theorem crossOrigin_of_route (hpath : routes.ofPath request.path = [route])
    (hmethod : request.method ∈ route.methods) (hoptions : request.method ≠ "OPTIONS")
    (hhead : request.method ≠ "HEAD") (state : σ) :
    crossOrigin routes request state
      = ({ (route.handler request state).1 with
            headers := (route.handler request state).1.headers ++ anyOrigin },
          (route.handler request state).2) := by
  rw [crossOrigin_of_answers hpath hmethod hoptions, Request.sent, if_neg hhead]

end HealthWatch.Http
