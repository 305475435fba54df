import HealthWatch.Http.Message
import HealthWatch.Text.Split

/-! # Routing — which handler answers a request

    A request is answered by the route of its path and method.  A route for
    reading also answers requests that ask for the header fields alone.  Without a
    path there is nothing, and without a method the allowed ones are told.

    * `Router.answer` answers a request;
    * `crossOrigin` lets pages of every origin read the answers. -/

namespace HealthWatch.Http

open Text

/-- The path of a request, without its query. -/
def Request.path (r : Request) : String :=
  String.ofList ((r.target.toList.takeWhile (· ≠ '#')).takeWhile (· ≠ '?'))

/-- The query of a request; empty when it has none. -/
def Request.query (r : Request) : List Char :=
  match cutFirst '?' (r.target.toList.takeWhile (· ≠ '#')) with
  | some (_, query) => query
  | none => []

/-- A handler of requests that may change a state. -/
abbrev Handler (σ : Type) := Request → σ → Response × σ

/-- A path, a method and the handler for both. -/
structure Route (σ : Type) where
  path : String
  method : String
  handler : Handler σ

/-- Routes. -/
abbrev Router (σ : Type) := List (Route σ)

/-- The methods that a route answers. -/
def Route.methods {σ : Type} (r : Route σ) : List String :=
  if r.method = "GET" then ["GET", "HEAD"] else [r.method]

namespace Router

variable {σ : Type}

/-- The routes of a path. -/
def ofPath (routes : Router σ) (path : String) : Router σ :=
  routes.filter fun r => r.path = path

/-- The header field that tells the methods of routes; none without routes. -/
def allowed (routes : Router σ) : Headers :=
  if routes.isEmpty then []
  else [("allow", ",".intercalate (routes.flatMap Route.methods))]

/-- Answers a request. -/
def answer (routes : Router σ) : Handler σ := fun request state =>
  match routes.ofPath request.path with
  | [] => (.empty 404, state)
  | found =>
      match found.find? fun r => request.method ∈ r.methods with
      | none => ({ Response.empty 405 with headers := allowed found }, state)
      | some route =>
          let (response, state) := route.handler request state
          if request.method = "HEAD" then ({ response with body := [] }, state)
          else (response, state)

end Router

/-- The header field that lets every origin read an answer. -/
def anyOrigin : Headers := [("access-control-allow-origin", "*")]

/-- The header fields that let every origin send any request. -/
def anyRequest : Headers :=
  [("access-control-allow-methods", "*"), ("access-control-allow-headers", "*")]

/-- Answers requests of every origin; a request that asks for the options is
    answered at once. -/
def crossOrigin {σ : Type} (routes : Router σ) : Handler σ := fun request state =>
  if request.method = "OPTIONS" then
    let headers := anyOrigin ++ anyRequest ++ Router.allowed (routes.ofPath request.path)
    ({ Response.empty 200 with headers }, state)
  else
    let (response, state) := routes.answer request state
    ({ response with headers := response.headers ++ anyOrigin }, state)

end HealthWatch.Http
