import HealthWatch.Http.Client
import HealthWatch.Probe.Basic

/-! # Web endpoints — every one has to answer with success

    Every endpoint is called once, whatever the others answer.  One that asks for
    authorization is a warning, any other trouble is a failure; failures hide
    warnings, and the messages stand in the order of the endpoints.

    * `Rest.judge` turns the answers into a result, `Rest.check` asks for them. -/

namespace HealthWatch.Rest

open Http

/-- What calling an endpoint came to. -/
structure Attempt where
  endpoint : String
  outcome : Except CallFault Response
deriving Repr

/-- What an attempt means. -/
inductive Finding where
  | fine
  | warning (message : String)
  | failure (message : String)
deriving DecidableEq, Repr

/-- The words about an endpoint that answered with a code. -/
def statusMessage (endpoint : String) (code : Nat) : String :=
  "rest api " ++ endpoint ++ " returns status code " ++ statusText code

/-- The meaning of an attempt. -/
def Attempt.finding (a : Attempt) : Finding :=
  match a.outcome with
  | .ok response =>
      if isSuccess response.status then .fine
      else if response.status = 401 then .warning (statusMessage a.endpoint 401)
      else .failure (statusMessage a.endpoint response.status)
  | .error e => .failure ("rest api " ++ a.endpoint ++ " is unreachable: " ++ e.message)

/-- The message of a failure. -/
def Finding.failure? : Finding → Option String
  | failure m => some m
  | _ => none

/-- The message of a warning. -/
def Finding.warning? : Finding → Option String
  | warning m => some m
  | _ => none

/-- The result of all attempts. -/
def judge (ctx : ProbeContext) (attempts : List Attempt) : ProbeResult :=
  let findings := attempts.map Attempt.finding
  match findings.filterMap Finding.failure? with
  | [] =>
      match findings.filterMap Finding.warning? with
      | [] => .healthy
      | warnings => .described .degraded (";".intercalate warnings)
  | failures => .described ctx.failureStatus (";".intercalate failures)

/-- The call to an endpoint. -/
def call (endpoint : String) : Except CallFault Call :=
  Call.to? "GET" endpoint [("accept", "application/json")] []

/-- Calls an endpoint. -/
def attempt (network : Network) (endpoint : String) : Attempt where
  endpoint := endpoint
  outcome := (call endpoint).bind (Call.send network)

/-- Checks all endpoints. -/
def check (network : Network) (ctx : ProbeContext) (endpoints : List String) : ProbeResult :=
  judge ctx (endpoints.map (attempt network))

end HealthWatch.Rest
