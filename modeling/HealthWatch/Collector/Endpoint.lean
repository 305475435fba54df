import HealthWatch.Http.Router
import HealthWatch.Wire.Report

/-! # The local endpoint — the latest report of a collector

    A collector shows its latest report under a fixed path.  The code tells
    whether something is unhealthy, which it is as long as there is no report. -/

namespace HealthWatch.Endpoint

open Http

/-- The status code for the latest report. -/
def statusCode : Option Report → Nat
  | none => 503
  | some r => if r.status = .unhealthy then 503 else 200

/-- Answers with the latest report. -/
def latest : Handler (Option Report) := fun _ report =>
  (.json (statusCode report) (Wire.encodeReport report), report)

/-- The routes of the endpoint. -/
def routes : Router (Option Report) := [⟨"/health", "GET", latest⟩]

/-- Answers a request. -/
def answer : Handler (Option Report) :=
  Router.answer routes

end HealthWatch.Endpoint
