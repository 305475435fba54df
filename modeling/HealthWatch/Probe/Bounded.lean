import HealthWatch.Probe.Basic

/-! # Bounded runs — a probe against its timeout and the end of the program

    A run ends at the first of three moments: when the probe answers, when its
    time is over, and when the program stops.  A probe that answers at the very
    moment at which its time is over is heard.  When the program stops at the very
    moment at which the run would end, either may come first.  Moments count in
    nanoseconds from the start of the run. -/

namespace HealthWatch

/-- The duration of so many nanoseconds, at most the greatest there is. -/
def Duration.ofNanos (n : Nat) : Duration :=
  { seconds := min (n / 1000000000) 18446744073709551615, nanos := n % 1000000000 }

namespace ProbeResult

/-- The end of a run that nothing stops: an answer at its moment, none for a
    probe that never answers. -/
def answered (ctx : ProbeContext) (answer : Option (Nat × ProbeResult)) : Nat × ProbeResult :=
  let limit := ctx.timeout.totalNanos
  let late := (limit, failed ctx.failureStatus (.timeout ctx.timeout))
  match answer with
  | some (moment, result) => if moment ≤ limit then (moment, result) else late
  | none => late

/-- Whether a stop comes before the end of a run; `stopFirst` decides when both come
    at one moment. -/
def isCut (moment : Nat) (stop : Option Nat) (stopFirst : Bool) : Bool :=
  match stop with
  | some s => s < moment || (s = moment && stopFirst)
  | none => false

/-- The moment at which a run ends, and its result with the time it took. -/
def bounded (ctx : ProbeContext) (answer : Option (Nat × ProbeResult))
    (stop : Option Nat) (stopFirst : Bool := false) : Nat × ProbeResult :=
  let (moment, result) := answered ctx answer
  let (moment, result) :=
    if isCut moment stop stopFirst then
      (stop.getD moment, failed ctx.failureStatus .cancelled)
    else (moment, result)
  (moment, { result with duration := .ofNanos moment })

end ProbeResult

end HealthWatch
