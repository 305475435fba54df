import HealthWatch.Probe.Basic
import HealthWatch.Text.Blank
import HealthWatch.Text.Decimal
import HealthWatch.Text.Split
import HealthWatch.Word

/-! # Allocated memory — the resident memory against a maximum

    The system tells the resident memory in kilobytes on the first line that
    starts with its name; counts of octets are words of sixty-four bits.  The
    maximum is in megabytes.

    * `parseResident` reads a status text, `sample` makes a sample of it;
    * `check` compares a sample with the maximum, `measure` does so for a status
      text.  Reading a number whose octets do not fit into a word crashes, and
      whatever needs the number crashes with it. -/

namespace HealthWatch.Memory

open Text

/-- The kilobytes of resident memory that a status text tells. -/
def kilobytes? (status : String) : Option Nat := do
  let line ← (lines status.toList).find? fun l => (dropStart? "VmRSS:".toList l).isSome
  let column ← (words line)[1]?
  unsigned? wordBound column

/-- The octets of resident memory that a status text tells. -/
def parseResident (status : String) : Except Overflow (Option Nat) :=
  match kilobytes? status with
  | some kilobytes => some <$> word wordBound (kilobytes * 1024)
  | none => .ok none

/-- The octets that were read, or the reason why there are none. -/
def reported : Option Nat → Except String Nat
  | some bytes => .ok bytes
  | none => .error "VmRSS not reported"

/-- The sample of resident memory that a status text gives, if it could be read. -/
def sample (status : Except String String) : Except Overflow (Except String Nat) :=
  match status with
  | .error reason => .ok (.error reason)
  | .ok text => reported <$> parseResident text

/-- Checks a sample of octets, or the reason why there is none. -/
def check (maximum : Nat) (ctx : ProbeContext) (sample : Except String Nat) : ProbeResult :=
  match sample with
  | .error reason => .failed ctx.failureStatus (.io reason)
  | .ok bytes =>
      let used := bytes / 1024 / 1024
      if maximum ≤ used then
        .described .unhealthy ("allocated memory is about " ++ natText used
          ++ " mbytes, expected maximum is " ++ natText maximum ++ " mbytes")
      else .healthy

/-- Checks what a status text tells, if it could be read. -/
def measure (maximum : Nat) (ctx : ProbeContext) (status : Except String String) :
    Except Overflow ProbeResult :=
  check maximum ctx <$> sample status

end HealthWatch.Memory
