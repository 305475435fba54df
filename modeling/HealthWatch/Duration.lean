/-! # Durations — whole seconds and nanoseconds

    A duration is a number of seconds of sixty-four bits and a number of
    nanoseconds below one second. -/

namespace HealthWatch

/-- A length of time, exact to the nanosecond, of less than `2 ^ 64` seconds. -/
structure Duration where
  seconds : Nat
  nanos : Nat
  seconds_lt : seconds < 18446744073709551616 := by omega
  nanos_lt : nanos < 1000000000 := by omega
deriving DecidableEq, Repr

namespace Duration

instance : Inhabited Duration := ⟨{ seconds := 0, nanos := 0 }⟩

/-- No time at all. -/
def zero : Duration := { seconds := 0, nanos := 0 }

/-- The duration of these seconds and nanoseconds, when both are in range. -/
def of? (seconds nanos : Nat) : Option Duration :=
  if h : seconds < 18446744073709551616 ∧ nanos < 1000000000 then
    some { seconds, nanos, seconds_lt := h.1, nanos_lt := h.2 }
  else none

/-- A number of whole seconds, at most the greatest there is. -/
def ofSeconds (n : Nat) : Duration :=
  { seconds := min n 18446744073709551615, nanos := 0 }

/-- A number of milliseconds, at most as many as fit. -/
def ofMillis (n : Nat) : Duration :=
  { seconds := min (n / 1000) 18446744073709551615, nanos := n % 1000 * 1000000 }

/-- All of a duration in nanoseconds. -/
def totalNanos (d : Duration) : Nat :=
  d.seconds * 1000000000 + d.nanos

/-- A duration cut down to a multiple of one hundred nanoseconds. -/
def truncate (d : Duration) : Duration where
  seconds := d.seconds
  nanos := d.nanos / 100 * 100
  seconds_lt := d.seconds_lt
  nanos_lt := by have := d.nanos_lt; omega

/-- What was cut down has nothing more to lose. -/
@[simp] theorem truncate_truncate (d : Duration) : d.truncate.truncate = d.truncate := by
  simp [truncate]

/-- A duration is made of its seconds and nanoseconds, and of no others. -/
theorem of?_eq_some_iff {s n : Nat} {d : Duration} :
    of? s n = some d ↔ d.seconds = s ∧ d.nanos = n := by
  unfold of?
  constructor
  · intro h
    split at h
    · cases h; exact ⟨rfl, rfl⟩
    · exact nomatch h
  · rintro ⟨rfl, rfl⟩
    rw [dif_pos ⟨d.seconds_lt, d.nanos_lt⟩]

end Duration

end HealthWatch
