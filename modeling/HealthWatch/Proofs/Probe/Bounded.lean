import HealthWatch.Probe.Bounded
import HealthWatch.Proofs.Lifetime
import Mathlib.Data.ENat.Lattice

/-! # Bounded runs — the first of three events ends them

    A run waits for the answer of the probe, for the end of its time and for the end of the
    lifetime, all at once.  What is waited for is looked at at every moment, and the first
    moment at which something is there ends the run.  The answer is looked at before the
    clock, so one that comes at the end of the time is heard.  Which of the run and the
    lifetime is looked at first does not matter unless both come at one moment.

    * `Awaited.Brings` says when a wait ends and what it brings;
    * `brings_bounded`: a run is such a wait, for every history of the lifetime;
    * `run_ends_at_first_event` says what comes of it. -/

namespace HealthWatch

/-- A number of nanoseconds that some duration has is the whole of its duration. -/
theorem Duration.totalNanos_ofNanos {d : Duration} {n : Nat} (h : n ≤ d.totalNanos) :
    (ofNanos n).totalNanos = n := by
  have hseconds := d.seconds_lt
  have hnanos := d.nanos_lt
  rw [totalNanos] at h
  rw [totalNanos, ofNanos]
  dsimp only
  omega

/-- Something that is waited for: what it brings when it is looked at at a moment. -/
abbrev Awaited (α : Type) := Nat → Option α

namespace Awaited

variable {α : Type} {f g : Awaited α} {m n : Nat} {a b : α}

/-- A value that is there from a moment on, or never. -/
def value (answer : Option (Nat × α)) : Awaited α := fun now =>
  answer.bind fun (moment, a) => if moment ≤ now then some a else none

/-- Waits until the time is over; what is there at this very moment is taken. -/
def within (limit : Nat) (late : α) (f : Awaited α) : Awaited α := fun now =>
  (f now).or (if limit ≤ now then some late else none)

/-- Waits for one of two; `f` is looked at before `g`. -/
def either (f g : Awaited α) : Awaited α := fun now =>
  (f now).or (g now)

/-- A wait ends at a moment and brings a value. -/
structure Brings (f : Awaited α) (moment : Nat) (a : α) : Prop where
  ready : f moment = some a
  early : ∀ m, m < moment → f m = none

/-- A wait ends at one moment with one value. -/
theorem Brings.unique (hf : f.Brings m a) (hg : f.Brings n b) : m = n ∧ a = b := by
  have hmn : m = n := by
    rcases Nat.lt_trichotomy m n with h | h | h
    · cases hf.ready.symm.trans (hg.early m h)
    · exact h
    · cases hg.ready.symm.trans (hf.early n h)
  subst hmn
  exact ⟨rfl, Option.some.inj (hf.ready.symm.trans hg.ready)⟩

/-- The one that is looked at first is heard when the other does not come before it. -/
theorem Brings.either_left (hf : f.Brings m a) (hg : ∀ k, k < m → g k = none) :
    (either f g).Brings m a where
  ready := by rw [either, hf.ready, Option.some_or]
  early := fun k hk => by rw [either, hf.early k hk, hg k hk, Option.none_or]

/-- The one that is looked at last is heard when the other comes later. -/
theorem Brings.either_right (hg : g.Brings n b) (hf : ∀ k, k ≤ n → f k = none) :
    (either f g).Brings n b where
  ready := by rw [either, hf n (Nat.le_refl n), Option.none_or, hg.ready]
  early := fun k hk => by rw [either, hf k (Nat.le_of_lt hk), hg.early k hk, Option.none_or]

theorem value_of_lt {answer : Option (Nat × α)} (h : ∀ moment a, answer = some (moment, a) → m < moment) :
    value answer m = none := by
  cases answer with
  | none => rfl
  | some p => exact if_neg (Nat.not_le.2 (h p.1 p.2 rfl))

theorem brings_value (moment : Nat) (a : α) : (value (some (moment, a))).Brings moment a where
  ready := if_pos (Nat.le_refl moment)
  early := fun _ hm => if_neg (Nat.not_le.2 hm)

end Awaited

namespace ProbeResult

open Awaited (Brings)

variable (ctx : ProbeContext) (answer : Option (Nat × ProbeResult))

/-- The answer of a probe, or the end of its time. -/
def timed : Awaited ProbeResult :=
  (Awaited.value answer).within ctx.timeout.totalNanos (failed ctx.failureStatus (.timeout ctx.timeout))

/-- The end of a lifetime. -/
def cut (history : Lifetime.History) : Awaited ProbeResult := fun now =>
  if (Lifetime.stateAt {} history now).isOver then some (failed ctx.failureStatus .cancelled) else none

/-- A run: the answer, the end of the time and the end of the lifetime, whichever is first. -/
def run (history : Lifetime.History) (stopFirst : Bool) : Awaited ProbeResult :=
  if stopFirst then Awaited.either (cut ctx history) (timed ctx answer)
  else Awaited.either (timed ctx answer) (cut ctx history)

/-- Without a stop a run waits for the answer and for the end of its time. -/
theorem brings_answered :
    (timed ctx answer).Brings (answered ctx answer).1 (answered ctx answer).2 := by
  -- nothing is there before the answer and before the end of the time
  have hlate : (∀ moment result, answer = some (moment, result) → ctx.timeout.totalNanos < moment) →
      (timed ctx answer).Brings ctx.timeout.totalNanos (failed ctx.failureStatus (.timeout ctx.timeout)) := by
    intro h
    constructor
    · rw [timed, Awaited.within, Awaited.value_of_lt h, Option.none_or, if_pos (Nat.le_refl _)]
    · intro m hm
      rw [timed, Awaited.within, Awaited.value_of_lt fun moment a ha => hm.trans (h moment a ha),
        Option.none_or, if_neg (Nat.not_le.2 hm)]
  cases answer with
  | none => exact hlate fun _ _ h => nomatch h
  | some p =>
      obtain ⟨moment, result⟩ := p
      dsimp only [answered]
      split
      · next hle =>
          exact (Awaited.brings_value moment result).either_left fun k hk =>
            if_neg (Nat.not_le.2 (Nat.lt_of_lt_of_le hk hle))
      · next hlt =>
          refine hlate ?_
          rintro _ _ ⟨⟩
          exact Nat.not_le.1 hlt

theorem cut_of_lt {history : Lifetime.History} {m : Nat}
    (h : ∀ s, Lifetime.endOf {} history = some s → m < s) : cut ctx history m = none := by
  refine if_neg fun hover => ?_
  obtain ⟨s, hs, hle⟩ := (Lifetime.isOver_stateAt_iff {} history m).1 hover
  exact absurd (h s hs) (Nat.not_lt.2 hle)

theorem brings_cut {history : Lifetime.History} {s : Nat} (h : Lifetime.endOf {} history = some s) :
    (cut ctx history).Brings s (failed ctx.failureStatus .cancelled) where
  ready := if_pos ((Lifetime.isOver_stateAt_iff {} history s).2 ⟨s, h, Nat.le_refl s⟩)
  early := fun m hm => cut_of_lt ctx fun t ht => by
    cases h.symm.trans ht
    exact hm

/-- A stop cuts a run when it comes before its end, or with it and is looked at first. -/
theorem isCut_some_iff {moment s : Nat} {stopFirst : Bool} :
    isCut moment (some s) stopFirst = true ↔ s < moment ∨ s = moment ∧ stopFirst = true := by
  simp [isCut]

/-- A run that is cut off ends as cancelled, at the stop. -/
theorem bounded_of_cut {stop : Option Nat} {stopFirst : Bool} {s : Nat} (hstop : stop = some s)
    (h : isCut (answered ctx answer).1 stop stopFirst = true) :
    bounded ctx answer stop stopFirst
      = (s, { failed ctx.failureStatus .cancelled with duration := .ofNanos s }) := by
  subst hstop
  rw [bounded]
  simp only [if_pos h, Option.getD_some]

/-- Another run ends with its answer or its time limit. -/
theorem bounded_of_not_cut {stop : Option Nat} {stopFirst : Bool}
    (h : ¬ isCut (answered ctx answer).1 stop stopFirst = true) :
    bounded ctx answer stop stopFirst
      = ((answered ctx answer).1,
          { (answered ctx answer).2 with duration := .ofNanos (answered ctx answer).1 }) := by
  rw [bounded]
  simp only [if_neg h]

/-- A run within bounds ends when the wait for its events ends, and with what this brings. -/
theorem brings_bounded (history : Lifetime.History) (stopFirst : Bool) :
    let ended := bounded ctx answer (Lifetime.endOf {} history) stopFirst
    ∃ result, (run ctx answer history stopFirst).Brings ended.1 result
      ∧ ended.2 = { result with duration := .ofNanos ended.1 } := by
  dsimp only
  have htimed := brings_answered ctx answer
  by_cases hcut : isCut (answered ctx answer).1 (Lifetime.endOf {} history) stopFirst = true
  · cases hstop : Lifetime.endOf {} history with
    | none =>
        rw [hstop] at hcut
        exact nomatch hcut
    | some s =>
        rw [hstop] at hcut
        rw [bounded_of_cut ctx answer rfl hcut]
        refine ⟨_, ?_, rfl⟩
        rw [isCut_some_iff] at hcut
        cases stopFirst with
        | true => exact (brings_cut ctx hstop).either_left fun k hk => htimed.early k (by omega)
        | false =>
            have hlt : s < (answered ctx answer).1 := by simpa using hcut
            exact (brings_cut ctx hstop).either_right fun k hk => htimed.early k (by omega)
  · rw [bounded_of_not_cut ctx answer hcut]
    refine ⟨_, ?_, rfl⟩
    cases stopFirst with
    | true =>
        refine htimed.either_right fun k hk => cut_of_lt ctx fun s hs => ?_
        rw [hs, isCut_some_iff] at hcut
        simp only [and_true] at hcut
        omega
    | false =>
        refine htimed.either_left fun k hk => cut_of_lt ctx fun s hs => ?_
        rw [hs, isCut_some_iff] at hcut
        omega

/-! ## Which event is first -/

/-- A moment that may never come. -/
def moment (o : Option Nat) : ℕ∞ :=
  o.elim ⊤ fun n => (n : ℕ∞)

theorem moment_le_iff {o : Option Nat} {n : Nat} : moment o ≤ n ↔ ∃ m, o = some m ∧ m ≤ n := by
  cases o <;> simp [moment]

theorem moment_lt_iff {o : Option Nat} {n : Nat} : moment o < n ↔ ∃ m, o = some m ∧ m < n := by
  cases o <;> simp [moment]

theorem lt_moment_iff {o : Option Nat} {n : Nat} : (n : ℕ∞) < moment o ↔ ∀ m, o = some m → n < m := by
  cases o <;> simp [moment]

/-- Without a stop a run ends with the answer or with its time. -/
theorem moment_answered :
    ((answered ctx answer).1 : ℕ∞)
      = min (moment (answer.map Prod.fst)) ctx.timeout.totalNanos := by
  cases answer with
  | none => simp [answered, moment]
  | some p =>
      dsimp only [answered]
      split
      · next h => simp [moment, h]
      · next h => simp [moment, Nat.le_of_not_le h]

/-- A run ends with the first of its events. -/
theorem moment_bounded (stop : Option Nat) (stopFirst : Bool) :
    ((bounded ctx answer stop stopFirst).1 : ℕ∞)
      = min (min (moment (answer.map Prod.fst)) ctx.timeout.totalNanos) (moment stop) := by
  rw [← moment_answered]
  by_cases hcut : isCut (answered ctx answer).1 stop stopFirst = true
  · cases stop with
    | none => exact nomatch hcut
    | some s =>
        rw [bounded_of_cut ctx answer rfl hcut]
        rw [isCut_some_iff] at hcut
        have hle : s ≤ (answered ctx answer).1 := by omega
        simp [moment, hle]
  · rw [bounded_of_not_cut ctx answer hcut]
    cases stop with
    | none => simp [moment]
    | some s =>
        rw [isCut_some_iff] at hcut
        have hle : (answered ctx answer).1 ≤ s := by omega
        simp [moment, hle]

/-- No run takes longer than its time limit. -/
theorem moment_bounded_le (stop : Option Nat) (stopFirst : Bool) :
    (bounded ctx answer stop stopFirst).1 ≤ ctx.timeout.totalNanos := by
  have hmin : ((bounded ctx answer stop stopFirst).1 : ℕ∞) ≤ ctx.timeout.totalNanos := by
    rw [moment_bounded]
    exact (min_le_left _ _).trans (min_le_right _ _)
  exact_mod_cast hmin

/-- The duration of a result is the time the run took. -/
theorem duration_bounded (stop : Option Nat) (stopFirst : Bool) :
    (bounded ctx answer stop stopFirst).2.duration
      = .ofNanos (bounded ctx answer stop stopFirst).1 := by
  rfl

/-- An answer in time and before the stop is heard. -/
theorem bounded_of_answer {d : Nat} {result : ProbeResult} {stop : Option Nat} {stopFirst : Bool}
    (hd : d ≤ ctx.timeout.totalNanos) (hs : ∀ s, stop = some s → d < s) :
    bounded ctx (some (d, result)) stop stopFirst
      = (d, { result with duration := .ofNanos d }) := by
  have hanswered : answered ctx (some (d, result)) = (d, result) := if_pos hd
  rw [bounded_of_not_cut, hanswered]
  rw [hanswered]
  cases stop with
  | none => exact fun h => nomatch h
  | some s =>
      have hlt := hs s rfl
      rw [isCut_some_iff]
      omega

/-- Without an answer in time and without a stop before, the time is over. -/
theorem bounded_of_late {stop : Option Nat} {stopFirst : Bool}
    (hd : ∀ d, answer.map Prod.fst = some d → ctx.timeout.totalNanos < d)
    (hs : ∀ s, stop = some s → ctx.timeout.totalNanos < s) :
    bounded ctx answer stop stopFirst
      = (ctx.timeout.totalNanos,
          { failed ctx.failureStatus (.timeout ctx.timeout) with
            duration := .ofNanos ctx.timeout.totalNanos }) := by
  have hanswered : answered ctx answer
      = (ctx.timeout.totalNanos, failed ctx.failureStatus (.timeout ctx.timeout)) := by
    cases answer with
    | none => rfl
    | some p => exact if_neg (Nat.not_le.2 (hd p.1 rfl))
  rw [bounded_of_not_cut, hanswered]
  rw [hanswered]
  cases stop with
  | none => exact fun h => nomatch h
  | some s =>
      have hlt := hs s rfl
      rw [isCut_some_iff]
      omega

/-- A stop before the answer and before the end of the time cuts the run. -/
theorem bounded_of_stop {s : Nat} {stopFirst : Bool}
    (hd : ∀ d, answer.map Prod.fst = some d → s < d) (hs : s < ctx.timeout.totalNanos) :
    bounded ctx answer (some s) stopFirst
      = (s, { failed ctx.failureStatus .cancelled with duration := .ofNanos s }) := by
  refine bounded_of_cut ctx answer rfl (isCut_some_iff.2 (Or.inl ?_))
  have hlt : (s : ℕ∞) < ((answered ctx answer).1 : ℕ∞) := by
    rw [moment_answered]
    exact lt_min (lt_moment_iff.2 hd) (by exact_mod_cast hs)
  exact_mod_cast hlt

/-- A run ends exactly at the first of the answer, the end of its time and the end of the
    lifetime, however the lifetime ends: with the probe's own result when the answer comes in
    time and before the end of the lifetime, with the error that tells the time-out or the cut
    when one of these comes first, and always with the time that it took. -/
theorem run_ends_at_first_event (history : Lifetime.History) (stopFirst : Bool) :
    let ended := bounded ctx answer (Lifetime.endOf {} history) stopFirst
    let d := moment (answer.map Prod.fst)
    let limit : ℕ∞ := ctx.timeout.totalNanos
    let s := moment (Lifetime.endOf {} history)
    (∃ result, (run ctx answer history stopFirst).Brings ended.1 result
        ∧ ended.2 = { result with duration := .ofNanos ended.1 })
      ∧ (∀ now : Nat, (Lifetime.stateAt {} history now).isOver = true ↔ s ≤ now)
      ∧ (ended.1 : ℕ∞) = min (min d limit) s
      ∧ (d ≤ limit → d < s → ∃ result, answer.map Prod.snd = some result
          ∧ ended.2 = { result with duration := ended.2.duration })
      ∧ (limit < d → limit < s → ended.2
          = { failed ctx.failureStatus (.timeout ctx.timeout) with duration := ended.2.duration })
      ∧ (s < d → s < limit → ended.2
          = { failed ctx.failureStatus .cancelled with duration := ended.2.duration })
      ∧ ended.2.duration.totalNanos = ended.1 := by
  refine ⟨brings_bounded ctx answer history stopFirst, ?_, moment_bounded ctx answer _ stopFirst,
    ?_, ?_, ?_, ?_⟩
  · intro now
    rw [Lifetime.isOver_stateAt_iff, moment_le_iff]
  · intro hd hs
    obtain ⟨d, hanswer, hle⟩ := moment_le_iff.1 hd
    obtain ⟨⟨_, result⟩, rfl, rfl⟩ := Option.map_eq_some_iff.1 hanswer
    refine ⟨result, rfl, ?_⟩
    rw [bounded_of_answer ctx hle (lt_moment_iff.1 hs)]
  · intro hd hs
    rw [bounded_of_late ctx answer (lt_moment_iff.1 hd) (lt_moment_iff.1 hs)]
  · intro hd hs
    obtain ⟨s, hstop, hlt⟩ := moment_lt_iff.1 hs
    rw [hstop] at hd ⊢
    rw [bounded_of_stop ctx answer (lt_moment_iff.1 hd) hlt]
  · rw [duration_bounded]
    exact Duration.totalNanos_ofNanos (moment_bounded_le ctx answer _ stopFirst)

-- the last of two owners goes away before the probe answers
example : bounded {} (some (20, .healthy))
    (Lifetime.endOf {} [(3, .addOwner), (4, .dropOwner), (5, .dropOwner)])
      = (12, { failed .unhealthy .cancelled with duration := .ofNanos 12 }) := by decide

end ProbeResult

end HealthWatch
