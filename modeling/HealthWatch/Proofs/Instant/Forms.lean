import HealthWatch.Proofs.Instant.Stored

/-! # Forms of stored times — one after the other

    A stored time is tried in several forms, and the first one that fits counts: with a
    fraction of a second, which may be left out; without one; and as an internet time.

    What is written for an instant is read by the first form, which gives the instant
    back, and no other form gives it another meaning (`stored_times_read_back`).  So the
    order of the forms does not matter for what the store has written. -/

namespace HealthWatch.Instant

open Text

namespace Stored

/-- Reads all fields but the fraction, and gives the stamp as a function of it. -/
def readClock : Scan (Nat → Stamp) := fun s => do
  let (year, s) ← readYear s
  let ((), s) ← readMark '-' s
  let (month, s) ← readField 1 12 s
  let ((), s) ← readMark '-' s
  let (day, s) ← readField 1 31 s
  let (hour, s) ← readField 0 23 s
  let ((), s) ← readMark ':' s
  let (minute, s) ← readField 0 59 s
  let ((), s) ← readMark ':' s
  let (second, s) ← readField 0 60 s
  .ok (fun nanos => { year, month, day, hour, minute, second, nanos }, s)

/-- Reads a stored time without a fraction. -/
def parseWhole? (s : List Char) : Option Instant :=
  match readClock s with
  | .ok (stamp, []) => (stamp 0).instant?
  | _ => none

/-- The forms of a stored time, in the order in which they are tried. -/
def forms : List (List Char → Option Instant) :=
  [parsePlain?, parseWhole?, Rfc3339.parseStrict?]

/-- The fraction is read behind all the other fields. -/
theorem readStamp_eq (s : List Char) :
    readStamp s = (readClock s).bind fun (stamp, rest) =>
      (readFraction rest).bind fun (nanos, rest) => .ok (stamp nanos, rest) := by
  show readStamp s = readClock s >>= _
  simp only [readStamp, readClock, bind_assoc]
  rfl

/-- A time without a fraction may be read as one with a fraction. -/
theorem parsePlain?_of_parseWhole? {s : List Char} {t : Instant} (h : parseWhole? s = some t) :
    parsePlain? s = some t := by
  rw [parseWhole?] at h
  rw [parsePlain?, readStamp_eq]
  cases hclock : readClock s with
  | error fault =>
      rw [hclock] at h
      cases h
  | ok read =>
      obtain ⟨stamp, rest⟩ := read
      rw [hclock] at h
      cases rest with
      | nil => exact h
      | cons c r => cases h

/-- A text is read by the first form that it has. -/
theorem parse?_eq_findSome? (s : List Char) : parse? s = forms.findSome? fun read => read s := by
  rw [parse?, forms]
  cases hplain : parsePlain? s with
  | some t => simp [hplain]
  | none =>
      cases hwhole : parseWhole? s with
      | some t =>
          rw [parsePlain?_of_parseWhole? hwhole] at hplain
          cases hplain
      | none => cases hstrict : Rfc3339.parseStrict? s <;> simp [hplain, hwhole, hstrict]

end Stored

/-! ## Internet times -/

namespace Rfc3339

/-- A number of exactly so many digits is read, and what follows is left. -/
theorem readExact_padded {w least greatest n : Nat} (hw : 0 < w) (h : n < 10 ^ w)
    (hl : least ≤ n) (hg : n ≤ greatest) (s : List Char) :
    readExact w least greatest (padded w n ++ s) = .ok (n, s) := by
  have htaken : ¬(padded w n ++ s).length - s.length < w := by
    rw [List.length_append, length_padded hw h]
    omega
  simp only [readExact, readNumber_padded hw h, bind, Except.bind, if_neg htaken,
    decide_eq_true hl, decide_eq_true hg]
  rfl

theorem readExact_of_noDigitAhead {w : Nat} {c : Char} (hc : isDigit c = false)
    (least greatest : Nat) (s : List Char) :
    readExact w least greatest (c :: s) = .error .invalid := by
  have hnone : ((c :: s).take w).takeWhile isDigit = [] := by
    cases w with
    | zero => rfl
    | succ w => rw [List.take_succ_cons, List.takeWhile_cons, hc, if_neg Bool.false_ne_true]
  rw [readExact, readNumber, hnone]
  rfl

/-- A stored time is no internet time: its year has a sign, or it tells no offset. -/
theorem parseStrict?_format (t : Instant) : parseStrict? (Stored.format t) = none := by
  have hseparator : ∀ s, readSeparator (' ' :: s) = .ok ((), s) := fun s => rfl
  obtain ⟨fault, herror⟩ : ∃ fault, readStrictStamp (Stored.format t) = .error fault := by
    rw [Stored.format_eq, readStrictStamp]
    by_cases hshort : 0 ≤ t.date.year ∧ t.date.year ≤ 9999
    · have hh := t.hour_lt
      have hm := t.minute_lt
      have hs := t.shownSecond_le
      have hmonth := t.date.month_le
      have hday := t.date.day_le_31
      have hyear : yearText t.date.year = padded 4 t.date.year.toNat := if_pos hshort
      refine ⟨.tooShort, ?_⟩
      rw [hyear]
      simp only [readExact_padded (by decide : 0 < 4) (by omega) (Nat.zero_le _)
          (by omega : t.date.year.toNat ≤ 9999),
        readExact_padded (by decide : 0 < 2) (by omega) t.date.month_ge hmonth,
        readExact_padded (by decide : 0 < 2) (by omega) t.date.day_ge hday,
        readExact_padded (by decide : 0 < 2) (by omega) (Nat.zero_le _) (by omega : t.hour ≤ 23),
        readExact_padded (by decide : 0 < 2) (by omega) (Nat.zero_le _)
          (by omega : t.minute ≤ 59),
        readExact_padded (by decide : 0 < 2) (by omega) (Nat.zero_le _) hs,
        readMark_cons, hseparator, readFraction_padded t.shownNanos_lt, bind, Except.bind]
      rfl
    · have hsign : isDigit (if t.date.year < 0 then '-' else '+') = false := by
        split <;> decide
      refine ⟨.invalid, ?_⟩
      rw [yearText, if_neg hshort, List.cons_append, readExact_of_noDigitAhead hsign]
      rfl
  rw [parseStrict?, herror]

end Rfc3339

/-! ## What is stored -/

namespace Stored

/-- A stored text gives its instant back, by whichever form it is read: the whole calendar,
    all nanoseconds and leap seconds.  So different instants have different texts. -/
theorem stored_times_read_back :
    (∀ s, parse? s = forms.findSome? fun read => read s)
      ∧ (∀ t, parse? (format t) = some t
        ∧ ∀ read ∈ forms, ∀ u, read (format t) = some u → u = t)
      ∧ ∀ t u, format t = format u → t = u := by
  refine ⟨parse?_eq_findSome?, fun t => ⟨parse?_format t, ?_⟩, ?_⟩
  · have hplain : ∀ u, parsePlain? (format t) = some u → u = t := by
      intro u hu
      have hparse := parse?_format t
      rw [parse?, hu] at hparse
      exact Option.some.inj hparse
    intro read hread u hu
    rcases List.mem_cons.1 hread with rfl | hread
    · exact hplain u hu
    · rcases List.mem_cons.1 hread with rfl | hread
      · exact hplain u (parsePlain?_of_parseWhole? hu)
      · cases List.mem_singleton.1 hread
        rw [Rfc3339.parseStrict?_format] at hu
        cases hu
  · intro t u h
    have ht := parse?_format t
    rw [h, parse?_format] at ht
    exact (Option.some.inj ht).symm

end Stored

end HealthWatch.Instant
