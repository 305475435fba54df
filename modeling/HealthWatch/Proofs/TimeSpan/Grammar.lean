import HealthWatch.Proofs.Text.Decimal
import HealthWatch.TimeSpan
import HealthWatch.Word

/-! # Time spans — which texts are read, and as what

    A time span is `D.H:M:S.F`, where the days with their point and the fraction with its
    point may be missing.  Its fields are numerals of any length, the fraction is digits, at
    most seven, and what they come to fits into a duration.

    * `Form` says which texts these are, and what they stand for;
    * `reads_exactly_forms`: these texts are read, and no others, and no operation on
      machine words that takes part in it overflows. -/

namespace HealthWatch.TimeSpan

open Text

/-! ## The texts of time spans -/

/-- The digits behind the point: at most seven, and possibly none. -/
structure Fraction where
  digits : List Char
  length_le : digits.length ≤ 7
  isDigit_of_mem : ∀ c ∈ digits, isDigit c = true

namespace Fraction

/-- A fraction in units of one hundred nanoseconds: its digits, filled up to seven. -/
def ticks (f : Fraction) : Nat :=
  valueOf (f.digits ++ List.replicate (7 - f.digits.length) '0')

/-- Seven digits are below a second. -/
theorem ticks_lt (f : Fraction) : f.ticks < 10000000 := by
  have hlength : (f.digits ++ List.replicate (7 - f.digits.length) '0').length = 7 := by
    have := f.length_le
    rw [List.length_append, List.length_replicate]
    omega
  have hlt : f.ticks < 10 ^ (f.digits ++ List.replicate (7 - f.digits.length) '0').length := by
    refine valueOf_lt fun c hc => ?_
    rcases List.mem_append.1 hc with hc | hc
    · exact f.isDigit_of_mem c hc
    · rw [List.eq_of_mem_replicate hc]
      decide
  rwa [hlength] at hlt

end Fraction

/-- Days before their point, or nothing. -/
def daysText : Option Numeral → List Char
  | some n => n.text ++ ['.']
  | none => []

/-- The number of days, none when they are not written. -/
def daysValue : Option Numeral → Nat
  | some n => n.value
  | none => 0

/-- A fraction behind its point, or nothing. -/
def fractionText : Option Fraction → List Char
  | some f => '.' :: f.digits
  | none => []

/-- The units of one hundred nanoseconds, none when no fraction is written. -/
def fractionTicks : Option Fraction → Nat
  | some f => f.ticks
  | none => 0

theorem fractionTicks_lt (f : Option Fraction) : fractionTicks f < 10000000 := by
  cases f with
  | none => decide
  | some f => exact f.ticks_lt

/-- The fields of a time span. -/
structure Fields where
  days : Option Numeral
  hours : Numeral
  minutes : Numeral
  seconds : Numeral
  fraction : Option Fraction

namespace Fields

/-- The text with these fields. -/
def text (f : Fields) : List Char :=
  daysText f.days ++ f.hours.text ++ ':' :: (f.minutes.text
    ++ ':' :: (f.seconds.text ++ fractionText f.fraction))

/-- The seconds that the fields make up. -/
def totalSeconds (f : Fields) : Nat :=
  daysValue f.days * 86400 + f.hours.value * 3600 + f.minutes.value * 60 + f.seconds.value

end Fields

/-- The fields of a duration, each in its range. -/
structure Form extends Fields where
  hours_le : hours.value ≤ 23
  minutes_le : minutes.value ≤ 59
  seconds_le : seconds.value ≤ 59
  totalSeconds_lt : toFields.totalSeconds < wordBound

/-- The duration that a time span stands for. -/
def Form.duration (f : Form) : Duration where
  seconds := f.totalSeconds
  nanos := 100 * fractionTicks f.fraction
  seconds_lt := f.totalSeconds_lt
  nanos_lt := by
    have := fractionTicks_lt f.fraction
    omega

/-! ## The fields -/

/-- Days and hours are read of a numeral behind a point or of one without a point. -/
theorem parseDayHour?_eq_some_iff {field : List Char} {d h : Nat} :
    parseDayHour? field = some (d, h) ↔ ∃ (days : Option Numeral) (hours : Numeral),
      field = daysText days ++ hours.text ∧ daysValue days = d ∧ hours.value = h
        ∧ d < wordBound ∧ h < wordBound := by
  have hpoint : ∀ n : Numeral, '.' ∉ n.text := Numeral.notMem_text (by decide) (by decide)
  constructor
  · intro hread
    unfold parseDayHour? at hread
    split at hread
    · next front back hcut =>
        simp only [Option.bind_eq_bind, Option.bind_eq_some_iff] at hread
        obtain ⟨d', hd, h', hh, heq⟩ := hread
        cases heq
        obtain ⟨days, rfl, rfl, hdays⟩ := unsigned?_eq_some_iff.1 hd
        obtain ⟨hours, rfl, rfl, hhours⟩ := unsigned?_eq_some_iff.1 hh
        refine ⟨some days, hours, ?_, rfl, rfl, hdays, hhours⟩
        rw [cutFirst_append hcut, daysText, List.append_assoc, List.singleton_append]
    · simp only [Option.bind_eq_bind, Option.bind_eq_some_iff] at hread
      obtain ⟨h', hh, heq⟩ := hread
      cases heq
      obtain ⟨hours, rfl, rfl, hhours⟩ := unsigned?_eq_some_iff.1 hh
      exact ⟨none, hours, rfl, rfl, rfl, by decide, hhours⟩
  · rintro ⟨days, hours, rfl, rfl, rfl, hd, hh⟩
    have hhours := unsigned?_eq_some_iff.2 ⟨hours, rfl, rfl, hh⟩
    cases days with
    | none =>
        rw [parseDayHour?, daysText, List.nil_append, cutFirst_eq_none (hpoint hours)]
        simp [hhours, daysValue]
    | some days =>
        have hdays := unsigned?_eq_some_iff.2 ⟨days, rfl, rfl, hd⟩
        rw [parseDayHour?, daysText, List.append_assoc, List.singleton_append,
          cutFirst_of_not_mem _ (hpoint days)]
        simp [hhours, hdays, daysValue]

/-- A fraction is read of digits, at most seven. -/
theorem parseTicks?_eq_some_iff {s : List Char} {t : Nat} :
    parseTicks? s = some t ↔ ∃ f : Fraction, s = f.digits ∧ f.ticks = t := by
  constructor
  · intro h
    unfold parseTicks? at h
    split at h
    · cases h
    · next hs =>
        cases h
        simp only [Bool.or_eq_true, decide_eq_true_eq, Bool.not_eq_true', not_or,
          Nat.not_lt, Bool.not_eq_false, List.all_eq_true] at hs
        exact ⟨⟨s, hs.1, hs.2⟩, rfl, rfl⟩
  · rintro ⟨f, rfl, rfl⟩
    have hall : f.digits.all isDigit = true := List.all_eq_true.2 f.isDigit_of_mem
    have hlength : ¬ f.digits.length > 7 := Nat.not_lt.2 f.length_le
    rw [parseTicks?, hall, decide_eq_false hlength]
    rfl

/-- Seconds and ticks are read of a numeral, with a fraction behind it or not. -/
theorem parseSecondTick?_eq_some_iff {field : List Char} {s t : Nat} :
    parseSecondTick? field = some (s, t) ↔ ∃ (seconds : Numeral) (fraction : Option Fraction),
      field = seconds.text ++ fractionText fraction ∧ seconds.value = s
        ∧ fractionTicks fraction = t ∧ s < wordBound := by
  have hpoint : ∀ n : Numeral, '.' ∉ n.text := Numeral.notMem_text (by decide) (by decide)
  have hnone : parseTicks? [] = some 0 := by decide
  constructor
  · intro hread
    unfold parseSecondTick? at hread
    simp only [Option.bind_eq_bind, Option.bind_eq_some_iff] at hread
    obtain ⟨s', hs, t', ht, heq⟩ := hread
    cases heq
    obtain ⟨seconds, hseconds, rfl, hlt⟩ := unsigned?_eq_some_iff.1 hs
    cases hcut : cutFirst '.' field with
    | none =>
        rw [hcut] at hseconds ht
        obtain rfl : field = seconds.text := hseconds
        cases hnone.symm.trans ht
        exact ⟨seconds, none, (List.append_nil _).symm, rfl, rfl, hlt⟩
    | some cut =>
        rw [hcut] at hseconds ht
        obtain ⟨f, hf, rfl⟩ := parseTicks?_eq_some_iff.1 ht
        refine ⟨seconds, some f, ?_, rfl, rfl, hlt⟩
        rw [cutFirst_append hcut, fractionText, ← hf, ← hseconds]
        rfl
  · rintro ⟨seconds, fraction, rfl, rfl, rfl, hs⟩
    have hseconds := unsigned?_eq_some_iff.2 ⟨seconds, rfl, rfl, hs⟩
    cases fraction with
    | none =>
        rw [parseSecondTick?, fractionText, List.append_nil, cutFirst_eq_none (hpoint seconds)]
        simp [hseconds, hnone, fractionTicks]
    | some f =>
        have hticks := parseTicks?_eq_some_iff.2 ⟨f, rfl, rfl⟩
        rw [parseSecondTick?, fractionText, cutFirst_of_not_mem _ (hpoint seconds)]
        simp [hseconds, hticks, fractionTicks]

/-! ## The numbers of a text -/

/-- The numbers of the fields of a text. -/
structure Reading where
  days : Nat
  hours : Nat
  minutes : Nat
  seconds : Nat
  ticks : Nat

/-- Reads the fields of a text, before any of them is compared with its range. -/
def read? (text : List Char) : Option Reading := do
  let (head, tail) ← cutFirst ':' (trim text)
  let (middle, rest) ← cutFirst ':' tail
  let minutes ← unsigned? wordBound middle
  let (days, hours) ← parseDayHour? head
  let (seconds, ticks) ← parseSecondTick? rest
  return { days, hours, minutes, seconds, ticks }

namespace Reading

/-- The duration of a reading, when it is in range. -/
def duration? (r : Reading) : Option Duration :=
  if r.hours > 23 || r.minutes > 59 || r.seconds > 59 then none
  else Duration.of? (r.days * 86400 + r.hours * 3600 + r.minutes * 60 + r.seconds) (r.ticks * 100)

/-- What was read is a duration when its fields are in their ranges. -/
theorem duration?_eq_some_iff {r : Reading} {d : Duration} :
    r.duration? = some d ↔ (r.hours ≤ 23 ∧ r.minutes ≤ 59 ∧ r.seconds ≤ 59)
      ∧ d.seconds = r.days * 86400 + r.hours * 3600 + r.minutes * 60 + r.seconds
      ∧ d.nanos = r.ticks * 100 := by
  unfold duration?
  split
  · next hout =>
      simp only [Bool.or_eq_true, decide_eq_true_eq] at hout
      refine iff_of_false (fun h => nomatch h) ?_
      rintro ⟨⟨hh, hm, hs⟩, -⟩
      omega
  · next hin =>
      simp only [Bool.or_eq_true, decide_eq_true_eq] at hin
      rw [Duration.of?_eq_some_iff]
      exact (and_iff_right (by omega)).symm

end Reading

/-- The numbers of fields. -/
def Fields.reading (f : Fields) : Reading where
  days := daysValue f.days
  hours := f.hours.value
  minutes := f.minutes.value
  seconds := f.seconds.value
  ticks := fractionTicks f.fraction

/-- What is read are the texts of fields whose numbers fit into machine words. -/
theorem read?_eq_some_iff {text : List Char} {r : Reading} :
    read? text = some r ↔ ∃ f : Fields, trim text = f.text ∧ f.reading = r
      ∧ r.days < wordBound ∧ r.hours < wordBound ∧ r.minutes < wordBound
      ∧ r.seconds < wordBound := by
  have hcolon : ∀ n : Numeral, ':' ∉ n.text := Numeral.notMem_text (by decide) (by decide)
  constructor
  · intro h
    simp only [read?, Option.bind_eq_bind, Option.bind_eq_some_iff] at h
    obtain ⟨⟨head, tail⟩, hhead, ⟨middle, rest⟩, hmiddle, m, hm, ⟨d, h⟩, hdh, ⟨s, t⟩, hst, hr⟩ := h
    cases hr
    obtain ⟨minutes, rfl, rfl, hminutes⟩ := unsigned?_eq_some_iff.1 hm
    obtain ⟨days, hours, rfl, rfl, rfl, hdays, hhours⟩ := parseDayHour?_eq_some_iff.1 hdh
    obtain ⟨seconds, fraction, rfl, rfl, rfl, hseconds⟩ := parseSecondTick?_eq_some_iff.1 hst
    refine ⟨⟨days, hours, minutes, seconds, fraction⟩, ?_, rfl, hdays, hhours, hminutes, hseconds⟩
    have htail : tail = minutes.text ++ ':' :: (seconds.text ++ fractionText fraction) :=
      cutFirst_append hmiddle
    rw [cutFirst_append hhead, htail]
    rfl
  · rintro ⟨⟨days, hours, minutes, seconds, fraction⟩, htext, rfl, hdays, hhours, hminutes,
      hseconds⟩
    have hhead : ':' ∉ daysText days ++ hours.text := by
      cases days with
      | none => exact hcolon hours
      | some n => simp [daysText, hcolon]
    have hdh := parseDayHour?_eq_some_iff.2 ⟨days, hours, rfl, rfl, rfl, hdays, hhours⟩
    have hm := unsigned?_eq_some_iff.2 ⟨minutes, rfl, rfl, hminutes⟩
    have hst := parseSecondTick?_eq_some_iff.2 ⟨seconds, fraction, rfl, rfl, rfl, hseconds⟩
    rw [read?, htext, Fields.text, cutFirst_of_not_mem _ hhead]
    simp only [Option.bind_eq_bind, Option.bind_some, cutFirst_of_not_mem _ (hcolon minutes), hm,
      hdh, hst]
    rfl

/-- A duration is read by taking its fields and bringing them together. -/
theorem parse?_eq (text : List Char) : parse? text = (read? text).bind Reading.duration? := by
  simp only [parse?, read?, Reading.duration?, Option.bind_eq_bind, Option.bind_assoc,
    Option.pure_def, Option.bind_some]

/-- What is read as a duration are the texts of forms. -/
theorem parse?_eq_some_iff {text : List Char} {d : Duration} :
    parse? text = some d ↔ ∃ f : Form, trim text = f.text ∧ f.duration = d := by
  rw [parse?_eq, Option.bind_eq_some_iff]
  constructor
  · rintro ⟨r, hread, hd⟩
    obtain ⟨f, htext, rfl, -⟩ := read?_eq_some_iff.1 hread
    obtain ⟨⟨hours_le, minutes_le, seconds_le⟩, hseconds, hnanos⟩ :=
      Reading.duration?_eq_some_iff.1 hd
    have htotal : d.seconds < wordBound := d.seconds_lt
    rw [hseconds] at htotal
    refine ⟨⟨f, hours_le, minutes_le, seconds_le, htotal⟩, htext, ?_⟩
    cases d
    cases hseconds
    cases hnanos
    rw [Form.duration]
    congr 1
    exact Nat.mul_comm _ _
  · rintro ⟨f, htext, rfl⟩
    have hhours := f.hours_le
    have hminutes := f.minutes_le
    have hseconds := f.seconds_le
    have htotal := f.totalSeconds_lt
    rw [Fields.totalSeconds] at htotal
    refine ⟨f.reading, read?_eq_some_iff.2 ⟨f.toFields, htext, rfl, ?_⟩, ?_⟩
    · simp only [Fields.reading]
      omega
    · refine Reading.duration?_eq_some_iff.2 ⟨⟨hhours, hminutes, hseconds⟩, rfl, ?_⟩
      exact Nat.mul_comm _ _

/-! ## Machine words -/

/-- The bound of numbers of thirty-two bits, as which ticks and nanoseconds are kept. -/
abbrev nanosBound : Nat := 4294967296

/-- The seconds of a time of day. -/
def clock (hours minutes seconds : Nat) : Except Overflow Nat := do
  let sum ← word wordBound ((← word wordBound (hours * 3600)) + (← word wordBound (minutes * 60)))
  word wordBound (sum + seconds)

/-- The duration of these seconds and nanoseconds; whole seconds are carried over. -/
def carry (seconds nanos : Nat) : Except Overflow (Option Duration) := do
  let seconds ← word wordBound (seconds + nanos / 1000000000)
  return Duration.of? seconds (nanos % 1000000000)

/-- The duration of a reading as machine words compute it.  Of the operations only the product of
    the days and the sum with the time of day are checked: nothing is read when one of them does
    not fit. -/
def Reading.computed? (r : Reading) : Except Overflow (Option Duration) := do
  if r.hours > 23 || r.minutes > 59 || r.seconds > 59 then return none
  else if r.ticks ≥ nanosBound || r.days * 86400 ≥ wordBound then return none
  else
    let time ← clock r.hours r.minutes r.seconds
    if r.days * 86400 + time ≥ wordBound then return none
    else carry (r.days * 86400 + time) (← word nanosBound (r.ticks * 100))

/-- Reads a time span with machine words. -/
def computed? (text : List Char) : Except Overflow (Option Duration) :=
  match read? text with
  | some r => r.computed?
  | none => .ok none

/-- Hours, minutes and seconds in their ranges fit into a word. -/
theorem clock_eq {h m s : Nat} (hh : h ≤ 23) (hm : m ≤ 59) (hs : s ≤ 59) :
    clock h m s = pure (h * 3600 + m * 60 + s) := by
  have hfits : ∀ {n : Nat}, n < 86400 → word wordBound n = pure n := fun hn =>
    word_of_lt (Nat.lt_trans hn (by decide))
  have hall : h * 3600 + m * 60 + s < 86400 := by omega
  have hsum : h * 3600 + m * 60 < 86400 := Nat.lt_of_le_of_lt (Nat.le_add_right _ _) hall
  have hhours : h * 3600 < 86400 := Nat.lt_of_le_of_lt (Nat.le_add_right _ _) hsum
  have hminutes : m * 60 < 86400 := Nat.lt_of_le_of_lt (Nat.le_add_left _ _) hsum
  simp only [clock, hfits hhours, hfits hminutes, hfits hsum, hfits hall, pure_bind]

/-- Seconds and nanoseconds in their ranges make a duration without a carry. -/
theorem carry_eq {s n : Nat} (hs : s < wordBound) (hn : n < 1000000000) :
    carry s n = .ok (Duration.of? s n) := by
  rw [carry, Nat.div_eq_of_lt hn, Nat.mod_eq_of_lt hn, Nat.add_zero, word_of_lt hs]
  rfl

/-- No operation overflows on what can stand in a text, and machine words come to the duration. -/
theorem Reading.computed?_eq {r : Reading} (h : r.ticks < 10000000) :
    r.computed? = .ok r.duration? := by
  have hticks : ¬ r.ticks ≥ 4294967296 := by omega
  have hnanos : r.ticks * 100 < 4294967296 := by omega
  have hnone : ∀ {s n : Nat}, s ≥ wordBound → Duration.of? s n = none := fun hs =>
    dif_neg fun hfits => Nat.not_lt.2 hs hfits.1
  unfold computed? duration?
  split
  · rfl
  · next hin =>
      simp only [Bool.or_eq_true, decide_eq_true_eq] at hin
      have htotal : r.days * 86400 + (r.hours * 3600 + r.minutes * 60 + r.seconds)
          = r.days * 86400 + r.hours * 3600 + r.minutes * 60 + r.seconds := by omega
      rw [clock_eq (by omega) (by omega) (by omega), decide_eq_false hticks, Bool.false_or,
        word_of_lt hnanos, ← htotal]
      simp only [pure_bind]
      split
      · next hdays =>
          rw [hnone (Nat.le_trans (of_decide_eq_true hdays) (Nat.le_add_right _ _))]
          rfl
      · split
        · next hsum =>
            rw [hnone hsum]
            rfl
        · next hsum => exact carry_eq (Nat.not_le.1 hsum) (by omega)

/-- What is computed in words is what is read, and nothing overflows. -/
theorem computed?_eq (text : List Char) : computed? text = .ok (parse? text) := by
  rw [computed?, parse?_eq]
  cases hread : read? text with
  | none => rfl
  | some r =>
      obtain ⟨f, -, rfl, -⟩ := read?_eq_some_iff.1 hread
      exact Reading.computed?_eq (fractionTicks_lt f.fraction)

/-! ## Whole texts -/

/-- A text is read when it is, between blanks, one of the forms, and as the seconds and the units
    of one hundred nanoseconds that the form has; machine words come to the same, without an
    overflow. -/
theorem reads_exactly_forms (text : List Char) :
    ((parse? text).isSome = true ↔ ∃ f : Form, trim text = f.text)
      ∧ (∀ f : Form, trim text = f.text → ∃ d, parse? text = some d
          ∧ d.seconds = f.totalSeconds ∧ d.nanos = 100 * fractionTicks f.fraction)
      ∧ computed? text = .ok (parse? text) := by
  refine ⟨?_, ?_, computed?_eq text⟩
  · rw [Option.isSome_iff_exists]
    constructor
    · rintro ⟨d, hd⟩
      obtain ⟨f, htext, -⟩ := parse?_eq_some_iff.1 hd
      exact ⟨f, htext⟩
    · rintro ⟨f, htext⟩
      exact ⟨f.duration, parse?_eq_some_iff.2 ⟨f, htext, rfl⟩⟩
  · intro f htext
    exact ⟨f.duration, parse?_eq_some_iff.2 ⟨f, htext, rfl⟩, rfl, rfl⟩

end HealthWatch.TimeSpan
