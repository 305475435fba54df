import HealthWatch.Proofs.TimeSpan.Grammar

/-! # Time spans — durations are read back from their texts

    What is written for a duration is the text of a form (`Fields.text_ofDuration`), so it is
    read.  It has lost what is below one hundred nanoseconds and nothing else: reading gives the
    duration cut down to units of one hundred nanoseconds (`parse?_format`). -/

namespace HealthWatch.TimeSpan

open Text

/-! ## The fields of a written duration -/

/-- A number of units of one hundred nanoseconds as seven digits. -/
def Fraction.ofTicks (n : Nat) (h : n < 10000000) : Fraction where
  digits := padded 7 n
  length_le := Nat.le_of_eq (length_padded (by decide) h)
  isDigit_of_mem := fun _ => isDigit_of_mem_padded

theorem Fraction.ticks_ofTicks {n : Nat} (h : n < 10000000) : (ofTicks n h).ticks = n := by
  have hlength : (padded 7 n).length = 7 := length_padded (by decide) h
  rw [ticks, ofTicks, hlength, Nat.sub_self, List.replicate_zero, List.append_nil, valueOf_padded]

namespace Fields

/-- The fields as which a duration is written. -/
def ofDuration (d : Duration) : Fields where
  days := if d.seconds / 86400 = 0 then none else some (.ofNat 0 (d.seconds / 86400))
  hours := .ofNat 2 (d.seconds % 86400 / 3600)
  minutes := .ofNat 2 (d.seconds % 3600 / 60)
  seconds := .ofNat 2 (d.seconds % 60)
  fraction :=
    if d.nanos / 100 = 0 then none
    else some (.ofTicks (d.nanos / 100) (by have := d.nanos_lt; omega))

/-- A duration is written as the text of its fields. -/
theorem text_ofDuration (d : Duration) : (ofDuration d).text = format d := by
  have hdays : daysText (ofDuration d).days
      = if d.seconds / 86400 = 0 then [] else digits (d.seconds / 86400) ++ ['.'] := by
    by_cases h : d.seconds / 86400 = 0
    · simp [ofDuration, h, daysText]
    · simp [ofDuration, h, daysText, padded]
  have hfraction : fractionText (ofDuration d).fraction
      = if d.nanos / 100 = 0 then [] else '.' :: padded 7 (d.nanos / 100) := by
    by_cases h : d.nanos / 100 = 0
    · simp [ofDuration, h, fractionText]
    · simp [ofDuration, h, fractionText, Fraction.ofTicks]
  rw [text, hdays, hfraction]
  simp [ofDuration, format]

/-- The fields make up the seconds of the duration. -/
theorem totalSeconds_ofDuration (d : Duration) : (ofDuration d).totalSeconds = d.seconds := by
  have hdays : daysValue (ofDuration d).days = d.seconds / 86400 := by
    by_cases h : d.seconds / 86400 = 0
    · simp [ofDuration, h, daysValue]
    · simp [ofDuration, h, daysValue]
  rw [totalSeconds, hdays]
  simp only [ofDuration, Numeral.value_ofNat]
  omega

/-- The fraction of a written duration counts units of one hundred nanoseconds. -/
theorem fractionTicks_ofDuration (d : Duration) :
    fractionTicks (ofDuration d).fraction = d.nanos / 100 := by
  by_cases h : d.nanos / 100 = 0
  · simp [ofDuration, h, fractionTicks]
  · simp [ofDuration, h, fractionTicks, Fraction.ticks_ofTicks]

/-- There are no blanks in the text of fields. -/
theorem isBlank_of_mem_text {f : Fields} {c : Char} (h : c ∈ f.text) : isBlank c = false := by
  have hdays : c ∈ daysText f.days → isBlank c = false := by
    cases f.days with
    | none => exact fun h => absurd h List.not_mem_nil
    | some n =>
        rw [daysText, List.mem_append, List.mem_singleton]
        rintro (h | rfl)
        · exact Numeral.isBlank_of_mem_text h
        · decide
  have hfraction : c ∈ fractionText f.fraction → isBlank c = false := by
    cases f.fraction with
    | none => exact fun h => absurd h List.not_mem_nil
    | some x =>
        rw [fractionText, List.mem_cons]
        rintro (rfl | h)
        · decide
        · exact isBlank_of_isDigit (x.isDigit_of_mem c h)
  simp only [text, List.mem_append, List.mem_cons] at h
  rcases h with (h | h) | rfl | h | rfl | h | h
  · exact hdays h
  · exact Numeral.isBlank_of_mem_text h
  · decide
  · exact Numeral.isBlank_of_mem_text h
  · decide
  · exact Numeral.isBlank_of_mem_text h
  · exact hfraction h

end Fields

/-- The form as which a duration is written. -/
def Form.ofDuration (d : Duration) : Form where
  toFields := .ofDuration d
  hours_le := by
    rw [Fields.ofDuration, Numeral.value_ofNat]
    omega
  minutes_le := by
    rw [Fields.ofDuration, Numeral.value_ofNat]
    omega
  seconds_le := by
    rw [Fields.ofDuration, Numeral.value_ofNat]
    omega
  totalSeconds_lt := by
    rw [Fields.totalSeconds_ofDuration]
    exact d.seconds_lt

/-! ## The whole text -/

/-- A duration is read back from its text, cut down to units of one hundred
    nanoseconds. -/
theorem parse?_format (d : Duration) : parse? (format d) = some d.truncate := by
  refine parse?_eq_some_iff.2 ⟨.ofDuration d, ?_, ?_⟩
  · rw [← Fields.text_ofDuration, trim_of_no_blank fun _ => Fields.isBlank_of_mem_text]
    rfl
  · have hseconds : (Form.ofDuration d).totalSeconds = d.seconds :=
      Fields.totalSeconds_ofDuration d
    have hticks : fractionTicks (Form.ofDuration d).fraction = d.nanos / 100 :=
      Fields.fractionTicks_ofDuration d
    simp only [Form.duration, Duration.truncate, hseconds, hticks, Nat.mul_comm]

/-- A time span is read in units of one hundred nanoseconds. -/
theorem truncate_of_parse? {s : List Char} {d : Duration} (h : parse? s = some d) :
    d.truncate = d := by
  obtain ⟨f, -, rfl⟩ := parse?_eq_some_iff.1 h
  have hn : 100 * fractionTicks f.fraction / 100 * 100 = 100 * fractionTicks f.fraction := by omega
  simp only [Duration.truncate, Form.duration, hn]

end HealthWatch.TimeSpan
