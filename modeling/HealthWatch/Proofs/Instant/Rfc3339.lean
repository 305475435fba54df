import HealthWatch.Proofs.Instant.Stored

/-! # Internet times — every instant is read back from its internet time

    The fraction has no, three, six or nine digits, and the year a sign when it is none
    of four digits; the reader takes them all.  A leap second is written as the sixtieth
    second and read back as one (`parse_format`). -/

namespace HealthWatch.Instant

open Text

/-! ## Fractions -/

theorem dropWhile_of_noDigitAhead {s : List Char} (h : NoDigitAhead s) :
    s.dropWhile isDigit = s := by
  cases s with
  | nil => rfl
  | cons c r => rw [List.dropWhile_cons, h c rfl, if_neg Bool.false_ne_true]

/-- A fraction of up to nine digits counts from the left. -/
theorem readNanos_padded {w n : Nat} (hw : 0 < w) (hw9 : w ≤ 9) (h : n < 10 ^ w) {s : List Char}
    (hs : NoDigitAhead s) : readNanos (padded w n ++ s) = .ok (n * Nat.pow 10 (9 - w), s) := by
  have hlength : (padded w n).length = w := length_padded hw h
  have hnumber : readNumber 9 (padded w n ++ s) = .ok (n, s) := by
    have hread := readNumber_append (w := 9) (s := s) (padded_ne_nil w n)
      (fun _ => isDigit_of_mem_padded)
      (by rw [hlength]; exact (Nat.lt_or_eq_of_le hw9).symm.imp_right fun hlt => ⟨hlt, hs⟩)
    rwa [valueOf_padded] at hread
  have htaken : (padded w n ++ s).length - s.length = w := by
    rw [List.length_append, hlength]
    omega
  simp only [readNanos, hnumber, bind, Except.bind, htaken, dropWhile_of_noDigitAhead hs]

namespace Rfc3339

/-- The fraction is read back, however many digits it needs. -/
theorem readFraction_fractionText {n : Nat} (h : n < 1000000000) {s : List Char}
    (hs : NoDigitAhead s) (hpoint : s.head? ≠ some '.') :
    readFraction (fractionText n ++ s) = .ok (n, s) := by
  rw [fractionText]
  split
  next hzero =>
    subst hzero
    cases s with
    | nil => rfl
    | cons c r =>
        rw [List.nil_append, readFraction]
        exact fun r' hr => hpoint (congrArg List.head? hr)
  next =>
    split
    next hmilli =>
      rw [List.cons_append, readFraction, readNanos_padded (by decide) (by decide) (by omega) hs]
      have hn : n / 1000000 * Nat.pow 10 (9 - 3) = n := by
        show n / 1000000 * 1000000 = n
        omega
      rw [hn]
    next =>
      split
      next hmicro =>
        rw [List.cons_append, readFraction, readNanos_padded (by decide) (by decide) (by omega) hs]
        have hn : n / 1000 * Nat.pow 10 (9 - 6) = n := by
          show n / 1000 * 1000 = n
          omega
        rw [hn]
      next =>
        rw [List.cons_append, readFraction, readNanos_padded (by decide) (by decide) (by omega) hs]
        have hn : n * Nat.pow 10 (9 - 9) = n := Nat.mul_one n
        rw [hn]

/-! ## The whole text -/

theorem format_eq (t : Instant) :
    format t = yearText t.date.year ++ '-' :: (padded 2 t.date.month ++ '-'
      :: (padded 2 t.date.day ++ 'T' :: (padded 2 t.hour ++ ':' :: (padded 2 t.minute ++ ':'
      :: (padded 2 t.shownSecond ++ (fractionText t.shownNanos ++ ['Z'])))))) := by
  simp [format, dateText, clockText, shownSecond]

/-- The fields are read back from the text, with no offset. -/
theorem readStamp_format (t : Instant) : readStamp (format t) = .ok ((t.stamp, 0), []) := by
  have hh := t.hour_lt
  have hm := t.minute_lt
  have hs := t.shownSecond_le
  have hmonth := t.date.month_le
  have hday := t.date.day_le_31
  have htrim : ∀ c s, Text.isBlank c = false → trimStart (c :: s) = c :: s :=
    fun c s h => trimStart_cons h s
  have hseparator : ∀ s, readSeparator ('T' :: s) = .ok ((), s) := fun s => rfl
  have hzone : readZone ['Z'] = .ok (0, []) := rfl
  rw [format_eq, readStamp]
  simp only [readYear_yearText t.date.year_ge t.date.year_le, htrim '-' _ (by decide),
    htrim ':' _ (by decide), htrim 'Z' _ (by decide), readMark_cons, hseparator, hzone,
    readField_padded t.date.month_ge hmonth (by omega),
    readField_padded t.date.day_ge hday (by omega),
    readField_padded (Nat.zero_le t.hour) (by omega : t.hour ≤ 23) (by omega),
    readField_padded (Nat.zero_le t.minute) (by omega : t.minute ≤ 59) (by omega),
    readField_padded (Nat.zero_le t.shownSecond) hs (by omega),
    readFraction_fractionText t.shownNanos_lt (noDigitAhead_cons (by decide) [])
      (by decide : ['Z'].head? ≠ some '.'), bind, Except.bind]
  rfl

/-- An instant is read back from its internet time. -/
theorem parse_format (t : Instant) : parse (format t) = .ok t := by
  rw [parse, readStamp_format]
  show t.stamp.instantAt 0 = .ok t
  rw [Stamp.instantAt, instant?_stamp]
  rfl

end Rfc3339

end HealthWatch.Instant
