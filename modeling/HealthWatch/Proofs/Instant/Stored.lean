import HealthWatch.Instant.Stored
import HealthWatch.Proofs.Text.Decimal

/-! # Stored times — every instant is read back from its stored text

    Each part of a written time is read from the front of the text and leaves what
    stands behind it.  Together the parts give the instant back (`parse?_format`), in
    all years and with leap seconds. -/

namespace HealthWatch

/-- The fields of a date name it. -/
theorem Date.of?_fields (d : Date) : Date.of? d.year d.month d.day = some d := by
  have h : -262143 ≤ d.year ∧ d.year ≤ 262142 ∧ 1 ≤ d.month ∧ d.month ≤ 12 ∧ 1 ≤ d.day
      ∧ d.day ≤ daysInMonth d.year d.month :=
    ⟨d.year_ge, d.year_le, d.month_ge, d.month_le, d.day_ge, d.day_le⟩
  rw [Date.of?, dif_pos h]

theorem Date.day_le_31 (d : Date) : d.day ≤ 31 := by
  have h := d.day_le
  have hmonth : daysInMonth d.year d.month ≤ 31 := by
    rw [daysInMonth]
    repeat' split <;> try decide
  omega

namespace Instant

open Text

/-- An instant is made of its fields. -/
theorem of?_fields (t : Instant) : of? t.date t.hour t.minute t.second t.nanos = some t := by
  have h : t.hour < 24 ∧ t.minute < 60 ∧ t.second < 60
      ∧ (t.nanos < 1000000000 ∨ (t.second = 59 ∧ t.nanos < 2000000000)) :=
    ⟨t.hour_lt, t.minute_lt, t.second_lt, t.nanos_lt⟩
  rw [of?, dif_pos h]

/-- A leap second stands in the last second of a minute. -/
theorem second_of_isLeap {t : Instant} (h : t.isLeap = true) :
    t.second = 59 ∧ 1000000000 ≤ t.nanos ∧ t.nanos < 2000000000 := by
  have hn : 1000000000 ≤ t.nanos := of_decide_eq_true h
  rcases t.nanos_lt with hlt | ⟨hs, hlt⟩
  · omega
  · exact ⟨hs, hn, hlt⟩

theorem nanos_lt_of_not_isLeap {t : Instant} (h : t.isLeap = false) : t.nanos < 1000000000 := by
  have hn : ¬1000000000 ≤ t.nanos := of_decide_eq_false h
  omega

/-- The second that the clock shows. -/
def shownSecond (t : Instant) : Nat :=
  if t.isLeap then t.second + 1 else t.second

theorem shownSecond_le (t : Instant) : t.shownSecond ≤ 60 := by
  have := t.second_lt
  rw [shownSecond]
  split <;> omega

/-- Nine digits are enough for the fraction that is shown. -/
theorem shownNanos_lt (t : Instant) : t.shownNanos < 1000000000 := by
  rw [shownNanos]
  split
  next h =>
    have := (second_of_isLeap h).2.2
    omega
  next h => exact nanos_lt_of_not_isLeap (Bool.eq_false_iff.2 h)

/-! ## Reading the parts -/

/-- A text that does not start with a digit. -/
def NoDigitAhead (s : List Char) : Prop := ∀ c ∈ s.head?, isDigit c = false

theorem takeWhile_append_of_digits {ds s : List Char} (hd : ∀ c ∈ ds, isDigit c = true)
    (hs : NoDigitAhead s) : (ds ++ s).takeWhile isDigit = ds := by
  induction ds with
  | nil =>
      cases s with
      | nil => rfl
      | cons c r => simp [hs c (by simp)]
  | cons c ds ih =>
      rw [List.cons_append, List.takeWhile_cons, hd c (by simp), if_pos rfl,
        ih fun d h => hd d (List.mem_cons_of_mem c h)]

/-- Reads digits that fill the width or stand before something else. -/
theorem readNumber_append {w : Nat} {ds s : List Char} (hne : ds ≠ [])
    (hd : ∀ c ∈ ds, isDigit c = true) (hw : ds.length = w ∨ ds.length < w ∧ NoDigitAhead s) :
    readNumber w (ds ++ s) = .ok (valueOf ds, s) := by
  have htake : ((ds ++ s).take w).takeWhile isDigit = ds := by
    rcases hw with rfl | ⟨hlt, hs⟩
    · rw [List.take_left']
      · have := takeWhile_append_of_digits (s := []) hd (by intro c h; exact nomatch h)
        rwa [List.append_nil] at this
      · rfl
    · -- the width reaches beyond the digits, and no digit stands there
      rw [List.take_append, List.take_of_length_le (Nat.le_of_lt hlt)]
      refine takeWhile_append_of_digits hd ?_
      intro c hc
      refine hs c ?_
      obtain ⟨k, hk⟩ : ∃ k, w - ds.length = k + 1 := ⟨w - ds.length - 1, by omega⟩
      rw [hk] at hc
      cases s with
      | nil => exact nomatch hc
      | cons d r => simpa using hc
  have hempty : ds.isEmpty = false := List.isEmpty_eq_false_iff.2 hne
  simp only [readNumber, htake, hempty, List.drop_left]
  rfl

/-- A padded number is read, and what follows is left. -/
theorem readNumber_padded {w n : Nat} (hw : 0 < w) (h : n < 10 ^ w) (s : List Char) :
    readNumber w (padded w n ++ s) = .ok (n, s) := by
  have := readNumber_append (s := s) (padded_ne_nil w n) (fun _ => isDigit_of_mem_padded)
    (Or.inl (length_padded hw h))
  rwa [valueOf_padded] at this

theorem readMark_cons (c : Char) (s : List Char) : readMark c (c :: s) = .ok ((), s) :=
  if_pos rfl

theorem trimStart_padded (w n : Nat) (s : List Char) :
    trimStart (padded w n ++ s) = padded w n ++ s := by
  obtain ⟨c, r, hc⟩ := List.exists_cons_of_ne_nil (padded_ne_nil w n)
  have hd : isDigit c = true := isDigit_of_mem_padded (w := w) (n := n) (by simp [hc])
  rw [hc]
  exact trimStart_cons (isBlank_of_isDigit hd) _

/-- A field of two digits within its limits. -/
theorem readField_padded {least greatest n : Nat} (hl : least ≤ n) (hg : n ≤ greatest)
    (h : n < 100) (s : List Char) :
    readField least greatest (padded 2 n ++ s) = .ok (n, s) := by
  simp only [readField, trimStart_padded, readNumber_padded (by decide : 0 < 2) h, bind,
    Except.bind, decide_eq_true hl, decide_eq_true hg]
  rfl

theorem readField_blank (least greatest : Nat) (s : List Char) :
    readField least greatest (' ' :: s) = readField least greatest s := by
  rw [readField, readField]
  rfl

theorem noDigitAhead_cons {c : Char} (h : isDigit c = false) (s : List Char) :
    NoDigitAhead (c :: s) := by
  intro d hd
  cases hd
  exact h

/-- A written year is read up to the hyphen behind it. -/
theorem readYear_yearText {y : Int} (hl : -262143 ≤ y) (hg : y ≤ 262142) (s : List Char) :
    readYear (yearText y ++ '-' :: s) = .ok (y, '-' :: s) := by
  have hcheck : ∀ r, checkYear y r = .ok (y, r) := by
    intro r
    have h1 : (-2147483648 ≤ y) = True := eq_true (by omega)
    have h2 : (y < 2147483648) = True := eq_true (by omega)
    simp [checkYear, h1, h2]
  by_cases hsmall : 0 ≤ y ∧ y ≤ 9999
  · -- four digits, of which the first one is no sign
    have hyear : (y.toNat : Int) = y := by omega
    obtain ⟨c, r, hc⟩ := List.exists_cons_of_ne_nil (padded_ne_nil 4 y.toNat)
    have hd : isDigit c = true := isDigit_of_mem_padded (w := 4) (n := y.toNat) (by simp [hc])
    have hminus : c ≠ '-' := ne_of_isDigit hd (by decide)
    have hplus : c ≠ '+' := ne_of_isDigit hd (by decide)
    have hnumber : readNumber 4 (c :: (r ++ '-' :: s)) = .ok (y.toNat, '-' :: s) := by
      have := readNumber_padded (w := 4) (n := y.toNat) (by decide) (by omega) ('-' :: s)
      rwa [hc] at this
    rw [yearText, if_pos hsmall, hc, List.cons_append, readYear,
      trimStart_cons (isBlank_of_isDigit hd)]
    split
    · exact absurd (List.cons.inj ‹_›).1 hminus
    · exact absurd (List.cons.inj ‹_›).1 hplus
    · simp only [hnumber, bind, Except.bind, hyear, hcheck]
  · -- a sign stands before the digits, so any number of them is read
    have hlong : readLong (padded 4 y.natAbs ++ '-' :: s) = .ok (y.natAbs, '-' :: s) := by
      have := readNumber_append (w := (padded 4 y.natAbs ++ '-' :: s).length) (s := '-' :: s)
        (padded_ne_nil 4 y.natAbs) (fun _ => isDigit_of_mem_padded)
        (Or.inr ⟨by simp, noDigitAhead_cons (by decide) s⟩)
      rwa [valueOf_padded] at this
    rw [yearText, if_neg hsmall, List.cons_append]
    by_cases hneg : y < 0
    · have hyear : -(y.natAbs : Int) = y := by omega
      rw [if_pos hneg, readYear, trimStart_cons (by decide)]
      simp only [hlong, bind, Except.bind, hyear, hcheck]
    · have hyear : (y.natAbs : Int) = y := by omega
      rw [if_neg hneg, readYear, trimStart_cons (by decide)]
      simp only [hlong, bind, Except.bind, hyear, hcheck]

theorem readFraction_padded {n : Nat} (h : n < 1000000000) :
    readFraction ('.' :: padded 9 n) = .ok (n, []) := by
  have hnumber := readNumber_padded (w := 9) (by decide) h []
  rw [List.append_nil] at hnumber
  have hlen : (padded 9 n).length = 9 := length_padded (by decide) h
  simp [readFraction, readNanos, hnumber, hlen, bind, Except.bind]

/-! ## The whole text -/

/-- The fields of an instant as its text shows them. -/
def stamp (t : Instant) : Stamp where
  year := t.date.year
  month := t.date.month
  day := t.date.day
  hour := t.hour
  minute := t.minute
  second := t.shownSecond
  nanos := t.shownNanos

/-- The shown fields name the instant. -/
theorem instant?_stamp (t : Instant) : t.stamp.instant? = some t := by
  have hs := t.second_lt
  cases hleap : t.isLeap with
  | true =>
      -- a shown sixtieth second is taken back to the one that it follows
      obtain ⟨h59, hge, -⟩ := second_of_isLeap hleap
      have hnanos : t.nanos - 1000000000 + 1000000000 = t.nanos := by omega
      have hof := of?_fields t
      rw [h59] at hof
      simp [Stamp.instant?, stamp, shownSecond, shownNanos, hleap, h59, hnanos,
        Date.of?_fields, hof]
  | false =>
      have hne : t.second ≠ 60 := by omega
      simp [Stamp.instant?, stamp, shownSecond, shownNanos, hleap, hne, Date.of?_fields,
        of?_fields]

namespace Stored

theorem format_eq (t : Instant) :
    format t = yearText t.date.year ++ '-' :: (padded 2 t.date.month ++ '-'
      :: (padded 2 t.date.day ++ ' ' :: (padded 2 t.hour ++ ':' :: (padded 2 t.minute ++ ':'
      :: (padded 2 t.shownSecond ++ '.' :: padded 9 t.shownNanos))))) := by
  simp [format, dateText, clockText, shownSecond]

/-- The fields are read back from the stored text. -/
theorem readStamp_format (t : Instant) : readStamp (format t) = .ok (t.stamp, []) := by
  have hh := t.hour_lt
  have hm := t.minute_lt
  have hs := t.shownSecond_le
  have hmonth := t.date.month_le
  have hday := t.date.day_le_31
  rw [format_eq, readStamp]
  simp only [readYear_yearText t.date.year_ge t.date.year_le, readMark_cons, readField_blank,
    readField_padded t.date.month_ge hmonth (by omega),
    readField_padded t.date.day_ge hday (by omega),
    readField_padded (Nat.zero_le t.hour) (by omega : t.hour ≤ 23) (by omega),
    readField_padded (Nat.zero_le t.minute) (by omega : t.minute ≤ 59) (by omega),
    readField_padded (Nat.zero_le t.shownSecond) hs (by omega),
    readFraction_padded t.shownNanos_lt, bind, Except.bind]
  rfl

/-- An instant is read back from its stored text. -/
theorem parse?_format (t : Instant) : parse? (format t) = some t := by
  have hplain : parsePlain? (format t) = some t := by
    rw [parsePlain?, readStamp_format]
    exact instant?_stamp t
  rw [parse?, hplain]

end Stored

end Instant

end HealthWatch
