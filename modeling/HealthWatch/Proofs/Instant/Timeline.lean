import HealthWatch.Proofs.Instant.Order
import HealthWatch.Proofs.Text.Utf8
import Mathlib.Order.Monotone.Basic

/-! # The time line — instants in the order of their seconds

    Months follow one another without a gap, leap days included, so a later date has a
    greater number of days since 1970 (`Date.toDays_lt_iff`).  The order of instants by
    their fields is therefore that of the time line: by the seconds since 1970, and within
    a second by the nanoseconds, those of a leap second last (`lt_iff_seconds`).

    `stored_texts_sort_by_time` says that stored texts sort in this order, octet by
    octet. -/

namespace HealthWatch

namespace Date

/-- The days before a month, when months are counted from March of the year zero; a leap day
    then ends its year. -/
def monthStart (n : Int) : Int :=
  let year := n / 12
  365 * year + year / 4 - year / 100 + year / 400 + (153 * (n % 12) + 2) / 5

/-- The number of the month of a date, counted from March of the year zero. -/
def monthNumber (d : Date) : Int := 12 * d.year + d.month - 3

/-- A date is so many days into its month. -/
theorem toDays_eq (d : Date) : d.toDays = monthStart d.monthNumber + d.day - 719469 := by
  have hge := d.month_ge
  have hle := d.month_le
  have hyear : d.monthNumber / 12 = if d.month ≤ 2 then d.year - 1 else d.year := by
    rw [monthNumber]
    split <;> omega
  have hmonth : d.monthNumber % 12 = ((d.month : Int) + 9) % 12 := by
    rw [monthNumber]
    omega
  simp only [toDays, monthStart, hyear, hmonth]
  generalize (if d.month ≤ 2 then d.year - 1 else d.year) = y
  generalize (153 * (((d.month : Int) + 9) % 12) + 2) / 5 = days
  omega

/-- The leap days up to a year are one more than those up to the year before when it has
    one itself. -/
theorem leapDays_eq (year : Int) :
    year / 4 - year / 100 + year / 400
      = (year - 1) / 4 - (year - 1) / 100 + (year - 1) / 400
        + if isLeapYear year then 1 else 0 := by
  have hleap : isLeapYear year = true
      ↔ year % 4 = 0 ∧ (year % 100 ≠ 0 ∨ year % 400 = 0) := by
    simp [isLeapYear]
  split
  · next h =>
      have := hleap.1 h
      omega
  · next h =>
      have := mt hleap.2 h
      omega

/-- From March on the months have thirty or thirty-one days in turn, five of them 153. -/
theorem daysInMonth_of_ne (year : Int) {month : Nat} (hge : 1 ≤ month) (hle : month ≤ 12)
    (hne : month ≠ 2) :
    (153 * (((month : Int) + 9) % 12 + 1) + 2) / 5
      = (153 * (((month : Int) + 9) % 12) + 2) / 5 + daysInMonth year month := by
  have hmonth : month = 1 ∨ month = 3 ∨ month = 4 ∨ month = 5 ∨ month = 6 ∨ month = 7 ∨ month = 8
      ∨ month = 9 ∨ month = 10 ∨ month = 11 ∨ month = 12 := by omega
  rcases hmonth with rfl | rfl | rfl | rfl | rfl | rfl | rfl | rfl | rfl | rfl | rfl <;> rfl

/-- A month ends where the next one starts. -/
theorem monthStart_succ (year : Int) {month : Nat} (hge : 1 ≤ month) (hle : month ≤ 12) :
    monthStart (12 * year + month - 3 + 1)
      = monthStart (12 * year + month - 3) + daysInMonth year month := by
  by_cases hne : month = 2
  · -- the year ends with February
    subst hne
    have hleap := leapDays_eq year
    have hyear : (12 * year + (2 : Nat) - 3) / 12 = year - 1 := by omega
    have hyear' : (12 * year + (2 : Nat) - 3 + 1) / 12 = year := by omega
    have hmonth : (12 * year + (2 : Nat) - 3) % 12 = 11 := by omega
    have hmonth' : (12 * year + (2 : Nat) - 3 + 1) % 12 = 0 := by omega
    simp only [monthStart, daysInMonth, hyear, hyear', hmonth, hmonth', if_true]
    by_cases hy : isLeapYear year = true
    · rw [if_pos hy] at hleap ⊢
      omega
    · rw [if_neg hy] at hleap ⊢
      omega
  · have hdays := daysInMonth_of_ne year hge hle hne
    have hyear : (12 * year + (month : Int) - 3 + 1) / 12 = (12 * year + month - 3) / 12 := by
      omega
    have hmonth : (12 * year + (month : Int) - 3) % 12 = (month + 9) % 12 := by omega
    have hmonth' : (12 * year + (month : Int) - 3 + 1) % 12 = (month + 9) % 12 + 1 := by omega
    simp only [monthStart, hyear, hmonth, hmonth', hdays]
    omega

/-- Months begin one after the other. -/
theorem monthStart_le_succ (n : Int) : monthStart n ≤ monthStart (n + 1) := by
  obtain ⟨month, hmonth⟩ : ∃ month : Nat, (month : Int) = (n + 2) % 12 + 1 :=
    ⟨((n + 2) % 12 + 1).toNat, by omega⟩
  have hnumber : 12 * ((n + 2) / 12) + (month : Int) - 3 = n := by omega
  have hge : 1 ≤ month := by omega
  have hsucc := monthStart_succ ((n + 2) / 12) hge (by omega)
  rw [hnumber] at hsucc
  omega

/-- A day lies within its month, and so before all later months. -/
theorem toDays_lt_of_monthNumber_lt {a b : Date} (h : a.monthNumber < b.monthNumber) :
    a.toDays < b.toDays := by
  have hmono : Monotone monthStart := monotone_int_of_le_succ monthStart_le_succ
  have hnext := monthStart_succ a.year a.month_ge a.month_le
  have hle : monthStart (a.monthNumber + 1) ≤ monthStart b.monthNumber := hmono (by omega)
  have ha := a.day_le
  have hb := b.day_ge
  rw [← monthNumber] at hnext
  rw [toDays_eq, toDays_eq]
  omega

/-- A later date has a greater number of days. -/
theorem toDays_lt_iff (a b : Date) :
    a.toDays < b.toDays ↔ a.year < b.year
      ∨ a.year = b.year ∧ (a.month < b.month ∨ a.month = b.month ∧ a.day < b.day) := by
  have hnumber : ∀ d : Date, d.monthNumber = 12 * d.year + d.month - 3 := fun d => rfl
  have ha := hnumber a
  have hb := hnumber b
  have hale := a.month_le
  have hble := b.month_le
  have hage := a.month_ge
  have hbge := b.month_ge
  rcases Int.lt_trichotomy a.monthNumber b.monthNumber with h | h | h
  · exact iff_of_true (toDays_lt_of_monthNumber_lt h) (by omega)
  · -- the same month of the same year
    rw [toDays_eq, toDays_eq, h]
    omega
  · exact iff_of_false (Int.lt_asymm (toDays_lt_of_monthNumber_lt h)) (by omega)

end Date

namespace Instant

open Text

/-- The seconds of a day before an instant. -/
def secondOfDay (t : Instant) : Nat := t.hour * 3600 + t.minute * 60 + t.second

/-- Times of a day compare by hour, minute and second, in this order. -/
theorem secondOfDay_lt_iff (t u : Instant) :
    t.secondOfDay < u.secondOfDay ↔ t.hour < u.hour
      ∨ t.hour = u.hour ∧ (t.minute < u.minute ∨ t.minute = u.minute ∧ t.second < u.second) := by
  have htm := t.minute_lt
  have hts := t.second_lt
  have hum := u.minute_lt
  have hus := u.second_lt
  rw [secondOfDay, secondOfDay]
  omega

/-- Instants compare by their day first, and then by their second in it. -/
theorem unixSeconds_lt_iff (t u : Instant) :
    t.unixSeconds < u.unixSeconds ↔ t.date.toDays < u.date.toDays
      ∨ t.date.toDays = u.date.toDays ∧ t.secondOfDay < u.secondOfDay := by
  have hlt : ∀ v : Instant, v.secondOfDay < 86400 := by
    intro v
    have := v.hour_lt
    have := v.minute_lt
    have := v.second_lt
    rw [secondOfDay]
    omega
  have ht := hlt t
  have hu := hlt u
  show t.date.toDays * 86400 + (t.secondOfDay : Int) < u.date.toDays * 86400 + (u.secondOfDay : Int)
    ↔ _
  omega

/-- The order of instants is that of the seconds since 1970, and within a second that of the
    nanoseconds, so that a leap second comes after the second it is counted with. -/
theorem lt_iff_seconds {t u : Instant} :
    t < u ↔ t.unixSeconds < u.unixSeconds ∨ t.unixSeconds = u.unixSeconds ∧ t.nanos < u.nanos := by
  have hdays := t.date.toDays_lt_iff u.date
  have hdays' := u.date.toDays_lt_iff t.date
  have hsameDay : t.date.toDays = u.date.toDays
      ↔ t.date.year = u.date.year ∧ t.date.month = u.date.month ∧ t.date.day = u.date.day := by
    omega
  have hclock := secondOfDay_lt_iff t u
  have hclock' := secondOfDay_lt_iff u t
  have hsameClock : t.secondOfDay = u.secondOfDay
      ↔ t.hour = u.hour ∧ t.minute = u.minute ∧ t.second = u.second := by
    omega
  have hseconds := unixSeconds_lt_iff t u
  have hseconds' := unixSeconds_lt_iff u t
  have hsame : t.unixSeconds = u.unixSeconds
      ↔ t.date.toDays = u.date.toDays ∧ t.secondOfDay = u.secondOfDay := by
    omega
  -- both sides compare the seven fields one after the other
  rw [hseconds, hsame, hsameDay, hsameClock, hdays, hclock]
  simp only [lt_iff_fields, fields, List.cons_lt_cons_iff, Int.ofNat_lt, Int.natCast_inj,
    List.lt_irrefl, and_false, or_false, and_or_left, or_assoc, and_assoc]

namespace Stored

/-- Stored texts of short years compare octet by octet as the instants do: by the seconds since
    1970 and then by the nanoseconds.  The order of stored rows by such a text is that of time. -/
theorem stored_texts_sort_by_time {t u : Instant} (ht : t.HasShortYear) (hu : u.HasShortYear) :
    (Utf8.encode (format t) < Utf8.encode (format u) ↔ t < u)
      ∧ (String.ofList (format t) < String.ofList (format u) ↔ t < u)
      ∧ (t < u ↔ t.unixSeconds < u.unixSeconds
        ∨ t.unixSeconds = u.unixSeconds ∧ t.nanos < u.nanos) := by
  have htext : format t < format u ↔ t < u := format_lt_iff ht hu
  refine ⟨Utf8.encode_lt_iff.trans htext, ?_, lt_iff_seconds⟩
  rw [String.lt_iff, String.toList_ofList, String.toList_ofList]
  exact htext

/-- The end of a leap second, which is written as the sixtieth, stands before the new year. -/
theorem leap_second_before_new_year :
    let leap : Instant := ⟨⟨2016, 12, 31, by decide, by decide, by decide, by decide, by decide,
      by decide⟩, 23, 59, 59, 1999999999, by decide, by decide, by decide, by decide⟩
    let year : Instant := ⟨⟨2017, 1, 1, by decide, by decide, by decide, by decide, by decide,
      by decide⟩, 0, 0, 0, 0, by decide, by decide, by decide, by decide⟩
    leap.HasShortYear ∧ year.HasShortYear ∧ leap < year
      ∧ Utf8.encode (format leap) < Utf8.encode (format year) := by
  intro leap year
  have hleap : leap.HasShortYear := by decide
  have hyear : year.HasShortYear := by decide
  obtain ⟨hoctets, -, hseconds⟩ := stored_texts_sort_by_time hleap hyear
  have hlt : leap < year := hseconds.2 (Or.inl (by decide))
  exact ⟨hleap, hyear, hlt, hoctets.2 hlt⟩

end Stored

end Instant

end HealthWatch
