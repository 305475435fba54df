import HealthWatch.Proofs.Instant.Stored

/-! # The order of instants — earlier and later

    Instants are compared field by field, the greatest unit first; a leap second comes
    after the second that it follows.

    Stored texts of the years 0 to 9999 compare as the instants do
    (`Stored.format_lt_iff`): all their fields have fixed widths.  Outside of these
    years the widths differ, and a sign stands before the digits. -/

namespace HealthWatch.Instant

open Text

/-- The fields of an instant, the greatest unit first. -/
def fields (t : Instant) : List Int :=
  [t.date.year, t.date.month, t.date.day, t.hour, t.minute, t.second, t.nanos]

instance : LT Instant := ⟨fun t u => t.fields < u.fields⟩

instance : LE Instant := ⟨fun t u => ¬u < t⟩

instance (t u : Instant) : Decidable (t < u) :=
  inferInstanceAs (Decidable (t.fields < u.fields))

instance (t u : Instant) : Decidable (t ≤ u) :=
  inferInstanceAs (Decidable ¬u < t)

theorem lt_iff_fields {t u : Instant} : t < u ↔ t.fields < u.fields := Iff.rfl

/-- A year that is written with four digits and no sign. -/
def HasShortYear (t : Instant) : Prop :=
  0 ≤ t.date.year ∧ t.date.year ≤ 9999

instance (t : Instant) : Decidable t.HasShortYear :=
  inferInstanceAs (Decidable (_ ∧ _))

/-- A field of a fixed width with a mark behind it decides before what follows. -/
theorem field_lt_iff {w m n : Nat} (hw : 0 < w) (hm : m < 10 ^ w) (hn : n < 10 ^ w) (c : Char)
    (x y : List Char) :
    padded w m ++ c :: x < padded w n ++ c :: y ↔ m < n ∨ m = n ∧ x < y := by
  have hmark : c :: x < c :: y ↔ x < y := by
    rw [List.cons_lt_cons_iff]
    constructor
    · rintro (h | ⟨_, h⟩)
      · exact absurd h (Char.lt_irrefl c)
      · exact h
    · exact fun h => Or.inr ⟨rfl, h⟩
  rw [append_lt_append_iff (by rw [length_padded hw hm, length_padded hw hn]),
    padded_lt_iff hw hm hn, hmark]
  constructor
  · rintro (h | ⟨he, h⟩)
    · exact Or.inl h
    · exact Or.inr ⟨padded_injective he, h⟩
  · rintro (h | ⟨rfl, h⟩)
    · exact Or.inl h
    · exact Or.inr ⟨rfl, h⟩

/-- The clock shows leap seconds as the sixtieth, so what it shows compares as what
    is meant. -/
theorem shown_lt_iff (t u : Instant) :
    (t.shownSecond < u.shownSecond ∨ t.shownSecond = u.shownSecond ∧ t.shownNanos < u.shownNanos)
      ↔ (t.second < u.second ∨ t.second = u.second ∧ t.nanos < u.nanos) := by
  have ht := t.second_lt
  have hu := u.second_lt
  simp only [shownSecond, shownNanos]
  cases hlt : t.isLeap with
  | true =>
      obtain ⟨ht59, htge, htlt⟩ := second_of_isLeap hlt
      cases hlu : u.isLeap with
      | true =>
          obtain ⟨hu59, huge, hult⟩ := second_of_isLeap hlu
          simp only [if_true]
          omega
      | false =>
          have hult := nanos_lt_of_not_isLeap hlu
          simp only [if_true, Bool.false_eq_true, if_false]
          omega
  | false =>
      have htlt := nanos_lt_of_not_isLeap hlt
      cases hlu : u.isLeap with
      | true =>
          obtain ⟨hu59, huge, hult⟩ := second_of_isLeap hlu
          simp only [if_true, Bool.false_eq_true, if_false]
          omega
      | false =>
          simp only [Bool.false_eq_true, if_false]

namespace Stored

/-- Stored texts of short years compare as the instants do. -/
theorem format_lt_iff {t u : Instant} (ht : t.HasShortYear) (hu : u.HasShortYear) :
    format t < format u ↔ t < u := by
  have hyear : ∀ {v : Instant}, v.HasShortYear → yearText v.date.year = padded 4 v.date.year.toNat :=
    fun hv => if_pos hv
  have hlimits : ∀ v : Instant, v.date.month < 10 ^ 2 ∧ v.date.day < 10 ^ 2 ∧ v.hour < 10 ^ 2
      ∧ v.minute < 10 ^ 2 ∧ v.shownSecond < 10 ^ 2 ∧ v.shownNanos < 10 ^ 9 := by
    intro v
    have h1 := v.date.month_le
    have h2 := v.date.day_le_31
    have h3 := v.hour_lt
    have h4 := v.minute_lt
    have h5 := v.shownSecond_le
    have h6 := v.shownNanos_lt
    omega
  obtain ⟨t1, t2, t3, t4, t5, t6⟩ := hlimits t
  obtain ⟨u1, u2, u3, u4, u5, u6⟩ := hlimits u
  have hty : t.date.year.toNat < 10 ^ 4 := by
    have := ht.2
    omega
  have huy : u.date.year.toNat < 10 ^ 4 := by
    have := hu.2
    omega
  -- the fields decide one after the other, the nanoseconds at last
  rw [format_eq, format_eq, hyear ht, hyear hu, field_lt_iff (by decide) hty huy,
    field_lt_iff (by decide) t1 u1, field_lt_iff (by decide) t2 u2,
    field_lt_iff (by decide) t3 u3, field_lt_iff (by decide) t4 u4,
    field_lt_iff (by decide) t5 u5, padded_lt_iff (by decide) t6 u6, shown_lt_iff,
    lt_iff_fields, fields, fields]
  simp only [List.cons_lt_cons_iff, Int.ofNat_lt, Int.natCast_inj, List.lt_irrefl, and_false,
    or_false]
  have hfirst : t.date.year.toNat < u.date.year.toNat ↔ t.date.year < u.date.year := by
    have := ht.1
    omega
  have hsame : t.date.year.toNat = u.date.year.toNat ↔ t.date.year = u.date.year := by
    have := ht.1
    have := hu.1
    omega
  rw [hfirst, hsame]

/-- A later instant has no smaller text. -/
theorem format_le_of_le {t u : Instant} (ht : t.HasShortYear) (hu : u.HasShortYear)
    (h : t ≤ u) : ¬format u < format t :=
  fun hlt => h ((format_lt_iff hu ht).1 hlt)

end Stored

end HealthWatch.Instant
