import HealthWatch.Text.Blank
import HealthWatch.Text.Uppercase
import Mathlib.Data.List.TakeWhile

/-! # Spellings — texts that are trimmed and mapped to upper case

    A text may be padded with blanks, and its ASCII letters may stand in either case,
    without any difference to its trimmed upper-case form (`Respells.uppercase_trim`). -/

namespace HealthWatch.Text

/-! ## Blanks around a text -/

/-- A text with blanks in front of it and behind it. -/
def Padded (core s : List Char) : Prop :=
  ∃ front back, s = front ++ core ++ back ∧
    (∀ c ∈ front, isBlank c = true) ∧ ∀ c ∈ back, isBlank c = true

theorem trimStart_append_of_blank {front : List Char} (h : ∀ c ∈ front, isBlank c = true)
    (s : List Char) : trimStart (front ++ s) = trimStart s :=
  List.dropWhile_append_of_pos h

theorem trimStart_eq_nil_iff {s : List Char} : trimStart s = [] ↔ ∀ c ∈ s, isBlank c = true :=
  List.dropWhile_eq_nil_iff

/-- Blanks at the end are trimmed off. -/
theorem trim_append_of_blank (s : List Char) {back : List Char}
    (h : ∀ c ∈ back, isBlank c = true) : trim (s ++ back) = trim s := by
  rw [trim, trim]
  by_cases hs : ∀ c ∈ s, isBlank c = true
  · -- nothing is left of the text with or without more blanks
    have hall : ∀ c ∈ s ++ back, isBlank c = true := fun c hc =>
      (List.mem_append.1 hc).elim (hs c) (h c)
    rw [trimStart_eq_nil_iff.2 hs, trimStart_eq_nil_iff.2 hall]
  · have hne : (s.dropWhile isBlank).isEmpty = false :=
      List.isEmpty_eq_false_iff.2 fun hnil => hs (trimStart_eq_nil_iff.1 hnil)
    have hstart : trimStart (s ++ back) = trimStart s ++ back := by
      rw [trimStart, List.dropWhile_append, hne]
      rfl
    rw [hstart, trimEnd_append_of_blank _ h]

/-- What is trimmed off makes no difference. -/
theorem Padded.trim_eq {core s : List Char} (h : Padded core s) : trim s = trim core := by
  obtain ⟨front, back, rfl, hfront, hback⟩ := h
  rw [trim_append_of_blank _ hback, trim, trimStart_append_of_blank hfront, ← trim]

/-! ## The case of ASCII letters -/

/-- Only upper-case ASCII letters are changed to lower case. -/
theorem toLower_eq_or_ascii (c : Char) : c.toLower = c ∨ c.toNat < 128 := by
  by_cases h : c.val ≥ 'A'.val ∧ c.val ≤ 'Z'.val
  · exact Or.inr (Nat.lt_of_le_of_lt (UInt32.le_iff_toNat_le.1 h.2) (by decide))
  · exact Or.inl (dif_neg h)

theorem isBlank_toLower (c : Char) : isBlank c.toLower = isBlank c := by
  rcases toLower_eq_or_ascii c with h | h
  · rw [h]
  · have hall : ∀ n < 128, isBlank (Char.ofNat n).toLower = isBlank (Char.ofNat n) := by decide
    simpa using hall c.toNat h

/-- A letter and its small form have one capital. -/
theorem upper_toLower (c : Char) : upper c.toLower = upper c := by
  rcases toLower_eq_or_ascii c with h | h
  · rw [h]
  · have hall : ∀ n < 128, upper (Char.ofNat n).toLower = upper (Char.ofNat n) := by decide
    simpa using hall c.toNat h

theorem trimStart_map_toLower (s : List Char) :
    trimStart (s.map Char.toLower) = (trimStart s).map Char.toLower := by
  rw [trimStart, List.dropWhile_map, trimStart]
  congr 2
  exact funext isBlank_toLower

theorem trimEnd_map_toLower (s : List Char) :
    trimEnd (s.map Char.toLower) = (trimEnd s).map Char.toLower := by
  have h := trimStart_map_toLower s.reverse
  rw [trimStart, trimStart, List.map_reverse] at h
  rw [trimEnd, h, trimEnd, List.map_reverse]

/-- Trimming and small letters do not get in the way of each other. -/
theorem trim_map_toLower (s : List Char) :
    trim (s.map Char.toLower) = (trim s).map Char.toLower := by
  rw [trim, trimStart_map_toLower, trimEnd_map_toLower, ← trim]

/-- Nor do capitals and small letters. -/
theorem uppercase_map_toLower (s : List Char) : uppercase (s.map Char.toLower) = uppercase s := by
  rw [uppercase, List.flatMap_map, uppercase]
  congr 1
  exact funext upper_toLower

/-! ## Both -/

/-- Two texts that differ only in the blanks around them and in the case of ASCII letters. -/
def Respells (s t : List Char) : Prop :=
  ∃ core core', Padded core s ∧ Padded core' t ∧ core.map Char.toLower = core'.map Char.toLower

/-- Two spellings have one normal form. -/
theorem Respells.uppercase_trim {s t : List Char} (h : Respells s t) :
    uppercase (trim s) = uppercase (trim t) := by
  obtain ⟨core, core', hs, ht, hcase⟩ := h
  calc uppercase (trim s) = uppercase ((trim core).map Char.toLower) := by
        rw [hs.trim_eq, uppercase_map_toLower]
    _ = uppercase ((trim core').map Char.toLower) := by
        rw [← trim_map_toLower, hcase, trim_map_toLower]
    _ = uppercase (trim t) := by rw [ht.trim_eq, uppercase_map_toLower]

end HealthWatch.Text
