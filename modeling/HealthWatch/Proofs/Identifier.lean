import HealthWatch.Identifier
import Mathlib.Algebra.Group.Nat.Defs

/-! # Identifiers — every identifier is read back from its text

    The text of an identifier has five groups of hexadecimal digits.  Reading takes
    the groups apart at the hyphens and puts the digits together again
    (`parse_toChars`), so no two identifiers have one text (`toText_injective`). -/

namespace HealthWatch

namespace Text

/-- A hexadecimal digit is read back. -/
theorem hexValue?_hexChar {n : Nat} (h : n < 16) : hexValue? (hexChar n) = some n := by
  have hall : ∀ m, m < 16 → hexValue? (hexChar m) = some m := by decide
  exact hall n h

theorem hexChar_ne_hyphen {n : Nat} (h : n < 16) : hexChar n ≠ '-' := by
  have hall : ∀ m, m < 16 → hexChar m ≠ '-' := by decide
  exact hall n h

end Text

namespace Identifier

open Text

theorem length_hexPadded (w n : Nat) : (hexPadded w n).length = w := by
  induction w generalizing n with
  | zero => rfl
  | succ w ih =>
      rw [hexPadded, List.length_append, ih]
      rfl

/-- There is no hyphen among hexadecimal digits. -/
theorem hyphen_notMem_hexPadded (w n : Nat) : '-' ∉ hexPadded w n := by
  induction w generalizing n with
  | zero => exact List.not_mem_nil
  | succ w ih =>
      rw [hexPadded, List.mem_append, List.mem_singleton]
      rintro (h | h)
      · exact ih (n / 16) h
      · exact hexChar_ne_hyphen (Nat.mod_lt n (by decide)) h.symm

/-- A number in two parts is read one part after the other. -/
theorem hexNumber?_append (k : Nat) (a b : List Char) :
    hexNumber? k (a ++ b) = (hexNumber? k a).bind fun n => hexNumber? n b := by
  induction a generalizing k with
  | nil => rfl
  | cons c a ih =>
      rw [List.cons_append, hexNumber?, hexNumber?]
      cases hexValue? c with
      | none => rfl
      | some d => exact ih (16 * k + d)

/-- The digits of a number stand for its remainder at their width. -/
theorem hexNumber?_hexPadded (w n : Nat) : hexNumber? 0 (hexPadded w n) = some (n % 16 ^ w) := by
  induction w generalizing n with
  | zero =>
      rw [hexPadded, hexNumber?, Nat.pow_zero, Nat.mod_one]
  | succ w ih =>
      rw [hexPadded, hexNumber?_append, ih, Option.bind_some, hexNumber?,
        hexValue?_hexChar (Nat.mod_lt n (by decide))]
      show some (16 * (n / 16 % 16 ^ w) + n % 16) = some (n % 16 ^ (w + 1))
      rw [Nat.pow_succ, Nat.mul_comm (16 ^ w) 16, Nat.mod_mul]
      congr 1
      omega

/-- The digits between the hyphens are those of the number. -/
theorem pieces_toChars (i : Identifier) :
    let ds := hexPadded 32 i.value
    pieces '-' i.toChars = [ds.take 8, (ds.drop 8).take 4, (ds.drop 12).take 4,
      (ds.drop 16).take 4, ds.drop 20] := by
  intro ds
  have hds : '-' ∉ ds := hyphen_notMem_hexPadded 32 i.value
  have hdrop : ∀ k, '-' ∉ ds.drop k := fun k h => hds (List.mem_of_mem_drop h)
  have htake : ∀ k m, '-' ∉ (ds.drop k).take m := fun k m h => hdrop k (List.mem_of_mem_take h)
  have hfirst : '-' ∉ ds.take 8 := fun h => hds (List.mem_of_mem_take h)
  show pieces '-' (ds.take 8 ++ '-' :: (ds.drop 8).take 4 ++ '-' :: (ds.drop 12).take 4
    ++ '-' :: (ds.drop 16).take 4 ++ '-' :: ds.drop 20) = _
  simp only [List.append_assoc, List.cons_append]
  rw [pieces_append _ hfirst, pieces_append _ (htake 8 4), pieces_append _ (htake 12 4),
    pieces_append _ (htake 16 4), pieces_of_not_mem (hdrop 20)]

/-- The groups of an identifier read as its number. -/
theorem grouped?_toChars (i : Identifier) : grouped? i.toChars = some i.value := by
  have hlen : (hexPadded 32 i.value).length = 32 := length_hexPadded 32 i.value
  have hjoin : ∀ ds : List Char, [ds.take 8, (ds.drop 8).take 4, (ds.drop 12).take 4,
      (ds.drop 16).take 4, ds.drop 20].flatten = ds := by
    intro ds
    -- each group is put in front of the digits behind it
    have h20 : (ds.drop 16).take 4 ++ ds.drop 20 = ds.drop 16 := by
      rw [show ds.drop 20 = (ds.drop 16).drop 4 by rw [List.drop_drop], List.take_append_drop]
    have h16 : (ds.drop 12).take 4 ++ ds.drop 16 = ds.drop 12 := by
      rw [show ds.drop 16 = (ds.drop 12).drop 4 by rw [List.drop_drop], List.take_append_drop]
    have h12 : (ds.drop 8).take 4 ++ ds.drop 12 = ds.drop 8 := by
      rw [show ds.drop 12 = (ds.drop 8).drop 4 by rw [List.drop_drop], List.take_append_drop]
    simp only [List.flatten_cons, List.flatten_nil, List.append_nil]
    rw [h20, h16, h12, List.take_append_drop]
  rw [grouped?, pieces_toChars]
  simp only [hjoin]
  rw [if_pos (by simp [groupLengths, hlen]), hexNumber?_hexPadded,
    Nat.mod_eq_of_lt (by simpa using i.value_lt)]

theorem length_toChars (i : Identifier) : i.toChars.length = 36 := by
  simp [toChars, length_hexPadded]

/-- An identifier is read back from its text. -/
theorem parse_toChars (i : Identifier) : parse i.toChars = .ok i := by
  have hplain : plain? i.toChars = none := if_neg (by rw [length_toChars]; decide)
  have hnat : ofNat i.value = i := by
    obtain ⟨n, hn⟩ := i
    simp [ofNat, Nat.mod_eq_of_lt hn]
  simp only [parse, number?, hplain, grouped?_toChars, hnat]

/-- An identifier is read back from its text. -/
theorem parse_toText (i : Identifier) : parse i.toText.toList = .ok i := by
  rw [toText, String.toList_ofList, parse_toChars]

/-- Different identifiers have different texts. -/
theorem toText_injective {i j : Identifier} (h : i.toText = j.toText) : i = j := by
  have hi := parse_toText i
  rw [h, parse_toText] at hi
  exact (Except.ok.inj hi).symm

@[simp] theorem toText_inj {i j : Identifier} : i.toText = j.toText ↔ i = j :=
  ⟨toText_injective, congrArg toText⟩

end Identifier

end HealthWatch
