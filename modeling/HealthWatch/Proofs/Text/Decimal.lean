import HealthWatch.Text.Blank
import HealthWatch.Text.Decimal
import Mathlib.Algebra.Group.Nat.Defs
import Mathlib.Data.List.Induction

/-! # Decimal numerals — what is written is read back

    The numerals of `digits` and `padded` hold digits only and stand for the number
    they were made from, so the readers of numbers give it back.

    Numerals of one width compare as their numbers do.  A text of several fields of
    fixed widths therefore compares field by field (`append_lt_append_iff`). -/

namespace HealthWatch.Text

theorem toNat_digitChar {n : Nat} (h : n < 10) : (digitChar n).toNat = 48 + n := by
  have hall : ∀ m, m < 10 → (digitChar m).toNat = 48 + m := by decide
  exact hall n h

/-- A digit has the value it is written for. -/
theorem digitValue_digitChar {n : Nat} (h : n < 10) : digitValue (digitChar n) = n := by
  rw [digitValue, toNat_digitChar h]
  omega

theorem isDigit_digitChar {n : Nat} (h : n < 10) : isDigit (digitChar n) = true := by
  rw [isDigit, toNat_digitChar h]
  simp
  omega

/-- A digit is the one that is written for its value. -/
theorem digitChar_digitValue {c : Char} (h : isDigit c = true) :
    digitChar (digitValue c) = c := by
  simp only [isDigit, Bool.and_eq_true, decide_eq_true_eq] at h
  have hcode : 48 + digitValue c = c.toNat := by
    rw [digitValue]
    omega
  rw [digitChar, hcode, Char.ofNat_toNat]

theorem digitValue_lt {c : Char} (h : isDigit c = true) : digitValue c < 10 := by
  simp only [isDigit, Bool.and_eq_true, decide_eq_true_eq] at h
  rw [digitValue]
  omega

/-- A digit is no character with a code outside of those of the ten digits. -/
theorem ne_of_isDigit {c d : Char} (h : isDigit c = true) (hd : isDigit d = false) : c ≠ d := by
  rintro rfl
  rw [h] at hd
  exact nomatch hd

theorem isBlank_of_isDigit {c : Char} (h : isDigit c = true) : isBlank c = false := by
  simp only [isDigit, Bool.and_eq_true, decide_eq_true_eq] at h
  simp [isBlank]
  omega

/-! ## Values -/

/-- One more digit counts ten times what was before. -/
theorem valueOf_append_singleton (ds : List Char) (c : Char) :
    valueOf (ds ++ [c]) = 10 * valueOf ds + digitValue c := by
  simp [valueOf]

/-- The digits of a number stand for it. -/
theorem valueOf_digits (n : Nat) : valueOf (digits n) = n := by
  induction n using Nat.strongRecOn with
  | ind n ih =>
      rw [digits]
      by_cases h : n < 10
      · rw [if_pos h]
        show 10 * 0 + digitValue (digitChar n) = n
        rw [digitValue_digitChar h]
        omega
      · rw [if_neg h, valueOf_append_singleton, ih (n / 10) (by omega),
          digitValue_digitChar (Nat.mod_lt _ (by decide))]
        omega

/-- The digits of a number are digits. -/
theorem isDigit_of_mem_digits {n : Nat} {c : Char} (h : c ∈ digits n) : isDigit c = true := by
  induction n using Nat.strongRecOn with
  | ind n ih =>
      rw [digits] at h
      by_cases hn : n < 10
      · rw [if_pos hn, List.mem_singleton] at h
        rw [h]
        exact isDigit_digitChar hn
      · rw [if_neg hn, List.mem_append, List.mem_singleton] at h
        rcases h with h | rfl
        · exact ih (n / 10) (by omega) h
        · exact isDigit_digitChar (Nat.mod_lt _ (by decide))

theorem digits_ne_nil (n : Nat) : digits n ≠ [] := by
  rw [digits]
  split <;> simp

theorem valueOf_replicate_zero (k : Nat) (ds : List Char) :
    valueOf (List.replicate k '0' ++ ds) = valueOf ds := by
  induction k with
  | zero => rfl
  | succ k ih =>
      rw [List.replicate_succ, List.cons_append]
      exact ih

/-- Zeros before a number do not change what it stands for. -/
theorem valueOf_padded (w n : Nat) : valueOf (padded w n) = n := by
  rw [padded, valueOf_replicate_zero, valueOf_digits]

theorem isDigit_of_mem_padded {w n : Nat} {c : Char} (h : c ∈ padded w n) :
    isDigit c = true := by
  rw [padded, List.mem_append] at h
  rcases h with h | h
  · rw [(List.mem_replicate.1 h).2]
    decide
  · exact isDigit_of_mem_digits h

theorem padded_ne_nil (w n : Nat) : padded w n ≠ [] := by
  simp [padded, digits_ne_nil]

/-- Digits stand for a number that has no more digits than they are. -/
theorem valueOf_lt {ds : List Char} (hd : ∀ c ∈ ds, isDigit c = true) :
    valueOf ds < 10 ^ ds.length := by
  induction ds using List.reverseRecOn with
  | nil => exact Nat.one_pos
  | append_singleton ds c ih =>
      have hc := digitValue_lt (hd c (by simp))
      have hds := ih fun d hmem => hd d (by simp [hmem])
      rw [valueOf_append_singleton, List.length_append, List.length_singleton, Nat.pow_succ]
      omega

/-! ## Reading numerals -/

/-- A text of digits reads as the number it stands for. -/
theorem numeral?_of_digits {ds : List Char} (hne : ds ≠ []) (hd : ∀ c ∈ ds, isDigit c = true) :
    numeral? ds = some (valueOf ds) := by
  have hall : ds.all isDigit = true := List.all_eq_true.2 hd
  simp [numeral?, hne, hall]

/-- Digits have no leading plus sign. -/
theorem dropPlus_of_digits {ds : List Char} (hd : ∀ c ∈ ds, isDigit c = true) :
    dropPlus ds = ds := by
  cases ds with
  | nil => rfl
  | cons c r =>
      have hc : c ≠ '+' := ne_of_isDigit (hd c (by simp)) (by decide)
      rw [dropPlus]
      rintro r' ⟨⟩
      exact hc rfl

/-- Digits, at least one, with a plus sign before them or not. -/
structure Numeral where
  signed : Bool
  digits : List Char
  ne_nil : digits ≠ []
  isDigit_of_mem : ∀ c ∈ digits, isDigit c = true

namespace Numeral

/-- The text of a numeral. -/
def text (n : Numeral) : List Char :=
  if n.signed then '+' :: n.digits else n.digits

/-- The number that a numeral stands for. -/
def value (n : Numeral) : Nat := valueOf n.digits

/-- The numeral that is written for a number, filled up with zeros to a width. -/
def ofNat (w n : Nat) : Numeral where
  signed := false
  digits := padded w n
  ne_nil := padded_ne_nil w n
  isDigit_of_mem := fun _ => isDigit_of_mem_padded

@[simp] theorem text_ofNat (w n : Nat) : (ofNat w n).text = padded w n := rfl

@[simp] theorem value_ofNat (w n : Nat) : (ofNat w n).value = n := valueOf_padded w n

theorem dropPlus_text (n : Numeral) : dropPlus n.text = n.digits := by
  rw [text]
  split
  · rfl
  · exact dropPlus_of_digits n.isDigit_of_mem

/-- A numeral holds digits and at most a plus sign. -/
theorem notMem_text {c : Char} (hc : isDigit c = false) (hplus : c ≠ '+') (n : Numeral) :
    c ∉ n.text := by
  have hdigits : c ∉ n.digits := fun h => ne_of_isDigit (n.isDigit_of_mem c h) hc rfl
  rw [text]
  split
  · exact fun h => (List.mem_cons.1 h).elim hplus hdigits
  · exact hdigits

/-- There are no blanks in a numeral. -/
theorem isBlank_of_mem_text {c : Char} {n : Numeral} (h : c ∈ n.text) : isBlank c = false := by
  by_cases hplus : c = '+'
  · rw [hplus]
    decide
  · cases hc : isDigit c with
    | true => exact isBlank_of_isDigit hc
    | false => exact absurd h (n.notMem_text hc hplus)

/-- A text is a numeral when digits are left of it without a leading plus sign. -/
theorem exists_text_eq {s : List Char} (hne : dropPlus s ≠ [])
    (hd : ∀ c ∈ dropPlus s, isDigit c = true) :
    ∃ n : Numeral, n.text = s ∧ n.digits = dropPlus s := by
  by_cases hsigned : ∃ r, s = '+' :: r
  · obtain ⟨r, rfl⟩ := hsigned
    exact ⟨⟨true, r, hne, hd⟩, rfl, rfl⟩
  · have hdrop : dropPlus s = s := by
      rw [dropPlus]
      exact fun r h => hsigned ⟨r, h⟩
    rw [hdrop] at hne hd
    exact ⟨⟨false, s, hne, hd⟩, rfl, hdrop.symm⟩

end Numeral

/-- What is read as a number below a bound are the numerals of the numbers below it. -/
theorem unsigned?_eq_some_iff {bound v : Nat} {s : List Char} :
    unsigned? bound s = some v ↔ ∃ n : Numeral, s = n.text ∧ n.value = v ∧ v < bound := by
  constructor
  · intro h
    unfold unsigned? numeral? at h
    split at h
    · next m hm =>
        split at hm
        · cases hm
        · next hdigits =>
            split at h
            · next hbound =>
                cases h
                cases hm
                rw [Bool.or_eq_true, not_or, Bool.not_eq_true', Bool.not_eq_false,
                  List.isEmpty_iff] at hdigits
                obtain ⟨n, htext, hn⟩ :=
                  Numeral.exists_text_eq hdigits.1 (List.all_eq_true.1 hdigits.2)
                exact ⟨n, htext.symm, congrArg valueOf hn, hbound⟩
            · cases h
    · cases h
  · rintro ⟨n, rfl, rfl, hbound⟩
    rw [unsigned?, n.dropPlus_text, numeral?_of_digits n.ne_nil n.isDigit_of_mem]
    exact if_pos hbound

/-! ## Widths -/

/-- One more place: the last digit of a number stands behind the others. -/
theorem padded_succ {w : Nat} (hw : 0 < w) (n : Nat) :
    padded (w + 1) n = padded w (n / 10) ++ [digitChar (n % 10)] := by
  by_cases h : n < 10
  · -- a single digit: the width grows by a leading zero
    have h0 : n / 10 = 0 := by omega
    have h1 : n % 10 = n := by omega
    obtain ⟨k, rfl⟩ : ∃ k, w = k + 1 := ⟨w - 1, by omega⟩
    have hz : digits 0 = ['0'] := by
      rw [digits, if_pos (by decide)]
      rfl
    rw [h0, h1, padded, padded, hz, show digits n = [digitChar n] by rw [digits, if_pos h]]
    simp [List.replicate_succ']
  · rw [padded, padded, show digits n = digits (n / 10) ++ [digitChar (n % 10)] by
      conv => lhs; rw [digits]
      rw [if_neg h]]
    simp

theorem padded_one {n : Nat} (h : n < 10) : padded 1 n = [digitChar n] := by
  rw [padded, digits, if_pos h]
  rfl

/-- A number that fits into the width takes exactly the width. -/
theorem length_padded {w n : Nat} (hw : 0 < w) (h : n < 10 ^ w) : (padded w n).length = w := by
  induction w generalizing n with
  | zero => exact absurd hw (by decide)
  | succ w ih =>
      by_cases h0 : w = 0
      · subst h0
        rw [padded_one (by simpa using h)]
        rfl
      · rw [padded_succ (by omega), List.length_append,
          ih (by omega) (by rw [Nat.pow_succ] at h; omega)]
        rfl

/-- Digits are the numeral of their width for the number they stand for. -/
theorem padded_valueOf {ds : List Char} (hne : ds ≠ []) (hd : ∀ c ∈ ds, isDigit c = true) :
    padded ds.length (valueOf ds) = ds := by
  -- on the digits from their end, as numerals of a greater width are made
  induction ds using List.reverseRecOn with
  | nil => exact absurd rfl hne
  | append_singleton ds c ih =>
      have hc : isDigit c = true := hd c (by simp)
      have hlt := digitValue_lt hc
      have hdiv : (10 * valueOf ds + digitValue c) / 10 = valueOf ds := by omega
      have hmod : (10 * valueOf ds + digitValue c) % 10 = digitValue c := by omega
      rw [valueOf_append_singleton, List.length_append, List.length_singleton]
      by_cases hnil : ds = []
      · subst hnil
        have hzero : 10 * valueOf [] + digitValue c = digitValue c := Nat.zero_add _
        rw [hzero, List.length_nil, padded_one hlt, digitChar_digitValue hc]
        rfl
      · rw [padded_succ (List.length_pos_iff.2 hnil), hdiv, hmod,
          ih hnil fun d hmem => hd d (by simp [hmem]), digitChar_digitValue hc]

/-! ## Order -/

/-- Texts whose fronts are of one length compare by the fronts first. -/
theorem append_lt_append_iff {a b : List Char} (h : a.length = b.length) (x y : List Char) :
    a ++ x < b ++ y ↔ a < b ∨ a = b ∧ x < y := by
  induction a generalizing b with
  | nil =>
      cases b with
      | nil => simp
      | cons d b => exact nomatch h
  | cons c a ih =>
      cases b with
      | nil => exact nomatch h
      | cons d b =>
          have hab : a.length = b.length := Nat.succ.inj h
          simp only [List.cons_append, List.cons_lt_cons_iff, ih hab, List.cons.injEq]
          constructor
          · rintro (hlt | ⟨rfl, hlt | ⟨rfl, hxy⟩⟩)
            · exact Or.inl (Or.inl hlt)
            · exact Or.inl (Or.inr ⟨rfl, hlt⟩)
            · exact Or.inr ⟨⟨rfl, rfl⟩, hxy⟩
          · rintro ((hlt | ⟨rfl, hlt⟩) | ⟨⟨rfl, rfl⟩, hxy⟩)
            · exact Or.inl hlt
            · exact Or.inr ⟨rfl, Or.inl hlt⟩
            · exact Or.inr ⟨rfl, Or.inr ⟨rfl, hxy⟩⟩

/-- Digits are ordered as their values. -/
theorem digitChar_lt_iff {m n : Nat} (hm : m < 10) (hn : n < 10) :
    digitChar m < digitChar n ↔ m < n := by
  show (digitChar m).toNat < (digitChar n).toNat ↔ m < n
  rw [toNat_digitChar hm, toNat_digitChar hn]
  omega

/-- Two numbers have two padded texts. -/
theorem padded_injective {w m n : Nat} (h : padded w m = padded w n) : m = n := by
  have := congrArg valueOf h
  rwa [valueOf_padded, valueOf_padded] at this

/-- Numerals of one width compare as their numbers do. -/
theorem padded_lt_iff {w m n : Nat} (hw : 0 < w) (hm : m < 10 ^ w) (hn : n < 10 ^ w) :
    padded w m < padded w n ↔ m < n := by
  induction w generalizing m n with
  | zero => exact absurd hw (by decide)
  | succ w ih =>
      by_cases h0 : w = 0
      · subst h0
        have hm' : m < 10 := by simpa using hm
        have hn' : n < 10 := by simpa using hn
        rw [padded_one hm', padded_one hn', List.cons_lt_cons_iff, digitChar_lt_iff hm' hn']
        simp
      · have hw' : 0 < w := by omega
        rw [Nat.pow_succ] at hm hn
        have hm' : m / 10 < 10 ^ w := by omega
        have hn' : n / 10 < 10 ^ w := by omega
        rw [padded_succ hw', padded_succ hw', append_lt_append_iff
          (by rw [length_padded hw' hm', length_padded hw' hn']), ih hw' hm' hn',
          List.cons_lt_cons_iff, digitChar_lt_iff (by omega) (by omega)]
        -- the leading digits decide, and the last one when they are the same
        constructor
        · rintro (hlt | ⟨he, hlt | ⟨_, hf⟩⟩)
          · omega
          · have := padded_injective he
            omega
          · exact absurd hf (List.lt_irrefl [])
        · intro hlt
          by_cases hq : m / 10 < n / 10
          · exact Or.inl hq
          · have hqe : m / 10 = n / 10 := by omega
            exact Or.inr ⟨by rw [hqe], Or.inl (by omega)⟩

end HealthWatch.Text
