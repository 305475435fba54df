import HealthWatch.Text.Utf8

/-! # Octets of texts — their order and how they read back

    The first octet of a character grows with the number of octets, and those of one
    length are the digits of the character, the greatest first.  So the octets of a
    smaller character are smaller whatever follows (`encodeChar_lt`), and the octets of
    a smaller text are smaller (`encode_lt`).

    The first octet tells how many follow it, so a character is read back from its
    octets whatever stands behind them (`readChar_encodeChar`), and a text from its own
    (`decode_encode`).  Octets below 128 are those of single characters
    (`toNat_of_mem_encodeChar`). -/

namespace HealthWatch.Text.Utf8

theorem octet_lt {a b : Nat} (h : a < b) (hb : b < 256) : octet a < octet b := by
  rw [UInt8.lt_iff_toNat_lt, octet, octet, UInt8.toNat_ofNat', UInt8.toNat_ofNat',
    Nat.mod_eq_of_lt (Nat.lt_trans h hb), Nat.mod_eq_of_lt hb]
  exact h

/-- Octets compare by the first one, and by the others when that is the same. -/
theorem cons_octet_lt {a b : Nat} (hb : b < 256) {x y : List UInt8}
    (h : a < b ∨ a = b ∧ x < y) : octet a :: x < octet b :: y := by
  rw [List.cons_lt_cons_iff]
  rcases h with h | ⟨rfl, h⟩
  · exact Or.inl (octet_lt h hb)
  · exact Or.inr ⟨rfl, h⟩

/-! ## Octets behind the first one -/

section Tails

variable {m n : Nat} (x y : List UInt8)

/-- The last octets compare as the last six bits. -/
theorem tail_lt (h : m % 64 < n % 64) :
    octet (0x80 + m % 64) :: x < octet (0x80 + n % 64) :: y :=
  cons_octet_lt (by omega) (Or.inl (by omega))

/-- The last two octets compare as the last twelve bits. -/
theorem tails_lt (h : m % 4096 < n % 4096) :
    octet (0x80 + m / 64 % 64) :: octet (0x80 + m % 64) :: x
      < octet (0x80 + n / 64 % 64) :: octet (0x80 + n % 64) :: y := by
  refine cons_octet_lt (by omega) ?_
  -- the greater digit decides, and the other one when they agree
  by_cases hlead : m / 64 % 64 < n / 64 % 64
  · exact Or.inl (by omega)
  · exact Or.inr ⟨by omega, tail_lt x y (by omega)⟩

/-- The last three octets compare as the last eighteen bits. -/
theorem threeTails_lt (h : m % 262144 < n % 262144) :
    octet (0x80 + m / 4096 % 64) :: octet (0x80 + m / 64 % 64) :: octet (0x80 + m % 64) :: x
      < octet (0x80 + n / 4096 % 64) :: octet (0x80 + n / 64 % 64) :: octet (0x80 + n % 64)
        :: y := by
  refine cons_octet_lt (by omega) ?_
  by_cases hlead : m / 4096 % 64 < n / 4096 % 64
  · exact Or.inl (by omega)
  · exact Or.inr ⟨by omega, tails_lt x y (by omega)⟩

end Tails

/-! ## Characters and texts -/

/-- The octets of a smaller character are smaller, whatever stands behind them. -/
theorem encodeChar_lt {c d : Char} (h : c < d) (x y : List UInt8) :
    encodeChar c ++ x < encodeChar d ++ y := by
  have hlt : c.toNat < d.toNat := h
  have hd : d.toNat < 1114112 := by
    rcases d.valid with hv | hv
    · exact Nat.lt_trans hv (by decide)
    · exact hv.2
  rw [encodeChar, encodeChar]
  generalize c.toNat = m at hlt
  generalize d.toNat = n at hlt hd
  -- of characters of two lengths the longer one has the greater first octet
  by_cases hm1 : m < 0x80
  · rw [if_pos hm1]
    split
    · exact cons_octet_lt (by omega) (Or.inl hlt)
    · split
      · exact cons_octet_lt (by omega) (Or.inl (by omega))
      · split
        · exact cons_octet_lt (by omega) (Or.inl (by omega))
        · exact cons_octet_lt (by omega) (Or.inl (by omega))
  · rw [if_neg hm1, if_neg (by omega : ¬n < 0x80)]
    by_cases hm2 : m < 0x800
    · rw [if_pos hm2]
      split
      · refine cons_octet_lt (by omega) ?_
        by_cases hlead : m / 64 < n / 64
        · exact Or.inl (by omega)
        · exact Or.inr ⟨by omega, tail_lt x y (by omega)⟩
      · split
        · exact cons_octet_lt (by omega) (Or.inl (by omega))
        · exact cons_octet_lt (by omega) (Or.inl (by omega))
    · rw [if_neg hm2, if_neg (by omega : ¬n < 0x800)]
      by_cases hm3 : m < 0x10000
      · rw [if_pos hm3]
        split
        · refine cons_octet_lt (by omega) ?_
          by_cases hlead : m / 4096 < n / 4096
          · exact Or.inl (by omega)
          · exact Or.inr ⟨by omega, tails_lt x y (by omega)⟩
        · exact cons_octet_lt (by omega) (Or.inl (by omega))
      · rw [if_neg hm3, if_neg (by omega : ¬n < 0x10000)]
        refine cons_octet_lt (by omega) ?_
        by_cases hlead : m / 262144 < n / 262144
        · exact Or.inl (by omega)
        · exact Or.inr ⟨by omega, threeTails_lt x y (by omega)⟩

theorem encodeChar_ne_nil (c : Char) : encodeChar c ≠ [] := by
  simp only [encodeChar]
  split
  · exact List.cons_ne_nil _ _
  · split
    · exact List.cons_ne_nil _ _
    · split <;> exact List.cons_ne_nil _ _

theorem encode_ne_nil {s : List Char} (h : s ≠ []) : encode s ≠ [] := by
  obtain ⟨c, r, rfl⟩ := List.exists_cons_of_ne_nil h
  exact List.append_ne_nil_of_left_ne_nil (encodeChar_ne_nil c) (encode r)

/-- The octets of a smaller text are smaller. -/
theorem encode_lt {s t : List Char} (h : s < t) : encode s < encode t := by
  induction t generalizing s with
  | nil => exact absurd h (List.not_lt_nil s)
  | cons d t ih =>
      rw [encode, encode, List.flatMap_cons, ← encode, ← encode]
      cases s with
      | nil =>
          obtain ⟨b, r, hb⟩ := List.exists_cons_of_ne_nil (encodeChar_ne_nil d)
          rw [hb]
          exact List.nil_lt_cons ..
      | cons c s =>
          rw [encode, List.flatMap_cons, ← encode]
          rcases List.cons_lt_cons_iff.1 h with hcd | ⟨rfl, hst⟩
          · exact encodeChar_lt hcd _ _
          · exact List.append_left_lt (ih hst)

/-- Texts compare as their octets do. -/
theorem encode_lt_iff {s t : List Char} : encode s < encode t ↔ s < t := by
  refine ⟨fun h => Decidable.byContradiction fun hnot => ?_, encode_lt⟩
  rcases List.le_iff_lt_or_eq.1 (List.not_lt.1 hnot) with hlt | rfl
  · exact List.lt_asymm h (encode_lt hlt)
  · exact List.lt_irrefl _ h

/-! ## Reading back -/

section Octet

variable {n : Nat} (h : n < 256) (b : UInt8)

include h

theorem toNat_octet : (octet n).toNat = n := by
  rw [octet, UInt8.toNat_ofNat', Nat.mod_eq_of_lt h]

theorem octet_lt_iff : octet n < b ↔ n < b.toNat := by
  rw [UInt8.lt_iff_toNat_lt, toNat_octet h]

theorem octet_le_iff : octet n ≤ b ↔ n ≤ b.toNat := by
  rw [UInt8.le_iff_toNat_le, toNat_octet h]

theorem le_octet_iff : b ≤ octet n ↔ b.toNat ≤ n := by
  rw [UInt8.le_iff_toNat_le, toNat_octet h]

theorem octet_eq_iff : octet n = b ↔ n = b.toNat := by
  rw [← UInt8.toNat_inj, toNat_octet h]

/-- The first octet tells how many there are. -/
theorem width?_octet : width? (octet n)
    = if n < 0x80 then some 1 else if n < 0xC2 then none else if n < 0xE0 then some 2
      else if n < 0xF0 then some 3 else if n < 0xF5 then some 4 else none := by
  simp only [width?, octet_lt_iff h]
  rfl

theorem isContinuation_octet (hlow : 0x80 ≤ n) (hhigh : n ≤ 0xBF) :
    isContinuation (octet n) = true := by
  rw [isContinuation, Bool.and_eq_true, decide_eq_true_eq, decide_eq_true_eq, le_octet_iff h,
    octet_le_iff h]
  exact ⟨hlow, hhigh⟩

theorem isSecond_octet {m : Nat} (hlow : 0x80 ≤ m) (hhigh : m ≤ 0xBF)
    (hE0 : n = 0xE0 → 0xA0 ≤ m) (hED : n = 0xED → m ≤ 0x9F) (hF0 : n = 0xF0 → 0x90 ≤ m)
    (hF4 : n = 0xF4 → m ≤ 0x8F) : isSecond (octet n) (octet m) = true := by
  have hbetween : ∀ lo hi : UInt8, lo.toNat ≤ m → m ≤ hi.toNat →
      (decide (lo ≤ octet m) && decide (octet m ≤ hi)) = true := by
    intro lo hi hlo hhi
    have hm : m < 256 := by omega
    rw [Bool.and_eq_true, decide_eq_true_eq, decide_eq_true_eq, le_octet_iff hm, octet_le_iff hm]
    exact ⟨hlo, hhi⟩
  rw [isSecond, secondRange]
  simp only [octet_eq_iff h]
  split
  · next he => exact hbetween 0xA0 0xBF (hE0 he) hhigh
  · split
    · next he => exact hbetween 0x80 0x9F hlow (hED he)
    · split
      · next he => exact hbetween 0x90 0xBF (hF0 he) hhigh
      · split
        · next he => exact hbetween 0x80 0x8F hlow (hF4 he)
        · exact hbetween 0x80 0xBF hlow hhigh

end Octet

section Read

variable {a b c d : UInt8} (s : List UInt8)

theorem readChar_one (h : width? a = some 1) : readChar a s = .ok (Char.ofNat a.toNat, s) := by
  rw [readChar, h]
  rfl

theorem readChar_two (h : width? a = some 2) (hb : isSecond a b = true) :
    readChar a (b :: s) = .ok (Char.ofNat (a.toNat % 32 * 64 + b.toNat % 64), s) := by
  rw [readChar, h]
  simp [hb]

theorem readChar_three (h : width? a = some 3) (hb : isSecond a b = true)
    (hc : isContinuation c = true) :
    readChar a (b :: c :: s)
      = .ok (Char.ofNat (a.toNat % 16 * 4096 + b.toNat % 64 * 64 + c.toNat % 64), s) := by
  rw [readChar, h]
  simp [hb, hc]

theorem readChar_four (h : width? a = some 4) (hb : isSecond a b = true)
    (hc : isContinuation c = true) (hd : isContinuation d = true) :
    readChar a (b :: c :: d :: s)
      = .ok (Char.ofNat (a.toNat % 8 * 262144 + b.toNat % 64 * 4096 + c.toNat % 64 * 64
        + d.toNat % 64), s) := by
  rw [readChar, h]
  simp [hb, hc, hd]

end Read

/-- A character is not a surrogate. -/
theorem toNat_char (c : Char) : c.toNat < 0xD800 ∨ 0xDFFF < c.toNat ∧ c.toNat < 0x110000 :=
  c.valid

/-- A character is read back from its octets. -/
theorem readChar_encodeChar (c : Char) (s : List UInt8) :
    ∃ a r, encodeChar c ++ s = a :: r ∧ readChar a r = .ok (c, s) := by
  have hvalid := toNat_char c
  have hc : Char.ofNat c.toNat = c := Char.ofNat_toNat c
  rw [encodeChar]
  generalize c.toNat = n at hvalid hc
  subst hc
  have htail : ∀ m, (octet (0x80 + m % 64)).toNat = 0x80 + m % 64
      ∧ isContinuation (octet (0x80 + m % 64)) = true := fun m =>
    ⟨toNat_octet (by omega), isContinuation_octet (by omega) (by omega) (by omega)⟩
  by_cases h1 : n < 0x80
  · have ha : n < 256 := by omega
    rw [if_pos h1]
    refine ⟨_, _, rfl, (readChar_one s ?_).trans ?_⟩
    · rw [width?_octet ha, if_pos h1]
    · rw [toNat_octet ha]
  rw [if_neg h1]
  by_cases h2 : n < 0x800
  · have ha : 0xC0 + n / 64 < 256 := by omega
    rw [if_pos h2]
    refine ⟨_, _, rfl, (readChar_two s ?_ ?_).trans ?_⟩
    · rw [width?_octet ha, if_neg (by omega), if_neg (by omega), if_pos (by omega)]
    · apply isSecond_octet ha <;> omega
    · rw [toNat_octet ha, (htail n).1]
      congr 3
      omega
  rw [if_neg h2]
  by_cases h3 : n < 0x10000
  · have ha : 0xE0 + n / 4096 < 256 := by omega
    rw [if_pos h3]
    refine ⟨_, _, rfl, (readChar_three s ?_ ?_ (htail n).2).trans ?_⟩
    · rw [width?_octet ha, if_neg (by omega), if_neg (by omega), if_neg (by omega),
        if_pos (by omega)]
    · apply isSecond_octet ha <;> omega
    · rw [toNat_octet ha, (htail (n / 64)).1, (htail n).1]
      congr 3
      omega
  · have ha : 0xF0 + n / 262144 < 256 := by omega
    rw [if_neg h3]
    refine ⟨_, _, rfl, (readChar_four s ?_ ?_ (htail (n / 64)).2 (htail n).2).trans ?_⟩
    · rw [width?_octet ha, if_neg (by omega), if_neg (by omega), if_neg (by omega),
        if_neg (by omega), if_pos (by omega)]
    · apply isSecond_octet ha <;> omega
    · rw [toNat_octet ha, (htail (n / 4096)).1, (htail (n / 64)).1, (htail n).1]
      congr 3
      omega

/-- The octets of a text are decoded as the text. -/
theorem decodeFrom_encode (index : Nat) (s : List Char) : decodeFrom index (encode s) = .ok s := by
  -- on the characters, at every place
  induction s generalizing index with
  | nil => rw [encode, List.flatMap_nil, decodeFrom]
  | cons c s ih =>
      obtain ⟨a, r, hoctets, hread⟩ := readChar_encodeChar c (encode s)
      rw [encode, List.flatMap_cons, ← encode, hoctets, decodeFrom]
      split
      · next herror => cases hread.symm.trans herror
      · next d rest hok =>
          cases hread.symm.trans hok
          rw [ih]
          rfl

/-- A text is read back from its octets. -/
theorem decode_encode (s : List Char) : decode (encode s) = .ok s :=
  decodeFrom_encode 0 s

theorem encode_append (s t : List Char) : encode (s ++ t) = encode s ++ encode t :=
  List.flatMap_append

/-- Octets behind a text are read by themselves, only at another place. -/
theorem exists_decodeFrom_append (index : Nat) (s : List Char) (octets : List UInt8) :
    ∃ place, decodeFrom index (encode s ++ octets) = (s ++ ·) <$> decodeFrom place octets := by
  -- on the characters, at every place
  induction s generalizing index with
  | nil =>
      refine ⟨index, ?_⟩
      show decodeFrom index octets = id <$> decodeFrom index octets
      rw [id_map]
  | cons c s ih =>
      obtain ⟨place, hplace⟩ := ih (index + c.utf8Size)
      refine ⟨place, ?_⟩
      obtain ⟨a, r, hoctets, hread⟩ := readChar_encodeChar c (encode s ++ octets)
      rw [encode, List.flatMap_cons, ← encode, List.append_assoc, hoctets, decodeFrom]
      split
      · next herror => cases hread.symm.trans herror
      · next d rest hok =>
          cases hread.symm.trans hok
          rw [hplace]
          cases decodeFrom place octets <;> rfl

/-- What octets start with, their text starts with. -/
theorem prefix_of_decode {s text : List Char} {octets : List UInt8}
    (h : decode (encode s ++ octets) = .ok text) : s <+: text := by
  obtain ⟨place, hplace⟩ := exists_decodeFrom_append 0 s octets
  rw [decode, hplace] at h
  cases hrest : decodeFrom place octets with
  | error e =>
      rw [hrest] at h
      cases h
  | ok rest =>
      rw [hrest] at h
      cases h
      exact List.prefix_append s rest

/-! ## Octets of one character -/

theorem le_toNat_octet {m : Nat} (h : m < 128) : 128 ≤ (octet (0x80 + m)).toNat := by
  rw [toNat_octet (by omega)]
  omega

/-- An octet below 128 is the only one of its character. -/
theorem toNat_of_mem_encodeChar {b : UInt8} {c : Char} (h : b ∈ encodeChar c)
    (hb : b.toNat < 128) : c.toNat = b.toNat := by
  have hvalid := toNat_char c
  rw [encodeChar] at h
  generalize c.toNat = n at h hvalid
  by_cases h1 : n < 0x80
  · rw [if_pos h1, List.mem_singleton] at h
    rw [h, toNat_octet (by omega)]
  · -- every other octet is at least 128
    refine absurd hb (Nat.not_lt.2 ?_)
    simp only [if_neg h1] at h
    have hhigh : ∃ m < 128, b = octet (0x80 + m) := by
      split at h
      · simp only [List.mem_cons, List.not_mem_nil, or_false] at h
        rcases h with rfl | rfl
        · exact ⟨0x40 + n / 64, by omega, by congr 1; omega⟩
        · exact ⟨n % 64, by omega, rfl⟩
      · split at h
        · simp only [List.mem_cons, List.not_mem_nil, or_false] at h
          rcases h with rfl | rfl | rfl
          · exact ⟨0x60 + n / 4096, by omega, by congr 1; omega⟩
          · exact ⟨n / 64 % 64, by omega, rfl⟩
          · exact ⟨n % 64, by omega, rfl⟩
        · simp only [List.mem_cons, List.not_mem_nil, or_false] at h
          rcases h with rfl | rfl | rfl | rfl
          · exact ⟨0x70 + n / 262144, by omega, by congr 1; omega⟩
          · exact ⟨n / 4096 % 64, by omega, rfl⟩
          · exact ⟨n / 64 % 64, by omega, rfl⟩
          · exact ⟨n % 64, by omega, rfl⟩
    obtain ⟨m, hm, rfl⟩ := hhigh
    exact le_toNat_octet hm

/-- Only a line feed is written as one. -/
theorem lineFeed_notMem_encode {s : List Char} (h : '\n' ∉ s) : (10 : UInt8) ∉ encode s := by
  intro hmem
  obtain ⟨c, hc, hoctet⟩ := List.mem_flatMap.1 hmem
  have hnat : c.toNat = 10 := toNat_of_mem_encodeChar hoctet (by decide)
  have hfeed : c = '\n' := Char.toNat_inj.1 hnat
  exact h (hfeed ▸ hc)

end HealthWatch.Text.Utf8
