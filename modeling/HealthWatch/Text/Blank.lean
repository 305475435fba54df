/-! # Blank characters — which characters separate and pad texts

    A character is blank when it has the Unicode property White_Space.  Names,
    numbers and lines are trimmed by this class, and columns of a table are
    told apart by it.

    * `trim` drops the blanks at both ends;
    * `words` lists the longest runs of other characters;
    * `IsBlankText` says that a text holds nothing else. -/

namespace HealthWatch.Text

/-- A character with the property White_Space. -/
def isBlank (c : Char) : Bool :=
  let n := c.toNat
  (9 ≤ n && n ≤ 13) || n == 0x20 || n == 0x85 || n == 0xA0 || n == 0x1680
    || (0x2000 ≤ n && n ≤ 0x200A) || n == 0x2028 || n == 0x2029
    || n == 0x202F || n == 0x205F || n == 0x3000

/-- The text without the blanks it starts with. -/
def trimStart (s : List Char) : List Char :=
  s.dropWhile isBlank

/-- The text without the blanks it ends with. -/
def trimEnd (s : List Char) : List Char :=
  (s.reverse.dropWhile isBlank).reverse

/-- The text without the blanks at its two ends. -/
def trim (s : List Char) : List Char :=
  trimEnd (trimStart s)

/-- A text without any character that is not blank. -/
def isBlankText (s : String) : Bool :=
  s.toList.all isBlank

/-- The words of a text when `w`, reversed, has been read of the first one. -/
def wordsFrom (w : List Char) : List Char → List (List Char)
  | [] => if w.isEmpty then [] else [w.reverse]
  | c :: r =>
      if isBlank c then
        if w.isEmpty then wordsFrom [] r else w.reverse :: wordsFrom [] r
      else wordsFrom (c :: w) r

/-- The longest runs of characters that are not blank, in order. -/
def words (s : List Char) : List (List Char) :=
  wordsFrom [] s

@[simp] theorem trimStart_nil : trimStart [] = [] := rfl

@[simp] theorem trimEnd_nil : trimEnd [] = [] := rfl

@[simp] theorem words_nil : words [] = [] := rfl

/-- A text is blank when all its characters are. -/
theorem isBlankText_eq_true_iff {s : String} :
    isBlankText s = true ↔ ∀ c ∈ s.toList, isBlank c = true :=
  List.all_eq_true

/-- It is not when one of them is not. -/
theorem isBlankText_ne_true_iff {s : String} :
    ¬isBlankText s = true ↔ ∃ c ∈ s.toList, isBlank c = false := by
  rw [Bool.not_eq_true, isBlankText, List.all_eq_false]
  simp only [Bool.not_eq_true]

/-- A character is kept when it is no blank or something behind it is kept. -/
theorem trimEnd_cons (c : Char) (s : List Char) :
    trimEnd (c :: s) = if isBlank c = true ∧ trimEnd s = [] then [] else c :: trimEnd s := by
  rw [trimEnd, List.reverse_cons, List.dropWhile_append]
  by_cases hs : s.reverse.dropWhile isBlank = []
  · have hnil : trimEnd s = [] := by rw [trimEnd, hs, List.reverse_nil]
    cases hc : isBlank c <;> simp [hs, hnil, hc]
  · simp [hs, trimEnd]

/-- Nothing is left of a text exactly when it holds blanks only. -/
theorem trimEnd_eq_nil_iff {s : List Char} : trimEnd s = [] ↔ ∀ c ∈ s, isBlank c = true := by
  induction s with
  | nil => simp
  | cons c s ih =>
      rw [trimEnd_cons, List.forall_mem_cons, ← ih]
      split
      · next h => exact iff_of_true rfl h
      · next h => exact iff_of_false (List.cons_ne_nil c _) h

/-- Blanks behind a text do not matter. -/
theorem trimEnd_append_of_blank (s : List Char) {t : List Char}
    (h : ∀ c ∈ t, isBlank c = true) : trimEnd (s ++ t) = trimEnd s := by
  induction s with
  | nil => exact trimEnd_eq_nil_iff.2 h
  | cons c s ih => rw [List.cons_append, trimEnd_cons, trimEnd_cons, ih]

/-- A text without blanks is kept whatever follows it. -/
theorem trimEnd_append_of_no_blank {s : List Char} (h : ∀ c ∈ s, isBlank c = false)
    (t : List Char) : trimEnd (s ++ t) = s ++ trimEnd t := by
  induction s with
  | nil => rfl
  | cons c s ih =>
      obtain ⟨hc, hs⟩ := List.forall_mem_cons.1 h
      rw [List.cons_append, trimEnd_cons, ih hs, if_neg (by simp [hc])]
      rfl

/-- A text is trimmed to a start of it. -/
theorem trimEnd_isPrefix (s : List Char) : trimEnd s <+: s := by
  induction s with
  | nil => exact List.prefix_refl []
  | cons c s ih =>
      rw [trimEnd_cons]
      split
      · exact List.nil_prefix
      · exact (List.prefix_cons_inj c).2 ih

/-- Nothing in front of what is kept is trimmed. -/
theorem trimEnd_append_of_ne_nil (s : List Char) {t : List Char} (h : trimEnd t ≠ []) :
    trimEnd (s ++ t) = s ++ trimEnd t := by
  induction s with
  | nil => rfl
  | cons c s ih =>
      have hne : trimEnd (s ++ t) ≠ [] := by
        rw [ih]
        exact fun hnil => h (List.append_eq_nil_iff.1 hnil).2
      rw [List.cons_append, trimEnd_cons, if_neg fun hc => hne hc.2, ih]
      rfl

/-- What holds no blank is found in a trimmed line when it is in the line. -/
theorem infix_trimEnd_iff {part s : List Char} (h : ∀ c ∈ part, isBlank c = false) :
    part <:+: trimEnd s ↔ part <:+: s := by
  constructor
  · intro hpart
    exact hpart.trans (trimEnd_isPrefix s).isInfix
  · rintro ⟨front, rest, rfl⟩
    by_cases hnil : part = []
    · rw [hnil]
      exact List.nil_infix
    · have hkept : trimEnd (part ++ rest) = part ++ trimEnd rest :=
        trimEnd_append_of_no_blank h rest
      have hne : trimEnd (part ++ rest) ≠ [] := by
        rw [hkept]
        exact fun hempty => hnil (List.append_eq_nil_iff.1 hempty).1
      rw [List.append_assoc, trimEnd_append_of_ne_nil front hne, hkept, ← List.append_assoc]
      exact ⟨front, trimEnd rest, rfl⟩

/-- A text that starts with no blank keeps its start. -/
theorem trimStart_cons {c : Char} (h : isBlank c = false) (r : List Char) :
    trimStart (c :: r) = c :: r := by
  rw [trimStart, List.dropWhile_cons, h]
  rfl

/-- A text without blanks is trimmed to itself. -/
theorem trim_of_no_blank {s : List Char} (h : ∀ c ∈ s, isBlank c = false) : trim s = s := by
  have hend : trimEnd s = s := by
    have := trimEnd_append_of_no_blank h []
    rwa [List.append_nil, trimEnd_nil, List.append_nil] at this
  cases s with
  | nil => rfl
  | cons c r => rw [trim, trimStart_cons (h c List.mem_cons_self), hend]

end HealthWatch.Text
