/-! # Splitting — cutting a text at a separator

    A text is cut at the first, at the last or at every occurrence of one
    character, and into lines.

    * `cutFirst` and `cutLast` give the two sides of one occurrence;
    * `pieces` gives the texts between all occurrences, at least one;
    * `lines` gives the lines without their line ends. -/

namespace HealthWatch.Text

/-- The two sides of the first occurrence of `c`. -/
def cutFirst (c : Char) : List Char → Option (List Char × List Char)
  | [] => none
  | d :: r =>
      if d = c then some ([], r)
      else (cutFirst c r).map fun (a, b) => (d :: a, b)

/-- The two sides of the last occurrence of `c`. -/
def cutLast (c : Char) : List Char → Option (List Char × List Char)
  | [] => none
  | d :: r =>
      match cutLast c r with
      | some (a, b) => some (d :: a, b)
      | none => if d = c then some ([], r) else none

/-- The texts between the occurrences of `c`. -/
def pieces (c : Char) : List Char → List (List Char)
  | [] => [[]]
  | d :: r =>
      match pieces c r with
      | [] => [[d]]
      | p :: ps => if d = c then [] :: p :: ps else (d :: p) :: ps

/-- The text after `start`, when it begins with it. -/
def dropStart? : List Char → List Char → Option (List Char)
  | [], s => some s
  | _ :: _, [] => none
  | c :: p, d :: s => if c = d then dropStart? p s else none

/-- Drops one carriage return at the end of a line. -/
def dropReturn (line : List Char) : List Char :=
  if line.getLast? = some '\r' then line.dropLast else line

/-- The lines of a text: a line ends at a line feed or at the end of the text,
    and a carriage return before the line feed belongs to the line end. -/
def lines (s : List Char) : List (List Char) :=
  let ps := pieces '\n' s
  let last := ps.getLastD []
  ps.dropLast.map dropReturn ++ (if last.isEmpty then [] else [last])

/-- A cut gives the text back when the separator is put between its sides. -/
theorem cutFirst_append {c : Char} {s a b : List Char}
    (h : cutFirst c s = some (a, b)) : s = a ++ c :: b := by
  induction s generalizing a with
  | nil => exact nomatch h
  | cons d r ih =>
      rw [cutFirst] at h
      split at h
      next hd => cases h; simp [hd]
      next =>
        obtain ⟨⟨a', b'⟩, h1, h2⟩ := Option.map_eq_some_iff.1 h
        cases h2
        simp [ih h1]

/-- The left side of a first cut does not hold the separator. -/
theorem not_mem_of_cutFirst {c : Char} {s a b : List Char}
    (h : cutFirst c s = some (a, b)) : c ∉ a := by
  induction s generalizing a with
  | nil => exact nomatch h
  | cons d r ih =>
      rw [cutFirst] at h
      split at h
      next => cases h; simp
      next hd =>
        obtain ⟨⟨a', b'⟩, h1, h2⟩ := Option.map_eq_some_iff.1 h
        cases h2
        simp [ih h1, Ne.symm hd]

/-- A text is cut behind a front that does not hold the separator. -/
theorem cutFirst_of_not_mem {c : Char} {a : List Char} (b : List Char)
    (h : c ∉ a) : cutFirst c (a ++ c :: b) = some (a, b) := by
  induction a with
  | nil => simp [cutFirst]
  | cons d r ih =>
      have hd : d ≠ c := fun e => h (by simp [e])
      simp [cutFirst, hd, ih (fun m => h (List.mem_cons_of_mem _ m))]

/-- A text without the separator is not cut. -/
theorem cutFirst_eq_none {c : Char} {s : List Char} (h : c ∉ s) :
    cutFirst c s = none := by
  induction s with
  | nil => rfl
  | cons d r ih =>
      have hd : d ≠ c := fun e => h (by simp [e])
      simp [cutFirst, hd, ih (fun m => h (List.mem_cons_of_mem _ m))]

/-- What is not cut does not hold the separator. -/
theorem not_mem_of_cutFirst_eq_none {c : Char} {s : List Char} (h : cutFirst c s = none) :
    c ∉ s := by
  intro hc
  obtain ⟨a, b, rfl, ha⟩ := List.eq_append_cons_of_mem hc
  exact nomatch (cutFirst_of_not_mem b ha).symm.trans h

/-- A text is cut at its last separator, unless it has none. -/
theorem cutLast_eq_none_iff {c : Char} {s : List Char} : cutLast c s = none ↔ c ∉ s := by
  induction s with
  | nil => exact iff_of_true rfl List.not_mem_nil
  | cons d r ih =>
      rw [cutLast, List.mem_cons, not_or, ← ih]
      cases hr : cutLast c r with
      | some p => exact iff_of_false (fun h => nomatch h) fun h => nomatch h.2
      | none =>
          by_cases hd : d = c
          · exact iff_of_false (by simp [hd]) fun h => h.1 hd.symm
          · exact iff_of_true (by simp [hd]) ⟨Ne.symm hd, rfl⟩

/-- A cut gives the text back when the separator is put between its sides. -/
theorem cutLast_append {c : Char} {s a b : List Char}
    (h : cutLast c s = some (a, b)) : s = a ++ c :: b := by
  induction s generalizing a with
  | nil => exact nomatch h
  | cons d r ih =>
      rw [cutLast] at h
      cases hr : cutLast c r with
      | some p =>
          rw [hr] at h
          cases h
          rw [ih hr, List.cons_append]
      | none =>
          rw [hr] at h
          by_cases hd : d = c
          · cases (if_pos hd).symm.trans h
            rw [hd, List.nil_append]
          · exact nomatch (if_neg hd).symm.trans h

/-- The right side of a last cut does not hold the separator. -/
theorem not_mem_of_cutLast {c : Char} {s a b : List Char}
    (h : cutLast c s = some (a, b)) : c ∉ b := by
  induction s generalizing a with
  | nil => exact nomatch h
  | cons d r ih =>
      rw [cutLast] at h
      cases hr : cutLast c r with
      | some p =>
          rw [hr] at h
          cases h
          exact ih hr
      | none =>
          rw [hr] at h
          by_cases hd : d = c
          · cases (if_pos hd).symm.trans h
            exact cutLast_eq_none_iff.1 hr
          · exact nomatch (if_neg hd).symm.trans h

/-- A text is cut before a back that does not hold the separator. -/
theorem cutLast_of_not_mem {c : Char} (a : List Char) {b : List Char}
    (h : c ∉ b) : cutLast c (a ++ c :: b) = some (a, b) := by
  induction a with
  | nil =>
      rw [List.nil_append, cutLast, cutLast_eq_none_iff.2 h]
      exact if_pos rfl
  | cons d r ih => rw [List.cons_append, cutLast, ih]

/-- What is left behind a start, when there is anything, stands behind it. -/
theorem dropStart?_eq_some_iff {p s r : List Char} : dropStart? p s = some r ↔ s = p ++ r := by
  induction p generalizing s with
  | nil => rw [dropStart?, Option.some.injEq, List.nil_append]
  | cons c p ih =>
      cases s with
      | nil => exact iff_of_false (fun h => nomatch h) fun h => nomatch h
      | cons d s =>
          rw [dropStart?, List.cons_append, List.cons.injEq, ← ih]
          by_cases hd : c = d
          · rw [if_pos hd]
            exact ⟨fun h => ⟨hd.symm, h⟩, And.right⟩
          · rw [if_neg hd]
            exact iff_of_false (fun h => nomatch h) fun h => hd h.1.symm

theorem isSome_dropStart?_iff {p s : List Char} : (dropStart? p s).isSome = true ↔ p <+: s := by
  rw [Option.isSome_iff_exists]
  constructor
  · rintro ⟨r, h⟩
    exact ⟨r, (dropStart?_eq_some_iff.1 h).symm⟩
  · rintro ⟨r, h⟩
    exact ⟨r, dropStart?_eq_some_iff.2 h.symm⟩

/-- There is at least one piece. -/
theorem pieces_ne_nil (c : Char) (s : List Char) : pieces c s ≠ [] := by
  cases s with
  | nil => simp [pieces]
  | cons d r =>
      rw [pieces]
      split
      · simp
      · split <;> simp

/-- A text without the separator is one piece. -/
theorem pieces_of_not_mem {c : Char} {s : List Char} (h : c ∉ s) : pieces c s = [s] := by
  induction s with
  | nil => rfl
  | cons d r ih =>
      have hd : d ≠ c := fun e => h (by simp [e])
      rw [pieces, ih (fun m => h (List.mem_cons_of_mem _ m))]
      exact if_neg hd

/-- A front without the separator is the first piece. -/
theorem pieces_append {c : Char} {a : List Char} (b : List Char) (h : c ∉ a) :
    pieces c (a ++ c :: b) = a :: pieces c b := by
  induction a with
  | nil =>
      obtain ⟨p, ps, hp⟩ := List.exists_cons_of_ne_nil (pieces_ne_nil c b)
      rw [List.nil_append, pieces, hp]
      exact if_pos rfl
  | cons d r ih =>
      have hd : d ≠ c := fun e => h (by simp [e])
      rw [List.cons_append, pieces, ih (fun m => h (List.mem_cons_of_mem _ m))]
      exact if_neg hd

end HealthWatch.Text
