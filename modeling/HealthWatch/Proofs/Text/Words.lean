import HealthWatch.Text.Blank
import HealthWatch.Text.Split

/-! # Words and lines — taking apart a text that was put together

    A blank between two texts keeps their words apart (`words_append_blank`), and a
    text without blanks is one word.  So the words of a line with columns are the
    words of its columns.

    Lines with a line feed behind each are the lines of the text that they make up
    (`lines_ended`), but for a carriage return at the end of one. -/

namespace HealthWatch.Text

/-! ## Words -/

/-- A blank ends the word that is being read, and another character goes on with it. -/
theorem wordsFrom_cons (w : List Char) (c : Char) (r : List Char) :
    wordsFrom w (c :: r)
      = if isBlank c = true then
          (if w.isEmpty then wordsFrom [] r else w.reverse :: wordsFrom [] r)
        else wordsFrom (c :: w) r :=
  rfl

/-- A blank cuts a text in two. -/
theorem wordsFrom_append_blank {b : Char} (hb : isBlank b = true) (s t w : List Char) :
    wordsFrom w (s ++ b :: t) = wordsFrom w s ++ words t := by
  induction s generalizing w with
  | nil =>
      rw [List.nil_append, wordsFrom_cons, if_pos hb, words, wordsFrom]
      cases w.isEmpty <;> rfl
  | cons c s ih =>
      rw [List.cons_append, wordsFrom_cons, wordsFrom_cons]
      by_cases hc : isBlank c = true
      · rw [if_pos hc, if_pos hc, ih]
        cases w.isEmpty <;> rfl
      · rw [if_neg hc, if_neg hc, ih]

/-- A blank between two texts keeps their words apart. -/
theorem words_append_blank {b : Char} (hb : isBlank b = true) (s t : List Char) :
    words (s ++ b :: t) = words s ++ words t :=
  wordsFrom_append_blank hb s t []

theorem wordsFrom_of_no_blank {s : List Char} (h : ∀ c ∈ s, isBlank c = false)
    (w : List Char) : wordsFrom w s = wordsFrom (s.reverse ++ w) [] := by
  induction s generalizing w with
  | nil => rfl
  | cons c s ih =>
      obtain ⟨hc, hs⟩ := List.forall_mem_cons.1 h
      have hc' : ¬isBlank c = true := Bool.eq_false_iff.1 hc
      rw [wordsFrom_cons, if_neg hc', ih hs]
      simp

/-- A text without blanks is one word, unless it is empty. -/
theorem words_of_no_blank {s : List Char} (hne : s ≠ []) (h : ∀ c ∈ s, isBlank c = false) :
    words s = [s] := by
  rw [words, wordsFrom_of_no_blank h, List.append_nil, wordsFrom]
  simp [hne]

/-- No word holds a blank. -/
theorem isBlank_of_mem_wordsFrom {v s : List Char} (hv : ∀ c ∈ v, isBlank c = false)
    {w : List Char} (hw : w ∈ wordsFrom v s) : ∀ c ∈ w, isBlank c = false := by
  induction s generalizing v with
  | nil =>
      rw [wordsFrom] at hw
      split at hw
      · exact nomatch hw
      · cases List.mem_singleton.1 hw
        exact fun c hc => hv c (List.mem_reverse.1 hc)
  | cons c s ih =>
      have hnone : ∀ d ∈ ([] : List Char), isBlank d = false := fun d hd => nomatch hd
      rw [wordsFrom_cons] at hw
      split at hw
      · split at hw
        · exact ih hnone hw
        · rcases List.mem_cons.1 hw with rfl | hw
          · exact fun d hd => hv d (List.mem_reverse.1 hd)
          · exact ih hnone hw
      · next hc => exact ih (List.forall_mem_cons.2 ⟨Bool.eq_false_iff.2 hc, hv⟩) hw

theorem isBlank_of_mem_words {s w : List Char} (hw : w ∈ words s) : ∀ c ∈ w, isBlank c = false :=
  isBlank_of_mem_wordsFrom (fun _ hc => absurd hc List.not_mem_nil) hw

/-! ## Lines -/

/-- Pieces with an end each are cut at their ends. -/
theorem pieces_ended {c : Char} {ls : List (List Char)} (h : ∀ l ∈ ls, c ∉ l) :
    pieces c (ls.flatMap fun l => l ++ [c]) = ls ++ [[]] := by
  induction ls with
  | nil => rfl
  | cons l ls ih =>
      obtain ⟨hl, hls⟩ := List.forall_mem_cons.1 h
      rw [List.flatMap_cons, List.append_assoc, List.singleton_append, pieces_append _ hl, ih hls]
      rfl

/-- Lines with a line feed behind each are read back without carriage returns at their
    ends. -/
theorem lines_ended {ls : List (List Char)} (h : ∀ l ∈ ls, '\n' ∉ l) :
    lines (ls.flatMap fun l => l ++ ['\n']) = ls.map dropReturn := by
  rw [lines, pieces_ended h]
  simp

end HealthWatch.Text
