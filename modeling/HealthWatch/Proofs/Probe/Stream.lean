import HealthWatch.Probe.Stream
import HealthWatch.Proofs.Text.Utf8

/-! # Streams — what is written line by line is read line by line

    The octets of a text hold a line feed only where the text does.  A stream that
    starts with written lines is therefore cut behind each of them, whatever octets
    follow, and each is read back as the text it was written from.

    * `written` writes lines, each ended by a carriage return and a line feed;
    * `ofBytes_written_append` cuts what was written;
    * `lineText_lineOf` reads a line back, and trimming drops its end (`hasText_lineOf`). -/

namespace HealthWatch.Stream

open Text

/-- What a line is ended by. -/
def lineEnd : List Char := ['\r', '\n']

/-- The octets of lines with their ends. -/
def written (lines : List (List Char)) : List UInt8 :=
  Utf8.encode (lines.flatMap (· ++ lineEnd))

/-- The line of a stream that holds a text. -/
def lineOf (s : List Char) : Line :=
  .ok (Utf8.encode (s ++ lineEnd))

theorem written_cons (s : List Char) (lines : List (List Char)) :
    written (s :: lines) = Utf8.encode (s ++ lineEnd) ++ written lines := by
  rw [written, List.flatMap_cons, Utf8.encode_append, ← written]

/-- The last octet of a line is its line feed. -/
theorem encode_append_lineEnd (s : List Char) :
    Utf8.encode (s ++ lineEnd) = Utf8.encode (s ++ ['\r']) ++ [10] := by
  have hfeed : Utf8.encode ['\n'] = [10] := by decide
  rw [← hfeed, ← Utf8.encode_append, List.append_assoc]
  rfl

/-- Octets are cut behind their first line feed. -/
theorem cut_append {line : List UInt8} (h : 10 ∉ line) (rest : List UInt8) :
    cut (line ++ 10 :: rest) = (line ++ [10]) :: cut rest := by
  induction line with
  | nil => rw [List.nil_append, cut, if_pos rfl, List.nil_append]
  | cons b line ih =>
      obtain ⟨hb, hline⟩ := not_or.1 (mt List.mem_cons.2 h)
      rw [List.cons_append, cut, if_neg (Ne.symm hb), ih hline]
      rfl

/-- Octets without a line feed are one line, which the end of the stream ends. -/
theorem cut_of_notMem {line : List UInt8} (hne : line ≠ []) (h : 10 ∉ line) :
    cut line = [line] := by
  induction line with
  | nil => exact absurd rfl hne
  | cons b line ih =>
      obtain ⟨hb, hline⟩ := not_or.1 (mt List.mem_cons.2 h)
      rw [cut, if_neg (Ne.symm hb)]
      by_cases hnil : line = []
      · subst hnil
        rfl
      · rw [ih hnil hline]

/-! ## The lines a stream starts with -/

/-- A line with its line feed: one, at its end. -/
def EndsAtFeed (line : List UInt8) : Prop :=
  ∃ front, 10 ∉ front ∧ line = front ++ [10]

/-- Lines with nothing between them, in front of what follows: each goes up to its line feed,
    and only the last one may be ended by the end of the stream. -/
inductive LinesBefore (following : List UInt8) : List (List UInt8) → Prop
  | nil : LinesBefore following []
  | atEnd {line : List UInt8} : line ≠ [] → 10 ∉ line → following = [] →
      LinesBefore following [line]
  | cons {line : List UInt8} {lines : List (List UInt8)} : EndsAtFeed line →
      LinesBefore following lines → LinesBefore following (line :: lines)

/-- Octets are cut into the lines they start with, and what follows is cut by itself. -/
theorem cut_flatten_append {following : List UInt8} {lines : List (List UInt8)}
    (h : LinesBefore following lines) :
    cut (lines.flatten ++ following) = lines ++ cut following := by
  induction h with
  | nil => rfl
  | @atEnd line hne hfeed hnil =>
      subst hnil
      rw [List.flatten_singleton, List.append_nil, cut_of_notMem hne hfeed]
      rfl
  | @cons line lines hline _ ih =>
      obtain ⟨front, hfront, rfl⟩ := hline
      rw [List.flatten_cons, List.append_assoc, List.append_assoc, List.singleton_append,
        cut_append hfront, ih]
      rfl

/-- The first line that octets are cut into. -/
theorem linesBefore_of_cut_cons {bytes line : List UInt8} {tail : List (List UInt8)}
    (h : cut bytes = line :: tail) :
    ∃ following, bytes = line ++ following ∧ cut following = tail
      ∧ (EndsAtFeed line ∨ line ≠ [] ∧ 10 ∉ line ∧ following = []) := by
  by_cases hmem : (10 : UInt8) ∈ bytes
  · obtain ⟨front, following, rfl, hfront⟩ := List.eq_append_cons_of_mem hmem
    rw [cut_append hfront] at h
    obtain ⟨rfl, rfl⟩ := List.cons.inj h
    exact ⟨following, by simp, rfl, Or.inl ⟨front, hfront, rfl⟩⟩
  · have hne : bytes ≠ [] := by
      rintro rfl
      cases h
    rw [cut_of_notMem hne hmem] at h
    obtain ⟨rfl, rfl⟩ := List.cons.inj h
    exact ⟨[], by simp, rfl, Or.inr ⟨hne, hmem, rfl⟩⟩

/-- The first ones of the lines that octets are cut into. -/
theorem linesBefore_of_cut {lines rest : List (List UInt8)} :
    ∀ {bytes : List UInt8}, cut bytes = lines ++ rest →
      ∃ following, bytes = lines.flatten ++ following ∧ cut following = rest
        ∧ LinesBefore following lines := by
  induction lines with
  | nil =>
      intro bytes h
      exact ⟨bytes, rfl, h, .nil⟩
  | cons line lines ih =>
      intro bytes h
      obtain ⟨behind, rfl, hcut, hline⟩ := linesBefore_of_cut_cons h
      obtain ⟨following, rfl, hrest, hlines⟩ := ih hcut
      refine ⟨following, by simp, hrest, ?_⟩
      rcases hline with hfeed | ⟨hne, hfeed, hnil⟩
      · exact .cons hfeed hlines
      · -- the stream ended this line, so there is none behind it
        obtain ⟨hflat, rfl⟩ := List.append_eq_nil_iff.1 hnil
        have hnone : lines = [] := by
          cases hlines with
          | nil => rfl
          | atEnd hne' _ _ => exact absurd (by simpa using hflat) hne'
          | cons hfeed' _ =>
              obtain ⟨front, -, rfl⟩ := hfeed'
              simp at hflat
        subst hnone
        exact .atEnd hne hfeed rfl

/-- A stream starts with these lines exactly when its octets do, and what follows them is the
    stream of the octets behind. -/
theorem ofBytes_eq_append_iff {bytes : List UInt8} {front rest : List Line} :
    ofBytes bytes = front ++ rest ↔ ∃ lines following, front = lines.map .ok
      ∧ bytes = lines.flatten ++ following ∧ LinesBefore following lines
      ∧ rest = ofBytes following := by
  constructor
  · intro h
    obtain ⟨lines, behind, hcut, rfl, rfl⟩ := List.map_eq_append_iff.1 h
    obtain ⟨following, rfl, rfl, hlines⟩ := linesBefore_of_cut hcut
    exact ⟨lines, following, rfl, rfl, hlines, rfl⟩
  · rintro ⟨lines, following, rfl, rfl, hlines, rfl⟩
    rw [ofBytes, cut_flatten_append hlines, List.map_append]
    rfl

/-! ## Written lines -/

/-- A stream that starts with written lines is made of them and of the stream that follows. -/
theorem ofBytes_written_append {lines : List (List Char)} (h : ∀ s ∈ lines, '\n' ∉ s)
    (rest : List UInt8) :
    ofBytes (written lines ++ rest) = lines.map lineOf ++ ofBytes rest := by
  induction lines with
  | nil => rfl
  | cons s lines ih =>
      obtain ⟨hs, hlines⟩ := List.forall_mem_cons.1 h
      have hfeed : (10 : UInt8) ∉ Utf8.encode (s ++ ['\r']) :=
        Utf8.lineFeed_notMem_encode (by simpa using hs)
      have hcut := cut_append hfeed (written lines ++ rest)
      rw [← encode_append_lineEnd] at hcut
      rw [written_cons, encode_append_lineEnd, List.append_assoc, List.append_assoc,
        List.singleton_append, ofBytes, hcut, List.map_cons, ← ofBytes, ih hlines]
      rfl

/-- A line is read back with its end. -/
theorem lineText_lineOf (s : List Char) : lineText (lineOf s) = .ok (s ++ lineEnd) := by
  rw [lineOf, lineText, Utf8.decode_encode]

/-- The text of a line is that of its octets. -/
theorem decode_of_lineText {octets : List UInt8} {text : List Char}
    (h : lineText (.ok octets) = .ok text) : Utf8.decode octets = .ok text := by
  rw [lineText] at h
  split at h
  · next s hs =>
      cases h
      exact hs
  · cases h

/-- The end of a line is blank. -/
theorem trimEnd_append_lineEnd (s : List Char) : trimEnd (s ++ lineEnd) = trimEnd s := by
  have hreturn : isBlank '\r' = true := by decide
  have hfeed : isBlank '\n' = true := by decide
  exact trimEnd_append_of_blank s
    (List.forall_mem_cons.2 ⟨hreturn, List.forall_mem_singleton.2 hfeed⟩)

/-- The text of a line, without the blanks it ends with. -/
def HasText (line : Line) (t : List Char) : Prop :=
  ∃ s, lineText line = .ok s ∧ trimEnd s = t

theorem hasText_lineOf (s : List Char) : HasText (lineOf s) (trimEnd s) :=
  ⟨s ++ lineEnd, lineText_lineOf s, trimEnd_append_lineEnd s⟩

end HealthWatch.Stream
