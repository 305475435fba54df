import HealthWatch.Proofs.Probe.Reply

/-! # Framing — which lines of a stream make a reply

    A reply is a single line with a blank behind its code, or a block: a line with a hyphen,
    lines that do not end the block, and a line with the same code and a blank.  Of any
    stream, whatever its octets are, reading takes the lines of one reply from the front and
    leaves all others.

    * `Framed` says which lines make a reply, and `Reply.read_eq_ok_iff` that these are the
      lines a successful read takes;
    * `Reply.exists_frames`: repeated reading cuts a stream into replies and a rest of which
      no reply is read;
    * `replies_are_framed` says both of octets. -/

namespace HealthWatch.Transfer

open Text

/-! ## The lines of a reply -/

/-- A first line: without the blanks it ends with, it is the code, a mark and the text. -/
structure Opens (r : Reply) (mark : Char) (line : Stream.Line) : Prop where
  code_lt : r.code < 1000
  hasText : Stream.HasText line (numbered r.code mark r.text)

/-- A last line: without the blanks it ends with, it starts with the code and a blank. -/
def Closes (code : Nat) (line : Stream.Line) : Prop :=
  ∃ t, Stream.HasText line t ∧ Reply.Ends code t

/-- A line between: without the blanks it ends with, it is no last line, and has no digits of
    other scripts where a code would stand. -/
def Passes (code : Nat) (line : Stream.Line) : Prop :=
  ∃ t, Stream.HasText line t ∧ ¬ Reply.Ends code t ∧ ¬ StartsForeign t

/-- The lines that make a reply. -/
inductive Framed (r : Reply) : List Stream.Line → Prop
  | single {line : Stream.Line} : Opens r ' ' line → Framed r [line]
  | block {first last : Stream.Line} {between : List Stream.Line} : Opens r '-' first →
      (∀ line ∈ between, Passes r.code line) → Closes r.code last →
      Framed r (first :: (between ++ [last]))

namespace Reply

variable {r : Reply} {line : Stream.Line} {rest : List Stream.Line}

/-! ## One line -/

/-- The last line of a block ends its reply. -/
theorem readRest_of_closes (hcode : r.code < 1000) (h : Closes r.code line) :
    readRest r (line :: rest) = .ok (r, rest) := by
  obtain ⟨t, ht, hends⟩ := h
  obtain ⟨words, hwords⟩ := ends_iff.1 hends
  exact readRest_of_last rest ht (ofText_eq_coded_iff.2 ⟨hcode, hwords⟩)

theorem readRest_of_passes (h : Passes r.code line) :
    readRest r (line :: rest) = readRest r rest := by
  obtain ⟨t, ht, hends, hforeign⟩ := h
  exact readRest_of_between ht hends hforeign rest

/-- A line on which reading does not fail is a last one or one between. -/
theorem closes_or_passes_of_readRest {x : Reply × List Stream.Line}
    (h : readRest r (line :: rest) = .ok x) : Closes r.code line ∨ Passes r.code line := by
  cases hs : Stream.lineText line with
  | error e =>
      rw [readRest, hs] at h
      cases h
  | ok s =>
      have ht : Stream.HasText line (trimEnd s) := ⟨s, hs, rfl⟩
      by_cases hends : Ends r.code (trimEnd s)
      · exact Or.inl ⟨trimEnd s, ht, hends⟩
      · refine Or.inr ⟨trimEnd s, ht, hends, fun hforeign => ?_⟩
        rw [readRest_of_foreign rest ht (ofText_eq_foreign_iff.2 hforeign)] at h
        cases h

/-- A line with a blank is a reply by itself. -/
theorem read_of_opens_blank (h : Opens r ' ' line) : read (line :: rest) = .ok (r, rest) :=
  read_of_last rest h.hasText (ofText_eq_coded_iff.2 ⟨h.code_lt, rfl⟩)

theorem read_of_opens_hyphen (h : Opens r '-' line) :
    read (line :: rest) = readRest r rest :=
  read_of_first rest h.hasText (ofText_eq_coded_iff.2 ⟨h.code_lt, rfl⟩)

/-- A line on which reading does not fail is a first one. -/
theorem exists_opens_of_read {x : Reply × List Stream.Line} (h : read (line :: rest) = .ok x) :
    ∃ r, Opens r ' ' line ∨ Opens r '-' line := by
  cases hs : Stream.lineText line with
  | error e =>
      rw [read, hs] at h
      cases h
  | ok s =>
      have ht : Stream.HasText line (trimEnd s) := ⟨s, hs, rfl⟩
      rw [read_cons rest ht] at h
      cases hline : ReplyLine.ofText (trimEnd s) with
      | foreign =>
          rw [hline] at h
          cases h
      | other =>
          rw [hline] at h
          cases h
      | coded code last words =>
          obtain ⟨hcode, hnumbered⟩ := ofText_eq_coded_iff.1 hline
          rw [hnumbered] at ht
          refine ⟨⟨code, words⟩, ?_⟩
          cases last with
          | true => exact Or.inl ⟨hcode, ht⟩
          | false => exact Or.inr ⟨hcode, ht⟩

/-! ## One reply -/

/-- Reading goes on over lines between, up to the first last line. -/
theorem readRest_eq_ok_iff (hcode : r.code < 1000) {lines : List Stream.Line} {reply : Reply} :
    readRest r lines = .ok (reply, rest) ↔ reply = r ∧ ∃ between last,
      lines = between ++ last :: rest ∧ (∀ line ∈ between, Passes r.code line)
        ∧ Closes r.code last := by
  constructor
  · intro h
    induction lines with
    | nil => cases h
    | cons line lines ih =>
        rcases closes_or_passes_of_readRest h with hcloses | hpasses
        · rw [readRest_of_closes hcode hcloses] at h
          cases h
          exact ⟨rfl, [], line, rfl, List.forall_mem_nil _, hcloses⟩
        · rw [readRest_of_passes hpasses] at h
          obtain ⟨hreply, between, last, rfl, hbetween, hlast⟩ := ih h
          exact ⟨hreply, line :: between, last, rfl,
            List.forall_mem_cons.2 ⟨hpasses, hbetween⟩, hlast⟩
  · rintro ⟨rfl, between, last, rfl, hbetween, hlast⟩
    induction between with
    | nil => exact readRest_of_closes hcode hlast
    | cons line between ih =>
        obtain ⟨hpasses, hbetween⟩ := List.forall_mem_cons.1 hbetween
        rw [List.cons_append, readRest_of_passes hpasses, ih hbetween]

/-- Reading takes the lines of one reply, and leaves all that follow. -/
theorem read_eq_ok_iff {lines : List Stream.Line} :
    read lines = .ok (r, rest) ↔ ∃ frame, lines = frame ++ rest ∧ Framed r frame := by
  constructor
  · intro h
    cases lines with
    | nil => cases h
    | cons line lines =>
        obtain ⟨r', hopens | hopens⟩ := exists_opens_of_read h
        · rw [read_of_opens_blank hopens] at h
          cases h
          exact ⟨[line], rfl, .single hopens⟩
        · rw [read_of_opens_hyphen hopens] at h
          obtain ⟨rfl, between, last, rfl, hbetween, hlast⟩ :=
            (readRest_eq_ok_iff hopens.code_lt).1 h
          exact ⟨line :: (between ++ [last]), by simp, .block hopens hbetween hlast⟩
  · rintro ⟨frame, rfl, hframe⟩
    cases hframe with
    | single hopens => exact read_of_opens_blank hopens
    | @block first last between hopens hbetween hlast =>
        rw [List.cons_append, read_of_opens_hyphen hopens, readRest_eq_ok_iff hopens.code_lt]
        exact ⟨rfl, between, last, by simp, hbetween, hlast⟩

/-! ## Replies one after the other -/

theorem readAll_of_error {lines : List Stream.Line} {e : ProbeError} (h : read lines = .error e) :
    readAll lines = ([], e) := by
  rw [readAll]
  split
  · next e' h' =>
      rw [h] at h'
      cases h'
      rfl
  · next h' =>
      rw [h] at h'
      cases h'

theorem readAll_of_ok {lines : List Stream.Line} (h : read lines = .ok (r, rest)) :
    readAll lines = (r :: (readAll rest).1, (readAll rest).2) := by
  rw [readAll]
  split
  · next h' =>
      rw [h] at h'
      cases h'
  · next h' =>
      rw [h] at h'
      cases h'
      rfl

/-- A stream is cut into the lines of the replies that are read of it and those behind, of
    which no reply is read. -/
theorem exists_frames (lines : List Stream.Line) :
    ∃ (frames : List (Reply × List Stream.Line)) (behind : List Stream.Line) (e : ProbeError),
      lines = frames.flatMap Prod.snd ++ behind ∧ (∀ f ∈ frames, Framed f.1 f.2)
        ∧ frames.length ≤ lines.length ∧ readAll lines = (frames.map Prod.fst, e)
        ∧ read behind = .error e := by
  -- on the length of the stream, since what is left behind a reply is shorter
  induction hn : lines.length using Nat.strongRecOn generalizing lines with
  | ind n ih =>
      subst hn
      cases hread : read lines with
      | error e =>
          exact ⟨[], lines, e, rfl, List.forall_mem_nil _, Nat.zero_le _, readAll_of_error hread,
            hread⟩
      | ok x =>
          obtain ⟨r, rest⟩ := x
          obtain ⟨frame, hlines, hframe⟩ := read_eq_ok_iff.1 hread
          have hshorter := length_read hread
          obtain ⟨frames, behind, e, hrest, hframes, hcount, hall, hbehind⟩ :=
            ih rest.length hshorter rest rfl
          refine ⟨(r, frame) :: frames, behind, e, ?_, ?_, ?_, ?_, hbehind⟩
          · rw [hlines, hrest, List.flatMap_cons, List.append_assoc]
          · exact List.forall_mem_cons.2 ⟨hframe, hframes⟩
          · exact Nat.lt_of_le_of_lt hcount hshorter
          · rw [readAll_of_ok hread, hall]
            rfl

end Reply

/-! ## Octets -/

/-- Frames of lines that can be read are frames of their octets. -/
theorem exists_octets {frames : List (Reply × List Stream.Line)} {lines : List (List UInt8)}
    (h : frames.flatMap Prod.snd = lines.map .ok) :
    ∃ taken : List (Reply × List (List UInt8)),
      frames = taken.map (fun t => (t.1, t.2.map .ok)) ∧ lines = taken.flatMap Prod.snd := by
  induction frames generalizing lines with
  | nil =>
      obtain rfl : lines = [] := List.map_eq_nil_iff.1 h.symm
      exact ⟨[], rfl, rfl⟩
  | cons f frames ih =>
      obtain ⟨r, frame⟩ := f
      rw [List.flatMap_cons] at h
      obtain ⟨front, behind, rfl, rfl, hbehind⟩ := List.map_eq_append_iff.1 h.symm
      obtain ⟨taken, rfl, rfl⟩ := ih hbehind.symm
      exact ⟨(r, front) :: taken, rfl, rfl⟩

/-- Of any octets, a successful read takes the lines of one reply from the front, and leaves
    all that follow.  Reading again and again, until it fails, takes replies one behind the
    other, no more than there are lines. -/
theorem replies_are_framed (bytes : List UInt8) :
    (∀ r rest, Reply.read (Stream.ofBytes bytes) = .ok (r, rest) ↔
        ∃ lines following, bytes = lines.flatten ++ following
          ∧ Stream.LinesBefore following lines ∧ Framed r (lines.map .ok)
          ∧ rest = Stream.ofBytes following)
      ∧ ∃ (taken : List (Reply × List (List UInt8))) (following : List UInt8) (e : ProbeError),
          bytes = (taken.flatMap Prod.snd).flatten ++ following
          ∧ Stream.LinesBefore following (taken.flatMap Prod.snd)
          ∧ (∀ t ∈ taken, Framed t.1 (t.2.map .ok))
          ∧ taken.length ≤ (Stream.cut bytes).length
          ∧ Reply.readAll (Stream.ofBytes bytes) = (taken.map Prod.fst, e)
          ∧ Reply.read (Stream.ofBytes following) = .error e := by
  constructor
  · intro r rest
    rw [Reply.read_eq_ok_iff]
    constructor
    · rintro ⟨frame, hbytes, hframe⟩
      obtain ⟨lines, following, rfl, hflat, hlines, hrest⟩ := Stream.ofBytes_eq_append_iff.1 hbytes
      exact ⟨lines, following, hflat, hlines, hframe, hrest⟩
    · rintro ⟨lines, following, hflat, hlines, hframe, hrest⟩
      refine ⟨lines.map .ok, ?_, hframe⟩
      exact Stream.ofBytes_eq_append_iff.2 ⟨lines, following, rfl, hflat, hlines, hrest⟩
  · obtain ⟨frames, behind, e, hbytes, hframes, hcount, hall, hbehind⟩ :=
      Reply.exists_frames (Stream.ofBytes bytes)
    obtain ⟨lines, following, hlines, rfl, hbefore, rfl⟩ := Stream.ofBytes_eq_append_iff.1 hbytes
    obtain ⟨taken, rfl, rfl⟩ := exists_octets hlines
    refine ⟨taken, following, e, rfl, hbefore, ?_, ?_, ?_, hbehind⟩
    · intro t ht
      exact hframes _ (List.mem_map_of_mem ht)
    · rwa [List.length_map, Stream.ofBytes, List.length_map] at hcount
    · rw [hall, List.map_map]
      rfl

end HealthWatch.Transfer
