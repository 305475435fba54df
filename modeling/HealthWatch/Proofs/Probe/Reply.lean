import HealthWatch.Probe.Transfer.Reply
import HealthWatch.Proofs.Probe.Stream
import HealthWatch.Proofs.Text.Decimal
import Mathlib.Data.List.Basic

/-! # Replies of file servers — which well-formed replies are read

    A server writes a reply as a line of its code, a blank and a text, or as a block:
    a first line with a hyphen, any lines between, and a last line with the code and
    a blank.  Reading trims a line before it looks for the code and the mark behind
    it, and a mark that is a blank falls with the blanks behind it.  So the last
    line of a reply is known as such only when its text holds something else.

    * `ofText_eq_coded_iff` and `ofText_eq_foreign_iff` tell which lines have a code;
    * `readRest_between` passes over lines that neither end a block nor break it off;
    * `read_written_iff` says which replies are read, whatever octets follow. -/

namespace HealthWatch.Transfer

open Text

/-- A line of a reply: three digits, a mark and a text. -/
def numbered (code : Nat) (mark : Char) (text : List Char) : List Char :=
  padded 3 code ++ mark :: text

/-! ## What a line is -/

/-- The ASCII digits are digits. -/
theorem isDecimalDigit_of_isDigit {c : Char} (h : isDigit c = true) :
    isDecimalDigit c = true := by
  simp only [isDigit, Bool.and_eq_true, decide_eq_true_eq] at h
  rw [isDecimalDigit, if_pos (by omega)]
  simpa using h

/-- The three digits of a code. -/
theorem exists_padded_three {code : Nat} (h : code < 1000) :
    ∃ a b c, padded 3 code = [a, b, c] ∧ ∀ d ∈ [a, b, c], isDigit d = true := by
  obtain ⟨a, b, c, habc⟩ := List.length_eq_three.1 (length_padded (w := 3) (by decide) h)
  exact ⟨a, b, c, habc, fun d hd => isDigit_of_mem_padded (habc ▸ hd)⟩

/-- The mark behind a code: a blank on a last line. -/
def markOf (last : Bool) : Char := if last then ' ' else '-'

/-- Numbered lines are known by their codes and their marks, and no others have a code. -/
theorem ofText_eq_coded_iff {s text : List Char} {code : Nat} {last : Bool} :
    ReplyLine.ofText s = .coded code last text
      ↔ code < 1000 ∧ s = numbered code (markOf last) text := by
  constructor
  · intro h
    unfold ReplyLine.ofText at h
    split at h
    · next a b c mark rest =>
        split at h
        · next hstart =>
            split at h
            · next hdigits =>
                cases h
                rw [Bool.and_eq_true, Bool.or_eq_true, decide_eq_true_eq, decide_eq_true_eq]
                  at hstart
                have habc : padded 3 (valueOf [a, b, c]) = [a, b, c] :=
                  padded_valueOf (List.cons_ne_nil a _) (List.all_eq_true.1 hdigits)
                have hlt := valueOf_lt (List.all_eq_true.1 hdigits)
                refine ⟨by simpa using hlt, ?_⟩
                rw [numbered, habc]
                rcases hstart.1 with rfl | rfl
                · rfl
                · rfl
            · cases h
        · cases h
    · cases h
  · rintro ⟨hcode, rfl⟩
    obtain ⟨a, b, c, habc, hdigits⟩ := exists_padded_three hcode
    have hdecimal : [a, b, c].all isDecimalDigit = true :=
      List.all_eq_true.2 fun d hd => isDecimalDigit_of_isDigit (hdigits d hd)
    have hvalue : valueOf [a, b, c] = code := habc ▸ valueOf_padded 3 code
    have hmark : markOf last = ' ' ∨ markOf last = '-' := by cases last <;> decide
    have hlast : decide (markOf last = ' ') = last := by cases last <;> decide
    rw [numbered, habc]
    show ReplyLine.ofText (a :: b :: c :: markOf last :: text) = _
    rw [ReplyLine.ofText, if_pos (by simp [hmark, hdecimal]), if_pos (List.all_eq_true.2 hdigits),
      hvalue, hlast]

/-- A code alone is nothing. -/
theorem ofText_padded {code : Nat} (hcode : code < 1000) :
    ReplyLine.ofText (padded 3 code) = .other := by
  obtain ⟨a, b, c, habc, -⟩ := exists_padded_three hcode
  rw [habc]
  rfl

/-- Three digits and a mark, not all of the digits of the ASCII ones. -/
def StartsForeign (s : List Char) : Prop :=
  ∃ a b c mark text, s = a :: b :: c :: mark :: text ∧ (mark = ' ' ∨ mark = '-')
    ∧ (∀ d ∈ [a, b, c], isDecimalDigit d = true) ∧ ∃ d ∈ [a, b, c], isDigit d = false

/-- A line is foreign when it starts as no line of a reply can. -/
theorem ofText_eq_foreign_iff {s : List Char} :
    ReplyLine.ofText s = .foreign ↔ StartsForeign s := by
  constructor
  · intro h
    unfold ReplyLine.ofText at h
    split at h
    · next a b c mark text =>
        split at h
        · next hstart =>
            split at h
            · cases h
            · next hdigits =>
                rw [Bool.and_eq_true, Bool.or_eq_true, decide_eq_true_eq, decide_eq_true_eq,
                  List.all_eq_true] at hstart
                rw [Bool.not_eq_true, List.all_eq_false] at hdigits
                obtain ⟨d, hd, hnot⟩ := hdigits
                exact ⟨a, b, c, mark, text, rfl, hstart.1, hstart.2, d, hd,
                  Bool.eq_false_iff.2 hnot⟩
        · cases h
    · cases h
  · rintro ⟨a, b, c, mark, text, rfl, hmark, hdecimal, d, hd, hnot⟩
    have hall : ¬ [a, b, c].all isDigit = true := fun hall => by
      rw [List.all_eq_true.1 hall d hd] at hnot
      cases hnot
    rw [ReplyLine.ofText, if_pos (by simp [hmark, List.all_eq_true.2 hdecimal]), if_neg hall]

/-! ## Trimmed lines -/

/-- The hyphen of a line stays when the line is trimmed. -/
theorem trimEnd_numbered_hyphen (code : Nat) (text : List Char) :
    trimEnd (numbered code '-' text) = numbered code '-' (trimEnd text) := by
  have hhyphen : isBlank '-' = false := by decide
  rw [numbered, trimEnd_append_of_no_blank (fun c hc => isBlank_of_isDigit
    (isDigit_of_mem_padded hc)), trimEnd_cons, if_neg (by simp [hhyphen])]
  rfl

/-- The blank behind a code stays only when something else follows it. -/
theorem trimEnd_numbered_blank (code : Nat) (text : List Char) :
    trimEnd (numbered code ' ' text)
      = if trimEnd text = [] then padded 3 code else numbered code ' ' (trimEnd text) := by
  have hblank : isBlank ' ' = true := by decide
  rw [numbered, trimEnd_append_of_no_blank (fun c hc => isBlank_of_isDigit
    (isDigit_of_mem_padded hc)), trimEnd_cons]
  by_cases h : trimEnd text = []
  · rw [if_pos ⟨hblank, h⟩, if_pos h, List.append_nil]
  · rw [if_neg fun hc => h hc.2, if_neg h]
    rfl

/-! ## Reading -/

namespace Reply

section Step

variable {line : Stream.Line} {t : List Char} {reply : Reply} (rest : List Stream.Line)

/-- The first line of a reply decides how it is read. -/
theorem read_cons (h : Stream.HasText line t) :
    read (line :: rest)
      = match ReplyLine.ofText t with
        | .coded code true words => .ok (⟨code, words⟩, rest)
        | .coded code false words => readRest ⟨code, words⟩ rest
        | _ => .error (malformed t) := by
  obtain ⟨s, hs, rfl⟩ := h
  rw [read, hs]
  rfl

/-- The next line of a reply ends it, is passed over or is none of it. -/
theorem readRest_cons (h : Stream.HasText line t) :
    readRest reply (line :: rest)
      = match ReplyLine.ofText t with
        | .foreign => .error (malformed t)
        | .coded code true _ => if code = reply.code then .ok (reply, rest) else readRest reply rest
        | _ => readRest reply rest := by
  obtain ⟨s, hs, rfl⟩ := h
  rw [readRest, hs]
  rfl

/-- A line that is the last one is the whole reply. -/
theorem read_of_last (h : Stream.HasText line t) {code : Nat} {words : List Char}
    (ht : ReplyLine.ofText t = .coded code true words) :
    read (line :: rest) = .ok (⟨code, words⟩, rest) := by
  rw [read_cons rest h, ht]

/-- A line that others follow opens a reply. -/
theorem read_of_first (h : Stream.HasText line t) {code : Nat} {words : List Char}
    (ht : ReplyLine.ofText t = .coded code false words) :
    read (line :: rest) = readRest ⟨code, words⟩ rest := by
  rw [read_cons rest h, ht]

theorem read_of_other (h : Stream.HasText line t) (ht : ReplyLine.ofText t = .other) :
    read (line :: rest) = .error (malformed t) := by
  rw [read_cons rest h, ht]

theorem readRest_of_last (h : Stream.HasText line t) {words : List Char}
    (ht : ReplyLine.ofText t = .coded reply.code true words) :
    readRest reply (line :: rest) = .ok (reply, rest) := by
  rw [readRest_cons rest h, ht]
  exact if_pos rfl

theorem readRest_of_foreign (h : Stream.HasText line t) (ht : ReplyLine.ofText t = .foreign) :
    readRest reply (line :: rest) = .error (malformed t) := by
  rw [readRest_cons rest h, ht]

/-- Every other line is passed over. -/
theorem readRest_of_passed (h : Stream.HasText line t) (hforeign : ReplyLine.ofText t ≠ .foreign)
    (hlast : ∀ words, ReplyLine.ofText t ≠ .coded reply.code true words) :
    readRest reply (line :: rest) = readRest reply rest := by
  rw [readRest_cons rest h]
  cases ht : ReplyLine.ofText t with
  | foreign => exact absurd ht hforeign
  | other => rfl
  | coded code last words =>
      cases last with
      | false => rfl
      | true =>
          have hcode : code ≠ reply.code := by
            rintro rfl
            exact hlast words ht
          exact if_neg hcode

end Step

/-- A line that has digits of other scripts where a code would stand. -/
def IsForeign (s : List Char) : Prop :=
  StartsForeign (trimEnd s)

instance : DecidablePred IsForeign := fun _ =>
  decidable_of_iff _ ofText_eq_foreign_iff

/-- A line with the code and a blank is the last one of a block with this code. -/
def Ends (code : Nat) (s : List Char) : Prop :=
  padded 3 code ++ [' '] <+: s

instance (code : Nat) : DecidablePred (Ends code) := fun s =>
  inferInstanceAs (Decidable (padded 3 code ++ [' '] <+: s))

/-- A line that ends a block has its code, a blank and any words. -/
theorem ends_iff {code : Nat} {s : List Char} :
    Ends code s ↔ ∃ words, s = numbered code ' ' words := by
  constructor
  · rintro ⟨words, h⟩
    exact ⟨words, by rw [← h, numbered, List.append_assoc, List.singleton_append]⟩
  · rintro ⟨words, rfl⟩
    exact ⟨words, by rw [numbered, List.append_assoc, List.singleton_append]⟩

/-- A line that, when it is trimmed, neither ends a block nor breaks it off is passed over. -/
theorem readRest_of_between {reply : Reply} {line : Stream.Line} {t : List Char}
    (h : Stream.HasText line t) (hends : ¬ Ends reply.code t) (hforeign : ¬ StartsForeign t)
    (rest : List Stream.Line) : readRest reply (line :: rest) = readRest reply rest := by
  refine readRest_of_passed rest h (fun ht => hforeign (ofText_eq_foreign_iff.1 ht)) ?_
  intro words ht
  exact hends (ends_iff.2 ⟨words, (ofText_eq_coded_iff.1 ht).2⟩)

/-- A line that neither ends a block nor breaks it off is passed over. -/
theorem readRest_cons_between {reply : Reply} {s : List Char} (hends : ¬ Ends reply.code s)
    (hforeign : ¬ IsForeign s) (rest : List Stream.Line) :
    readRest reply (Stream.lineOf s :: rest) = readRest reply rest := by
  -- what the trimmed line starts with, the line starts with
  have htrimmed : ¬ Ends reply.code (trimEnd s) := fun h => hends (h.trans (trimEnd_isPrefix s))
  exact readRest_of_between (Stream.hasText_lineOf s) htrimmed hforeign rest

/-- Lines that neither end a block nor break it off are passed over. -/
theorem readRest_between {reply : Reply} {lines : List (List Char)}
    (hends : ∀ s ∈ lines, ¬ Ends reply.code s) (hforeign : ∀ s ∈ lines, ¬ IsForeign s)
    (rest : List Stream.Line) :
    readRest reply (lines.map Stream.lineOf ++ rest) = readRest reply rest := by
  induction lines with
  | nil => rfl
  | cons s lines ih =>
      obtain ⟨hs, hlines⟩ := List.forall_mem_cons.1 hends
      obtain ⟨fs, flines⟩ := List.forall_mem_cons.1 hforeign
      rw [List.map_cons, List.cons_append, readRest_cons_between hs fs, ih hlines flines]

/-- The first line with digits of other scripts breaks a block off. -/
theorem readRest_foreign {reply : Reply} {lines : List (List Char)}
    (hends : ∀ s ∈ lines, ¬ Ends reply.code s) (hforeign : ∃ s ∈ lines, IsForeign s)
    (rest : List Stream.Line) :
    ∃ s ∈ lines, readRest reply (lines.map Stream.lineOf ++ rest)
      = .error (malformed (trimEnd s)) := by
  induction lines with
  | nil => simp at hforeign
  | cons s lines ih =>
      obtain ⟨hs, hlines⟩ := List.forall_mem_cons.1 hends
      by_cases fs : IsForeign s
      · refine ⟨s, List.mem_cons_self, ?_⟩
        rw [List.map_cons, List.cons_append,
          readRest_of_foreign _ (Stream.hasText_lineOf s) (ofText_eq_foreign_iff.2 fs)]
      · have flines : ∃ s ∈ lines, IsForeign s := by
          obtain ⟨t, ht, ft⟩ := hforeign
          rcases List.mem_cons.1 ht with rfl | ht
          · exact absurd ft fs
          · exact ⟨t, ht, ft⟩
        obtain ⟨t, ht, herror⟩ := ih hlines flines
        refine ⟨t, List.mem_cons_of_mem s ht, ?_⟩
        rw [List.map_cons, List.cons_append, readRest_cons_between hs fs, herror]

/-- The blank of a line whose text holds something is seen. -/
theorem ofText_trimEnd_numbered {code : Nat} (hcode : code < 1000) {text : List Char}
    (h : trimEnd text ≠ []) :
    ReplyLine.ofText (trimEnd (numbered code ' ' text)) = .coded code true (trimEnd text) := by
  rw [trimEnd_numbered_blank, if_neg h]
  exact ofText_eq_coded_iff.2 ⟨hcode, rfl⟩

/-- With no text behind it the blank is not seen. -/
theorem ofText_trimEnd_numbered_nil {code : Nat} (hcode : code < 1000) {text : List Char}
    (h : trimEnd text = []) : ReplyLine.ofText (trimEnd (numbered code ' ' text)) = .other := by
  rw [trimEnd_numbered_blank, if_pos h, ofText_padded hcode]

/-- A single line is read when its text holds something besides blanks. -/
theorem read_line {code : Nat} (hcode : code < 1000) (text : List Char)
    (rest : List Stream.Line) :
    read (Stream.lineOf (numbered code ' ' text) :: rest)
      = if trimEnd text = [] then .error (malformed (padded 3 code))
        else .ok (⟨code, trimEnd text⟩, rest) := by
  by_cases h : trimEnd text = []
  · rw [if_pos h, read_of_other rest (Stream.hasText_lineOf _)
      (ofText_trimEnd_numbered_nil hcode h), trimEnd_numbered_blank, if_pos h]
  · rw [if_neg h,
      read_of_last rest (Stream.hasText_lineOf _) (ofText_trimEnd_numbered hcode h)]

/-- A first line with a hyphen opens a block, whatever its text. -/
theorem read_first {code : Nat} (hcode : code < 1000) (text : List Char)
    (rest : List Stream.Line) :
    read (Stream.lineOf (numbered code '-' text) :: rest)
      = readRest ⟨code, trimEnd text⟩ rest := by
  refine read_of_first rest (Stream.hasText_lineOf _) ?_
  rw [trimEnd_numbered_hyphen]
  exact ofText_eq_coded_iff.2 ⟨hcode, rfl⟩

/-- The last line of a block ends it when its text holds something besides blanks. -/
theorem readRest_last {reply : Reply} (hcode : reply.code < 1000) (text : List Char)
    (rest : List Stream.Line) :
    readRest reply (Stream.lineOf (numbered reply.code ' ' text) :: rest)
      = if trimEnd text = [] then readRest reply rest else .ok (reply, rest) := by
  by_cases h : trimEnd text = []
  · have hother := ofText_trimEnd_numbered_nil hcode h
    rw [if_pos h]
    exact readRest_of_passed rest (Stream.hasText_lineOf _) (by rw [hother]; rintro ⟨⟩)
      fun _ => by rw [hother]; rintro ⟨⟩
  · rw [if_neg h,
      readRest_of_last rest (Stream.hasText_lineOf _) (ofText_trimEnd_numbered hcode h)]

/-- A block is read when its last line ends it and no line between breaks it off. -/
theorem readRest_block_iff {reply : Reply} (hcode : reply.code < 1000) {lines : List (List Char)}
    (hends : ∀ s ∈ lines, ¬ Ends reply.code s) (lastText : List Char) (rest : List Stream.Line) :
    readRest reply ((lines ++ [numbered reply.code ' ' lastText]).map Stream.lineOf ++ rest)
        = .ok (reply, rest)
      ↔ trimEnd lastText ≠ [] ∧ ∀ s ∈ lines, ¬ IsForeign s := by
  rw [List.map_append, List.append_assoc]
  by_cases hforeign : ∃ s ∈ lines, IsForeign s
  · -- the block is broken off
    obtain ⟨s, -, herror⟩ := readRest_foreign hends hforeign
      ([numbered reply.code ' ' lastText].map Stream.lineOf ++ rest)
    rw [herror]
    refine iff_of_false (fun h => nomatch h) fun h => ?_
    obtain ⟨t, ht, ft⟩ := hforeign
    exact h.2 t ht ft
  · have hnone : ∀ s ∈ lines, ¬ IsForeign s := fun s hs fs => hforeign ⟨s, hs, fs⟩
    rw [readRest_between hends hnone, List.map_singleton, List.singleton_append,
      readRest_last hcode]
    by_cases h : trimEnd lastText = []
    · -- what follows would have to end the block, and then it is not all left
      rw [if_pos h]
      refine iff_of_false (fun hread => ?_) fun hread => hread.1 h
      exact absurd (length_readRest hread) (Nat.lt_irrefl _)
    · rw [if_neg h]
      exact iff_of_true rfl ⟨h, hnone⟩

end Reply

/-! ## Well-formed replies -/

/-- The lines of a block after its first one. -/
structure Block where
  between : List (List Char)
  lastText : List Char

/-- A reply as a server writes it: a single line, or a block. -/
structure Written where
  code : Nat
  text : List Char
  block : Option Block := none

namespace Written

/-- The lines of a reply. -/
def lines (w : Written) : List (List Char) :=
  match w.block with
  | none => [numbered w.code ' ' w.text]
  | some b => numbered w.code '-' w.text :: (b.between ++ [numbered w.code ' ' b.lastText])

/-- The lines between the first and the last one. -/
def between (w : Written) : List (List Char) :=
  match w.block with
  | none => []
  | some b => b.between

/-- The text of the last line. -/
def lastText (w : Written) : List Char :=
  match w.block with
  | none => w.text
  | some b => b.lastText

/-- What a client has to get of a reply. -/
def reply (w : Written) : Reply :=
  ⟨w.code, trimEnd w.text⟩

/-- The code has three digits, every line is one line, and no line between ends the block. -/
structure WellFormed (w : Written) : Prop where
  code_lt : w.code < 1000
  lineFeed_notMem : ∀ s ∈ w.lines, '\n' ∉ s
  not_ends : ∀ s ∈ w.between, ¬ Reply.Ends w.code s

end Written

/-- A well-formed reply is read, and all that follows it is left, exactly when its last line
    holds something besides its code and blanks and no line between has digits of other scripts
    where a code would stand. -/
theorem read_written_iff {w : Written} (hw : w.WellFormed) (following : List UInt8) :
    Reply.read (Stream.ofBytes (Stream.written w.lines ++ following))
        = .ok (w.reply, Stream.ofBytes following)
      ↔ (∃ c ∈ w.lastText, isBlank c = false) ∧ ∀ s ∈ w.between, ¬ Reply.IsForeign s := by
  have hkept : (∃ c ∈ w.lastText, isBlank c = false) ↔ trimEnd w.lastText ≠ [] := by
    rw [ne_eq, trimEnd_eq_nil_iff]
    simp
  rw [Stream.ofBytes_written_append hw.lineFeed_notMem, hkept]
  obtain ⟨code, text, block⟩ := w
  have hcode : code < 1000 := hw.code_lt
  cases block with
  | none =>
      show Reply.read (Stream.lineOf (numbered code ' ' text) :: Stream.ofBytes following)
        = .ok (⟨code, trimEnd text⟩, _) ↔ trimEnd text ≠ [] ∧ ∀ s ∈ [], ¬ Reply.IsForeign s
      rw [Reply.read_line hcode]
      by_cases h : trimEnd text = [] <;> simp [h]
  | some b =>
      have hends : ∀ s ∈ b.between, ¬ Reply.Ends code s := hw.not_ends
      show Reply.read (Stream.lineOf (numbered code '-' text)
          :: ((b.between ++ [numbered code ' ' b.lastText]).map Stream.lineOf
            ++ Stream.ofBytes following)) = .ok (⟨code, trimEnd text⟩, _)
        ↔ trimEnd b.lastText ≠ [] ∧ ∀ s ∈ b.between, ¬ Reply.IsForeign s
      rw [Reply.read_first hcode]
      exact Reply.readRest_block_iff hcode hends b.lastText _

/-- A greeting of two lines with a line between that looks like a reply. -/
def twoLineGreeting : Written where
  code := 220
  text := "Welcome ".toList
  block := some ⟨["  to the archive".toList, "220".toList, "221 mirrors".toList], "ready".toList⟩

/-- A greeting of two lines is read as its first line, and what stands behind it is left. -/
theorem two_line_greeting_is_read :
    twoLineGreeting.WellFormed
      ∧ Reply.read (Stream.ofBytes (Stream.written twoLineGreeting.lines ++ [50, 51, 48]))
        = .ok (⟨220, "Welcome".toList⟩, Stream.ofBytes [50, 51, 48]) := by
  have hw : twoLineGreeting.WellFormed := ⟨by decide, by decide +kernel, by decide +kernel⟩
  exact ⟨hw, (read_written_iff hw [50, 51, 48]).2 ⟨⟨'r', by decide, by decide⟩, by decide⟩⟩

/-- A code with no text behind it is no reply for a client, though it is one. -/
theorem code_alone_is_malformed :
    (⟨220, [], none⟩ : Written).WellFormed
      ∧ Reply.read (Stream.ofBytes (Stream.written [numbered 220 ' ' []]))
        = .error (Reply.malformed "220".toList) := by
  refine ⟨⟨by decide, by decide +kernel, by decide⟩, ?_⟩
  rw [← List.append_nil (Stream.written _), Stream.ofBytes_written_append (by decide +kernel)]
  show Reply.read (Stream.lineOf (numbered 220 ' ' []) :: Stream.ofBytes []) = _
  rw [Reply.read_line (by decide)]
  decide +kernel

end HealthWatch.Transfer
