import HealthWatch.Probe.Mounts
import HealthWatch.Proofs.Text.Words
import Mathlib.Data.List.Induction
import Mathlib.Data.List.Nodup

/-! # Mount tables — which mount points are read as they were written

    The system writes a blank, a tab, a line feed or a backslash of a path as an escape
    and every other character as it is.  Undoing the escapes one after the other gives
    the path back because that of the backslash is undone last (`unescape_escape`).

    The columns of a table are told apart by all blanks, though, and most of these have
    no escape.  Such a stray blank cuts a path.  So

    * `mountPoints_table` says what is listed, whatever the paths hold: the second
      columns of the lines;
    * `points_listed_iff` says when these are the mount points: as long as no device takes more
      or less than one column, when no mount point holds a stray blank. -/

namespace HealthWatch.Mounts

open Text

/-! ## Escapes -/

/-- The octal digits of an escape and the character that they stand for. -/
abbrev Escape := (Char × Char × Char) × Char

/-- A character, written as its escape in a table when it has one there. -/
def escapeBy (table : List Escape) (c : Char) : List Char :=
  match table.find? fun e => e.2 = c with
  | some e => ['\\', e.1.1, e.1.2.1, e.1.2.2]
  | none => [c]

/-- A table whose escapes can be undone in its order: no two of them are alike, the
    backslash stands only before the digits, and its own escape comes last. -/
structure Undoable (table : List Escape) : Prop where
  octal_nodup : (table.map Prod.fst).Nodup
  char_nodup : (table.map Prod.snd).Nodup
  digits : ∀ e ∈ table, e.1.1 ≠ '\\' ∧ e.1.2.1 ≠ '\\' ∧ e.1.2.2 ≠ '\\'
  last : (table.map Prod.snd).getLast? = some '\\'

/-- A character that begins no escape stays. -/
theorem replaceEscape_cons {octal : Char × Char × Char} {new c : Char} (h : c ≠ '\\')
    (s : List Char) : replaceEscape octal new (c :: s) = c :: replaceEscape octal new s := by
  rw [replaceEscape]
  intro x y z r hc
  exact absurd hc h

/-- The escape itself becomes its character. -/
theorem replaceEscape_of_eq (octal : Char × Char × Char) (new : Char) (s : List Char) :
    replaceEscape octal new ('\\' :: octal.1 :: octal.2.1 :: octal.2.2 :: s)
      = new :: replaceEscape octal new s := by
  rw [replaceEscape, if_pos rfl]

/-- Another escape stays. -/
theorem replaceEscape_of_ne {octal : Char × Char × Char} {x y z : Char} (h : (x, y, z) ≠ octal)
    (hx : x ≠ '\\') (hy : y ≠ '\\') (hz : z ≠ '\\') (new : Char) (s : List Char) :
    replaceEscape octal new ('\\' :: x :: y :: z :: s)
      = '\\' :: x :: y :: z :: replaceEscape octal new s := by
  rw [replaceEscape, if_neg h, replaceEscape_cons hx, replaceEscape_cons hy, replaceEscape_cons hz]

/-- A character of the table is written as its escape. -/
theorem escapeBy_of_find? {table : List Escape} {c : Char} {e : Escape}
    (h : (table.find? fun e => e.2 = c) = some e) :
    escapeBy table c = ['\\', e.1.1, e.1.2.1, e.1.2.2] := by
  rw [escapeBy, h]

theorem escapeBy_of_notMem {table : List Escape} {c : Char} (h : c ∉ table.map Prod.snd) :
    escapeBy table c = [c] := by
  have hfind : (table.find? fun e => e.2 = c) = none := by
    rw [List.find?_eq_none]
    intro e he hc
    exact h (List.mem_map.2 ⟨e, he, of_decide_eq_true hc⟩)
  rw [escapeBy, hfind]

/-- Undoing the first escape of a table leaves what the others have written. -/
theorem replaceEscape_escapeBy {e : Escape} {rest : List Escape} (h : Undoable (e :: rest))
    (s : List Char) :
    replaceEscape e.1 e.2 (s.flatMap (escapeBy (e :: rest))) = s.flatMap (escapeBy rest) := by
  obtain ⟨hoctal, -⟩ := List.nodup_cons.1 h.octal_nodup
  obtain ⟨hchar, -⟩ := List.nodup_cons.1 h.char_nodup
  have hbackslash : '\\' ∈ (e :: rest).map Prod.snd := List.mem_of_getLast? h.last
  induction s with
  | nil => rfl
  | cons c s ih =>
      rw [List.flatMap_cons, List.flatMap_cons]
      by_cases hc : e.2 = c
      · -- the escape of the character itself
        have hfind : ((e :: rest).find? fun e => e.2 = c) = some e := by simp [hc]
        rw [escapeBy_of_find? hfind, escapeBy_of_notMem (hc ▸ hchar)]
        simp only [List.cons_append, List.nil_append]
        rw [replaceEscape_of_eq, ih, hc]
      · have hskip : escapeBy (e :: rest) c = escapeBy rest c := by simp [escapeBy, hc]
        rw [hskip]
        cases hfind : rest.find? fun e => e.2 = c with
        | some f =>
            -- another escape, which cannot be taken for this one
            have hf : f ∈ rest := List.mem_of_find?_eq_some hfind
            have hne : (f.1.1, f.1.2.1, f.1.2.2) ≠ e.1 :=
              fun heq => hoctal (List.mem_map.2 ⟨f, hf, heq⟩)
            obtain ⟨hx, hy, hz⟩ := h.digits f (List.mem_cons_of_mem e hf)
            rw [escapeBy_of_find? hfind]
            simp only [List.cons_append, List.nil_append]
            rw [replaceEscape_of_ne hne hx hy hz, ih]
        | none =>
            -- no escape, so the character is no backslash
            have hnot : c ∉ rest.map Prod.snd := by
              intro hmem
              obtain ⟨f, hf, hfc⟩ := List.mem_map.1 hmem
              exact List.find?_eq_none.1 hfind f hf (decide_eq_true hfc)
            have hplain : c ≠ '\\' := by
              rintro rfl
              rcases List.mem_cons.1 hbackslash with heq | hmem
              · exact hc heq.symm
              · exact hnot hmem
            rw [escapeBy_of_notMem hnot, List.singleton_append, List.singleton_append,
              replaceEscape_cons hplain, ih]

/-- Escapes can still be undone when the one that is undone last is left out. -/
theorem Undoable.tail {e f : Escape} {rest : List Escape} (h : Undoable (e :: f :: rest)) :
    Undoable (f :: rest) where
  octal_nodup := (List.nodup_cons.1 h.octal_nodup).2
  char_nodup := (List.nodup_cons.1 h.char_nodup).2
  digits := fun g hg => h.digits g (List.mem_cons_of_mem e hg)
  last := by
    have hlast := h.last
    rwa [List.map_cons, List.map_cons, List.getLast?_cons_cons, ← List.map_cons] at hlast

/-- Undoing the escapes of a table in its order gives the text back. -/
theorem foldl_replaceEscape {table : List Escape} (h : Undoable table) (s : List Char) :
    table.foldl (fun p e => replaceEscape e.1 e.2 p) (s.flatMap (escapeBy table)) = s := by
  induction table with
  | nil => exact nomatch h.last
  | cons e rest ih =>
      rw [List.foldl_cons, replaceEscape_escapeBy h]
      cases rest with
      | nil =>
          show s.flatMap (fun c => [c]) = s
          rw [List.flatMap_singleton']
      | cons f rest => exact ih h.tail

/-- A character of a path as the system writes it. -/
def escapeChar (c : Char) : List Char :=
  if c = ' ' then ['\\', '0', '4', '0']
  else if c = '\t' then ['\\', '0', '1', '1']
  else if c = '\n' then ['\\', '0', '1', '2']
  else if c = '\\' then ['\\', '1', '3', '4']
  else [c]

/-- A path as the system writes it. -/
def escape (path : String) : List Char :=
  path.toList.flatMap escapeChar

/-- Only four characters are escaped. -/
theorem escapeChar_of_notMem {c : Char} (h : c ∉ [' ', '\t', '\n', '\\']) :
    escapeChar c = [c] := by
  simp only [List.mem_cons, List.not_mem_nil, or_false, not_or] at h
  rw [escapeChar, if_neg h.1, if_neg h.2.1, if_neg h.2.2.1, if_neg h.2.2.2]

/-- The escapes of a mount table can be undone in the order of the table. -/
theorem undoable_escapes : Undoable escapes :=
  ⟨by decide, by decide, by decide, by decide⟩

/-- The table has the escapes of the system and no others. -/
theorem escapeBy_escapes (c : Char) : escapeBy escapes c = escapeChar c := by
  by_cases hc : c ∈ [' ', '\t', '\n', '\\']
  · simp only [List.mem_cons, List.not_mem_nil, or_false] at hc
    rcases hc with rfl | rfl | rfl | rfl <;> rfl
  · rw [escapeChar_of_notMem hc]
    exact escapeBy_of_notMem hc

/-- A path is read back from what the system writes for it. -/
theorem unescape_escape (path : String) : unescape (escape path) = path.toList := by
  have hwritten : escape path = path.toList.flatMap (escapeBy escapes) :=
    congrArg (List.flatMap · path.toList) (funext fun c => (escapeBy_escapes c).symm)
  rw [hwritten]
  exact foldl_replaceEscape undoable_escapes path.toList

/-- A path that holds what looks like an escape. -/
example : escape "/a\\040b" = "/a\\134040b".toList
    ∧ unescape (escape "/a\\040b") = "/a\\040b".toList := by
  decide +kernel

/-! ## Blanks in paths -/

/-- A blank that the system writes as it is. -/
def isStray (c : Char) : Bool :=
  isBlank c && escapeChar c = [c]

theorem isStray_of_all {s : List Char} (h : s.all (fun c => !isStray c) = true) :
    ∀ c ∈ s, isStray c = false := by
  simpa using h

/-- Of the blanks of a path, what the system writes for it holds the stray ones. -/
theorem isStray_of_mem_escape {path : String} {c : Char} (h : c ∈ escape path)
    (hc : isBlank c = true) : c ∈ path.toList ∧ isStray c = true := by
  obtain ⟨d, hd, hcd⟩ := List.mem_flatMap.1 h
  have hescapes : [' ', '\t', '\n', '\\'].all
      (fun d => (escapeChar d).all fun x => !isBlank x) = true := by decide
  by_cases hmem : d ∈ [' ', '\t', '\n', '\\']
  · have hnot := List.all_eq_true.1 (List.all_eq_true.1 hescapes d hmem) c hcd
    rw [hc] at hnot
    exact nomatch hnot
  · have hself := escapeChar_of_notMem hmem
    rw [hself, List.mem_singleton] at hcd
    subst hcd
    exact ⟨hd, by rw [isStray, hc, hself]; exact decide_eq_true rfl⟩

theorem escapeChar_ne_nil (c : Char) : escapeChar c ≠ [] := by
  by_cases hc : c ∈ [' ', '\t', '\n', '\\']
  · simp only [List.mem_cons, List.not_mem_nil, or_false] at hc
    rcases hc with rfl | rfl | rfl | rfl <;> exact List.cons_ne_nil _ _
  · rw [escapeChar_of_notMem hc]
    exact List.cons_ne_nil c []

/-- A path that is not empty is not written as nothing. -/
theorem escape_ne_nil {path : String} (h : path ≠ "") : escape path ≠ [] := by
  intro hnil
  have hchars : path.toList ≠ [] := by simpa using h
  obtain ⟨c, r, hc⟩ := List.exists_cons_of_ne_nil hchars
  have hmem : c ∈ path.toList := hc ▸ List.mem_cons_self
  exact escapeChar_ne_nil c (List.flatMap_eq_nil_iff.1 hnil c hmem)

/-- A path without stray blanks takes one column. -/
theorem words_escape {path : String} (hne : path ≠ "") (h : ∀ c ∈ path.toList, isStray c = false) :
    words (escape path) = [escape path] := by
  refine words_of_no_blank (escape_ne_nil hne) fun c hc => Bool.eq_false_iff.2 fun hblank => ?_
  obtain ⟨hmem, hstray⟩ := isStray_of_mem_escape hc hblank
  rw [h c hmem] at hstray
  exact nomatch hstray

/-- No characters come in but the one of the escape. -/
theorem mem_replaceEscape {octal : Char × Char × Char} {new c : Char} {s : List Char}
    (h : c ∈ replaceEscape octal new s) : c = new ∨ c ∈ s := by
  fun_induction replaceEscape octal new s with
  | case1 x y z r heq ih =>
      rcases List.mem_cons.1 h with rfl | h
      · exact Or.inl rfl
      · rcases ih h with rfl | h
        · exact Or.inl rfl
        · exact Or.inr (by simp [h])
  | case2 x y z r hne ih =>
      rcases List.mem_cons.1 h with rfl | h
      · exact Or.inr List.mem_cons_self
      · exact (ih h).imp_right (List.mem_cons_of_mem _)
  | case3 d r hd ih =>
      rcases List.mem_cons.1 h with rfl | h
      · exact Or.inr List.mem_cons_self
      · exact (ih h).imp_right (List.mem_cons_of_mem _)
  | case4 => exact nomatch h

/-- Undoing escapes brings no stray blank into a column. -/
theorem isStray_of_mem_unescape {s : List Char} (hs : ∀ c ∈ s, isBlank c = false) {c : Char}
    (hc : c ∈ unescape s) : isStray c = false := by
  have hstep : ∀ (table : List Escape) (t : List Char),
      c ∈ table.foldl (fun p e => replaceEscape e.1 e.2 p) t → c ∈ table.map Prod.snd ∨ c ∈ t := by
    intro table
    induction table with
    | nil => exact fun t ht => Or.inr ht
    | cons e rest ih =>
        intro t ht
        rcases ih _ ht with hmem | hmem
        · exact Or.inl (List.mem_cons_of_mem _ hmem)
        · rcases mem_replaceEscape hmem with rfl | hmem
          · exact Or.inl List.mem_cons_self
          · exact Or.inr hmem
  rcases hstep escapes s hc with hmem | hmem
  · exact isStray_of_all (by decide) c hmem
  · simp [isStray, hs c hmem]

/-! ## Lists without repetition -/

/-- The members of a list, each once, in the order in which they are first seen. -/
structure FirstSeen {α : Type} [DecidableEq α] (xs ys : List α) : Prop where
  nodup : ys.Nodup
  mem_iff : ∀ x, x ∈ ys ↔ x ∈ xs
  order : ys.Pairwise fun a b => xs.idxOf a < xs.idxOf b

section FirstSeen

variable {α : Type} [DecidableEq α]

/-- One more value is added to the distinct ones unless it is among them. -/
theorem distinct_concat (xs : List α) (x : α) :
    distinct (xs ++ [x]) = if x ∈ distinct xs then distinct xs else distinct xs ++ [x] := by
  rw [distinct, List.foldl_append]
  rfl

/-- One more item is seen for the first time when it has not been listed. -/
theorem FirstSeen.concat {xs ys : List α} (h : FirstSeen xs ys) (x : α) :
    FirstSeen (xs ++ [x]) (if x ∈ ys then ys else ys ++ [x]) := by
  have hplace : ∀ y ∈ ys, (xs ++ [x]).idxOf y = xs.idxOf y :=
    fun y hy => List.idxOf_append_of_mem ((h.mem_iff y).1 hy)
  have horder : ys.Pairwise fun a b => (xs ++ [x]).idxOf a < (xs ++ [x]).idxOf b := by
    refine h.order.imp_of_mem fun {a b} ha hb hab => ?_
    rwa [hplace a ha, hplace b hb]
  by_cases hx : x ∈ ys
  · rw [if_pos hx]
    refine ⟨h.nodup, fun y => ?_, horder⟩
    rw [List.mem_append, List.mem_singleton, ← h.mem_iff]
    exact ⟨Or.inl, fun hy => hy.elim id fun he => he ▸ hx⟩
  · have hxs : x ∉ xs := fun hmem => hx ((h.mem_iff x).2 hmem)
    rw [if_neg hx]
    refine ⟨?_, fun y => ?_, ?_⟩
    · rw [List.nodup_append]
      refine ⟨h.nodup, List.nodup_singleton x, fun a ha b hb => ?_⟩
      rw [List.mem_singleton.1 hb]
      exact fun he => hx (he ▸ ha)
    · rw [List.mem_append, List.mem_append, h.mem_iff]
    · rw [List.pairwise_append]
      refine ⟨horder, List.pairwise_singleton _ x, fun a ha b hb => ?_⟩
      rw [List.mem_singleton.1 hb, hplace a ha, List.idxOf_append_of_notMem hxs]
      have hlt : xs.idxOf a < xs.length := List.idxOf_lt_length_iff.2 ((h.mem_iff a).1 ha)
      omega

/-- The distinct values stand in the order in which they were first seen. -/
theorem firstSeen_distinct (xs : List α) : FirstSeen xs (distinct xs) := by
  induction xs using List.reverseRecOn with
  | nil => exact ⟨List.nodup_nil, fun _ => Iff.rfl, List.Pairwise.nil⟩
  | append_singleton xs x ih =>
      rw [distinct_concat]
      exact ih.concat x

end FirstSeen

/-! ## Tables -/

/-- What a mount table tells of a mount.  Only the paths are escaped; what follows them
    stays on the line. -/
structure Mount where
  device : String
  point : String
  fileSystem : String
  options : String
  device_ne : device ≠ ""
  point_ne : point ≠ ""
  fileSystem_oneLine : '\n' ∉ fileSystem.toList
  options_oneLine : '\n' ∉ options.toList

namespace Mount

/-- The line of a mount without its line feed. -/
def line (m : Mount) : List Char :=
  escape m.device ++ ' ' :: (escape m.point ++ ' ' :: (m.fileSystem.toList
    ++ ' ' :: (m.options.toList ++ ' ' :: ['0', ' ', '0'])))

/-- The columns that the line of a mount is taken apart into. -/
def columns (m : Mount) : List (List Char) :=
  words (escape m.device) ++ (words (escape m.point) ++ (words m.fileSystem.toList
    ++ (words m.options.toList ++ [['0'], ['0']])))

/-- The path that is read off the line of a mount: that of the second column. -/
def seen (m : Mount) : String :=
  String.ofList (m.columns[1]?.elim [] unescape)

/-- A line is cut into its columns again. -/
theorem words_line (m : Mount) : words m.line = m.columns := by
  have hblank : isBlank ' ' = true := by decide
  have hend : words ['0', ' ', '0'] = [['0'], ['0']] := by decide
  rw [line, words_append_blank hblank, words_append_blank hblank, words_append_blank hblank,
    words_append_blank hblank, hend, columns]

theorem one_lt_length_columns (m : Mount) : 1 < m.columns.length := by
  simp only [columns, List.length_append, List.length_cons, List.length_nil]
  omega

/-- The mount point of a line is read as far as it can be seen. -/
theorem mountPoint?_line (m : Mount) : mountPoint? m.line = some m.seen.toList := by
  rw [mountPoint?, words_line, seen, List.getElem?_eq_getElem m.one_lt_length_columns,
    String.toList_ofList, Option.map_some, Option.elim_some]

/-- No stray blank is ever read. -/
theorem isStray_of_mem_seen {m : Mount} {c : Char} (hc : c ∈ m.seen.toList) :
    isStray c = false := by
  have hlt := m.one_lt_length_columns
  have hword : m.columns[1] ∈ words m.line := by
    rw [words_line]
    exact List.getElem_mem hlt
  rw [seen, List.getElem?_eq_getElem hlt, String.toList_ofList, Option.elim_some] at hc
  exact isStray_of_mem_unescape (isBlank_of_mem_words hword) hc

/-- Behind a device of one column, a mount point without stray blanks is read. -/
theorem seen_eq_point {m : Mount} (hdevice : (words (escape m.device)).length = 1)
    (hpoint : ∀ c ∈ m.point.toList, isStray c = false) : m.seen = m.point := by
  obtain ⟨w, hw⟩ := List.length_eq_one_iff.1 hdevice
  rw [seen, columns, hw, words_escape m.point_ne hpoint, List.singleton_append,
    List.getElem?_cons_succ, List.singleton_append, List.getElem?_cons_zero, Option.elim_some,
    unescape_escape, String.ofList_toList]

theorem lineFeed_notMem_line (m : Mount) : '\n' ∉ m.line := by
  have hpath : ∀ path : String, '\n' ∉ escape path := by
    intro path hmem
    exact nomatch (isStray_of_mem_escape hmem (by decide)).2
  simp [line, hpath, m.fileSystem_oneLine, m.options_oneLine]

theorem dropReturn_line (m : Mount) : dropReturn m.line = m.line := by
  have hsplit : m.line = (escape m.device ++ ' ' :: (escape m.point ++ ' '
      :: (m.fileSystem.toList ++ ' ' :: (m.options.toList ++ [' ', '0', ' '])))) ++ ['0'] := by
    simp [line]
  rw [dropReturn, hsplit, List.getLast?_concat, if_neg (by decide)]

end Mount

/-- A mount table: the lines of its mounts with a line feed behind each. -/
def table (ms : List Mount) : String :=
  String.ofList ((ms.map Mount.line).flatMap fun l => l ++ ['\n'])

/-- A table is cut into the lines of its mounts. -/
theorem lines_table (ms : List Mount) : lines (table ms).toList = ms.map Mount.line := by
  have hfeed : ∀ l ∈ ms.map Mount.line, '\n' ∉ l := by
    intro l hl
    obtain ⟨m, -, rfl⟩ := List.mem_map.1 hl
    exact m.lineFeed_notMem_line
  rw [table, String.toList_ofList, lines_ended hfeed, List.map_map]
  exact List.map_congr_left fun m _ => m.dropReturn_line

/-- Whatever the paths hold, the second columns are listed. -/
theorem mountPoints_table (ms : List Mount) :
    mountPoints (table ms) = distinct (ms.map Mount.seen) := by
  have hread : (ms.map Mount.line).filterMap mountPoint? = ms.map fun m => m.seen.toList := by
    rw [List.filterMap_map, ← List.filterMap_eq_map]
    exact List.filterMap_congr fun m _ => m.mountPoint?_line
  rw [mountPoints, lines_table, hread, List.map_map]
  exact congrArg distinct (List.map_congr_left fun m _ => String.ofList_toList)

/-- A table lists the second columns of its lines, each once.  Where every device takes one
    column, as it does without stray blanks, these are the mount points exactly when none of
    them holds a stray blank. -/
theorem points_listed_iff (ms : List Mount) :
    FirstSeen (ms.map Mount.seen) (mountPoints (table ms))
      ∧ ((∀ m ∈ ms, (words (escape m.device)).length = 1) →
          (FirstSeen (ms.map Mount.point) (mountPoints (table ms))
            ↔ ∀ m ∈ ms, ∀ c ∈ m.point.toList, isStray c = false))
      ∧ ∀ m ∈ ms, (∀ c ∈ m.device.toList, isStray c = false) →
          (words (escape m.device)).length = 1 := by
  rw [mountPoints_table]
  refine ⟨firstSeen_distinct _, fun hdevice => ?_, fun m _ hm => ?_⟩
  · constructor
    · -- a mount point that is listed has been read, and no stray blank is
      intro hlisted m hm
      have hmem : m.point ∈ distinct (ms.map Mount.seen) :=
        (hlisted.mem_iff m.point).2 (List.mem_map_of_mem hm)
      obtain ⟨n, -, hn⟩ := List.mem_map.1 (((firstSeen_distinct _).mem_iff m.point).1 hmem)
      rw [← hn]
      exact fun c hc => Mount.isStray_of_mem_seen hc
    · intro hpoint
      have hseen : ms.map Mount.seen = ms.map Mount.point :=
        List.map_congr_left fun m hm => Mount.seen_eq_point (hdevice m hm) (hpoint m hm)
      rw [hseen]
      exact firstSeen_distinct _
  · rw [words_escape m.device_ne hm]
    rfl

/-- A mount point with a no-break space, which has no escape. -/
def albums : Mount where
  device := "/dev/sdb1"
  point := "/mnt/my\u00a0albums"
  fileSystem := "ext4"
  options := "rw"
  device_ne := by decide
  point_ne := by decide
  fileSystem_oneLine := by decide
  options_oneLine := by decide

/-- A stray blank cuts a mount point, though its line is what the system writes. -/
theorem stray_blank_cuts_point :
    mountPoints (table [albums]) = ["/mnt/my"]
      ∧ ¬FirstSeen ([albums].map Mount.point) (mountPoints (table [albums])) := by
  have hseen : albums.seen = "/mnt/my" := by
    have hdevice : words (escape albums.device) = [escape albums.device] :=
      words_escape albums.device_ne (isStray_of_all (by decide))
    have hpoint : escape albums.point = escape "/mnt/my" ++ '\u00a0' :: escape "albums" := by
      decide
    have hcut : words (escape "/mnt/my") = [escape "/mnt/my"] :=
      words_escape (by decide) (isStray_of_all (by decide))
    rw [Mount.seen, Mount.columns, hdevice, hpoint, words_append_blank (by decide), hcut]
    simp only [List.cons_append, List.nil_append, List.getElem?_cons_succ,
      List.getElem?_cons_zero, Option.elim_some]
    rw [unescape_escape, String.ofList_toList]
  have hlist : mountPoints (table [albums]) = ["/mnt/my"] := by
    rw [mountPoints_table, List.map_singleton, hseen]
    rfl
  refine ⟨hlist, fun h => ?_⟩
  have hmem := (h.mem_iff albums.point).2 List.mem_cons_self
  rw [hlist, List.mem_singleton] at hmem
  exact absurd hmem (by decide)

end HealthWatch.Mounts
