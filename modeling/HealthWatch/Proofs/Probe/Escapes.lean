import HealthWatch.Proofs.Probe.Mounts

/-! # Escapes — in which orders they may be undone

    Escapes are undone one after the other over the whole path.  A character that comes out
    of one could make up a later escape together with what stands behind it, as the
    backslash does.  So

    * `undo_eq_readOnce`: with the backslash at the end of the order every text is read as
      in a single pass from left to right, in which no such thing can happen;
    * `exists_not_read_back`: with another escape at the end, some path is not read back;
    * `read_back_iff_backslash_last` puts them together for all orders of the four. -/

namespace HealthWatch.Mounts

/-- Undoes the escapes of a table one after the other, each over the whole text. -/
def undo (table : List Escape) (s : List Char) : List Char :=
  table.foldl (fun p e => replaceEscape e.1 e.2 p) s

/-- Reads a text in a single pass: an escape of the table stands for its character, and
    everything else for itself. -/
def readOnce (table : List Escape) : List Char → List Char
  | '\\' :: x :: y :: z :: r =>
      match table.find? fun e => e.1 = (x, y, z) with
      | some e => e.2 :: readOnce table r
      | none => '\\' :: readOnce table (x :: y :: z :: r)
  | c :: r => c :: readOnce table r
  | [] => []

/-- A backslash with these octal digits behind it. -/
def IsEscape (octal : Char × Char × Char) (c : Char) (r : List Char) : Prop :=
  c = '\\' ∧ ∃ q, r = octal.1 :: octal.2.1 :: octal.2.2 :: q

/-- A table of which no character can make up one of its escapes before the last one is
    undone. -/
structure Separate (table : List Escape) : Prop extends Undoable table where
  notDigit : ∀ e ∈ table, ∀ f ∈ table, e.2 ∉ [f.1.1, f.1.2.1, f.1.2.2]

/-! ## One step of each reading -/

section Step

variable {octal : Char × Char × Char} {new c : Char} {r : List Char} {table : List Escape}

theorem replaceEscape_of_not (h : ¬ IsEscape octal c r) :
    replaceEscape octal new (c :: r) = c :: replaceEscape octal new r := by
  by_cases hc : c = '\\'
  · subst hc
    rw [replaceEscape.eq_def]
    split
    · next x y z q heq =>
        cases heq
        rw [if_neg fun heq => h ⟨rfl, q, by rw [← heq]⟩]
    · next heq => cases heq; rfl
    · next heq => cases heq
  · exact replaceEscape_cons hc r

/-- An escape of the table is read as its character. -/
theorem readOnce_of_isEscape (hnodup : (table.map Prod.fst).Nodup) {e : Escape} (he : e ∈ table)
    (q : List Char) :
    readOnce table ('\\' :: e.1.1 :: e.1.2.1 :: e.1.2.2 :: q) = e.2 :: readOnce table q := by
  have hfind : (table.find? fun f => f.1 = (e.1.1, e.1.2.1, e.1.2.2)) = some e := by
    cases hf : table.find? fun f => f.1 = (e.1.1, e.1.2.1, e.1.2.2) with
    | none => exact absurd (decide_eq_true rfl) (List.find?_eq_none.1 hf e he)
    | some f =>
        have hoctal : f.1 = e.1 := by simpa using List.find?_some hf
        rw [List.inj_on_of_nodup_map hnodup (List.mem_of_find?_eq_some hf) he hoctal]
  rw [readOnce, hfind]

theorem readOnce_of_not (h : ∀ e ∈ table, ¬ IsEscape e.1 c r) :
    readOnce table (c :: r) = c :: readOnce table r := by
  rw [readOnce.eq_def]
  split
  · next x y z q heq =>
      cases heq
      split
      · next e he =>
          have hoctal : e.1 = (x, y, z) := by simpa using List.find?_some he
          exact absurd ⟨rfl, q, by rw [hoctal]⟩ (h e (List.mem_of_find?_eq_some he))
      · rfl
  · next heq => cases heq; rfl
  · next heq => cases heq

theorem readOnce_nil (s : List Char) : readOnce [] s = s := by
  induction s with
  | nil => rfl
  | cons c r ih => rw [readOnce_of_not fun e he => absurd he List.not_mem_nil, ih]

end Step

/-! ## The backslash at the end -/

section Undo

variable {e : Escape} {rest table : List Escape}

/-- A character that stands in front after an escape was undone, and is not the one that came
    out of it, stood there before. -/
theorem exists_of_replaceEscape {octal : Char × Char × Char} {new a : Char} {r q : List Char}
    (h : replaceEscape octal new r = a :: q) (ha : a ≠ new) :
    ∃ r', r = a :: r' ∧ replaceEscape octal new r' = q := by
  cases r with
  | nil => cases h
  | cons d r =>
      by_cases hd : IsEscape octal d r
      · obtain ⟨rfl, r', rfl⟩ := hd
        rw [replaceEscape_of_eq] at h
        exact absurd (List.cons.inj h).1.symm ha
      · rw [replaceEscape_of_not hd] at h
        obtain ⟨rfl, hq⟩ := List.cons.inj h
        exact ⟨r, rfl, hq⟩

/-- Undoing an escape makes up no other one. -/
theorem isEscape_of_replaceEscape {octal : Char × Char × Char} {new c : Char} {r : List Char}
    {f : Escape} (hnew : new ∉ [f.1.1, f.1.2.1, f.1.2.2])
    (h : IsEscape f.1 c (replaceEscape octal new r)) : IsEscape f.1 c r := by
  obtain ⟨hc, q, hq⟩ := h
  simp only [List.mem_cons, List.not_mem_nil, or_false, not_or] at hnew
  obtain ⟨r₁, rfl, h₁⟩ := exists_of_replaceEscape hq (Ne.symm hnew.1)
  obtain ⟨r₂, rfl, h₂⟩ := exists_of_replaceEscape h₁ (Ne.symm hnew.2.1)
  obtain ⟨r₃, rfl, -⟩ := exists_of_replaceEscape h₂ (Ne.symm hnew.2.2)
  exact ⟨hc, r₃, rfl⟩

/-- The first escape may be undone ahead of the others, unless backslashes come out of it
    that the others could take for theirs. -/
theorem readOnce_replaceEscape (h : Separate (e :: rest)) (hlast : e.2 ≠ '\\' ∨ rest = [])
    (s : List Char) :
    readOnce rest (replaceEscape e.1 e.2 s) = readOnce (e :: rest) s := by
  have hmem : e ∈ e :: rest := List.mem_cons_self
  have htail : ∀ {f}, f ∈ rest → f ∈ e :: rest := List.mem_cons_of_mem e
  obtain ⟨hother, hrest⟩ := List.nodup_cons.1 h.octal_nodup
  -- on the length, because an escape takes four characters at once
  induction hn : s.length using Nat.strongRecOn generalizing s with
  | ind n ih =>
      subst hn
      cases s with
      | nil => rfl
      | cons c r =>
          by_cases he : IsEscape e.1 c r
          · -- what comes out of the escape is read as it is
            obtain ⟨rfl, q, rfl⟩ := he
            have hout : ∀ f ∈ rest, ¬ IsEscape f.1 e.2 (replaceEscape e.1 e.2 q) := by
              rintro f hf ⟨hbackslash, -⟩
              rcases hlast with hne | hnil
              · exact hne hbackslash
              · rw [hnil] at hf
                exact absurd hf List.not_mem_nil
            rw [replaceEscape_of_eq, readOnce_of_isEscape h.octal_nodup hmem,
              readOnce_of_not hout, ih q.length (by simp; omega) q rfl]
          · rw [replaceEscape_of_not he]
            by_cases hf : ∃ f ∈ rest, IsEscape f.1 c r
            · -- another escape, which is left as it stands
              obtain ⟨f, hf, rfl, q, rfl⟩ := hf
              obtain ⟨hx, hy, hz⟩ := h.digits f (htail hf)
              rw [replaceEscape_cons hx, replaceEscape_cons hy, replaceEscape_cons hz,
                readOnce_of_isEscape hrest hf, readOnce_of_isEscape h.octal_nodup (htail hf),
                ih q.length (by simp; omega) q rfl]
            · have hkept : ∀ f ∈ rest, ¬ IsEscape f.1 c (replaceEscape e.1 e.2 r) :=
                fun f hmemf hesc => hf ⟨f, hmemf,
                  isEscape_of_replaceEscape (h.notDigit e hmem f (htail hmemf)) hesc⟩
              have hnone : ∀ f ∈ e :: rest, ¬ IsEscape f.1 c r :=
                List.forall_mem_cons.2 ⟨he, fun f hmemf hesc => hf ⟨f, hmemf, hesc⟩⟩
              rw [readOnce_of_not hkept, readOnce_of_not hnone,
                ih r.length (by simp) r rfl]

/-- Escapes stay apart when the first one is left out. -/
theorem Separate.tail {f : Escape} (h : Separate (e :: f :: rest)) : Separate (f :: rest) where
  toUndoable := h.toUndoable.tail
  notDigit := fun g hg k hk =>
    h.notDigit g (List.mem_cons_of_mem e hg) k (List.mem_cons_of_mem e hk)

/-- Escapes that are undone one after the other read a text as a single pass does. -/
theorem undo_eq_readOnce (h : Separate table) (s : List Char) : undo table s = readOnce table s := by
  induction table generalizing s with
  | nil => exact nomatch h.last
  | cons e rest ih =>
      rw [undo, List.foldl_cons]
      cases rest with
      | nil =>
          rw [← readOnce_replaceEscape h (Or.inr rfl), readOnce_nil]
          rfl
      | cons f rest =>
          have hbackslash : '\\' ∈ (f :: rest).map Prod.snd :=
            List.mem_of_getLast? h.tail.last
          have hne : e.2 ≠ '\\' := fun he =>
            (List.nodup_cons.1 h.char_nodup).1 (he ▸ hbackslash)
          rw [← readOnce_replaceEscape h (Or.inl hne)]
          exact ih h.tail _

end Undo

/-! ## Another escape at the end -/

section Kept

variable {x y z : Char} (hx : x ≠ '\\') (hy : y ≠ '\\') (hz : z ≠ '\\')

include hx hy hz

theorem replaceEscape_digits (octal : Char × Char × Char) (new : Char) :
    replaceEscape octal new [x, y, z] = [x, y, z] := by
  rw [replaceEscape_cons hx, replaceEscape_cons hy, replaceEscape_cons hz, replaceEscape]

/-- Escapes that are not in a table stay as they are. -/
theorem undo_of_notMem {table : List Escape} (h : ∀ e ∈ table, (x, y, z) ≠ e.1) {s : List Char}
    (hs : ∀ e ∈ table, replaceEscape e.1 e.2 s = s) :
    undo table ('\\' :: x :: y :: z :: s) = '\\' :: x :: y :: z :: s := by
  induction table with
  | nil => rfl
  | cons e rest ih =>
      obtain ⟨he, hrest⟩ := List.forall_mem_cons.1 h
      obtain ⟨hes, hrests⟩ := List.forall_mem_cons.1 hs
      rw [undo, List.foldl_cons, replaceEscape_of_ne he hx hy hz, hes]
      exact ih hrest hrests

end Kept

/-- The second part of the table is undone after the first. -/
theorem undo_append (front back : List Escape) (s : List Char) :
    undo (front ++ back) s = undo back (undo front s) :=
  List.foldl_append

/-- A backslash that comes out of its escape makes up the last one with the digits behind it. -/
theorem undo_of_later {table front middle : List Escape} {b f : Escape}
    (hsplit : table = front ++ b :: (middle ++ [f])) (hnodup : (table.map Prod.fst).Nodup)
    (hdigits : ∀ e ∈ table, e.1.1 ≠ '\\' ∧ e.1.2.1 ≠ '\\' ∧ e.1.2.2 ≠ '\\') (hb : b.2 = '\\') :
    undo table ['\\', b.1.1, b.1.2.1, b.1.2.2, f.1.1, f.1.2.1, f.1.2.2] = [f.2] := by
  subst hsplit
  obtain ⟨hbx, hby, hbz⟩ := hdigits b (by simp)
  obtain ⟨hfx, hfy, hfz⟩ := hdigits f (by simp)
  rw [List.map_append, List.map_cons, List.map_append, List.nodup_append] at hnodup
  obtain ⟨-, hlater, hfront⟩ := hnodup
  have hbfront : ∀ e ∈ front, (b.1.1, b.1.2.1, b.1.2.2) ≠ e.1 :=
    fun e he heq => hfront e.1 (List.mem_map_of_mem he) b.1 (by simp) heq.symm
  have hfmiddle : ∀ e ∈ middle, (f.1.1, f.1.2.1, f.1.2.2) ≠ e.1 :=
    fun e he heq => (List.nodup_append.1 (List.nodup_cons.1 hlater).2).2.2 e.1
      (List.mem_map_of_mem he) f.1 (by simp) heq.symm
  rw [undo_append, undo_of_notMem hbx hby hbz hbfront
    (fun e _ => replaceEscape_digits hfx hfy hfz e.1 e.2)]
  rw [undo, List.foldl_cons, replaceEscape_of_eq, replaceEscape_digits hfx hfy hfz, hb, ← undo,
    undo_append, undo_of_notMem hfx hfy hfz hfmiddle (fun e _ => rfl)]
  rw [undo, List.foldl_cons, replaceEscape_of_eq]
  rfl

/-! ## All orders -/

section Order

variable {order table : List Escape}

/-- The order makes no difference as long as the backslash stays last. -/
theorem Separate.perm (h : Separate table) (hperm : order.Perm table)
    (hlast : (order.map Prod.snd).getLast? = some '\\') : Separate order where
  octal_nodup := (hperm.map Prod.fst).nodup_iff.2 h.octal_nodup
  char_nodup := (hperm.map Prod.snd).nodup_iff.2 h.char_nodup
  digits := fun e he => h.digits e (hperm.mem_iff.1 he)
  last := hlast
  notDigit := fun e he f hf => h.notDigit e (hperm.mem_iff.1 he) f (hperm.mem_iff.1 hf)

/-- In a single pass the order of a table does not matter. -/
theorem readOnce_perm (hnodup : (table.map Prod.fst).Nodup) (hperm : order.Perm table)
    (s : List Char) : readOnce order s = readOnce table s := by
  have hnodup' : (order.map Prod.fst).Nodup := (hperm.map Prod.fst).nodup_iff.2 hnodup
  induction hn : s.length using Nat.strongRecOn generalizing s with
  | ind n ih =>
      subst hn
      cases s with
      | nil => rfl
      | cons c r =>
          by_cases hc : ∃ e ∈ table, IsEscape e.1 c r
          · obtain ⟨e, he, rfl, q, rfl⟩ := hc
            rw [readOnce_of_isEscape hnodup he, readOnce_of_isEscape hnodup' (hperm.mem_iff.2 he),
              ih q.length (by simp; omega) q rfl]
          · have hnone : ∀ e ∈ table, ¬ IsEscape e.1 c r := fun e he h => hc ⟨e, he, h⟩
            rw [readOnce_of_not hnone, readOnce_of_not fun e he => hnone e (hperm.mem_iff.1 he),
              ih r.length (by simp) r rfl]

end Order

/-- The escapes of the system are apart from each other. -/
theorem separate_escapes : Separate escapes :=
  ⟨undoable_escapes, by decide⟩

/-- What the system writes for a backslash with the digits of an escape behind it. -/
theorem escape_backslash {f : Escape} (hf : f ∈ escapes) :
    escape (String.ofList ['\\', f.1.1, f.1.2.1, f.1.2.2])
      = ['\\', '1', '3', '4', f.1.1, f.1.2.1, f.1.2.2] := by
  simp only [escapes, List.mem_cons, List.not_mem_nil, or_false] at hf
  rcases hf with rfl | rfl | rfl | rfl <;> rfl

/-- With another escape than that of the backslash at the end, a path is not read back. -/
theorem exists_not_read_back {order : List Escape} (hperm : order.Perm escapes)
    (hlast : (order.map Prod.snd).getLast? ≠ some '\\') :
    ∃ path : String, undo order (escape path) ≠ path.toList := by
  have hbackslash : (('1', '3', '4'), '\\') ∈ order := hperm.mem_iff.2 (by decide)
  obtain ⟨init, f, rfl⟩ : ∃ init f, order = init ++ [f] :=
    (List.eq_nil_or_concat' order).resolve_left fun hnil => by
      rw [hnil] at hbackslash
      exact absurd hbackslash List.not_mem_nil
  have hf : f ∈ escapes := hperm.mem_iff.1 (by simp)
  have hne : f.2 ≠ '\\' := by
    rw [List.map_append, List.map_singleton, List.getLast?_concat] at hlast
    exact fun he => hlast (congrArg some he)
  have hinit : (('1', '3', '4'), '\\') ∈ init := by
    rcases List.mem_append.1 hbackslash with hmem | hmem
    · exact hmem
    · rw [List.mem_singleton] at hmem
      exact absurd (congrArg Prod.snd hmem).symm hne
  obtain ⟨front, middle, rfl⟩ := List.append_of_mem hinit
  refine ⟨String.ofList ['\\', f.1.1, f.1.2.1, f.1.2.2], ?_⟩
  have hsplit : front ++ (('1', '3', '4'), '\\') :: middle ++ [f]
      = front ++ (('1', '3', '4'), '\\') :: (middle ++ [f]) := by
    rw [List.append_assoc, List.cons_append]
  have hundone := undo_of_later hsplit
    ((hperm.map Prod.fst).nodup_iff.2 separate_escapes.octal_nodup)
    (fun e he => separate_escapes.digits e (hperm.mem_iff.1 he)) rfl
  rw [escape_backslash hf, hundone, String.toList_ofList]
  exact fun h => nomatch (List.cons.inj h).2

/-- Every path is read back from what the system writes for it.  Of the orders of the four
    escapes, those with the backslash at the end are the ones that do so, and the ones that
    read every text as a single pass does. -/
theorem read_back_iff_backslash_last :
    (∀ path : String, String.ofList (unescape (escape path)) = path)
      ∧ (∀ s, unescape s = readOnce escapes s)
      ∧ ∀ order : List Escape, order.Perm escapes →
        ((∀ path : String, undo order (escape path) = path.toList)
            ↔ (order.map Prod.snd).getLast? = some '\\')
          ∧ ((∀ s, undo order s = readOnce escapes s)
            ↔ (order.map Prod.snd).getLast? = some '\\') := by
  have honce : ∀ s, unescape s = readOnce escapes s := undo_eq_readOnce separate_escapes
  refine ⟨fun path => ?_, honce, fun order hperm => ?_⟩
  · rw [unescape_escape, String.ofList_toList]
  · have hlast : (order.map Prod.snd).getLast? = some '\\' → ∀ s,
        undo order s = readOnce escapes s := by
      intro h s
      rw [undo_eq_readOnce (separate_escapes.perm hperm h),
        readOnce_perm separate_escapes.octal_nodup hperm]
    have hback : (∀ path : String, undo order (escape path) = path.toList) →
        (order.map Prod.snd).getLast? = some '\\' := by
      intro h
      by_contra hne
      obtain ⟨path, hpath⟩ := exists_not_read_back hperm hne
      exact hpath (h path)
    -- a single pass reads the paths back, so the two properties go together
    have hpaths : (∀ s, undo order s = readOnce escapes s) →
        ∀ path : String, undo order (escape path) = path.toList := by
      intro h path
      rw [h, ← honce, unescape_escape]
    exact ⟨⟨hback, fun h => hpaths (hlast h)⟩, ⟨fun h => hback (hpaths h), hlast⟩⟩

/-- A path with a backslash in front of the digits of a space is read back, unless the
    backslash is undone first: then a space is left of them. -/
theorem backslash_first_makes_up_a_space :
    let order : List Escape :=
      [(('1', '3', '4'), '\\'), (('0', '4', '0'), ' '), (('0', '1', '1'), '\t'),
        (('0', '1', '2'), '\n')]
    order.Perm escapes ∧ String.ofList (unescape (escape "/a\\040b")) = "/a\\040b"
      ∧ undo order (escape "/a\\040b") = "/a b".toList
      ∧ ¬ ∀ path : String, undo order (escape path) = path.toList := by
  intro order
  have hperm : order.Perm escapes := by decide
  obtain ⟨hback, -, horders⟩ := read_back_iff_backslash_last
  obtain ⟨hlast, -⟩ := horders order hperm
  exact ⟨hperm, hback _, by decide +kernel, fun h => absurd (hlast.1 h) (by decide)⟩

end HealthWatch.Mounts
