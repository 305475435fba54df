import HealthWatch.Json.Decode
import HealthWatch.Json.Writer
import HealthWatch.Proofs.Identifier

/-! # JSON texts — what is written is read back

    A value without numbers is written as a text from which its tree is read, whatever
    stands behind the text (`readValue_write`).  Inside texts every character is read
    back from its escape, so no Unicode text is lost (`readText_write`).

    The induction is on the fuel of the reader, for values, items and members at the
    same time; twice the length of the text is fuel enough. -/

namespace HealthWatch.Json

open Text

/-! ## Texts -/

/-- A written character is read as its code point. -/
theorem readUnits_writeChar (units : List Nat) (c : Char) (s : List Char) :
    readUnits units (writeChar c ++ s) = readUnits (c.toNat :: units) s := by
  rw [writeChar]
  repeat' split
  · next h => subst h; rfl
  · next h => subst h; rfl
  · next h => subst h; rfl
  · next h => subst h; rfl
  · next h => subst h; rfl
  · next h => subst h; rfl
  · next h => subst h; rfl
  · next h =>
      -- another control character, written with its two hexadecimal digits
      have h1 := hexValue?_hexChar (show c.toNat / 16 < 16 by omega)
      have h2 := hexValue?_hexChar (show c.toNat % 16 < 16 by omega)
      have hunit : codeUnit? '0' '0' (hexChar (c.toNat / 16)) (hexChar (c.toNat % 16))
          = some c.toNat := by
        rw [codeUnit?, h1, h2]
        show some (0 * 4096 + 0 * 256 + c.toNat / 16 * 16 + c.toNat % 16) = some c.toNat
        congr 1
        omega
      simp only [List.cons_append, List.nil_append]
      rw [readUnits.eq_def]
      simp [hunit]
  · next h1 h2 _ _ _ _ _ h8 =>
      -- a character that stands for itself: no quotation mark, backslash or control character
      rw [List.singleton_append, readUnits.eq_def]
      simp only [h1, h2, h8, if_false]

/-- The characters up to the closing quotation mark are read as code points. -/
theorem readUnits_write (units : List Nat) (cs s : List Char) :
    readUnits units (cs.flatMap writeChar ++ '"' :: s)
      = .ok (units.reverse ++ cs.map Char.toNat, s) := by
  induction cs generalizing units with
  | nil =>
      rw [List.flatMap_nil, List.nil_append, readUnits.eq_def]
      simp
  | cons c cs ih =>
      rw [List.flatMap_cons, List.append_assoc, readUnits_writeChar, ih]
      simp

/-- No character is a surrogate, so each code point is joined to itself. -/
theorem joinUnits_map_toNat (chars cs : List Char) :
    joinUnits chars (cs.map Char.toNat) = .ok (chars.reverse ++ cs) := by
  induction cs generalizing chars with
  | nil => simp [joinUnits]
  | cons c cs ih =>
      have hvalid : c.toNat < 0xD800 ∨ 0xE000 ≤ c.toNat := by
        rcases c.valid with h | ⟨h, -⟩
        · exact Or.inl h
        · exact Or.inr h
      have hhigh : (0xD800 ≤ c.toNat && c.toNat < 0xDC00) = false := by
        simp
        omega
      have hlow : (0xDC00 ≤ c.toNat && c.toNat < 0xE000) = false := by
        simp
        omega
      rw [List.map_cons, joinUnits.eq_def]
      simp only [hhigh, hlow, Bool.false_eq_true, if_false, Char.ofNat_toNat]
      rw [ih]
      simp

namespace Document

/-- A written text is read back behind its opening quotation mark. -/
theorem readText_write (cs s : List Char) :
    readText (cs.flatMap writeChar ++ '"' :: s) = (text (.ok (String.ofList cs)), s) := by
  rw [readText, readUnits_write]
  simp only [List.reverse_nil, List.nil_append, joinUnits_map_toNat]
  rfl

theorem readWord_append (word : List Char) (value : Document) (s : List Char) :
    readWord word value (word ++ s) = (value, s) := by
  induction word with
  | nil => cases s <;> rfl
  | cons c word ih => rw [List.cons_append, readWord, if_pos rfl, ih]

end Document

/-! ## Values -/

/-- A value in which no number occurs. -/
inductive NumberFree : Json → Prop where
  | null : NumberFree .null
  | bool (b : Bool) : NumberFree (.bool b)
  | text (s : String) : NumberFree (.text s)
  | array {items : List Json} (h : ∀ v ∈ items, NumberFree v) : NumberFree (.array items)
  | object {members : List (String × Json)} (h : ∀ p ∈ members, NumberFree p.2) :
      NumberFree (.object members)

/-- A text that starts with neither a gap nor the end of a list. -/
def StartsValue (s : List Char) : Prop :=
  ∃ c r, s = c :: r ∧ isGap c = false ∧ c ≠ ']'

/-- A written value starts at once. -/
theorem startsValue_write {v : Json} (h : NumberFree v) (s : List Char) :
    StartsValue (v.write ++ s) := by
  cases h with
  | null => exact ⟨'n', _, rfl, by decide, by decide⟩
  | bool b =>
      cases b with
      | true => exact ⟨'t', _, rfl, by decide, by decide⟩
      | false => exact ⟨'f', _, rfl, by decide, by decide⟩
  | text t => exact ⟨'"', _, rfl, by decide, by decide⟩
  | array h => exact ⟨'[', _, rfl, by decide, by decide⟩
  | object h => exact ⟨'\x7b', _, rfl, by decide, by decide⟩

theorem skipGap_of_startsValue {s : List Char} (h : StartsValue s) : skipGap s = s := by
  obtain ⟨c, r, rfl, hgap, -⟩ := h
  rw [skipGap, List.dropWhile_cons, hgap]
  rfl

theorem writeItems_cons_cons (v w : Json) (r : List Json) :
    writeItems (v :: w :: r) = v.write ++ ',' :: writeItems (w :: r) := rfl

/-- The first member is written before the rest. -/
theorem writeMembers_cons (k : String) (v : Json) (r : List (String × Json)) :
    writeMembers ((k, v) :: r) = '"' :: (k.toList.flatMap writeChar ++ '"' :: ':' :: (v.write
      ++ (if r = [] then [] else ',' :: writeMembers r))) := by
  cases r with
  | nil => simp [writeMembers, writeText]
  | cons p r =>
      obtain ⟨l, w⟩ := p
      simp [writeMembers, writeText]

/-- The first item of a written list starts at once. -/
theorem startsValue_writeItems {v : Json} {r : List Json} (h : NumberFree v) (s : List Char) :
    StartsValue (writeItems (v :: r) ++ s) := by
  cases r with
  | nil => exact startsValue_write h s
  | cons w r =>
      rw [writeItems_cons_cons, List.append_assoc]
      exact startsValue_write h _

namespace Document

/-- What reading with this fuel gives back: values, items and members whose texts are
    short enough. -/
structure ReadsBack (fuel : Nat) : Prop where
  value : ∀ {v : Json} (s : List Char), NumberFree v → 2 * v.write.length + 1 ≤ fuel →
    readValue fuel (v.write ++ s) = (ofJson v, s)
  items : ∀ {v : Json} {r : List Json} (s : List Char), (∀ w ∈ v :: r, NumberFree w) →
    2 * (writeItems (v :: r)).length + 2 ≤ fuel →
    readItems fuel (writeItems (v :: r) ++ ']' :: s) = (ofItems (v :: r), .closed, s)
  members : ∀ {p : String × Json} {r : List (String × Json)} (s : List Char),
    (∀ q ∈ p :: r, NumberFree q.2) → 2 * (writeMembers (p :: r)).length + 2 ≤ fuel →
    readMembers fuel (writeMembers (p :: r) ++ '\x7d' :: s) = (ofMembers (p :: r), .closed, s)

/-- One more unit of fuel reads back one more layer of a value. -/
theorem readValue_succ {fuel : Nat} (ih : ReadsBack fuel) {v : Json} (s : List Char)
    (h : NumberFree v) (hf : 2 * v.write.length + 1 ≤ fuel + 1) :
    readValue (fuel + 1) (v.write ++ s) = (ofJson v, s) := by
  have hstart : skipGap (v.write ++ s) = v.write ++ s :=
    skipGap_of_startsValue (startsValue_write h s)
  rw [readValue, hstart]
  cases h with
  | null => exact readWord_append ['u', 'l', 'l'] null s
  | bool b =>
      cases b with
      | true => exact readWord_append ['r', 'u', 'e'] (bool true) s
      | false => exact readWord_append ['a', 'l', 's', 'e'] (bool false) s
  | text t =>
      have := readText_write t.toList s
      rw [String.ofList_toList] at this
      simpa [write, writeText, readPlain, ofJson] using this
  | array h =>
      rename_i items
      cases items with
      | nil => rfl
      | cons w r =>
          -- the first item shows that the list is not closed at once
          have hitems : skipGap (writeItems (w :: r) ++ ']' :: s) = writeItems (w :: r) ++ ']' :: s :=
            skipGap_of_startsValue (startsValue_writeItems (h w (by simp)) _)
          obtain ⟨c, t, hc, -, hend⟩ := startsValue_writeItems (r := r) (h w (by simp)) (']' :: s)
          have hread := ih.items s h (by simp [write] at hf; omega)
          rw [hc] at hitems hread
          simp only [write, List.cons_append, List.append_assoc, List.nil_append, hc, hitems]
          split
          next heq => exact nomatch heq
          next heq => exact absurd (List.cons.inj heq).1 hend
          next =>
            rw [hread]
            rfl
  | object h =>
      rename_i members
      cases members with
      | nil => rfl
      | cons p r =>
          have hread := ih.members s h (by simp [write] at hf; omega)
          obtain ⟨k, w⟩ := p
          rw [writeMembers_cons, List.cons_append] at hread
          simp only [write, writeMembers_cons, List.cons_append, List.append_assoc,
            List.nil_append] at hread ⊢
          have hgap : ∀ t, skipGap ('"' :: t) = '"' :: t := fun t => rfl
          simp only [hgap]
          split
          next heq => exact nomatch heq
          next heq => exact absurd (List.cons.inj heq).1 (by decide)
          next =>
            rw [hread]
            rfl

/-- One more unit of fuel reads back one more item. -/
theorem readItems_succ {fuel : Nat} (ih : ReadsBack fuel) {v : Json} {r : List Json}
    (s : List Char) (h : ∀ w ∈ v :: r, NumberFree w)
    (hf : 2 * (writeItems (v :: r)).length + 2 ≤ fuel + 1) :
    readItems (fuel + 1) (writeItems (v :: r) ++ ']' :: s) = (ofItems (v :: r), .closed, s) := by
  have hv := h v (by simp)
  cases r with
  | nil =>
      have hread := ih.value (']' :: s) hv (by simp [writeItems] at hf; omega)
      rw [readItems, show writeItems [v] = v.write from rfl, hread]
      rfl
  | cons w r =>
      rw [writeItems_cons_cons, List.length_append, List.length_cons] at hf
      have hw := h w (by simp)
      have hread := ih.value (',' :: (writeItems (w :: r) ++ ']' :: s)) hv (by omega)
      have hrest := ih.items s (fun u hu => h u (List.mem_cons_of_mem v hu))
        (show 2 * (writeItems (w :: r)).length + 2 ≤ fuel by omega)
      -- the item behind the comma shows that the list goes on
      have hgap := skipGap_of_startsValue (startsValue_writeItems (r := r) hw (']' :: s))
      obtain ⟨c, t, hc, -, hend⟩ := startsValue_writeItems (r := r) hw (']' :: s)
      rw [readItems, writeItems_cons_cons, List.append_assoc, List.cons_append, hread]
      have hcomma : ∀ t, skipGap (',' :: t) = ',' :: t := fun t => rfl
      rw [hc] at hgap hrest
      simp only [hcomma, hc, hgap]
      split
      next heq => exact absurd (List.cons.inj heq).1 hend
      next =>
        rw [hrest]
        rfl

/-- One more unit of fuel reads back one more member. -/
theorem readMembers_succ {fuel : Nat} (ih : ReadsBack fuel) {p : String × Json}
    {r : List (String × Json)} (s : List Char) (h : ∀ q ∈ p :: r, NumberFree q.2)
    (hf : 2 * (writeMembers (p :: r)).length + 2 ≤ fuel + 1) :
    readMembers (fuel + 1) (writeMembers (p :: r) ++ '\x7d' :: s)
      = (ofMembers (p :: r), .closed, s) := by
  obtain ⟨k, v⟩ := p
  have hv : NumberFree v := h (k, v) (by simp)
  have hkey : ∀ t, readText (k.toList.flatMap writeChar ++ '"' :: t) = (text (.ok k), t) := by
    intro t
    have := readText_write k.toList t
    rwa [String.ofList_toList] at this
  have hcolon : ∀ t, skipGap (':' :: t) = ':' :: t := fun t => rfl
  rw [writeMembers_cons] at hf ⊢
  cases r with
  | nil =>
      simp only [List.length_cons, List.length_append, if_true, List.length_nil] at hf
      have hread := ih.value ('\x7d' :: s) hv (by omega)
      simp only [if_true, List.cons_append, List.append_assoc, List.append_nil, readMembers, hkey,
        hcolon, hread]
      rfl
  | cons q r =>
      simp only [List.length_cons, List.length_append, reduceCtorEq, if_false] at hf
      have hread := ih.value (',' :: (writeMembers (q :: r) ++ '\x7d' :: s)) hv (by omega)
      have hrest := ih.members s (fun u hu => h u (List.mem_cons_of_mem (k, v) hu))
        (show 2 * (writeMembers (q :: r)).length + 2 ≤ fuel by omega)
      obtain ⟨l, w⟩ := q
      have hcomma : ∀ t, skipGap (',' :: t) = ',' :: t := fun t => rfl
      have hquote : ∀ t, skipGap ('"' :: t) = '"' :: t := fun t => rfl
      simp only [reduceCtorEq, if_false, List.cons_append, List.append_assoc, readMembers, hkey,
        hcolon, hread, hcomma]
      rw [writeMembers_cons, List.cons_append] at hrest
      rw [writeMembers_cons]
      simp only [List.cons_append, hquote]
      split
      next heq => exact nomatch heq
      next heq => exact absurd (List.cons.inj heq).1 (by decide)
      next =>
        rw [hrest]
        rfl

/-- Whatever is written is read back, with enough fuel for its length. -/
theorem readsBack (fuel : Nat) : ReadsBack fuel := by
  induction fuel with
  | zero =>
      -- no text is short enough
      exact ⟨fun _ _ h => absurd h (by omega), fun _ _ h => absurd h (by omega),
        fun _ _ h => absurd h (by omega)⟩
  | succ fuel ih =>
      exact ⟨fun s => readValue_succ ih s, fun s => readItems_succ ih s,
        fun s => readMembers_succ ih s⟩

end Document

/-- The tree of a value is read from the text of the value. -/
theorem readWhole_write {v : Json} (h : NumberFree v) :
    readWhole v.write = (Document.ofJson v, true) := by
  have hread : Document.read v.write = (Document.ofJson v, []) := by
    have := (Document.readsBack (2 * v.write.length + 2)).value [] h (by omega)
    rwa [List.append_nil] at this
  rw [readWhole, hread]
  rfl

end HealthWatch.Json
