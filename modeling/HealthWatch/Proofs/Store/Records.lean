import HealthWatch.Proofs.Store.Row
import HealthWatch.Store.Tables

/-! # Records — tables whose rows all read back

    Tables that only the store writes hold the rows of values: of definitions, of
    entries that belong to them, and of transitions.  On such tables every look-up
    succeeds and gives the values themselves.

    * `Records` holds the values and `Records.tables` their rows;
    * `Records.Sound` says which columns are unique and what refers to what;
    * one lemma for each look-up says what it reads. -/

namespace HealthWatch.Store

/-! ## Lists -/

/-- What a function distinguishes in a list is found by its value. -/
theorem find?_of_nodup {α β : Type} [DecidableEq β] {f : α → β} {l : List α}
    (h : (l.map f).Nodup) {a : α} (ha : a ∈ l) : l.find? (fun b => f b = f a) = some a := by
  induction l with
  | nil => exact nomatch ha
  | cons b l ih =>
      obtain ⟨hb, hl⟩ := List.nodup_cons.1 h
      rcases List.mem_cons.1 ha with rfl | hal
      · rw [List.find?_cons_of_pos (by simp)]
      · -- no value of the rest is that of the head
        have hne : f b ≠ f a := fun he => hb (he ▸ List.mem_map_of_mem hal)
        rw [List.find?_cons_of_neg (by simpa using hne), ih hl hal]

section Reading

variable {α β γ ε : Type} {f : α → β} {g : β → Except ε γ} {v : α → γ}

/-- A list of rows reads back when each row does. -/
theorem mapM_map_ok (h : ∀ a, g (f a) = .ok (v a)) (l : List α) :
    (l.map f).mapM g = .ok (l.map v) := by
  induction l with
  | nil => rfl
  | cons a l ih =>
      rw [List.map_cons, List.mapM_cons, h a, ih]
      rfl

/-- A row that may be there reads back when every row does. -/
theorem option_mapM_map_ok (h : ∀ a, g (f a) = .ok (v a)) (o : Option α) :
    (o.map f).mapM g = .ok (o.map v) := by
  cases o with
  | none => rfl
  | some a =>
      rw [Option.map_some, Option.mapM_some, h a]
      rfl

end Reading

theorem filterMap_of_some {α β : Type} {f : α → Option β} {g : α → β} {l : List α}
    (h : ∀ a ∈ l, f a = some (g a)) : l.filterMap f = l.map g := by
  induction l with
  | nil => rfl
  | cons a l ih =>
      rw [List.filterMap_cons, h a (by simp), ih fun b hb => h b (List.mem_cons_of_mem a hb),
        List.map_cons]

/-! ## Values and their rows -/

/-- An entry and the definition that its row refers to. -/
structure Linked where
  entry : Entry
  definition : Check
deriving DecidableEq, Repr

namespace Linked

/-- What names the entry. -/
def key (p : Linked) : Key := .ofEntry p.entry

/-- The row of the entry. -/
def row (p : Linked) : EntryRow := .ofEntry p.entry p.definition.id

/-- The row of the entry, with the row of its definition. -/
def rows (p : Linked) : EntryRow × CheckRow := (p.row, .ofCheck p.definition)

/-- The entry as it is read. -/
def value (p : Linked) : Entry := { p.entry.kept with check := some p.definition }

/-- The entry in a row with the row of its definition. -/
def readRows (q : EntryRow × CheckRow) : Except TableFault Entry := q.1.read q.2

theorem readRows_rows (p : Linked) : readRows p.rows = .ok p.value :=
  EntryRow.read_ofEntry p.entry p.definition.id p.definition

/-- A row has the key of its entry. -/
theorem hasKey_row (k : Key) (p : Linked) : p.row.hasKey k = decide (p.key = k) := by
  rw [EntryRow.hasKey, row, key, EntryRow.ofEntry, Key.ofEntry]
  cases k
  simp [Bool.and_assoc]

end Linked

/-- What is stored, in the order in which it was stored. -/
structure Records where
  checks : List Check := []
  entries : List Linked := []
  transitions : List Transition := []
deriving DecidableEq, Repr

namespace Records

/-- The tables that hold the rows of these values. -/
def tables (r : Records) : Tables where
  checks := r.checks.map CheckRow.ofCheck
  entries := r.entries.map Linked.row
  transitions := r.transitions.map TransitionRow.ofTransition

/-- Identifiers, names and keys are unique, and what a row refers to is there. -/
structure Sound (r : Records) : Prop where
  checkIds : (r.checks.map Check.id).Nodup
  checkNames : (r.checks.map Check.name).Nodup
  entryIds : (r.entries.map (·.entry.id)).Nodup
  entryKeys : (r.entries.map Linked.key).Nodup
  transitionIds : (r.transitions.map Transition.id).Nodup
  /-- An entry belongs to a definition of its own name. -/
  linked : ∀ p ∈ r.entries, p.definition ∈ r.checks ∧ p.definition.name = p.entry.name
  /-- A transition belongs to an entry. -/
  owned : ∀ x ∈ r.transitions, ∃ p ∈ r.entries, p.entry.id = x.entryId

/-- The definition of a name. -/
def check? (r : Records) (name : String) : Option Check :=
  r.checks.find? fun c => c.name = name

/-- The entry with a key. -/
def linked? (r : Records) (k : Key) : Option Linked :=
  r.entries.find? fun p => p.key = k

/-- Whether a row may stand before another one in a history: its time is not smaller. -/
def notBeforeRow (a b : TransitionRow) : Bool :=
  !(decide (a.lastExecution < b.lastExecution))

/-- Whether a transition may stand before another one in a history. -/
def notBefore (a b : Transition) : Bool :=
  notBeforeRow (.ofTransition a) (.ofTransition b)

theorem notBefore_iff {a b : Transition} : notBefore a b = true
    ↔ ¬timeText a.lastExecution < timeText b.lastExecution := by
  rw [notBefore, notBeforeRow, Bool.not_eq_true', decide_eq_false_iff_not]
  rfl

/-- The transitions of an entry, the latest time first, and of equal times the newest
    one first. -/
def history (r : Records) (entryId : Identifier) : List Transition :=
  (r.transitions.filter fun x => x.entryId = entryId).reverse.mergeSort notBefore

/-- The order of the entries of an application: by name, then by server. -/
def precedes (a b : Linked) : Bool :=
  Tables.precedes a.row b.row

/-- The entries whose rows pass a test, by name and server. -/
def list (r : Records) (test : EntryRow → Bool) : List Linked :=
  (r.entries.filter fun p => test p.row).mergeSort precedes

/-- Entries are listed that pass the test. -/
theorem mem_list {r : Records} {test : EntryRow → Bool} {p : Linked} :
    p ∈ r.list test ↔ p ∈ r.entries ∧ test p.row = true := by
  rw [list, List.mem_mergeSort, List.mem_filter]

/-! ## What the look-ups read -/

variable {r : Records}

theorem check?_eq_some {name : String} {c : Check} (h : r.check? name = some c) :
    c ∈ r.checks ∧ c.name = name :=
  ⟨List.mem_of_find?_eq_some h, by simpa using List.find?_some h⟩

theorem linked?_eq_some {k : Key} {p : Linked} (h : r.linked? k = some p) :
    p ∈ r.entries ∧ p.key = k :=
  ⟨List.mem_of_find?_eq_some h, by simpa using List.find?_some h⟩

theorem Sound.check?_of_mem (h : r.Sound) {c : Check} (hc : c ∈ r.checks) :
    r.check? c.name = some c :=
  find?_of_nodup h.checkNames hc

theorem Sound.linked?_of_mem (h : r.Sound) {p : Linked} (hp : p ∈ r.entries) :
    r.linked? p.key = some p :=
  find?_of_nodup h.entryKeys hp

/-- Every entry is one of the definition of its own name. -/
theorem Sound.check?_of_entry (h : r.Sound) {p : Linked} (hp : p ∈ r.entries) :
    r.check? p.entry.name = some p.definition := by
  obtain ⟨hc, hname⟩ := h.linked p hp
  rw [← hname]
  exact h.check?_of_mem hc

/-- The tables find the definition that the records have. -/
theorem findCheck?_tables (r : Records) (name : String) :
    r.tables.findCheck? name = .ok (r.check? name) := by
  rw [Tables.findCheck?, tables, List.find?_map, option_mapM_map_ok (CheckRow.read_ofCheck 0),
    Option.map_id']
  rfl

/-- The tables find the definition that an entry is linked to. -/
theorem definitionOf?_tables (h : r.Sound) {p : Linked} (hp : p ∈ r.entries) :
    r.tables.definitionOf? p.row = some (CheckRow.ofCheck p.definition) := by
  have hfind := find?_of_nodup h.checkIds (h.linked p hp).1
  rw [Tables.definitionOf?, tables, List.find?_map,
    show (fun c : CheckRow => decide (c.id = p.row.checkId)) ∘ CheckRow.ofCheck
      = fun c => decide (c.id = p.definition.id) by
        funext c
        simp [CheckRow.ofCheck, Linked.row, EntryRow.ofEntry], hfind]
  rfl

/-- No entry is lost for want of its definition. -/
theorem select_tables (h : r.Sound) (test : EntryRow → Bool) :
    r.tables.select test
      = (r.entries.filter fun p => test p.row).map Linked.rows := by
  rw [Tables.select, show r.tables.entries = r.entries.map Linked.row from rfl, List.filter_map,
    List.filterMap_map]
  refine filterMap_of_some ?_
  intro p hp
  rw [Function.comp_apply, definitionOf?_tables h (List.mem_filter.1 hp).1]
  rfl

/-- The tables find the entry that the records have for a key. -/
theorem findEntry?_tables (h : r.Sound) (k : Key) :
    r.tables.findEntry? k = .ok ((r.linked? k).map Linked.value) := by
  rw [Tables.findEntry?, select_tables h, List.head?_map, List.head?_filter]
  simp only [Linked.hasKey_row]
  exact option_mapM_map_ok Linked.readRows_rows (r.linked? k)

/-- The rows of a history are those of the recorded transitions. -/
theorem historyRows_tables (r : Records) (entryId : Identifier) :
    r.tables.historyRows entryId = (r.history entryId).map TransitionRow.ofTransition := by
  have hsort := List.map_mergeSort (f := TransitionRow.ofTransition) (r := notBefore)
    (s := notBeforeRow) (l := (r.transitions.filter fun x => x.entryId = entryId).reverse)
    (fun _ _ _ _ => rfl)
  -- a row is compared by the text of its identifier, which tells identifiers apart
  have hfilter : (fun row : TransitionRow => decide (row.entryId = entryId.toText))
      ∘ TransitionRow.ofTransition = fun x => decide (x.entryId = entryId) := by
    funext x
    simp [TransitionRow.ofTransition]
  rw [history, hsort, List.map_reverse, Tables.historyRows, tables, List.filter_map, hfilter]
  rfl

/-- A history is read back as it is kept. -/
theorem history_tables (r : Records) (entryId : Identifier) :
    r.tables.history entryId = .ok ((r.history entryId).map Transition.kept) := by
  rw [Tables.history, historyRows_tables, mapM_map_ok TransitionRow.read_ofTransition]

/-- So is its first transition. -/
theorem latest?_tables (r : Records) (entryId : Identifier) :
    r.tables.latest? entryId = .ok ((r.history entryId).head?.map Transition.kept) := by
  rw [Tables.latest?, historyRows_tables, List.head?_map,
    option_mapM_map_ok TransitionRow.read_ofTransition]

/-- Entries are read back in the order of the records. -/
theorem list_tables (h : r.Sound) (test : EntryRow → Bool) :
    r.tables.list test = .ok ((r.list test).map Linked.value) := by
  have hsort := List.map_mergeSort (f := Linked.rows)
    (r := precedes) (s := fun a b => Tables.precedes a.1 b.1)
    (l := r.entries.filter fun p => test p.row) (fun _ _ _ _ => rfl)
  rw [Tables.list, select_tables h, ← hsort]
  exact mapM_map_ok Linked.readRows_rows (r.list test)

/-- The entry as it is read with its history. -/
def valueWithHistory (r : Records) (p : Linked) : Entry :=
  { p.value with history := some ((r.history p.entry.id).map Transition.kept) }

/-- The entries of one check are read with their histories. -/
theorem checkEntries_tables (h : r.Sound) (applicationId : Identifier) (name : String) :
    r.tables.checkEntries applicationId name
      = .ok ((r.list fun e => e.applicationId = applicationId.toText && e.name = name).map
          r.valueWithHistory) := by
  have hattach : ∀ p : Linked, (do
      return { p.value with history := some (← r.tables.history p.value.id) } :
        Except TableFault Entry) = .ok (r.valueWithHistory p) := by
    intro p
    rw [history_tables]
    rfl
  rw [Tables.checkEntries, list_tables h]
  exact mapM_map_ok hattach _

end Records

end HealthWatch.Store
