import HealthWatch.Proofs.Store.Refinement
import HealthWatch.Proofs.Traversal
import HealthWatch.Store.Overwrite

/-! # Overwriting — damage stays where it is done, and is told

    Something else writes into the columns of the entries of one application.  The rows it is
    for have the value, all others are as they were (`rows?_eq_ok_iff`), so every other
    application reads what it read before (`read_elsewhere`).

    An entry whose status does not read back is not left out of what is read: the whole
    application is refused (`unreadable_status_is_told`). -/

namespace HealthWatch.Store

open Json
open Records (ofApplication)

/-! ## One change -/

section Rows

variable {ρ : Type} {o : Overwrite} {column : Column ρ} {test : ρ → Bool}

/-- What a change of a column makes of a row: one that it is for has the value, another one
    stays. -/
structure Overwrite.Makes (o : Overwrite) (column : Column ρ) (test : ρ → Bool) (r r' : ρ) :
    Prop where
  touched : test r = true → column.put o.value r = some r'
  untouched : test r = false → r' = r

/-- A row gets a value that its column takes. -/
theorem overwrite_eq_ok_iff {table : String} {v : Cell} {r r' : ρ} :
    column.overwrite table v r = .ok r' ↔ column.put v r = some r' := by
  rw [Column.overwrite]
  cases column.put v r with
  | none => exact iff_of_false (by rintro ⟨⟩) (by rintro ⟨⟩)
  | some s => rw [Except.ok.injEq, Option.some.injEq]

/-- Overwriting a row, if the change is for it, is what the change makes of it. -/
theorem makes_iff {table : String} {r r' : ρ} :
    (if test r then column.overwrite table o.value r else .ok r) = .ok r'
      ↔ o.Makes column test r r' := by
  cases htest : test r with
  | true =>
      rw [if_pos rfl, overwrite_eq_ok_iff]
      constructor
      · exact fun h => ⟨fun _ => h, fun hfalse => by cases htest.symm.trans hfalse⟩
      · exact fun h => h.touched htest
  | false =>
      rw [if_neg (by decide), Except.ok.injEq]
      constructor
      · exact fun h => ⟨fun htrue => (by cases htest.symm.trans htrue), fun _ => h.symm⟩
      · exact fun h => (h.untouched htest).symm

/-- A change names columns that exist.  It makes a row of each row, in its place, and counts
    those that it is for. -/
theorem rows?_eq_ok_iff {table : String} {columns : List (Column ρ)} {rows rows' : List ρ}
    {n : Nat} : o.rows? table columns rows = some (.ok (n, rows')) ↔
      ∃ column test, Column.named? columns o.column = some column ∧ o.test? columns = some test
        ∧ n = (rows.filter test).length ∧ List.Forall₂ (o.Makes column test) rows rows' := by
  rw [Overwrite.rows?]
  simp only [Option.bind_eq_bind, Option.bind_eq_some_iff, Option.pure_def, Option.some.injEq,
    bind_eq_ok_iff, mapM_eq_ok_iff, makes_iff]
  constructor
  · rintro ⟨column, hcolumn, test, htest, changed, hchanged, h⟩
    cases h
    exact ⟨column, test, hcolumn, htest, rfl, hchanged⟩
  · rintro ⟨column, test, hcolumn, htest, rfl, hchanged⟩
    exact ⟨column, hcolumn, test, htest, rows', hchanged, rfl⟩

/-- Rows of a kind to which a change is for no row, and makes none, are as they were. -/
theorem filter_of_makes {kind : ρ → Bool} {rows rows' : List ρ}
    (h : List.Forall₂ (o.Makes column test) rows rows')
    (hbefore : ∀ r, test r = true → kind r = false)
    (hafter : ∀ r r', test r = true → column.put o.value r = some r' → kind r' = false) :
    rows'.filter kind = rows.filter kind := by
  induction h with
  | nil => rfl
  | @cons r r' rows rows' hmakes _ ih =>
      cases htest : test r with
      | true =>
          rw [List.filter_cons_of_neg (by rw [hafter r r' htest (hmakes.touched htest)]; decide),
            List.filter_cons_of_neg (by rw [hbefore r htest]; decide), ih]
      | false => rw [hmakes.untouched htest, List.filter_cons, List.filter_cons, ih]

end Rows

/-! ## Entries of one application -/

/-- Something else wrote into a column of the entries of an application, though not into
    the one that tells their application. -/
structure Damages (o : Overwrite) (a : Identifier) (t : Tables) (n : Nat) (t' : Tables) :
    Prop where
  written : t.overwriteEntries? o = some (.ok (n, t'))
  condition : o.condition = some ("application_id", .text a.toText)
  column : o.column ≠ "application_id"

theorem named?_application_id : Column.named? EntryRow.columns "application_id"
    = some (.ofText "application_id" EntryRow.applicationId
        fun s r => { r with applicationId := s }) := by
  simp [Column.named?, EntryRow.columns, Column.ofText]

/-- Every other column leaves an entry in its application. -/
theorem applicationId_of_put {column : Column EntryRow} (h : column ∈ EntryRow.columns)
    (hname : column.name ≠ "application_id") {v : Cell} {r r' : EntryRow}
    (hput : column.put v r = some r') : r'.applicationId = r.applicationId := by
  simp only [EntryRow.columns, List.mem_cons, List.not_mem_nil, or_false] at h
  rcases h with rfl | rfl | rfl | rfl | rfl | rfl | rfl | rfl | rfl
  case inr.inl => exact absurd rfl hname
  case inr.inr.inr.inr.inl =>
    cases hput
    rfl
  all_goals
    obtain ⟨_, -, rfl⟩ := Option.map_eq_some_iff.1 hput
    rfl

/-- Rows are accepted whose values differ. -/
theorem unique_eq_ok_iff {ρ α : Type} [DecidableEq α] {names : List String} {f : ρ → α}
    {rows : List ρ} {u : Unit} : unique names f rows = .ok u ↔ (rows.map f).Nodup := by
  rw [unique]
  split
  · next h => exact iff_of_true rfl h
  · next h => exact iff_of_false (by rintro ⟨⟩) h

/-- An overwrite of entries leaves the other tables, and keys and identifiers unique. -/
theorem overwriteEntries?_eq_ok {o : Overwrite} {t t' : Tables} {n : Nat}
    (h : t.overwriteEntries? o = some (.ok (n, t'))) :
    o.rows? "health_check_entries" EntryRow.columns t.entries = some (.ok (n, t'.entries))
      ∧ (t'.entries.map EntryRow.id).Nodup
      ∧ (t'.entries.map fun r => (r.applicationId, r.serverName, r.name)).Nodup
      ∧ t' = { t with entries := t'.entries } := by
  rw [Tables.overwriteEntries?] at h
  obtain ⟨result, hresult, hsome⟩ := Option.bind_eq_some_iff.1 h
  obtain ⟨⟨count, rows⟩, rfl, hcheck⟩ := bind_eq_ok (Option.some.inj hsome)
  obtain ⟨_, hid, hcheck⟩ := bind_eq_ok hcheck
  obtain ⟨_, hkey, hcheck⟩ := bind_eq_ok hcheck
  cases hcheck
  exact ⟨hresult, unique_eq_ok_iff.1 hid, unique_eq_ok_iff.1 hkey, rfl⟩

/-- What is listed hangs on the definitions and on the entries that pass the test. -/
theorem list_congr {t t' : Tables} {test : EntryRow → Bool} (hchecks : t'.checks = t.checks)
    (hentries : t'.entries.filter test = t.entries.filter test) : t'.list test = t.list test := by
  have hselect : t'.select test = t.select test := by
    rw [Tables.select, Tables.select, hentries]
    simp only [Tables.definitionOf?, hchecks]
  rw [Tables.list, Tables.list, hselect]

section Damages

variable {o : Overwrite} {a : Identifier} {t t' : Tables} {n : Nat}

/-- The entries of the application are touched and no others, and they stay in it. -/
theorem Damages.makes (h : Damages o a t n t') :
    ∃ column, Column.named? EntryRow.columns o.column = some column
      ∧ n = (t.entries.filter (ofApplication a)).length
      ∧ List.Forall₂ (o.Makes column (ofApplication a)) t.entries t'.entries
      ∧ ∀ r r', column.put o.value r = some r' → r'.applicationId = r.applicationId := by
  obtain ⟨hchanged, -⟩ := overwriteEntries?_eq_ok h.written
  obtain ⟨column, test, hcolumn, htest, hcount, hrows⟩ := rows?_eq_ok_iff.1 hchanged
  have hmem : column ∈ EntryRow.columns := List.mem_of_find?_eq_some hcolumn
  have hname : column.name = o.column := by simpa using List.find?_some hcolumn
  have hsame : test = ofApplication a := by
    rw [Overwrite.test?, h.condition] at htest
    simp only [named?_application_id, Option.map_some, Option.some.injEq] at htest
    subst htest
    funext r
    simp [Column.ofText, Cell.asText?, ofApplication, eq_comm]
  subst hsame
  exact ⟨column, hcolumn, hcount, hrows,
    fun r r' => applicationId_of_put hmem (hname ▸ h.column)⟩

/-- The entries of another application are as they were. -/
theorem Damages.filter_ofApplication (h : Damages o a t n t') {b : Identifier} (hb : b ≠ a) :
    t'.entries.filter (ofApplication b) = t.entries.filter (ofApplication b) := by
  obtain ⟨column, -, -, hrows, hkeep⟩ := h.makes
  have hother : ∀ r : EntryRow, r.applicationId = a.toText → ofApplication b r = false :=
    fun r hr => decide_eq_false fun hr' => hb (Identifier.toText_inj.1 (hr'.symm.trans hr))
  refine filter_of_makes hrows (fun r hr => hother r (of_decide_eq_true hr)) ?_
  intro r r' hr hput
  exact hother r' ((hkeep r r' hput).trans (of_decide_eq_true hr))

/-- The histories, and what is read of other applications, are as they were. -/
theorem Damages.read_elsewhere (h : Damages o a t n t') :
    (∀ entryId, t'.history entryId = t.history entryId) ∧
    ∀ b, b ≠ a → t'.applicationEntries b = t.applicationEntries b
      ∧ ∀ name, t'.checkEntries b name = t.checkEntries b name := by
  obtain ⟨-, -, -, ht'⟩ := overwriteEntries?_eq_ok h.written
  have hchecks : t'.checks = t.checks := by rw [ht']
  have hhistory : ∀ entryId, t'.history entryId = t.history entryId := by
    intro entryId
    rw [ht']
    rfl
  refine ⟨hhistory, fun b hb => ?_⟩
  have hfilter := h.filter_ofApplication hb
  refine ⟨list_congr hchecks hfilter, fun name => ?_⟩
  have hnamed : t'.entries.filter (fun r => r.applicationId = b.toText && r.name = name)
      = t.entries.filter fun r => r.applicationId = b.toText && r.name = name := by
    simp only [Bool.and_comm (decide (EntryRow.applicationId _ = _))]
    rw [← List.filter_filter, ← List.filter_filter]
    exact congrArg (List.filter _) hfilter
  rw [Tables.checkEntries, Tables.checkEntries, list_congr hchecks hnamed]
  simp only [hhistory]

/-! ## Statuses that do not read back -/

/-- No status is read from a stored one. -/
def StatusCell.Unreadable (c : StatusCell) : Prop :=
  ∀ s, readStatus 5 c ≠ .ok s

/-- Texts do not read back, nor do numbers that are the code of no status. -/
theorem StatusCell.unreadable_iff {c : StatusCell} :
    c.Unreadable ↔ ∀ code, c = .number code → Status.ofCode? code = none := by
  cases c with
  | text s => exact iff_of_true (by rintro _ ⟨⟩) (by rintro _ ⟨⟩)
  | number code =>
      have hread : ∀ s, readStatus 5 (.number code) = .ok s ↔ Status.ofCode? code = some s := by
        intro s
        rw [readStatus]
        cases Status.ofCode? code with
        | none => exact iff_of_false (by rintro ⟨⟩) (by rintro ⟨⟩)
        | some s' => rw [Except.ok.injEq, Option.some.injEq]
      simp only [StatusCell.Unreadable, ne_eq, hread, StatusCell.number.injEq, forall_eq',
        Option.eq_none_iff_forall_ne_some]

/-- A row with such a status is refused. -/
theorem EntryRow.read_ne_ok {r : EntryRow} (h : r.status.Unreadable) (c : CheckRow) (e : Entry) :
    r.read c ≠ .ok e := by
  intro hread
  rw [EntryRow.read] at hread
  obtain ⟨_, -, hread⟩ := bind_eq_ok hread
  obtain ⟨_, -, hread⟩ := bind_eq_ok hread
  obtain ⟨s, hs, -⟩ := bind_eq_ok hread
  exact h s hs

/-- What is read of entries reads each one that has a definition. -/
theorem exists_read_of_list {t : Tables} {test : EntryRow → Bool} {es : List Entry}
    (h : t.list test = .ok es) {r : EntryRow} (hr : r ∈ t.entries) (htest : test r = true)
    {c : CheckRow} (hc : t.definitionOf? r = some c) : ∃ e ∈ es, r.read c = .ok e := by
  have hmem : (r, c) ∈ t.select test :=
    List.mem_filterMap.2 ⟨r, List.mem_filter.2 ⟨hr, htest⟩, by rw [hc]; rfl⟩
  rw [Tables.list] at h
  have hread := mapM_eq_ok_iff.1 h
  obtain ⟨e, he, hre⟩ := exists_mem_of_forall₂ hread (List.mem_mergeSort.2 hmem)
  exact ⟨e, he, hre⟩

theorem named?_status : Column.named? EntryRow.columns "status"
    = some (.ofStatus EntryRow.status fun s r => { r with status := s }) := by
  simp [Column.named?, EntryRow.columns, Column.ofText, Column.ofStatus]

/-- A status that does not read back is put into the entries of an application.  As soon as
    one of them has a definition, there is no list of the entries of the application: none of
    them is left out, and none is shown with another status. -/
theorem Damages.unreadable_status_is_told (h : Damages o a t n t') (hcolumn : o.column = "status")
    (hvalue : ∀ c, o.value.asStatus? = some c → c.Unreadable) {r : EntryRow} (hr : r ∈ t.entries)
    (hof : ofApplication a r = true) (hdefined : (t.definitionOf? r).isSome) :
    ∀ es, t'.applicationEntries a ≠ .ok es := by
  intro es hread
  obtain ⟨column, hnamed, -, hrows, hkeep⟩ := h.makes
  rw [hcolumn, named?_status] at hnamed
  cases hnamed
  obtain ⟨r', hr', hmakes⟩ := exists_mem_of_forall₂ hrows hr
  have hput := hmakes.touched hof
  have hof' : ofApplication a r' = true := by
    rw [ofApplication, hkeep r r' hput]
    exact hof
  obtain ⟨cell, hcell, rfl⟩ := Option.map_eq_some_iff.1 hput
  -- the new row refers to the definition of the old one
  obtain ⟨-, -, -, ht'⟩ := overwriteEntries?_eq_ok h.written
  obtain ⟨c, hc⟩ := Option.isSome_iff_exists.1 hdefined
  have hc' : t'.definitionOf? { r with status := cell } = some c := by
    rw [ht']
    exact hc
  obtain ⟨e, -, he⟩ := exists_read_of_list hread hr' hof' hc'
  exact EntryRow.read_ne_ok (hvalue cell hcell) c e he

/-- The status of the only entry becomes a word. -/
example :
    let a := Identifier.ofNat 7
    let row : EntryRow := ⟨"e", a.toText, "alpha", "disk", none, .number 2, "", "", "c"⟩
    let t : Tables := { checks := [⟨"c", "disk", "", "[]"⟩], entries := [row] }
    let o : Overwrite := ⟨"status", .text "down", some ("application_id", .text a.toText)⟩
    Damages o a t 1 { t with entries := [{ row with status := .text "down" }] } :=
  ⟨rfl, rfl, by decide⟩

end Damages

end HealthWatch.Store
