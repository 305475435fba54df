import HealthWatch.Proofs.Store.Keywise
import HealthWatch.Proofs.Store.Views
import Mathlib.Data.List.Nodup
import Mathlib.Logic.Equiv.Defs

/-! # Renaming — what identifiers do not decide

    The store compares generated identifiers with each other and does nothing else with
    them.  So the machine of a key does the same under other names (`deliverAll_rename`),
    and two stores whose machines are the same under other names answer every read alike
    under these names (`Records.agreesUpTo`). -/

namespace HealthWatch

/-- Other names for the identifiers of entries and of transitions. -/
structure Renaming where
  entry : Equiv.Perm Identifier
  transition : Equiv.Perm Identifier

/-- A transition under other names. -/
def Transition.rename (ρ : Renaming) (x : Transition) : Transition :=
  { x with id := ρ.transition x.id, entryId := ρ.entry x.entryId }

/-- An entry under other names. -/
def Entry.rename (ρ : Renaming) (e : Entry) : Entry :=
  { e with id := ρ.entry e.id, history := e.history.map (List.map (Transition.rename ρ)) }

/-- The view of entries under other names. -/
def View.rename (ρ : Renaming) (v : View) : View := v.mapChecks (Entry.rename ρ)

namespace Store

/-- An outcome under other names. -/
def Outcome.rename (ρ : Renaming) (o : Outcome) : Outcome := { o with entryId := ρ.entry o.entryId }

/-- A delivery for which other identifiers are generated. -/
def Delivery.rename (ρ : Renaming) (d : Delivery) : Delivery :=
  { d with entryId := ρ.entry d.entryId, transitionId := ρ.transition d.transitionId }

/-- An entry with its definition under another name. -/
def Linked.rename (ρ : Renaming) (p : Linked) : Linked :=
  { p with entry := { p.entry with id := ρ.entry p.entry.id } }

/-- What is held for a key under other names. -/
def Held.rename (ρ : Renaming) (held : Held) : Held :=
  held.map fun (p, rows) => (p.rename ρ, rows.map (Transition.rename ρ))

/-- Two stores give the same answers to all reads, under other names. -/
structure AgreesUpTo (ρ : Renaming) (s t : Store) : Prop where
  find? : ∀ name, t.find? name = s.find? name
  entries : ∀ applicationId, t.entries applicationId
    = (s.entries applicationId).map (List.map (Entry.rename ρ))
  checkEntries : ∀ applicationId name, t.checkEntries applicationId name
    = (s.checkEntries applicationId name).map (List.map (Entry.rename ρ))
  history : ∀ entryId, t.history (ρ.entry entryId)
    = (s.history entryId).map (List.map (Transition.rename ρ))
  applicationStatus : ∀ applicationId, t.applicationStatus applicationId
    = (s.applicationStatus applicationId).map (List.map (View.rename ρ))
  checkStatus : ∀ applicationId name, t.checkStatus applicationId name
    = (s.checkStatus applicationId name).map (Option.map (View.rename ρ))

variable (ρ : Renaming)

/-! ## The machine of a key under other names -/

theorem notBefore_rename (x y : Transition) :
    Records.notBefore (x.rename ρ) (y.rename ρ) = Records.notBefore x y := by
  rw [Bool.eq_iff_iff, Records.notBefore_iff, Records.notBefore_iff]
  exact Iff.rfl

/-- Other names do not change the order of transitions. -/
theorem listed_rename (rows : List Transition) :
    listed (rows.map (Transition.rename ρ)) = (listed rows).map (Transition.rename ρ) := by
  rw [listed, listed, ← List.map_reverse]
  exact (List.map_mergeSort (f := Transition.rename ρ) (r := Records.notBefore)
    (s := Records.notBefore) fun x _ y _ => (notBefore_rename ρ x y).symm).symm

/-- Nor whether one is added. -/
theorem adds_rename (rows : List Transition) (report : Entry) :
    adds (rows.map (Transition.rename ρ)) report = adds rows report := by
  rw [adds, adds, listed_rename, List.head?_map, Option.map_map]
  rfl

/-- A step under other names is the step. -/
theorem deliver_rename (definition : Option Check) (held : Held) (d : Delivery) :
    deliver definition (held.rename ρ) (d.rename ρ)
      = ((deliver definition held d).1.map (Outcome.rename ρ),
        (deliver definition held d).2.rename ρ) := by
  cases held with
  | none =>
      cases definition with
      | none => rfl
      | some c => rfl
  | some x =>
      obtain ⟨p, rows⟩ := x
      show deliver definition (some (p.rename ρ, rows.map (Transition.rename ρ))) (d.rename ρ) = _
      rw [deliver, deliver, adds_rename]
      by_cases hadds : adds rows d.report = true
      · rw [if_pos hadds, if_pos (show adds rows (d.rename ρ).report = true from hadds), Held.rename,
          Option.map_some]
        simp only [List.map_append]
        rfl
      · rw [if_neg hadds, if_neg (show ¬adds rows (d.rename ρ).report = true from hadds)]
        rfl

/-- Deliveries under other names leave the same under these names. -/
theorem deliverAll_rename (definition : Option Check) (held : Held) (ds : List Delivery) :
    deliverAll definition (held.rename ρ) (ds.map (Delivery.rename ρ))
      = ((deliverAll definition held ds).1.map (Except.map (Outcome.rename ρ)),
        (deliverAll definition held ds).2.rename ρ) := by
  induction ds generalizing held with
  | nil => rfl
  | cons d ds ih =>
      rw [List.map_cons, deliverAll, deliver_rename, deliverAll]
      simp only [ih, List.map_cons]

/-! ## Stores under other names -/

namespace Records

variable {ρ} {r t : Records}

/-- The second records hold for every key what the first ones hold, under other names. -/
structure SameUpTo (ρ : Renaming) (r t : Records) : Prop where
  checks : t.checks = r.checks
  held : ∀ k, t.held k = (r.held k).rename ρ

variable (h : SameUpTo ρ r t) (hr : r.Sound) (ht : t.Sound)

include h

/-- The entry of a key is the same under its other name. -/
theorem SameUpTo.linked? (k : Key) : t.linked? k = (r.linked? k).map (Linked.rename ρ) := by
  have hk := congrArg (Option.map Prod.fst) (h.held k)
  rw [Records.held, Option.map_map, Records.held, Held.rename, Option.map_map, Option.map_map] at hk
  cases hp : r.linked? k <;> cases hq : t.linked? k <;> simp_all

/-- So are its transitions. -/
theorem SameUpTo.rows {k : Key} {p : Linked} (hp : r.linked? k = some p) :
    t.rows (ρ.entry p.entry.id) = (r.rows p.entry.id).map (Transition.rename ρ) := by
  have hq : t.linked? k = some (p.rename ρ) := by rw [h.linked?, hp, Option.map_some]
  have hk := h.held k
  rw [held_eq_some hp, held_eq_some hq] at hk
  exact congrArg Prod.snd (Option.some.inj hk)

include hr ht

/-- The entries are the same, in some order. -/
theorem SameUpTo.entries_perm : t.entries.Perm (r.entries.map (Linked.rename ρ)) := by
  have hnodup : (r.entries.map (Linked.rename ρ)).Nodup := by
    refine List.Nodup.of_map Linked.key ?_
    rw [List.map_map]
    exact hr.entryKeys
  refine (List.perm_ext_iff_of_nodup (List.Nodup.of_map _ ht.entryKeys) hnodup).2 ?_
  intro q
  rw [List.mem_map]
  constructor
  · intro hq
    have hfind := ht.linked?_of_mem hq
    rw [h.linked?] at hfind
    obtain ⟨p, hp, hpq⟩ := Option.map_eq_some_iff.1 hfind
    exact ⟨p, (linked?_eq_some hp).1, hpq⟩
  · rintro ⟨p, hp, rfl⟩
    have hfind := h.linked? p.key
    rw [hr.linked?_of_mem hp, Option.map_some] at hfind
    exact (linked?_eq_some hfind).1

omit h hr ht in
theorem precedes_rename (p q : Linked) : precedes (p.rename ρ) (q.rename ρ) = precedes p q := by
  rw [precedes, precedes, Tables.precedes, Tables.precedes]
  rfl

omit h hr ht in
theorem ofApplication_rename (applicationId : Identifier) (p : Linked) :
    ofApplication applicationId (p.rename ρ).row = ofApplication applicationId p.row := by
  rw [Bool.eq_iff_iff, ofApplication_row, ofApplication_row]
  exact Iff.rfl

/-- The entries of an application are listed in the same order under other names. -/
theorem SameUpTo.list (applicationId : Identifier) :
    t.list (ofApplication applicationId)
      = (r.list (ofApplication applicationId)).map (Linked.rename ρ) := by
  -- both lists are sorted and hold the same entries
  have hsort := List.map_mergeSort (f := Linked.rename ρ) (r := precedes) (s := precedes)
    (l := r.entries.filter fun p => ofApplication applicationId p.row)
    fun p _ q _ => (precedes_rename p q).symm
  have hperm : (t.list (ofApplication applicationId)).Perm
      ((r.list (ofApplication applicationId)).map (Linked.rename ρ)) := by
    rw [Records.list, Records.list, hsort]
    refine (List.mergeSort_perm _ _).trans (List.Perm.trans ?_ (List.mergeSort_perm _ _).symm)
    have hfilter := (h.entries_perm hr ht).filter fun p => ofApplication applicationId p.row
    rw [List.filter_map] at hfilter
    simpa only [Function.comp_def, ofApplication_rename] using hfilter
  refine List.Perm.eq_of_pairwise ?_ (t.pairwise_list _) ?_ hperm
  · intro p q hp hq hpq hqp
    exact ht.precedes_antisymm hp (hperm.mem_iff.2 hq) hpq hqp
  · rw [Records.list, hsort]
    exact List.pairwise_mergeSort precedes_trans precedes_total _

/-- Their histories are the same. -/
theorem SameUpTo.history (entryId : Identifier) :
    t.history (ρ.entry entryId) = (r.history entryId).map (Transition.rename ρ) := by
  have hrows : t.rows (ρ.entry entryId) = (r.rows entryId).map (Transition.rename ρ) := by
    by_cases hid : entryId ∈ r.entries.map (·.entry.id)
    · obtain ⟨p, hp, rfl⟩ := List.mem_map.1 hid
      exact h.rows (hr.linked?_of_mem hp)
    · -- the other name is none of an entry either
      rw [hr.rows_eq_nil hid, ht.rows_eq_nil, List.map_nil]
      intro hmem
      obtain ⟨q, hq, hqid⟩ := List.mem_map.1 hmem
      obtain ⟨p, hp, rfl⟩ := List.mem_map.1 ((h.entries_perm hr ht).mem_iff.1 hq)
      exact hid (List.mem_map.2 ⟨p, hp, ρ.entry.injective hqid⟩)
  show listed (t.rows (ρ.entry entryId)) = (listed (r.rows entryId)).map (Transition.rename ρ)
  rw [hrows, listed_rename]

/-- Records that hold the same for every key make stores that answer alike. -/
theorem SameUpTo.agreesUpTo : AgreesUpTo ρ r.store t.store := by
  have hentries : ∀ applicationId, t.store.entries applicationId
      = (r.store.entries applicationId).map (List.map (Entry.rename ρ)) := by
    intro applicationId
    rw [entries_store ht, entries_store hr, h.list hr ht, Except.map, List.map_map, List.map_map]
    rfl
  have hcheckEntries : ∀ applicationId name, t.store.checkEntries applicationId name
      = (r.store.checkEntries applicationId name).map (List.map (Entry.rename ρ)) := by
    intro applicationId name
    have hvalue : ∀ p, t.valueWithHistory (p.rename ρ) = (r.valueWithHistory p).rename ρ := by
      intro p
      rw [valueWithHistory, show (p.rename ρ).entry.id = ρ.entry p.entry.id from rfl,
        h.history hr ht, List.map_map, valueWithHistory, Entry.rename, Option.map_some,
        List.map_map]
      rfl
    rw [checkEntries_store ht, checkEntries_store hr, h.list hr ht, List.filter_map, Except.map,
      List.map_map, List.map_map]
    exact congrArg Except.ok (List.map_congr_left fun p _ => hvalue p)
  have hbuild : ∀ entries, View.build (entries.map (Entry.rename ρ))
      = (View.build entries).map (View.rename ρ) :=
    View.build_map (fun _ => rfl) fun _ => rfl
  refine ⟨?_, hentries, hcheckEntries, ?_, ?_, ?_⟩
  · intro name
    rw [find?_store, find?_store, check?, h.checks, check?]
  · intro entryId
    rw [history_store, history_store, h.history hr ht, Except.map, List.map_map, List.map_map]
    rfl
  · intro applicationId
    rw [Store.applicationStatus, hentries, Store.applicationStatus]
    cases r.store.entries applicationId with
    | error e => rfl
    | ok entries => exact congrArg Except.ok (hbuild entries)
  · intro applicationId name
    rw [Store.checkStatus, hcheckEntries, Store.checkStatus]
    cases r.store.checkEntries applicationId name with
    | error e => rfl
    | ok entries =>
        show Except.ok (View.build (entries.map (Entry.rename ρ))).head? = _
        rw [hbuild, List.head?_map]
        rfl

end Records

end Store

end HealthWatch
