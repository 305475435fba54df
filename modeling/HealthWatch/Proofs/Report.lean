import HealthWatch.Report
import Mathlib.Data.List.Induction
import Mathlib.Data.String.Basic

/-! # Reports — what a list of results leaves

    A report keeps one result for each name of a list of results, the last one, and
    lists the names by ascending order.

    * `mem_names_insert` and `lookup_insert` say what one more result changes;
    * `mem_names_ofList`, `pairwise_names_ofList` and `lookup_ofList` say what the
      report of a list holds, and `ofList_congr` that it hangs on nothing else;
    * `isWorst_status_ofList` says what its status is. -/

namespace HealthWatch

/-! ## The most severe of several statuses -/

namespace Status

/-- No status among some is more severe than this one, which is one of them; healthy when
    there are none. -/
structure IsWorst (among : Status → Prop) (s : Status) : Prop where
  bound : ∀ t, among t → t.severity ≤ s.severity
  attained : among s ∨ (∀ t, ¬ among t) ∧ s = .healthy

/-- The worse of two statuses has the greater severity. -/
theorem severity_worse (s t : Status) : (s.worse t).severity = max s.severity t.severity := by
  cases s <;> cases t <;> rfl

theorem worse_eq_or_eq (s t : Status) : s.worse t = s ∨ s.worse t = t := by
  rw [worse]
  split
  · exact Or.inr rfl
  · exact Or.inl rfl

theorem isWorst_foldl (s : Status) (statuses : List Status) :
    IsWorst (· ∈ s :: statuses) (statuses.foldl worse s) := by
  induction statuses generalizing s with
  | nil =>
      refine ⟨fun t ht => ?_, Or.inl List.mem_cons_self⟩
      rw [List.mem_singleton.1 ht]
      exact Nat.le_refl _
  | cons t rest ih =>
      have hrest := ih (s.worse t)
      have hworse := hrest.bound _ List.mem_cons_self
      rw [severity_worse] at hworse
      rw [List.foldl_cons]
      constructor
      · intro u hu
        rcases List.mem_cons.1 hu with rfl | hu
        · omega
        · rcases List.mem_cons.1 hu with rfl | hu
          · omega
          · exact hrest.bound u (List.mem_cons_of_mem _ hu)
      · rcases hrest.attained with h | ⟨h, -⟩
        · rcases List.mem_cons.1 h with h | h
          · rw [h]
            rcases worse_eq_or_eq s t with he | he <;> simp [he]
          · exact Or.inl (List.mem_cons_of_mem _ (List.mem_cons_of_mem _ h))
        · exact absurd List.mem_cons_self (h (s.worse t))

/-- The worst of some statuses is among them, and none of them is worse. -/
theorem isWorst_worst? (statuses : List Status) :
    IsWorst (· ∈ statuses) ((worst? statuses).getD .healthy) := by
  cases statuses with
  | nil => exact ⟨fun t ht => (nomatch ht), Or.inr ⟨fun t ht => (nomatch ht), rfl⟩⟩
  | cons s rest => exact isWorst_foldl s rest

theorem IsWorst.congr {among others : Status → Prop} {s : Status} (h : IsWorst among s)
    (hiff : ∀ t, among t ↔ others t) : IsWorst others s :=
  (funext fun t => propext (hiff t) : among = others) ▸ h

/-- One unhealthy status makes all of it unhealthy. -/
theorem IsWorst.eq_unhealthy_iff {among : Status → Prop} {s : Status} (h : IsWorst among s) :
    s = .unhealthy ↔ among .unhealthy := by
  constructor
  · rintro rfl
    rcases h.attained with hmem | ⟨-, hs⟩
    · exact hmem
    · cases hs
  · intro hmem
    have hbound := h.bound _ hmem
    cases s with
    | unhealthy => rfl
    | degraded => exact absurd hbound (by decide)
    | healthy => exact absurd hbound (by decide)

end Status

namespace Report

/-! ## One value in a list by ascending name -/

section Put

variable {α : Type} (name : String) (value : α)

theorem lookup_cons_eq (l : List (String × α)) (key : String) :
    ((name, value) :: l).lookup key = if key = name then some value else l.lookup key := by
  rw [List.lookup_cons]
  by_cases h : key = name
  · rw [if_pos h, h, beq_self_eq_true]
  · rw [if_neg h, beq_false_of_ne h]

theorem lookup_put (l : List (String × α)) (key : String) :
    (put name value l).lookup key = if key = name then some value else l.lookup key := by
  induction l with
  | nil => exact lookup_cons_eq name value [] key
  | cons p l ih =>
      obtain ⟨n, v⟩ := p
      rw [put]
      split
      · exact lookup_cons_eq name value ((n, v) :: l) key
      · split
        · next he =>
            subst he
            rw [lookup_cons_eq, lookup_cons_eq]
            by_cases h : key = name <;> simp only [h, if_true, if_false]
        · next hne =>
            rw [lookup_cons_eq, lookup_cons_eq, ih]
            by_cases h : key = name
            · -- the head has another name
              rw [if_pos h, if_pos h, if_neg (h ▸ hne)]
            · rw [if_neg h, if_neg h]

theorem mem_names_put {l : List (String × α)} {n : String} :
    n ∈ (put name value l).map Prod.fst ↔ n = name ∨ n ∈ l.map Prod.fst := by
  induction l with
  | nil => exact List.mem_cons
  | cons p l ih =>
      rw [put]
      split
      · exact List.mem_cons
      · split
        · next he => rw [List.map_cons, List.map_cons, List.mem_cons, List.mem_cons, ← he]; tauto
        · rw [List.map_cons, List.mem_cons, ih, List.map_cons, List.mem_cons]; tauto

theorem pairwise_put {l : List (String × α)} (h : (l.map Prod.fst).Pairwise (· < ·)) :
    ((put name value l).map Prod.fst).Pairwise (· < ·) := by
  induction l with
  | nil => exact List.pairwise_singleton _ _
  | cons p l ih =>
      obtain ⟨hp, hl⟩ := List.pairwise_cons.1 h
      rw [put]
      split
      · next hlt =>
          refine List.pairwise_cons.2 ⟨fun n hn => ?_, h⟩
          rcases List.mem_cons.1 hn with rfl | hn
          · exact hlt
          · exact hlt.trans (hp n hn)
      · split
        · next he => exact he ▸ h
        · next hnlt hne =>
            refine List.pairwise_cons.2 ⟨fun n hn => ?_, ih hl⟩
            rcases (mem_names_put name value).1 hn with rfl | hn
            · exact lt_of_le_of_ne (not_lt.1 hnlt) (Ne.symm hne)
            · exact hp n hn

end Put

/-! ## One more result -/

/-- A result is put under its own name. -/
theorem lookup_insert (name : String) (result : ProbeResult) (r : Report) (key : String) :
    (r.insert name result).entries.lookup key
      = if key = name then some result else r.entries.lookup key :=
  lookup_put name result r.entries key

theorem mem_names_insert (name : String) (result : ProbeResult) (r : Report) {n : String} :
    n ∈ (r.insert name result).names ↔ n = name ∨ n ∈ r.names :=
  mem_names_put name result

theorem pairwise_names_insert {r : Report} (h : r.names.Pairwise (· < ·)) (name : String)
    (result : ProbeResult) : (r.insert name result).names.Pairwise (· < ·) :=
  pairwise_put name result h

/-! ## The report of a list -/

/-- The last result is inserted last. -/
theorem ofList_append (results : List (String × ProbeResult)) (x : String × ProbeResult)
    (d : Duration) : ofList (results ++ [x]) d = (ofList results d).insert x.1 x.2 := by
  rw [ofList, List.foldl_append]
  rfl

/-- The duration may be set when the results are in. -/
theorem foldl_insert_eq_ofList (results : List (String × ProbeResult)) (d : Duration) :
    { results.foldl (fun (r : Report) x => r.insert x.1 x.2) {} with duration := d } = ofList results d := by
  induction results using List.reverseRecOn with
  | nil => rfl
  | append_singleton results x ih =>
      rw [ofList_append, ← ih, List.foldl_append]
      rfl

/-- A report keeps the last result of a name. -/
theorem lookup_ofList (results : List (String × ProbeResult)) (d : Duration) (name : String) :
    (ofList results d).entries.lookup name
      = (results.reverse.find? fun x => x.1 = name).map Prod.snd := by
  induction results using List.reverseRecOn with
  | nil => rfl
  | append_singleton results x ih =>
      rw [ofList_append, lookup_insert, ih, List.reverse_append, List.reverse_singleton,
        List.singleton_append, List.find?_cons]
      by_cases h : x.1 = name
      · simp [h]
      · simp [h, Ne.symm h]

/-- A report has the names of its results. -/
theorem mem_names_ofList (results : List (String × ProbeResult)) (d : Duration) {n : String} :
    n ∈ (ofList results d).names ↔ n ∈ results.map Prod.fst := by
  induction results using List.reverseRecOn with
  | nil => exact Iff.rfl
  | append_singleton results x ih =>
      rw [ofList_append, mem_names_insert, ih, List.map_append, List.mem_append, or_comm]
      simp

/-- They are in order, each of them once. -/
theorem pairwise_names_ofList (results : List (String × ProbeResult)) (d : Duration) :
    (ofList results d).names.Pairwise (· < ·) := by
  induction results using List.reverseRecOn with
  | nil => exact List.Pairwise.nil
  | append_singleton results x ih =>
      rw [ofList_append]
      exact pairwise_names_insert ih x.1 x.2

/-- The result that counts under a name: the last one. -/
def last? (results : List (String × ProbeResult)) (name : String) : Option ProbeResult :=
  (results.reverse.find? fun x => x.1 = name).map Prod.snd

/-- Results under other names make no difference to the one that counts. -/
theorem last?_filter (results : List (String × ProbeResult)) (name : String) :
    last? (results.filter fun x => x.1 = name) name = last? results name := by
  rw [last?, last?, ← List.filter_reverse, List.find?_filter]
  simp

section Sorted

variable {α : Type} {l m : List (String × α)}

/-- Under names in order, a look-up finds what is there. -/
theorem lookup_eq_some_iff_mem (h : (l.map Prod.fst).Pairwise (· < ·)) {name : String} {value : α} :
    l.lookup name = some value ↔ (name, value) ∈ l := by
  induction l with
  | nil => exact iff_of_false (fun h => nomatch h) fun h => nomatch h
  | cons p l ih =>
      obtain ⟨n, v⟩ := p
      obtain ⟨hfirst, hrest⟩ := List.pairwise_cons.1 h
      rw [lookup_cons_eq, List.mem_cons, Prod.mk.injEq]
      by_cases hname : name = n
      · -- the name of the head comes nowhere else
        subst hname
        have hother : (name, value) ∉ l := fun hmem =>
          lt_irrefl name (hfirst name (List.mem_map_of_mem (f := Prod.fst) hmem))
        rw [if_pos rfl, Option.some.injEq, eq_comm]
        simp [hother]
      · rw [if_neg hname, ih hrest]
        simp [hname]

/-- By ascending names, there is one list for what is found under the names. -/
theorem eq_of_lookup_eq (hl : (l.map Prod.fst).Pairwise (· < ·))
    (hm : (m.map Prod.fst).Pairwise (· < ·)) (h : ∀ name, l.lookup name = m.lookup name) : l = m := by
  have hmem : ∀ p, p ∈ l ↔ p ∈ m := fun p => by
    rw [← lookup_eq_some_iff_mem hl, h, lookup_eq_some_iff_mem hm]
  have hl' := List.pairwise_map.1 hl
  have hm' := List.pairwise_map.1 hm
  have hperm : l.Perm m := (List.perm_ext_iff_of_nodup
    (hl'.imp fun h he => absurd (he ▸ h) (lt_irrefl _))
    (hm'.imp fun h he => absurd (he ▸ h) (lt_irrefl _))).2 hmem
  exact hperm.eq_of_pairwise (fun a b _ _ hab hba => absurd (hab.trans hba) (lt_irrefl _)) hl' hm'

end Sorted

/-- A report hangs on the results that count and on nothing else. -/
theorem ofList_congr {results others : List (String × ProbeResult)}
    (h : ∀ name, last? results name = last? others name) (d : Duration) :
    ofList results d = ofList others d := by
  have hentries : (ofList results d).entries = (ofList others d).entries :=
    eq_of_lookup_eq (pairwise_names_ofList results d) (pairwise_names_ofList others d) fun name =>
      (lookup_ofList results d name).trans ((h name).trans (lookup_ofList others d name).symm)
  have hduration : ∀ l : List (String × ProbeResult), (ofList l d).duration = d := fun l =>
    congrArg Report.duration (foldl_insert_eq_ofList l d).symm
  show (⟨(ofList results d).entries, (ofList results d).duration⟩ : Report)
    = ⟨(ofList others d).entries, (ofList others d).duration⟩
  rw [hentries, hduration, hduration]

/-- The entries of a report are the results that count. -/
theorem mem_entries_ofList {results : List (String × ProbeResult)} {d : Duration} {name : String}
    {result : ProbeResult} :
    (name, result) ∈ (ofList results d).entries ↔ last? results name = some result := by
  rw [← lookup_eq_some_iff_mem (pairwise_names_ofList results d), lookup_ofList]
  rfl

/-- The status of the report of a list is the most severe one among the results that count. -/
theorem isWorst_status_ofList (results : List (String × ProbeResult)) (d : Duration) :
    Status.IsWorst (fun s => ∃ name r, last? results name = some r ∧ r.status = s)
      (ofList results d).status := by
  refine (Status.isWorst_worst? _).congr fun s => ?_
  constructor
  · intro hs
    obtain ⟨⟨name, r⟩, hmem, rfl⟩ := List.mem_map.1 hs
    exact ⟨name, r, mem_entries_ofList.1 hmem, rfl⟩
  · rintro ⟨name, r, hr, rfl⟩
    exact List.mem_map_of_mem (f := fun e : String × ProbeResult => e.2.status)
      (mem_entries_ofList.2 hr)

end Report

end HealthWatch
