import HealthWatch.View
import Mathlib.Data.List.Induction
import Mathlib.Logic.ExistsUnique

/-! # Views — what grouping keeps

    Entries are collected one by one, and what has been collected is known at each step:
    the groups of the entries in the order in which they are first met, each with its own
    entries in their order (`Group.collect_eq`).  So the views are a partition of the
    entries (`View.stable_partition`), and the entries of all views make the same views
    again.

    A group belongs to one name, so the views of a name are the views of the entries of
    that name (`View.filter_build`); where these entries belong to one group, they make
    one view that shows all of them (`View.build_of_group`).

    A change of entries that leaves their groups and statuses alone changes the entries
    within the views and nothing else (`View.build_map`). -/

namespace HealthWatch

/-! ## First occurrences -/

section

variable {α : Type} [DecidableEq α]

/-- One more item at the end occurs for the first time unless it has occurred before. -/
theorem eraseDups_concat (xs : List α) (x : α) :
    (xs ++ [x]).eraseDups = if x ∈ xs then xs.eraseDups else xs.eraseDups ++ [x] := by
  rw [List.eraseDups_append]
  by_cases hx : x ∈ xs
  · rw [if_pos hx, show [x].removeAll xs = [] by simp [List.removeAll, hx]]
    exact List.append_nil _
  · rw [if_neg hx, show [x].removeAll xs = [x] by simp [List.removeAll, hx]]
    rfl

theorem nodup_eraseDups (xs : List α) : xs.eraseDups.Nodup := by
  induction xs using List.reverseRecOn with
  | nil => exact List.nodup_nil
  | append_singleton xs x ih =>
      rw [eraseDups_concat]
      by_cases hx : x ∈ xs
      · rwa [if_pos hx]
      · rw [if_neg hx, List.nodup_append]
        refine ⟨ih, List.pairwise_singleton _ x, fun a ha b hb => ?_⟩
        rw [List.mem_singleton.1 hb]
        exact fun hax => hx (hax ▸ List.mem_eraseDups.1 ha)

end

namespace Group

/-! ## Collecting -/

theorem collect_concat (entries : List Entry) (e : Entry) :
    collect (entries ++ [e]) = insert e (collect entries) := by
  rw [collect, List.foldl_append]
  rfl

/-- The entries of a group, in their order. -/
def members (entries : List Entry) (g : Group) : List Entry :=
  entries.filter fun e => ofEntry e = g

/-- The members of a group are its entries. -/
theorem mem_members {entries : List Entry} {g : Group} {e : Entry} :
    e ∈ members entries g ↔ e ∈ entries ∧ ofEntry e = g := by
  rw [members, List.mem_filter, decide_eq_true_iff]

/-- An entry is added at the end of its own group. -/
theorem members_concat_self (entries : List Entry) (e : Entry) :
    members (entries ++ [e]) (ofEntry e) = members entries (ofEntry e) ++ [e] := by
  simp [members, List.filter_append]

theorem members_concat_of_ne {entries : List Entry} {e : Entry} {g : Group} (h : g ≠ ofEntry e) :
    members (entries ++ [e]) g = members entries g := by
  simp [members, List.filter_append, h.symm]

/-- An entry passes over the groups that are not its own. -/
theorem insert_append_of_notMem {e : Entry} {front : List (Group × List Entry)}
    (h : ofEntry e ∉ front.map Prod.fst) (back : List (Group × List Entry)) :
    insert e (front ++ back) = front ++ insert e back := by
  induction front with
  | nil => rfl
  | cons p front ih =>
      rw [List.map_cons, List.mem_cons, not_or] at h
      rw [List.cons_append, insert, if_neg (Ne.symm h.1), ih h.2]
      rfl

theorem insert_of_notMem {e : Entry} {groups : List (Group × List Entry)}
    (h : ofEntry e ∉ groups.map Prod.fst) : insert e groups = groups ++ [(ofEntry e, [e])] := by
  have hpast := insert_append_of_notMem h []
  rwa [List.append_nil] at hpast

/-- An entry comes to the end of its group, which is a new one if there was none. -/
theorem insert_members {entries : List Entry} {e : Entry} {groups : List Group}
    (hnodup : groups.Nodup) (hmet : ofEntry e ∈ groups ∨ members entries (ofEntry e) = []) :
    insert e (groups.map fun g => (g, members entries g))
      = (if ofEntry e ∈ groups then groups else groups ++ [ofEntry e]).map
          fun g => (g, members (entries ++ [e]) g) := by
  have hothers : ∀ gs : List Group, ofEntry e ∉ gs →
      gs.map (fun g => (g, members entries g))
        = gs.map fun g => (g, members (entries ++ [e]) g) := by
    intro gs hgs
    refine List.map_congr_left fun g hg => ?_
    rw [members_concat_of_ne fun he => hgs (he ▸ hg)]
  by_cases hmem : ofEntry e ∈ groups
  · rw [if_pos hmem]
    obtain ⟨front, back, rfl⟩ := List.append_of_mem hmem
    rw [List.nodup_append, List.nodup_cons] at hnodup
    obtain ⟨-, ⟨hback, -⟩, hdisjoint⟩ := hnodup
    have hfront : ofEntry e ∉ front :=
      fun hf => hdisjoint _ hf _ List.mem_cons_self rfl
    rw [List.map_append, List.map_cons, insert_append_of_notMem (by simpa using hfront), insert,
      if_pos rfl, List.map_append, List.map_cons, hothers front hfront, hothers back hback,
      members_concat_self]
  · have hnone : members entries (ofEntry e) = [] := hmet.resolve_left hmem
    have hnew : ofEntry e ∉ (groups.map fun g => (g, members entries g)).map Prod.fst := by
      simpa using hmem
    rw [if_neg hmem, List.map_append, ← hothers groups hmem, List.map_singleton,
      members_concat_self, hnone, insert_of_notMem hnew, List.nil_append]

/-- What is collected are the groups of the entries, in the order in which they are first
    met, each with its entries. -/
theorem collect_eq (entries : List Entry) :
    collect entries
      = (entries.map ofEntry).eraseDups.map fun g => (g, members entries g) := by
  induction entries using List.reverseRecOn with
  | nil => rfl
  | append_singleton entries e ih =>
      have hmet : ofEntry e ∈ (entries.map ofEntry).eraseDups
          ∨ members entries (ofEntry e) = [] := by
        refine or_iff_not_imp_right.2 fun hsome => ?_
        obtain ⟨d, hd⟩ := List.exists_mem_of_ne_nil _ hsome
        obtain ⟨hd, hg⟩ := mem_members.1 hd
        exact List.mem_eraseDups.2 (hg ▸ List.mem_map_of_mem hd)
      rw [collect_concat, ih, insert_members (nodup_eraseDups _) hmet, List.map_append,
        List.map_singleton, eraseDups_concat]
      simp only [List.mem_eraseDups]

/-- Groups stand in the order of their first entries. -/
theorem map_fst_collect (entries : List Entry) :
    (collect entries).map Prod.fst = (entries.map ofEntry).eraseDups := by
  rw [collect_eq, List.map_map]
  exact List.map_id _

/-- No entry is lost or made. -/
theorem perm_collect (entries : List Entry) :
    ((collect entries).flatMap Prod.snd).Perm entries := by
  have hstep : ∀ (e : Entry) (groups : List (Group × List Entry)),
      ((insert e groups).flatMap Prod.snd).Perm (groups.flatMap Prod.snd ++ [e]) := by
    intro e groups
    induction groups with
    | nil => exact List.Perm.refl _
    | cons p groups ih =>
        obtain ⟨g, es⟩ := p
        rw [insert]
        split
        · rw [List.flatMap_cons, List.flatMap_cons, List.append_assoc, List.append_assoc]
          exact List.Perm.append_left es List.perm_append_comm
        · rw [List.flatMap_cons, List.flatMap_cons, List.append_assoc]
          exact List.Perm.append_left es ih
  induction entries using List.reverseRecOn with
  | nil => exact List.Perm.refl _
  | append_singleton entries e ih =>
      rw [collect_concat]
      exact (hstep e _).trans (List.Perm.append_right [e] ih)

/-- Entries of one group behind entries of others make one more group. -/
theorem collect_append_of_group {group : Group} {before entries : List Entry}
    (hbefore : ∀ e ∈ before, ofEntry e ≠ group) (h : ∀ e ∈ entries, ofEntry e = group)
    (hsome : entries ≠ []) :
    collect (before ++ entries) = collect before ++ [(group, entries)] := by
  have hnew : group ∉ (collect before).map Prod.fst := by
    rw [map_fst_collect, List.mem_eraseDups, List.mem_map]
    rintro ⟨e, he, hg⟩
    exact hbefore e he hg
  induction entries using List.reverseRecOn with
  | nil => exact absurd rfl hsome
  | append_singleton entries e ih =>
      have he : ofEntry e = group := h e (List.mem_append_right _ (List.mem_singleton.2 rfl))
      rw [← he] at hnew
      rw [← List.append_assoc, collect_concat]
      by_cases hfirst : entries = []
      · rw [hfirst, List.append_nil, insert_of_notMem hnew, he, List.nil_append]
      · rw [ih (fun d hd => h d (List.mem_append_left _ hd)) hfirst,
          insert_append_of_notMem hnew, insert, if_pos he.symm]

/-- Groups whose entries belong to them are collected from their entries. -/
theorem collect_flatMap {groups : List (Group × List Entry)} (hnodup : (groups.map Prod.fst).Nodup)
    (h : ∀ p ∈ groups, p.2 ≠ [] ∧ ∀ e ∈ p.2, ofEntry e = p.1) :
    collect (groups.flatMap Prod.snd) = groups := by
  induction groups using List.reverseRecOn with
  | nil => rfl
  | append_singleton groups p ih =>
      obtain ⟨hsome, hp⟩ := h p (List.mem_append_right _ (List.mem_singleton.2 rfl))
      rw [List.map_append, List.map_singleton, List.nodup_append] at hnodup
      obtain ⟨hnodup, -, hdisjoint⟩ := hnodup
      have hothers : ∀ q ∈ groups, q.2 ≠ [] ∧ ∀ e ∈ q.2, ofEntry e = q.1 :=
        fun q hq => h q (List.mem_append_left _ hq)
      have hbefore : ∀ e ∈ groups.flatMap Prod.snd, ofEntry e ≠ p.1 := by
        intro e he
        obtain ⟨q, hq, he⟩ := List.mem_flatMap.1 he
        rw [(hothers q hq).2 e he]
        exact hdisjoint q.1 (List.mem_map_of_mem hq) p.1 (List.mem_singleton.2 rfl)
      rw [List.flatMap_append, List.flatMap_singleton, collect_append_of_group hbefore hp hsome,
        ih hnodup hothers]

/-- Grouping the entries of groups gives the same groups. -/
theorem collect_flatMap_collect (entries : List Entry) :
    collect ((collect entries).flatMap Prod.snd) = collect entries := by
  refine collect_flatMap (map_fst_collect entries ▸ nodup_eraseDups _) fun p hp => ?_
  rw [collect_eq, List.mem_map] at hp
  obtain ⟨g, hg, rfl⟩ := hp
  obtain ⟨e, he, rfl⟩ := List.mem_map.1 (List.mem_eraseDups.1 hg)
  exact ⟨List.ne_nil_of_mem (mem_members.2 ⟨he, rfl⟩), fun d hd => (mem_members.1 hd).2⟩

/-! ## Entries of one name -/

@[simp] theorem checkName_ofEntry (e : Entry) : (ofEntry e).checkName = e.name := rfl

theorem filter_insert (name : String) (e : Entry) (groups : List (Group × List Entry)) :
    (insert e groups).filter (fun p => p.1.checkName = name)
      = if e.name = name then insert e (groups.filter fun p => p.1.checkName = name)
        else groups.filter fun p => p.1.checkName = name := by
  induction groups with
  | nil => by_cases hname : e.name = name <;> simp [insert, hname]
  | cons p r ih =>
      obtain ⟨g, es⟩ := p
      rw [insert]
      by_cases hg : g = ofEntry e
      · -- the group of the entry has its name
        subst hg
        by_cases hname : e.name = name <;> simp [insert, hname]
      · rw [if_neg hg, List.filter_cons, List.filter_cons, ih]
        by_cases hname : e.name = name
        · by_cases hkept : g.checkName = name <;> simp [insert, hname, hkept, hg]
        · simp [hname]

/-- The groups of a name are those of the entries of that name. -/
theorem filter_collect (name : String) (entries : List Entry) :
    (collect entries).filter (fun p => p.1.checkName = name)
      = collect (entries.filter fun e => e.name = name) := by
  induction entries using List.reverseRecOn with
  | nil => rfl
  | append_singleton entries e ih =>
      rw [collect_concat, filter_insert, ih, List.filter_append, List.filter_cons, List.filter_nil]
      by_cases hname : e.name = name <;> simp [hname, collect_concat]

/-- Entries of one group are collected in it. -/
theorem collect_of_group {group : Group} {entries : List Entry}
    (h : ∀ e ∈ entries, ofEntry e = group) (hsome : entries ≠ []) :
    collect entries = [(group, entries)] := by
  have hnone : ∀ e ∈ ([] : List Entry), ofEntry e ≠ group :=
    fun _ he => absurd he List.not_mem_nil
  exact collect_append_of_group hnone h hsome

/-! ## Changed entries -/

/-- Entries that keep their groups are collected in the same way. -/
theorem collect_map {f : Entry → Entry} (hf : ∀ e, ofEntry (f e) = ofEntry e)
    (entries : List Entry) :
    collect (entries.map f) = (collect entries).map fun p => (p.1, p.2.map f) := by
  have hgroups : (entries.map f).map ofEntry = entries.map ofEntry := by
    rw [List.map_map]
    exact List.map_congr_left fun e _ => hf e
  rw [collect_eq, collect_eq, hgroups, List.map_map]
  refine List.map_congr_left fun g _ => ?_
  show (g, members (entries.map f) g) = (g, (members entries g).map f)
  rw [members, List.filter_map, members]
  simp only [Function.comp_def, hf]

end Group

/-- The status of a group hangs on the statuses of its entries. -/
theorem aggregate_map {f : Entry → Entry} (hf : ∀ e, (f e).status = e.status)
    (entries : List Entry) : aggregate (entries.map f) = aggregate entries := by
  rw [aggregate, aggregate, List.all_map, List.any_map, List.isEmpty_map]
  simp only [Function.comp_def, hf]

/-- The status of some entries together. -/
theorem aggregate_eq {entries : List Entry} (h : entries ≠ []) :
    aggregate entries
      = if ∀ e ∈ entries, e.status = .healthy then .healthy
        else if ∃ e ∈ entries, e.status = .degraded then .degraded else .unhealthy := by
  rw [aggregate, List.isEmpty_eq_false_iff.2 h]
  simp only [Bool.not_false, Bool.true_and, List.all_eq_true, List.any_eq_true,
    decide_eq_true_iff]

namespace View

/-- The views of a name are those of the entries of that name. -/
theorem filter_build (name : String) (entries : List Entry) :
    (build entries).filter (fun v => v.checkName = name)
      = build (entries.filter fun e => e.name = name) := by
  rw [build, build, ← Group.filter_collect, List.filter_map]
  rfl

/-- Entries of one group make one view, which shows all of them. -/
theorem build_of_group {group : Group} {entries : List Entry}
    (h : ∀ e ∈ entries, Group.ofEntry e = group) (hsome : entries ≠ []) :
    build entries = [ofGroup group entries] := by
  rw [build, Group.collect_of_group h hsome]
  rfl

/-- A view with each of its entries changed. -/
def mapChecks (f : Entry → Entry) (v : View) : View :=
  { v with checks := v.checks.map f }

/-- Entries that keep their groups and statuses are shown in the same views. -/
theorem build_map {f : Entry → Entry} (hgroup : ∀ e, Group.ofEntry (f e) = Group.ofEntry e)
    (hstatus : ∀ e, (f e).status = e.status) (entries : List Entry) :
    build (entries.map f) = (build entries).map (mapChecks f) := by
  rw [build, Group.collect_map hgroup, List.map_map, build, List.map_map]
  refine List.map_congr_left ?_
  intro p _
  show ofGroup p.1 (p.2.map f) = mapChecks f (ofGroup p.1 p.2)
  rw [ofGroup, aggregate_map hstatus]
  rfl

/-! ## The partition -/

/-- There is one view for each group, in the order of their first entries. -/
theorem build_eq (entries : List Entry) :
    build entries = (entries.map Group.ofEntry).eraseDups.map
      fun g => ofGroup g (Group.members entries g) := by
  rw [build, Group.collect_eq, List.map_map]
  rfl

/-- A view shows a group that some entry belongs to, with all entries of the group. -/
theorem mem_build {entries : List Entry} {v : View} :
    v ∈ build entries
      ↔ (∃ e ∈ entries, Group.ofEntry e = v.group)
        ∧ v = ofGroup v.group (Group.members entries v.group) := by
  rw [build_eq, List.mem_map]
  constructor
  · rintro ⟨g, hg, rfl⟩
    exact ⟨List.mem_map.1 (List.mem_eraseDups.1 hg), rfl⟩
  · rintro ⟨hg, hv⟩
    exact ⟨v.group, List.mem_eraseDups.2 (List.mem_map.2 hg), hv.symm⟩

/-- A view shows all the entries of its group. -/
theorem checks_of_mem_build {entries : List Entry} {v : View} (h : v ∈ build entries) :
    v.checks = Group.members entries v.group :=
  congrArg checks (mem_build.1 h).2

/-- No view is empty. -/
theorem checks_ne_nil_of_mem_build {entries : List Entry} {v : View} (h : v ∈ build entries) :
    v.checks ≠ [] := by
  obtain ⟨e, he, hg⟩ := (mem_build.1 h).1
  rw [checks_of_mem_build h]
  exact List.ne_nil_of_mem (Group.mem_members.2 ⟨he, hg⟩)

/-- A view shows entries of its own group only. -/
theorem ofEntry_of_mem_checks {entries : List Entry} {v : View} (h : v ∈ build entries)
    {e : Entry} (he : e ∈ v.checks) : Group.ofEntry e = v.group := by
  rw [checks_of_mem_build h] at he
  exact (Group.mem_members.1 he).2

/-- Each group has one view. -/
theorem map_group_build (entries : List Entry) :
    (build entries).map group = (entries.map Group.ofEntry).eraseDups := by
  rw [build_eq, List.map_map]
  exact List.map_id _

/-- The views show the entries of the groups, in order. -/
theorem flatMap_checks_build (entries : List Entry) :
    (build entries).flatMap checks = (Group.collect entries).flatMap Prod.snd := by
  rw [build, List.flatMap_map]
  rfl

/-- The views partition the entries: by group, in the order in which the groups are first met,
    and within a view in the order of the entries. -/
structure Partition (entries : List Entry) (views : List View) : Prop where
  group_eq : ∀ v ∈ views, ∀ e ∈ v.checks, v.firstLevel = e.tags.headD ""
    ∧ v.secondLevel = e.tags.getLastD "" ∧ v.checkName = e.name
  groups_eq : views.map group = (entries.map Group.ofEntry).eraseDups
  groups_nodup : (views.map group).Nodup
  checks_eq : ∀ v ∈ views, v.checks = entries.filter fun e => Group.ofEntry e = v.group
  checks_ne : ∀ v ∈ views, v.checks ≠ []
  existsUnique : ∀ e ∈ entries, ∃! v, v ∈ views ∧ e ∈ v.checks
  count_eq : ∀ v ∈ views, ∀ e ∈ v.checks, v.checks.count e = entries.count e
  perm : (views.flatMap checks).Perm entries
  status_eq : ∀ v ∈ views, v.status =
    if ∀ e ∈ v.checks, e.status = .healthy then .healthy
    else if ∃ e ∈ v.checks, e.status = .degraded then .degraded else .unhealthy

/-- The views of any entries partition them, and the entries of all views together make the
    same views. -/
theorem stable_partition (entries : List Entry) :
    Partition entries (build entries)
      ∧ build ((build entries).flatMap checks) = build entries := by
  refine ⟨?_, ?_⟩
  · constructor
    case group_eq =>
      intro v hv e he
      obtain ⟨hfirst, hsecond, hname⟩ := Group.mk.inj (ofEntry_of_mem_checks hv he)
      exact ⟨hfirst.symm, hsecond.symm, hname.symm⟩
    case groups_eq => exact map_group_build entries
    case groups_nodup => exact map_group_build entries ▸ nodup_eraseDups _
    case checks_eq => exact fun v hv => checks_of_mem_build hv
    case checks_ne => exact fun v hv => checks_ne_nil_of_mem_build hv
    case existsUnique =>
      intro e he
      let v := ofGroup (Group.ofEntry e) (Group.members entries (Group.ofEntry e))
      refine ⟨v, ⟨mem_build.2 ⟨⟨e, he, rfl⟩, rfl⟩, Group.mem_members.2 ⟨he, rfl⟩⟩, ?_⟩
      rintro u ⟨hu, heu⟩
      rw [(mem_build.1 hu).2, ← ofEntry_of_mem_checks hu heu]
    case count_eq =>
      intro v hv e he
      rw [checks_of_mem_build hv, Group.members]
      exact List.count_filter (decide_eq_true (ofEntry_of_mem_checks hv he))
    case perm =>
      rw [flatMap_checks_build]
      exact Group.perm_collect entries
    case status_eq =>
      intro v hv
      have hstatus : v.status = aggregate v.checks := by
        rw [checks_of_mem_build hv]
        exact congrArg status (mem_build.1 hv).2
      rw [hstatus, aggregate_eq (checks_ne_nil_of_mem_build hv)]
  · rw [flatMap_checks_build, build, Group.collect_flatMap_collect]
    rfl

end View

end HealthWatch
