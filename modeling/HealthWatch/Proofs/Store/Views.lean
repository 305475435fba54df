import HealthWatch.Proofs.Store.Refinement
import HealthWatch.Proofs.Store.Session
import HealthWatch.Proofs.View

/-! # Two kinds of views — an application and one of its checks

    The view of a check is the first one of those that its entries make.  It is the only
    one, for all entries of a name belong to one definition and so to one group; and it
    is the view of that name among those of the application, apart from the histories
    that its entries carry (`views_agree`). -/

namespace HealthWatch

/-- An entry with its history. -/
def Entry.withHistory (histories : Identifier → List Transition) (e : Entry) : Entry :=
  { e with history := some (histories e.id) }

namespace Store

namespace Records

variable {r : Records}

/-- All entries of a name belong to one group. -/
theorem Sound.ofEntry_value (h : r.Sound) {p q : Linked} (hp : p ∈ r.entries)
    (hq : q ∈ r.entries) (hname : p.entry.name = q.entry.name) :
    Group.ofEntry p.value = Group.ofEntry q.value := by
  have hdefinition : p.definition = q.definition := by
    have hpq := h.check?_of_entry hp
    rw [hname, h.check?_of_entry hq] at hpq
    exact (Option.some.inj hpq).symm
  show Group.mk (p.definition.tags.headD "") (p.definition.tags.getLastD "") p.entry.name
    = Group.mk (q.definition.tags.headD "") (q.definition.tags.getLastD "") q.entry.name
  rw [hdefinition, hname]

/-- The views of an application are built of its recorded entries. -/
theorem applicationStatus_store (h : r.Sound) (applicationId : Identifier) :
    r.store.applicationStatus applicationId
      = .ok (View.build ((r.list (ofApplication applicationId)).map Linked.value)) := by
  rw [Store.applicationStatus, entries_store h]
  rfl

/-- The histories as they are read. -/
def histories (r : Records) (entryId : Identifier) : List Transition :=
  (r.history entryId).map Transition.kept

/-- The view of a check is the first one of its name, with histories. -/
theorem checkStatus_store (h : r.Sound) (applicationId : Identifier) (name : String) :
    r.store.checkStatus applicationId name
      = .ok (((View.build ((r.list (ofApplication applicationId)).map Linked.value)).filter
          fun v => v.checkName = name).head?.map (View.mapChecks (.withHistory r.histories))) := by
  have hmap := View.build_map (f := Entry.withHistory r.histories) (fun _ => rfl) (fun _ => rfl)
    (((r.list (ofApplication applicationId)).map Linked.value).filter fun e => e.name = name)
  rw [List.filter_map, List.map_map] at hmap
  rw [Store.checkStatus, checkEntries_store h, View.filter_build, ← List.head?_map, List.filter_map,
    ← hmap]
  rfl

/-- At most one view of an application has a name, and it shows all entries of the name. -/
theorem Sound.views_of_name (h : r.Sound) (applicationId : Identifier) (name : String) :
    let listing := (r.list (ofApplication applicationId)).map Linked.value
    let named := listing.filter fun e => e.name = name
    (named = [] ∧ (View.build listing).filter (fun v => v.checkName = name) = [])
      ∨ ∃ group, (View.build listing).filter (fun v => v.checkName = name)
          = [.ofGroup group named] := by
  intro listing named
  rw [View.filter_build]
  by_cases hnone : named = []
  · refine Or.inl ⟨hnone, ?_⟩
    rw [show (listing.filter fun e => e.name = name) = [] from hnone]
    rfl
  · -- the group of one entry of the name is that of all
    have hmem : ∀ e ∈ named, ∃ p ∈ r.entries, p.value = e ∧ p.entry.name = name := by
      intro e he
      obtain ⟨hlisted, hname⟩ := List.mem_filter.1 he
      obtain ⟨p, hp, rfl⟩ := List.mem_map.1 hlisted
      exact ⟨p, (mem_list.1 hp).1, rfl, of_decide_eq_true hname⟩
    obtain ⟨e, he⟩ := List.exists_mem_of_ne_nil _ hnone
    obtain ⟨p, hp, rfl, hpn⟩ := hmem e he
    refine Or.inr ⟨Group.ofEntry p.value, View.build_of_group ?_ hnone⟩
    intro d hd
    obtain ⟨q, hq, rfl, hqn⟩ := hmem d hd
    exact h.ofEntry_value hq hp (hqn.trans hpn.symm)

end Records

/-- In a reached store the view of a check is there exactly when the views of its
    application show its name.  They show it once, with the same levels, status and
    entries, in the same order; only the histories of the entries are missing there.  So
    the view of a check shows all its entries.  Behind a poisoned lock there are no views. -/
theorem views_agree {s : Store} (hs : Reached s) (applicationId : Identifier) (name : String) :
    (s.poisoned = true ∧ s.applicationStatus applicationId = .error .lockPoisoned
        ∧ s.checkStatus applicationId name = .error .lockPoisoned)
      ∨ ∃ views found histories, s.applicationStatus applicationId = .ok views
        ∧ s.checkStatus applicationId name = .ok found
        ∧ (∀ entryId, s.history entryId = .ok (histories entryId))
        ∧ (found = none ↔ ∀ v ∈ views, v.checkName ≠ name)
        ∧ (∀ w, found = some w → ∃ v, (views.filter fun u => u.checkName = name) = [v]
            ∧ w = v.mapChecks (Entry.withHistory histories)
            ∧ ∀ e ∈ v.checks, e.history = none)
        ∧ s.checkEntries applicationId name = .ok ((found.map View.checks).getD []) := by
  obtain ⟨r, given, log, ht, hsound, -⟩ := hs.exists_records
  cases hlock : s.poisoned with
  | true =>
      exact Or.inl ⟨rfl, applicationStatus_poisoned hlock _, checkStatus_poisoned hlock _ _⟩
  | false =>
      have heq := eq_store ht hlock
      subst heq
      have hentries : r.store.checkEntries applicationId name
          = .ok ((((r.list (Records.ofApplication applicationId)).map Linked.value).filter
              fun e => e.name = name).map (Entry.withHistory r.histories)) := by
        rw [Records.checkEntries_store hsound, List.filter_map, List.map_map]
        rfl
      refine Or.inr ⟨_, _, r.histories, Records.applicationStatus_store hsound applicationId,
        Records.checkStatus_store hsound applicationId name, history_store r, ?_, ?_⟩
      · rw [Option.map_eq_none_iff, List.head?_eq_none_iff, List.filter_eq_nil_iff]
        simp only [decide_eq_true_eq, ne_eq]
      · rw [hentries]
        rcases hsound.views_of_name applicationId name with ⟨hnone, hviews⟩ | ⟨group, hviews⟩
        · rw [hviews, hnone]
          exact ⟨fun w hw => (nomatch hw), rfl⟩
        · rw [hviews]
          refine ⟨?_, rfl⟩
          intro w hw
          refine ⟨_, rfl, (Option.some.inj hw).symm, ?_⟩
          intro e he
          obtain ⟨p, -, rfl⟩ := List.mem_map.1 (List.mem_filter.1 he).1
          rfl

namespace Sample

/-- The names of views with the servers of their entries. -/
def shown (views : List View) : List (String × List String) :=
  views.map fun v => (v.checkName, v.checks.map Entry.serverName)

theorem shown_session :
    ((empty.served session).applicationStatus (.ofNat 7)).toOption.map shown
      = some [("disk", ["web"])] := by
  decide +kernel

end Sample

/-- After a first report the view of its check is that of its application, with its
    history. -/
theorem views_agree_after_first_report :
    ∃ views v histories, (empty.served Sample.session).applicationStatus (.ofNat 7) = .ok views
      ∧ Sample.shown views = [("disk", ["web"])]
      ∧ (views.filter fun u => u.checkName = "disk") = [v]
      ∧ (empty.served Sample.session).checkStatus (.ofNat 7) "disk"
        = .ok (some (v.mapChecks (.withHistory histories))) := by
  rcases views_agree (s := empty.served Sample.session) ⟨_, rfl⟩ (.ofNat 7) "disk" with
    ⟨hlock, -⟩ | ⟨views, found, histories, hviews, hfound, -, hnone, hsome, -⟩
  · exact absurd hlock (by decide +kernel)
  · have hshown := Sample.shown_session
    rw [hviews] at hshown
    have hshown : Sample.shown views = _ := Option.some.inj hshown
    cases found with
    | none =>
        -- one of the views has the name
        have hmem : ("disk", ["web"]) ∈ Sample.shown views := by
          rw [hshown]
          exact List.mem_cons_self ..
        obtain ⟨v, hv, hvn⟩ := List.mem_map.1 hmem
        exact absurd (congrArg Prod.fst hvn) (hnone.1 rfl v hv)
    | some w =>
        obtain ⟨v, hv, rfl, -⟩ := hsome w rfl
        exact ⟨views, v, histories, hviews, hshown, hv, hfound⟩

end Store

end HealthWatch
