import HealthWatch.Proofs.Interleaving
import HealthWatch.Proofs.Store.Renaming

/-! # Commutation — reports of different keys in any order

    Several clients report, each for keys of its own.  Whatever the turns are in which
    their reports come in, every key gets the reports of one client in the order of this
    client.  So the stores after two such runs answer all reads alike, and each report has
    the same outcome in both, up to the names of the identifiers that were generated
    (`different_keys_commute`). -/

namespace HealthWatch

/-- Nothing that is stored gets another name. -/
structure Renaming.Keeps (ρ : Renaming) (s : Store) : Prop where
  entry : ∀ i : Identifier, i.toText ∈ s.tables.entries.map Store.EntryRow.id → ρ.entry i = i
  transition : ∀ i : Identifier, i.toText ∈ s.tables.transitions.map Store.TransitionRow.id →
    ρ.transition i = i

namespace Store

/-- The identifiers that are generated for deliveries are neither stored nor used
    twice. -/
structure Generated (s : Store) (ds : List Delivery) : Prop where
  entryIds : (s.tables.entries.map EntryRow.id ++ ds.map (·.entryId.toText)).Nodup
  transitionIds :
    (s.tables.transitions.map TransitionRow.id ++ ds.map (·.transitionId.toText)).Nodup

/-! ## Deliveries under other names -/

theorem map_rename_eq {ρ : Renaming} {ds ds' : List Delivery}
    (harrival : ds.map Delivery.arrival = ds'.map Delivery.arrival)
    (hentry : (ds.map Delivery.entryId).map ρ.entry = ds'.map Delivery.entryId)
    (htransition : (ds.map Delivery.transitionId).map ρ.transition
      = ds'.map Delivery.transitionId) : ds' = ds.map (Delivery.rename ρ) := by
  induction ds generalizing ds' with
  | nil => exact List.map_eq_nil_iff.1 harrival.symm
  | cons d ds ih =>
      cases ds' with
      | nil => exact nomatch harrival
      | cons d' ds' =>
          obtain ⟨ha, has⟩ := List.cons.inj harrival
          obtain ⟨he, hes⟩ := List.cons.inj hentry
          obtain ⟨ht, hts⟩ := List.cons.inj htransition
          rw [List.map_cons, ← ih has hes hts]
          refine congrArg (· :: ds') ?_
          rw [Delivery.rename, he, ht, show d.report = d'.report from congrArg Prod.fst ha,
            show d.now = d'.now from congrArg Prod.snd ha]

theorem map_eq_self_of_append {α : Type} {f : α → α} {l xs ys : List α}
    (h : (l ++ xs).map f = l ++ ys) : (∀ a ∈ l, f a = a) ∧ xs.map f = ys := by
  rw [List.map_append] at h
  obtain ⟨hl, hxs⟩ := List.append_inj h (List.length_map ..)
  exact ⟨List.map_inj_left.1 (hl.trans (List.map_id l).symm), hxs⟩

namespace Records

variable {r : Records} {ds ds' : List Delivery}

/-- Generated identifiers are not used by the records. -/
theorem unused_of_generated {s : Store} (ht : s.tables = r.tables) (h : s.Generated ds) :
    r.Unused ds := by
  have hinj : Function.Injective Identifier.toText := fun _ _ => Identifier.toText_inj.1
  obtain ⟨hentry, htransition⟩ := h
  rw [ht] at hentry htransition
  constructor
  · rw [← List.nodup_map_iff hinj, List.map_append, List.map_map, List.map_map]
    rw [tables, List.map_map] at hentry
    exact hentry
  · rw [← List.nodup_map_iff hinj, List.map_append, List.map_map, List.map_map]
    rw [tables, List.map_map] at htransition
    exact htransition

/-- In which order identifiers are used does not matter. -/
theorem Unused.perm (h : r.Unused ds) (hperm : ds.Perm ds') : r.Unused ds' where
  entryIds := ((hperm.map _).append_left _).nodup_iff.1 h.entryIds
  transitionIds := ((hperm.map _).append_left _).nodup_iff.1 h.transitionIds

/-- The same reports with other generated identifiers are the reports under other
    names, and nothing that is stored is renamed. -/
theorem exists_renaming (hu : r.Unused ds) (hu' : r.Unused ds')
    (harrival : ds.map Delivery.arrival = ds'.map Delivery.arrival) :
    ∃ ρ : Renaming, (∀ i ∈ r.entries.map (·.entry.id), ρ.entry i = i)
      ∧ (∀ i ∈ r.transitions.map Transition.id, ρ.transition i = i)
      ∧ ds' = ds.map (Delivery.rename ρ) := by
  have hlength : ds.length = ds'.length := by simpa using congrArg List.length harrival
  obtain ⟨σ, hσ⟩ := exists_perm_map_eq (by simp [hlength]) hu.entryIds hu'.entryIds
  obtain ⟨τ, hτ⟩ := exists_perm_map_eq (by simp [hlength]) hu.transitionIds hu'.transitionIds
  obtain ⟨hentry, hentries⟩ := map_eq_self_of_append hσ
  obtain ⟨htransition, htransitions⟩ := map_eq_self_of_append hτ
  exact ⟨⟨σ, τ⟩, hentry, htransition, map_rename_eq harrival hentries htransitions⟩

/-- What is held keeps its names. -/
theorem held_rename (hs : r.Sound) {ρ : Renaming}
    (hentry : ∀ i ∈ r.entries.map (·.entry.id), ρ.entry i = i)
    (htransition : ∀ i ∈ r.transitions.map Transition.id, ρ.transition i = i) (k : Key) :
    (r.held k).rename ρ = r.held k := by
  cases hp : r.linked? k with
  | none =>
      rw [held_eq_none hp]
      rfl
  | some p =>
      have hpm := (linked?_eq_some hp).1
      have hrows : (r.rows p.entry.id).map (Transition.rename ρ) = r.rows p.entry.id := by
        refine (List.map_congr_left ?_).trans (List.map_id _)
        intro x hx
        obtain ⟨hxm, -⟩ := List.mem_filter.1 hx
        obtain ⟨q, hq, hqx⟩ := hs.owned x hxm
        have howner : ρ.entry x.entryId = x.entryId := hqx ▸ hentry _ (List.mem_map_of_mem hq)
        rw [Transition.rename, htransition x.id (List.mem_map_of_mem hxm), howner]
        rfl
      rw [held_eq_some hp]
      show some (p.rename ρ, (r.rows p.entry.id).map (Transition.rename ρ)) = _
      rw [hrows, Linked.rename, hentry _ (List.mem_map_of_mem hpm)]

/-- Runs in which every key gets the same reports, under other names, leave stores that
    answer alike. -/
theorem agreesUpTo_of_filter (hs : r.Sound) (hu : r.Unused ds) (hu' : r.Unused ds')
    {ρ : Renaming} (hheld : ∀ k, (r.held k).rename ρ = r.held k)
    (hkeys : ∀ k, ds'.filter (fun d => d.key = k)
      = (ds.filter fun d => d.key = k).map (Delivery.rename ρ)) :
    AgreesUpTo ρ (r.store.deliveries ds) (r.store.deliveries ds')
      ∧ ∀ k, r.store.answers k ds'
        = (r.store.answers k ds).map (Except.map (Outcome.rename ρ)) := by
  obtain ⟨r₁, hrun₁, hs₁, hchecks₁, hkeys₁⟩ := run_store_held hs hu
  obtain ⟨r₂, hrun₂, hs₂, hchecks₂, hkeys₂⟩ := run_store_held hs hu'
  -- the two machines of a key differ by the names only
  have hmachine : ∀ k, (r.store.answers k ds', r₂.held k)
      = ((r.store.answers k ds).map (Except.map (Outcome.rename ρ)), (r₁.held k).rename ρ) := by
    intro k
    have hk := deliverAll_rename ρ (r.check? k.name) (r.held k) (ds.filter fun d => d.key = k)
    rw [hheld, ← hkeys k, ← hkeys₁ k, ← hkeys₂ k] at hk
    exact hk
  have hsame : SameUpTo ρ r₁ r₂ :=
    ⟨hchecks₂.trans hchecks₁.symm, fun k => congrArg Prod.snd (hmachine k)⟩
  rw [hrun₁, hrun₂]
  exact ⟨hsame.agreesUpTo hs₁ hs₂, fun k => congrArg Prod.fst (hmachine k)⟩

end Records

/-! ## Behind a poisoned lock -/

/-- Behind a poisoned lock no delivery changes anything. -/
theorem deliveries_poisoned {s : Store} (h : s.poisoned = true) (ds : List Delivery) :
    s.deliveries ds = s := by
  induction ds with
  | nil => rfl
  | cons d ds ih =>
      show (s.ingest d.report (some d.now) d.entryId d.transitionId).2.deliveries ds = s
      rw [ingest_poisoned h, ih]

/-- Each of them is told of the lock. -/
theorem answers_poisoned {s : Store} (h : s.poisoned = true) (k : Key) (ds : List Delivery) :
    s.answers k ds = (ds.filter fun d => d.key = k).map fun _ => .error .lockPoisoned := by
  induction ds with
  | nil => rfl
  | cons d ds ih =>
      have hrefused := ingest_poisoned h d.report (some d.now) d.entryId d.transitionId
      rw [answers, show s.after d.call = s from congrArg Prod.snd hrefused,
        show s.answer d = .error .lockPoisoned from congrArg Prod.fst hrefused, ih,
        List.filter_cons]
      by_cases hk : d.key = k
      · rw [if_pos hk, if_pos (decide_eq_true hk)]
        rfl
      · rw [if_neg hk, if_neg (fun h => hk (of_decide_eq_true h))]
        rfl

/-- A poisoned store refuses all reads, under any names. -/
theorem agreesUpTo_poisoned {s : Store} (h : s.poisoned = true) (ρ : Renaming) :
    AgreesUpTo ρ s s where
  find? := fun _ => rfl
  entries := fun applicationId => by
    rw [Store.entries, read_poisoned h]
    rfl
  checkEntries := fun applicationId name => by
    rw [Store.checkEntries, read_poisoned h]
    rfl
  history := fun entryId => by
    rw [Store.history, Store.history, read_poisoned h, read_poisoned h]
    rfl
  applicationStatus := fun applicationId => by
    rw [applicationStatus_poisoned h]
    rfl
  checkStatus := fun applicationId name => by
    rw [checkStatus_poisoned h]
    rfl

/-! ## Clients -/

/-- Two runs in which the clients report the same in two orders agree, up to the names
    that were generated. -/
theorem exists_agreement {s : Store} (hs : Reached s) {clients clients' : List (List Delivery)}
    {ds ds' : List Delivery} (hown : (clients.map (List.map Delivery.key)).Pairwise List.Disjoint)
    (hsame : clients'.map (List.map Delivery.arrival) = clients.map (List.map Delivery.arrival))
    (hds : Interleaves clients ds) (hds' : Interleaves clients' ds')
    (hgen : s.Generated ds) (hgen' : s.Generated ds') :
    ∃ ρ : Renaming, ρ.Keeps s ∧ AgreesUpTo ρ (s.deliveries ds) (s.deliveries ds')
      ∧ ∀ k, s.answers k ds' = (s.answers k ds).map (Except.map (Outcome.rename ρ)) := by
  obtain ⟨r, given, log, ht, hsound, -⟩ := hs.exists_records
  have hu := Records.unused_of_generated ht hgen
  have hu' := Records.unused_of_generated ht hgen'
  -- the names go from the reports of the first clients to those of the second ones
  have harrival : clients.flatten.map Delivery.arrival = clients'.flatten.map Delivery.arrival := by
    rw [List.map_flatten, List.map_flatten, hsame]
  obtain ⟨ρ, hentry, htransition, hflatten⟩ :=
    Records.exists_renaming (hu.perm hds.perm) (hu'.perm hds'.perm) harrival
  -- a key is that of a report, so the second clients have keys of their own too
  have hkeys : clients'.map (List.map Delivery.key) = clients.map (List.map Delivery.key) := by
    have hof : ∀ cs : List (List Delivery), cs.map (List.map Delivery.key)
        = (cs.map (List.map Delivery.arrival)).map (List.map fun a => Key.ofEntry a.1) := by
      intro cs
      rw [List.map_map]
      refine List.map_congr_left fun c _ => ?_
      rw [Function.comp_apply, List.map_map]
      rfl
    rw [hof, hof, hsame]
  have hfilter : ∀ k, ds'.filter (fun d => d.key = k)
      = (ds.filter fun d => d.key = k).map (Delivery.rename ρ) := by
    intro k
    rw [hds'.filter_eq (hkeys ▸ hown) k, hds.filter_eq hown k, hflatten, List.filter_map]
    rfl
  refine ⟨ρ, ⟨?_, ?_⟩, ?_⟩
  · intro i hi
    rw [ht] at hi
    obtain ⟨row, hrow, hid⟩ := List.mem_map.1 hi
    obtain ⟨p, hp, rfl⟩ := List.mem_map.1 hrow
    exact hentry i (List.mem_map.2 ⟨p, hp, Identifier.toText_inj.1 hid⟩)
  · intro i hi
    rw [ht] at hi
    obtain ⟨row, hrow, hid⟩ := List.mem_map.1 hi
    obtain ⟨x, hx, rfl⟩ := List.mem_map.1 hrow
    exact htransition i (List.mem_map.2 ⟨x, hx, Identifier.toText_inj.1 hid⟩)
  · cases hlock : s.poisoned with
    | true =>
        rw [deliveries_poisoned hlock, deliveries_poisoned hlock]
        refine ⟨agreesUpTo_poisoned hlock ρ, fun k => ?_⟩
        rw [answers_poisoned hlock, answers_poisoned hlock, hfilter, List.map_map, List.map_map]
        rfl
    | false =>
        have heq := eq_store ht hlock
        subst heq
        exact Records.agreesUpTo_of_filter hsound hu hu'
          (Records.held_rename hsound hentry htransition) hfilter

/-- In a reached store two reports for different keys can be taken over in either order,
    whatever their times are and whether they succeed or fail.  So can the reports of any
    number of clients that report for keys of their own, as long as each client keeps its
    order.  The outcomes are the same, and so is all that can be read, up to the names of
    the identifiers that were generated in the two runs. -/
theorem different_keys_commute {s : Store} (hs : Reached s) :
    (∀ a b a' b' : Delivery, a.key ≠ b.key → a'.arrival = a.arrival → b'.arrival = b.arrival →
        s.Generated [a, b] → s.Generated [b', a'] →
        ∃ ρ : Renaming, ρ.Keeps s ∧ AgreesUpTo ρ (s.deliveries [a, b]) (s.deliveries [b', a'])
          ∧ (s.after b'.call).answer a' = (s.answer a).map (Outcome.rename ρ)
          ∧ s.answer b' = ((s.after a.call).answer b).map (Outcome.rename ρ))
      ∧ ∀ (clients clients' : List (List Delivery)) (ds ds' : List Delivery),
        (clients.map (List.map Delivery.key)).Pairwise List.Disjoint →
        clients'.map (List.map Delivery.arrival) = clients.map (List.map Delivery.arrival) →
        Interleaves clients ds → Interleaves clients' ds' →
        s.Generated ds → s.Generated ds' →
        ∃ ρ : Renaming, ρ.Keeps s ∧ AgreesUpTo ρ (s.deliveries ds) (s.deliveries ds')
          ∧ ∀ k, s.answers k ds' = (s.answers k ds).map (Except.map (Outcome.rename ρ)) := by
  refine ⟨?_, fun _ _ _ _ hown hsame hds hds' hgen hgen' =>
    exists_agreement hs hown hsame hds hds' hgen hgen'⟩
  intro a b a' b' hne ha hb hgen hgen'
  have hkey : ∀ {d d' : Delivery}, d'.arrival = d.arrival → d'.key = d.key :=
    fun h => congrArg (fun x : Entry × Instant => Key.ofEntry x.1) h
  -- one client for each report
  have hdone : Interleaves [[], []] ([] : List Delivery) := .done (by simp)
  have hab : Interleaves [[a], [b]] [a, b] :=
    .step [] (.step [[]] hdone)
  have hba : Interleaves [[a'], [b']] [b', a'] :=
    .step [[a']] (.step [] hdone)
  have hown : ([[a], [b]].map (List.map Delivery.key)).Pairwise List.Disjoint := by
    simpa using hne
  obtain ⟨ρ, hkeeps, hagrees, hanswers⟩ :=
    exists_agreement hs hown (by simp [ha, hb]) hab hba hgen hgen'
  refine ⟨ρ, hkeeps, hagrees, ?_, ?_⟩
  · simpa [answers, hkey ha, hkey hb, hne, hne.symm] using hanswers a.key
  · simpa [answers, hkey ha, hkey hb, hne, hne.symm] using hanswers b.key

namespace Sample

/-- A report of a second server. -/
def other : Entry := { report .unhealthy with serverName := "db" }

/-- Two clients, one for each server. -/
def clients : List (List Delivery) :=
  [[⟨report .degraded, second 20, .ofNat 10, .ofNat 11⟩,
    ⟨report .healthy, second 15, .ofNat 12, .ofNat 13⟩],
   [⟨other, second 30, .ofNat 14, .ofNat 15⟩]]

/-- The same clients, for which other identifiers are generated. -/
def clientsAgain : List (List Delivery) :=
  [[⟨report .degraded, second 20, .ofNat 20, .ofNat 21⟩,
    ⟨report .healthy, second 15, .ofNat 22, .ofNat 23⟩],
   [⟨other, second 30, .ofNat 24, .ofNat 25⟩]]

end Sample

/-- The second server may report between the reports of the first one, or after them. -/
theorem commute_on_two_servers :
    ∃ ρ : Renaming, AgreesUpTo ρ
      ((empty.served Sample.session).deliveries
        [⟨Sample.report .degraded, Sample.second 20, .ofNat 10, .ofNat 11⟩,
          ⟨Sample.other, Sample.second 30, .ofNat 14, .ofNat 15⟩,
          ⟨Sample.report .healthy, Sample.second 15, .ofNat 12, .ofNat 13⟩])
      ((empty.served Sample.session).deliveries Sample.clientsAgain.flatten) := by
  have hinterleaved : Interleaves Sample.clients
      [⟨Sample.report .degraded, Sample.second 20, .ofNat 10, .ofNat 11⟩,
        ⟨Sample.other, Sample.second 30, .ofNat 14, .ofNat 15⟩,
        ⟨Sample.report .healthy, Sample.second 15, .ofNat 12, .ofNat 13⟩] :=
    .step [] (.step [[_]] (.step [] (.done (by simp))))
  have hinorder : Interleaves Sample.clientsAgain Sample.clientsAgain.flatten :=
    .step [] (.step [] (.step [[]] (.done (by simp))))
  obtain ⟨ρ, -, hagrees, -⟩ := (different_keys_commute (s := empty.served Sample.session)
    ⟨_, rfl⟩).2 Sample.clients Sample.clientsAgain _ _
    (by simp [Sample.clients, Delivery.key, Key.ofEntry, Sample.other, Sample.report])
    rfl hinterleaved hinorder
    ⟨by decide +kernel, by decide +kernel⟩ ⟨by decide +kernel, by decide +kernel⟩
  exact ⟨ρ, hagrees⟩

end Store

end HealthWatch
