import HealthWatch.Proofs.Store.Session

/-! # Keys — the store as one machine for each key

    What the store holds for a key is its entry with the transitions of the entry.  A
    report changes what is held for its own key, by `deliver`, and looks at nothing else
    but the definition of its name.

    * `ingest_store_held`: one report is one step of the machine of its key, and the other
      machines stand still;
    * `run_store_held`: after a run of reports, the machine of a key has taken exactly the
      reports for the key, in their order, whatever came in between. -/

namespace HealthWatch.Store

/-! ## Deliveries -/

/-- A report with the time it comes in and the identifiers that are generated for it. -/
structure Delivery where
  report : Entry
  now : Instant
  entryId : Identifier
  transitionId : Identifier
deriving DecidableEq, Repr

namespace Delivery

/-- What names the entry of the report. -/
def key (d : Delivery) : Key := .ofEntry d.report

/-- The call that takes the report over. -/
def call (d : Delivery) : Call := .ingest d.report d.now d.entryId d.transitionId

/-- The report and its time. -/
def arrival (d : Delivery) : Entry × Instant := (d.report, d.now)

end Delivery

/-- What a store answers to a delivery. -/
def answer (s : Store) (d : Delivery) : Except Fault Outcome :=
  (s.ingest d.report (some d.now) d.entryId d.transitionId).1

/-- The store after several deliveries. -/
def deliveries (s : Store) (ds : List Delivery) : Store := s.run (ds.map Delivery.call)

/-- What a store answers to the deliveries for a key. -/
def answers (s : Store) (k : Key) : List Delivery → List (Except Fault Outcome)
  | [] => []
  | d :: ds => (if d.key = k then [s.answer d] else []) ++ (s.after d.call).answers k ds

/-! ## The machine of a key -/

/-- What is held for a key: its entry, and the transitions of the entry as they were
    stored. -/
abbrev Held := Option (Linked × List Transition)

/-- Transitions of an entry as its history lists them. -/
def listed (rows : List Transition) : List Transition :=
  rows.reverse.mergeSort Records.notBefore

/-- Whether a report adds a transition to these. -/
def adds (rows : List Transition) (report : Entry) : Bool :=
  (listed rows).head?.map Transition.status ≠ some report.status

/-- What a report gives and leaves for its key, where `definition` is that of its name. -/
def deliver (definition : Option Check) (held : Held) (d : Delivery) :
    Except Fault Outcome × Held :=
  match held, definition with
  | none, none => (.error (.unregistered d.report.name), none)
  | none, some c =>
      (.ok ⟨d.entryId, true, true⟩, some (⟨.first d.report c d.entryId d.now, c⟩,
        [.arrival d.transitionId d.entryId d.report d.now]))
  | some (p, rows), _ =>
      if adds rows d.report then
        (.ok ⟨p.entry.id, false, true⟩, some ({ p with entry := p.entry.update d.report d.now },
          rows ++ [.arrival d.transitionId p.entry.id d.report d.now]))
      else
        (.ok ⟨p.entry.id, false, false⟩,
          some ({ p with entry := p.entry.update d.report d.now }, rows))

/-- What the reports for a key give and leave, one after the other. -/
def deliverAll (definition : Option Check) (held : Held) :
    List Delivery → List (Except Fault Outcome) × Held
  | [] => ([], held)
  | d :: ds =>
      let r := deliverAll definition (deliver definition held d).2 ds
      ((deliver definition held d).1 :: r.1, r.2)

namespace Records

variable {r r' : Records} {d : Delivery} {ds : List Delivery}

/-- The transitions of an entry as they were stored. -/
def rows (r : Records) (entryId : Identifier) : List Transition :=
  r.transitions.filter fun x => x.entryId = entryId

/-- What records hold for a key. -/
def held (r : Records) (k : Key) : Held :=
  (r.linked? k).map fun p => (p, r.rows p.entry.id)

/-- The identifiers of deliveries are neither stored nor used twice. -/
structure Unused (r : Records) (ds : List Delivery) : Prop where
  entryIds : (r.entries.map (·.entry.id) ++ ds.map Delivery.entryId).Nodup
  transitionIds : (r.transitions.map Transition.id ++ ds.map Delivery.transitionId).Nodup

/-! ## What is held -/

theorem held_eq_none {k : Key} (h : r.linked? k = none) : r.held k = none := by
  rw [held, h]
  rfl

theorem held_eq_some {k : Key} {p : Linked} (h : r.linked? k = some p) :
    r.held k = some (p, r.rows p.entry.id) := by
  rw [held, h]
  rfl

/-- Records that keep the entry of a key and the transitions of this entry hold for the
    key what they held. -/
theorem held_congr {k : Key} (hlinked : r'.linked? k = r.linked? k)
    (hrows : ∀ p, r.linked? k = some p → r'.rows p.entry.id = r.rows p.entry.id) :
    r'.held k = r.held k := by
  rw [held, held, hlinked]
  cases hp : r.linked? k with
  | none => rfl
  | some p => rw [Option.map_some, Option.map_some, hrows p hp]

/-- A transition is added to those of its own entry. -/
theorem rows_addTransition (r : Records) (x : Transition) (id : Identifier) :
    (r.addTransition x).rows id = r.rows id ++ if x.entryId = id then [x] else [] := by
  rw [rows, addTransition, List.filter_append, List.filter_cons, List.filter_nil, rows]
  simp only [decide_eq_true_eq]

/-- No transition refers to an identifier that no entry has. -/
theorem Sound.rows_eq_nil (h : r.Sound) {id : Identifier}
    (hid : id ∉ r.entries.map (·.entry.id)) : r.rows id = [] := by
  rw [rows, List.filter_eq_nil_iff]
  intro x hx hxid
  obtain ⟨p, hp, hpx⟩ := h.owned x hx
  exact hid (List.mem_map.2 ⟨p, hp, hpx.trans (of_decide_eq_true hxid)⟩)

/-- Entries of two keys have two identifiers. -/
theorem Sound.id_ne (h : r.Sound) {k k' : Key} {p q : Linked} (hp : r.linked? k = some p)
    (hq : r.linked? k' = some q) (hk : k ≠ k') : p.entry.id ≠ q.entry.id := by
  intro he
  obtain ⟨hpm, hpk⟩ := linked?_eq_some hp
  obtain ⟨hqm, hqk⟩ := linked?_eq_some hq
  exact hk (by rw [← hpk, ← hqk, h.entry_inj hpm hqm he])

/-- A first report opens what is held for its key. -/
theorem held_opened (hs : r.Sound) {report : Entry} {c : Check} {now : Instant}
    {entryId transitionId : Identifier} (hkey : r.linked? (.ofEntry report) = none)
    (hid : entryId ∉ r.entries.map (·.entry.id)) (k : Key) :
    (r.opened report c now entryId transitionId).held k
      = if Key.ofEntry report = k then some (⟨.first report c entryId now, c⟩,
          [.arrival transitionId entryId report now]) else r.held k := by
  have hlinked := linked?_opened r report c now entryId transitionId k
  have hrows : ∀ id, (r.opened report c now entryId transitionId).rows id
      = r.rows id ++ if entryId = id then [.arrival transitionId entryId report now] else [] :=
    rows_addTransition (r.addEntry ⟨.first report c entryId now, c⟩) _
  by_cases hk : Key.ofEntry report = k
  · subst hk
    rw [hkey, Option.none_or, if_pos rfl] at hlinked
    rw [if_pos rfl, held_eq_some hlinked, show (Entry.first report c entryId now).id = entryId
      from rfl, hrows, hs.rows_eq_nil hid, if_pos rfl, List.nil_append]
  · rw [if_neg hk, Option.or_none] at hlinked
    rw [if_neg hk]
    refine held_congr hlinked ?_
    intro p hp
    -- the new transition belongs to the new entry
    rw [hrows, if_neg, List.append_nil]
    exact fun he => hid (he ▸ List.mem_map_of_mem (linked?_eq_some hp).1)

/-- A later report changes what is held for its own key, whether it adds transitions or
    not. -/
theorem held_renewed (hs : r.Sound) {k : Key} {p : Linked} (hp : r.linked? k = some p)
    {report : Entry} {now : Instant} (new : List Transition)
    (hentries : r'.entries = (r.renew p.entry.id report now).entries)
    (hrows : ∀ id, r'.rows id = r.rows id ++ if p.entry.id = id then new else []) (k' : Key) :
    r'.held k' = if k = k' then some ({ p with entry := p.entry.update report now },
        r.rows p.entry.id ++ new) else r.held k' := by
  have hlinked : r'.linked? k' = (r.renew p.entry.id report now).linked? k' := by
    rw [linked?, hentries, linked?]
  rw [linked?_renew_of_linked hs hp] at hlinked
  by_cases hk : k = k'
  · rw [if_pos hk] at hlinked
    rw [if_pos hk, held_eq_some hlinked, hrows]
    exact congrArg (fun new => some (_, r.rows p.entry.id ++ new)) (if_pos rfl)
  · rw [if_neg hk] at hlinked ⊢
    refine held_congr hlinked ?_
    intro q hq
    rw [hrows, if_neg (hs.id_ne hp hq hk), List.append_nil]

/-! ## One delivery -/

/-- A report that is taken over is a step of the machine of its key. -/
theorem held_taken (hs : r.Sound) (hid : d.entryId ∉ r.entries.map (·.entry.id)) {o : Outcome}
    (ht : r.taken d.report d.now d.entryId d.transitionId = some (o, r')) :
    (deliver (r.check? d.report.name) (r.held d.key) d).1 = .ok o ∧ r'.checks = r.checks
      ∧ ∀ k, r'.held k = if d.key = k
          then (deliver (r.check? d.report.name) (r.held d.key) d).2 else r.held k := by
  rcases taken_eq_some ht with ⟨c, hkey, hname, rfl, rfl⟩ | ⟨p, hp, happ, rfl, rfl⟩
    | ⟨p, hp, happ, rfl, rfl⟩
  · rw [held_eq_none (k := d.key) hkey, hname]
    exact ⟨rfl, rfl, held_opened hs hkey hid⟩
  · rw [held_eq_some (k := d.key) hp, deliver,
      if_pos (show adds (r.rows p.entry.id) d.report = true from happ)]
    exact ⟨rfl, rfl, held_renewed hs hp _ rfl (rows_addTransition r _)⟩
  · rw [held_eq_some (k := d.key) hp, deliver,
      if_neg (show ¬adds (r.rows p.entry.id) d.report = true from Bool.eq_false_iff.1 happ)]
    refine ⟨rfl, rfl, fun k => ?_⟩
    rw [held_renewed hs hp [] rfl (fun id => by rw [ite_self, List.append_nil]; rfl) k,
      List.append_nil]
    rfl

/-- A list that took over the first of several free names or none leaves the others free. -/
theorem nodup_rest {α : Type} {l l₁ l' : List α} {a : α} (h : (l ++ a :: l').Nodup)
    (hl : l₁ = l ∨ l₁ = l ++ [a]) : (l₁ ++ l').Nodup := by
  rcases hl with rfl | rfl
  · exact h.sublist ((List.sublist_cons_self a l').append_left _)
  · rw [List.append_assoc]
    exact h

/-- A report uses no identifiers but its own. -/
theorem Unused.taken (hu : r.Unused (d :: ds)) {o : Outcome}
    (ht : r.taken d.report d.now d.entryId d.transitionId = some (o, r')) : r'.Unused ds := by
  have hrenew : ∀ id, (r.entries.map (renewed id d.report d.now)).map (·.entry.id)
      = r.entries.map (·.entry.id) := by
    intro id
    rw [List.map_map]
    exact List.map_congr_left fun p _ => id_renewed id d.report d.now p
  rcases taken_eq_some ht with ⟨c, -, -, -, rfl⟩ | ⟨p, -, -, -, rfl⟩ | ⟨p, -, -, -, rfl⟩
  · exact ⟨nodup_rest hu.entryIds (Or.inr List.map_append),
      nodup_rest hu.transitionIds (Or.inr List.map_append)⟩
  · exact ⟨nodup_rest hu.entryIds (Or.inl (hrenew _)),
      nodup_rest hu.transitionIds (Or.inr List.map_append)⟩
  · exact ⟨nodup_rest hu.entryIds (Or.inl (hrenew _)), nodup_rest hu.transitionIds (Or.inl rfl)⟩

/-- A delivery is a step of the machine of its key, whether it is taken over or refused. -/
theorem ingest_store_held (hs : r.Sound) (hu : r.Unused (d :: ds)) :
    ∃ r' : Records, r.store.ingest d.report (some d.now) d.entryId d.transitionId
        = ((deliver (r.check? d.report.name) (r.held d.key) d).1, r'.store)
      ∧ r'.Sound ∧ r'.checks = r.checks ∧ r'.Unused ds
      ∧ ∀ k, r'.held k = if d.key = k
          then (deliver (r.check? d.report.name) (r.held d.key) d).2 else r.held k := by
  have hentry : d.entryId ∉ r.entries.map (·.entry.id) :=
    fun h => (List.nodup_append.1 hu.entryIds).2.2 _ h _ (List.mem_cons_self ..) rfl
  have htransition : d.transitionId ∉ r.transitions.map Transition.id :=
    fun h => (List.nodup_append.1 hu.transitionIds).2.2 _ h _ (List.mem_cons_self ..) rfl
  rw [ingest_store_eq hs, ingested_of_fresh hentry htransition]
  cases ht : r.taken d.report d.now d.entryId d.transitionId with
  | none =>
      obtain ⟨hkey, hname⟩ := taken_eq_none ht
      rw [held_eq_none (k := d.key) hkey, hname]
      refine ⟨r, rfl, hs, rfl, ⟨nodup_rest hu.entryIds (Or.inl rfl),
        nodup_rest hu.transitionIds (Or.inl rfl)⟩, ?_⟩
      intro k
      by_cases hk : d.key = k
      · rw [if_pos hk, ← hk, held_eq_none (k := d.key) hkey]
        rfl
      · rw [if_neg hk]
  | some x =>
      obtain ⟨o, r'⟩ := x
      obtain ⟨houtcome, hchecks, hheld⟩ := held_taken hs hentry ht
      refine ⟨r', ?_, hs.taken (fun _ => hentry) (fun _ => htransition) ht, hchecks,
        hu.taken ht, hheld⟩
      rw [houtcome]

/-! ## Runs of deliveries -/

/-- Each key takes its own reports, in their order, and no others. -/
theorem run_store_held (hs : r.Sound) (hu : r.Unused ds) :
    ∃ r' : Records, r.store.deliveries ds = r'.store ∧ r'.Sound ∧ r'.checks = r.checks
      ∧ ∀ k, (r.store.answers k ds, r'.held k)
        = deliverAll (r.check? k.name) (r.held k) (ds.filter fun d => d.key = k) := by
  induction ds generalizing r with
  | nil => exact ⟨r, rfl, hs, rfl, fun _ => rfl⟩
  | cons d ds ih =>
      obtain ⟨r', hstep, hs', hchecks, hu', hheld⟩ := ingest_store_held hs hu
      obtain ⟨r'', hrun, hs'', hchecks', hkeys⟩ := ih hs' hu'
      have hafter : r.store.after d.call = r'.store := congrArg Prod.snd hstep
      have hanswer : r.store.answer d = (deliver (r.check? d.report.name) (r.held d.key) d).1 :=
        congrArg Prod.fst hstep
      refine ⟨r'', ?_, hs'', hchecks'.trans hchecks, ?_⟩
      · rw [← hrun, ← hafter]
        rfl
      · intro k
        have hk := hkeys k
        rw [show r'.check? k.name = r.check? k.name by rw [check?, hchecks, check?], hheld k] at hk
        rw [answers, hafter, List.filter_cons]
        by_cases hdk : d.key = k
        · subst hdk
          rw [if_pos rfl] at hk
          rw [if_pos rfl, if_pos (decide_eq_true rfl), hanswer, deliverAll]
          exact congrArg (fun x : List (Except Fault Outcome) × Held => (_ :: x.1, x.2)) hk
        · rw [if_neg hdk] at hk ⊢
          rw [if_neg (fun h => hdk (of_decide_eq_true h)), List.nil_append, hk]

end Records

end HealthWatch.Store
