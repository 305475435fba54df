import HealthWatch.Proofs.Store.Records

/-! # Changes — what a registration and a report do to records

    On tables that hold records, `register` and `ingest` are functions of the records
    (`registered` and `ingested`): they succeed or fail with them, and leave tables that
    hold what these functions give.

    * `register_tables` and `ingest_tables` are the two simulations;
    * `Sound.registered` and `Sound.taken` keep identifiers, names and keys unique. -/

namespace HealthWatch

/-- A definition as it is stored: one that has no identifier gets a fresh one. -/
def Check.identified (c : Check) (fresh : Identifier) : Check :=
  if c.id.isNil then { c with id := fresh } else c

@[simp] theorem Check.name_identified (c : Check) (fresh : Identifier) :
    (c.identified fresh).name = c.name := by
  rw [identified]
  split <;> rfl

namespace Store

namespace Records

/-! ## Changes of records -/

/-- Records with a new definition. -/
def addCheck (r : Records) (c : Check) : Records :=
  { r with checks := r.checks ++ [c] }

/-- Records with a new entry. -/
def addEntry (r : Records) (p : Linked) : Records :=
  { r with entries := r.entries ++ [p] }

/-- Records with a new transition. -/
def addTransition (r : Records) (x : Transition) : Records :=
  { r with transitions := r.transitions ++ [x] }

/-- An entry after a report, when it is the one with this identifier. -/
def renewed (id : Identifier) (report : Entry) (now : Instant) (p : Linked) : Linked :=
  if p.entry.id = id then { p with entry := p.entry.update report now } else p

/-- Records after a report for the entry with this identifier. -/
def renew (r : Records) (id : Identifier) (report : Entry) (now : Instant) : Records :=
  { r with entries := r.entries.map (renewed id report now) }

/-- What a registration gives and leaves. -/
def registered (r : Records) (c : Check) (fresh : Identifier) :
    Except TableFault (Check × Records) :=
  match r.check? c.name with
  | some d => .ok (d, r)
  | none =>
      if (c.identified fresh).id ∈ r.checks.map Check.id then
        .error (.duplicate ["health_checks.id"])
      else .ok (c.identified fresh, r.addCheck (c.identified fresh))

/-- What the first report for a key leaves. -/
def opened (r : Records) (report : Entry) (c : Check) (now : Instant)
    (entryId transitionId : Identifier) : Records :=
  (r.addEntry ⟨.first report c entryId now, c⟩).addTransition
    (.arrival transitionId entryId report now)

/-- Whether a report adds a transition to the history of an entry: unless the
    transition that stands first in it has the same status. -/
def appends (r : Records) (id : Identifier) (report : Entry) : Bool :=
  (r.history id).head?.map Transition.status ≠ some report.status

/-- What a report gives and leaves; none when its definition is missing. -/
def taken (r : Records) (report : Entry) (now : Instant) (entryId transitionId : Identifier) :
    Option (Outcome × Records) :=
  match r.linked? (.ofEntry report) with
  | none =>
      (r.check? report.name).map fun c =>
        (⟨entryId, true, true⟩, r.opened report c now entryId transitionId)
  | some p =>
      let id := p.entry.id
      if r.appends id report then
        some (⟨id, false, true⟩,
          (r.addTransition (.arrival transitionId id report now)).renew id report now)
      else some (⟨id, false, false⟩, r.renew id report now)

/-- Gives an outcome unless an identifier that it uses is taken: a new entry uses the
    first one, a new transition the second. -/
def guarded {α : Type} (r : Records) (entryId transitionId : Identifier) (o : Outcome) (a : α) :
    Except Fault (Outcome × α) :=
  if o.created = true ∧ entryId ∈ r.entries.map (·.entry.id) then
    .error (.table (.duplicate ["health_check_entries.id"]))
  else if o.historyAppended = true ∧ transitionId ∈ r.transitions.map Transition.id then
    .error (.table (.duplicate ["health_check_history_entries.id"]))
  else .ok (o, a)

/-- What a report gives and leaves, whatever identifiers it is offered. -/
def ingested (r : Records) (report : Entry) (now : Instant) (entryId transitionId : Identifier) :
    Except Fault (Outcome × Records) :=
  match r.taken report now entryId transitionId with
  | none => .error (.unregistered report.name)
  | some (o, r') => r.guarded entryId transitionId o r'

variable {r : Records}

/-- What is let through has identifiers that are not taken. -/
theorem guarded_eq_ok {α : Type} {entryId transitionId : Identifier} {o o' : Outcome} {a a' : α}
    (h : r.guarded entryId transitionId o a = .ok (o', a')) :
    o = o' ∧ a = a' ∧ (o.created = true → entryId ∉ r.entries.map (·.entry.id))
      ∧ (o.historyAppended = true → transitionId ∉ r.transitions.map Transition.id) := by
  rw [guarded] at h
  split at h
  · exact nomatch h
  next hentry =>
    split at h
    · exact nomatch h
    next htransition =>
      cases h
      exact ⟨rfl, rfl, fun ho hid => hentry ⟨ho, hid⟩, fun ho hid => htransition ⟨ho, hid⟩⟩

/-- A report that gives an outcome was taken over with identifiers that were free where
    it used them. -/
theorem ingested_eq_ok {report : Entry} {now : Instant} {entryId transitionId : Identifier}
    {o : Outcome} {r' : Records} (h : r.ingested report now entryId transitionId = .ok (o, r')) :
    r.taken report now entryId transitionId = some (o, r')
      ∧ (o.created = true → entryId ∉ r.entries.map (·.entry.id))
      ∧ (o.historyAppended = true → transitionId ∉ r.transitions.map Transition.id) := by
  rw [ingested] at h
  cases ht : r.taken report now entryId transitionId with
  | none =>
      rw [ht] at h
      exact nomatch h
  | some x =>
      obtain ⟨o', r''⟩ := x
      rw [ht] at h
      obtain ⟨rfl, rfl, hentry, htransition⟩ := guarded_eq_ok h
      exact ⟨rfl, hentry, htransition⟩

/-- With fresh identifiers only a missing definition stands in the way. -/
theorem ingested_of_fresh {report : Entry} {now : Instant} {entryId transitionId : Identifier}
    (hentry : entryId ∉ r.entries.map (·.entry.id))
    (htransition : transitionId ∉ r.transitions.map Transition.id) :
    r.ingested report now entryId transitionId
      = match r.taken report now entryId transitionId with
        | none => .error (.unregistered report.name)
        | some x => .ok x := by
  rw [ingested]
  cases r.taken report now entryId transitionId with
  | none => rfl
  | some x =>
      show r.guarded entryId transitionId x.1 x.2 = .ok x
      rw [guarded, if_neg fun h => hentry h.2, if_neg fun h => htransition h.2]

theorem key_renewed (id : Identifier) (report : Entry) (now : Instant) (p : Linked) :
    (renewed id report now p).key = p.key := by
  rw [renewed]
  split <;> rfl

theorem id_renewed (id : Identifier) (report : Entry) (now : Instant) (p : Linked) :
    (renewed id report now p).entry.id = p.entry.id := by
  rw [renewed]
  split <;> rfl

theorem definition_renewed (id : Identifier) (report : Entry) (now : Instant) (p : Linked) :
    (renewed id report now p).definition = p.definition := by
  rw [renewed]
  split <;> rfl

/-- A row after an update, when it is the one with the same identifier. -/
def updatedRow (new row : EntryRow) : EntryRow :=
  if row.id = new.id then row.updated new else row

/-- A transition is added when the status is not that of the latest one. -/
theorem appends_iff {id : Identifier} {report : Entry} : r.appends id report = true
    ↔ (r.history id).head?.map Transition.status ≠ some report.status :=
  decide_eq_true_iff

/-! ## Simulation -/

/-- The tables have an identifier of a definition when the records have. -/
theorem any_checkRow (r : Records) (i : Identifier) :
    r.tables.checks.any (fun row => row.id = i.toText) = decide (i ∈ r.checks.map Check.id) := by
  rw [Bool.eq_iff_iff]
  simp [tables, CheckRow.ofCheck]

/-- So it is with those of entries. -/
theorem any_entryRow (r : Records) (i : Identifier) :
    r.tables.entries.any (fun row => row.id = i.toText)
      = decide (i ∈ r.entries.map (·.entry.id)) := by
  rw [Bool.eq_iff_iff]
  simp [tables, Linked.row, EntryRow.ofEntry]

/-- And with those of transitions. -/
theorem any_transitionRow (r : Records) (i : Identifier) :
    r.tables.transitions.any (fun row => row.id = i.toText)
      = decide (i ∈ r.transitions.map Transition.id) := by
  rw [Bool.eq_iff_iff]
  simp [tables, TransitionRow.ofTransition]

theorem check?_eq_none {name : String} (h : r.check? name = none) :
    ∀ c ∈ r.checks, c.name ≠ name := by
  simpa [check?] using h

theorem linked?_eq_none {k : Key} (h : r.linked? k = none) : ∀ p ∈ r.entries, p.key ≠ k := by
  simpa [linked?] using h

/-- A definition whose name is not taken is stored unless its identifier is. -/
theorem insertCheck_tables {c : Check} (hname : r.check? c.name = none) :
    r.tables.insertCheck c = if c.id ∈ r.checks.map Check.id
      then .error (.duplicate ["health_checks.id"]) else .ok (r.addCheck c).tables := by
  have hnames : r.tables.checks.any (fun row => row.name = (CheckRow.ofCheck c).name) = false := by
    simp only [tables, List.any_map, List.any_eq_false]
    intro d hd
    exact fun h => check?_eq_none hname d hd (of_decide_eq_true h)
  rw [Tables.insertCheck]
  simp only [show (CheckRow.ofCheck c).id = c.id.toText from rfl, any_checkRow, hnames]
  by_cases hid : c.id ∈ r.checks.map Check.id
  · rw [if_pos hid, if_pos (decide_eq_true hid)]
  · rw [if_neg hid, if_neg (by simpa using hid), if_neg (by decide)]
    simp [tables, addCheck]

/-- Registering does to the tables what it does to the records. -/
theorem register_tables (r : Records) (c : Check) (fresh : Identifier) :
    r.tables.register c fresh = (r.registered c fresh).map fun (d, r') => (d, r'.tables) := by
  rw [Tables.register, findCheck?_tables, registered]
  cases hname : r.check? c.name with
  | some d => rfl
  | none =>
      -- a name that is not found: the insertion decides by the identifier
      show (do return (c.identified fresh, ← r.tables.insertCheck (c.identified fresh))) = _
      rw [insertCheck_tables (by rw [Check.name_identified, hname])]
      by_cases hid : (c.identified fresh).id ∈ r.checks.map Check.id
      · simp only [if_pos hid]
        rfl
      · simp only [if_neg hid]
        rfl

/-- An entry whose key is not taken is stored unless its identifier is. -/
theorem insertEntry_tables {p : Linked} (hkey : r.linked? p.key = none)
    (hcheck : p.definition ∈ r.checks) :
    r.tables.insertEntry p.entry p.definition.id = if p.entry.id ∈ r.entries.map (·.entry.id)
      then .error (.duplicate ["health_check_entries.id"]) else .ok (r.addEntry p).tables := by
  -- the key is free, since no entry was found for it
  have hkeys : r.tables.entries.any (EntryRow.hasKey (.ofEntry p.entry)) = false := by
    simp only [tables, List.any_map, List.any_eq_false]
    intro q hq
    rw [Function.comp_apply, Linked.hasKey_row]
    exact fun h => linked?_eq_none hkey q hq (of_decide_eq_true h)
  have hchecks : p.definition.id ∈ r.checks.map Check.id := List.mem_map_of_mem hcheck
  rw [Tables.insertEntry]
  simp only [show (EntryRow.ofEntry p.entry p.definition.id).id = p.entry.id.toText from rfl,
    show (EntryRow.ofEntry p.entry p.definition.id).checkId = p.definition.id.toText from rfl,
    any_entryRow, any_checkRow, hkeys]
  by_cases hid : p.entry.id ∈ r.entries.map (·.entry.id)
  · rw [if_pos hid, if_pos (decide_eq_true hid)]
  · rw [if_neg hid, if_neg (by simpa using hid), if_neg (by decide),
      if_pos (decide_eq_true hchecks)]
    simp [tables, addEntry, Linked.row]

/-- A transition of an entry is stored unless its identifier is taken. -/
theorem insertTransition_tables {x : Transition} (hentry : x.entryId ∈ r.entries.map (·.entry.id)) :
    r.tables.insertTransition x = if x.id ∈ r.transitions.map Transition.id
      then .error (.duplicate ["health_check_history_entries.id"])
      else .ok (r.addTransition x).tables := by
  rw [Tables.insertTransition]
  simp only [show (TransitionRow.ofTransition x).id = x.id.toText from rfl,
    show (TransitionRow.ofTransition x).entryId = x.entryId.toText from rfl,
    any_transitionRow, any_entryRow]
  by_cases hid : x.id ∈ r.transitions.map Transition.id
  · rw [if_pos hid, if_pos (decide_eq_true hid)]
  · rw [if_neg hid, if_neg (by simpa using hid), if_pos (decide_eq_true hentry)]
    simp [tables, addTransition]

/-- An update writes the columns that a report changes, whatever the others hold. -/
theorem row_renewed (p q : Linked) (report : Entry) (now : Instant) :
    updatedRow (.ofEntry (p.value.update report now) .nil) q.row
      = (renewed p.entry.id report now q).row := by
  have hid : q.row.id = (EntryRow.ofEntry (p.value.update report now) .nil).id
      ↔ q.entry.id = p.entry.id := Identifier.toText_inj
  rw [renewed, updatedRow]
  by_cases h : q.entry.id = p.entry.id
  · rw [if_pos h, if_pos (hid.2 h)]
    rfl
  · rw [if_neg h, if_neg fun h' => h (hid.1 h')]

/-- So does a report to the entry that is there. -/
theorem updateEntry_tables (r : Records) (p : Linked) (report : Entry) (now : Instant) :
    r.tables.updateEntry (p.value.update report now) = (r.renew p.entry.id report now).tables := by
  have hrows : (r.entries.map Linked.row).map
        (updatedRow (.ofEntry (p.value.update report now) .nil))
      = (r.entries.map (renewed p.entry.id report now)).map Linked.row := by
    rw [List.map_map, List.map_map]
    refine List.map_congr_left ?_
    intro q _
    rw [Function.comp_apply, row_renewed, Function.comp_apply]
  rw [Tables.updateEntry]
  exact congrArg (fun rows => { r.tables with entries := rows }) hrows

/-- A first report takes up an entry with a transition. -/
theorem ingestFirst_tables {report : Entry} {now : Instant} {entryId transitionId : Identifier}
    (hkey : r.linked? (.ofEntry report) = none) :
    r.tables.ingestFirst report now entryId transitionId
      = match r.check? report.name with
        | none => .error (.unregistered report.name)
        | some c => r.guarded entryId transitionId ⟨entryId, true, true⟩
            (r.opened report c now entryId transitionId).tables := by
  rw [Tables.ingestFirst, findCheck?_tables]
  cases hname : r.check? report.name with
  | none => rfl
  | some c =>
      let p : Linked := ⟨.first report c entryId now, c⟩
      have hp : r.tables.insertEntry p.entry p.definition.id
          = if entryId ∈ r.entries.map (·.entry.id)
            then .error (.duplicate ["health_check_entries.id"]) else .ok (r.addEntry p).tables :=
        insertEntry_tables hkey (check?_eq_some hname).1
      -- the transition refers to the entry that was inserted just before
      have hx : (r.addEntry p).tables.insertTransition (.arrival transitionId entryId report now)
          = if transitionId ∈ r.transitions.map Transition.id
            then .error (.duplicate ["health_check_history_entries.id"])
            else .ok (r.opened report c now entryId transitionId).tables :=
        insertTransition_tables (by simp [p, addEntry, Transition.arrival, Entry.first])
      show ((r.tables.insertEntry p.entry p.definition.id).mapError Fault.table >>= fun t =>
        (t.insertTransition (.arrival transitionId entryId report now)).mapError Fault.table
          >>= fun t => pure (Outcome.mk entryId true true, t))
        = r.guarded entryId transitionId ⟨entryId, true, true⟩
          (r.opened report c now entryId transitionId).tables
      rw [hp, guarded]
      by_cases hentry : entryId ∈ r.entries.map (·.entry.id)
      · rw [if_pos hentry, if_pos ⟨rfl, hentry⟩]
        rfl
      · rw [if_neg hentry, if_neg fun h => hentry h.2]
        show ((r.addEntry p).tables.insertTransition _).mapError Fault.table >>= _ = _
        rw [hx]
        by_cases htransition : transitionId ∈ r.transitions.map Transition.id
        · rw [if_pos htransition, if_pos ⟨rfl, htransition⟩]
          rfl
        · rw [if_neg htransition, if_neg fun h => htransition h.2]
          rfl

/-- A later report renews the entry, and adds a transition if the status changed. -/
theorem ingestLater_tables {p : Linked} (hp : p ∈ r.entries) {report : Entry} {now : Instant}
    (entryId : Identifier) {transitionId : Identifier} :
    (r.tables.ingestLater p.value report now transitionId).mapError .table
      = if r.appends p.entry.id report then
          r.guarded entryId transitionId ⟨p.entry.id, false, true⟩ ((r.addTransition
            (.arrival transitionId p.entry.id report now)).renew p.entry.id report now).tables
        else r.guarded entryId transitionId ⟨p.entry.id, false, false⟩
          (r.renew p.entry.id report now).tables := by
  -- what is read back has the status of what was stored
  have hlatest : ((r.history p.entry.id).head?.map Transition.kept).map Transition.status
      = (r.history p.entry.id).head?.map Transition.status := by
    rw [Option.map_map]
    rfl
  have hnot : ∀ q : Prop, ¬(false = true ∧ q) := fun _ h => nomatch h.1
  rw [Tables.ingestLater, show p.value.id = p.entry.id from rfl, latest?_tables]
  simp only [bind, Except.bind, Transition.of?, hlatest]
  by_cases happ : r.appends p.entry.id report = true
  · have hx : r.tables.insertTransition (.arrival transitionId p.entry.id report now)
        = if transitionId ∈ r.transitions.map Transition.id
          then .error (.duplicate ["health_check_history_entries.id"])
          else .ok (r.addTransition (.arrival transitionId p.entry.id report now)).tables :=
      insertTransition_tables (List.mem_map_of_mem hp)
    rw [if_pos happ, if_neg (appends_iff.1 happ), guarded, if_neg (hnot _)]
    by_cases htransition : transitionId ∈ r.transitions.map Transition.id
    · rw [if_pos ⟨rfl, htransition⟩]
      simp only [hx, if_pos htransition]
      rfl
    · rw [if_neg fun h => htransition h.2]
      simp only [hx, if_neg htransition, updateEntry_tables]
      rfl
  · have hsame := Decidable.not_not.1 (mt appends_iff.2 happ)
    rw [if_neg happ, if_pos hsame, guarded, if_neg (hnot _), if_neg (hnot _)]
    simp only [updateEntry_tables]
    rfl

/-- A report does to tables what `ingested` does to their records. -/
theorem ingest_tables (h : r.Sound) (report : Entry) (now : Instant)
    (entryId transitionId : Identifier) :
    r.tables.ingest report now entryId transitionId
      = (r.ingested report now entryId transitionId).map fun (o, r') => (o, r'.tables) := by
  have hmap : ∀ (o : Outcome) (r' : Records), r.guarded entryId transitionId o r'.tables
      = (r.guarded entryId transitionId o r').map fun (o, r') => (o, r'.tables) := by
    intro o r'
    rw [guarded, guarded]
    split
    · rfl
    · split <;> rfl
  rw [Tables.ingest, findEntry?_tables h, ingested, taken]
  cases hkey : r.linked? (.ofEntry report) with
  | none =>
      show r.tables.ingestFirst report now entryId transitionId = _
      rw [ingestFirst_tables hkey]
      cases r.check? report.name with
      | none => rfl
      | some c => exact hmap _ _
  | some p =>
      show (r.tables.ingestLater p.value report now transitionId).mapError Fault.table = _
      rw [ingestLater_tables (linked?_eq_some hkey).1 entryId]
      by_cases happ : r.appends p.entry.id report
      · simp only [if_pos happ]
        exact hmap _ _
      · simp only [if_neg happ]
        exact hmap _ _

/-! ## Soundness -/

theorem nodup_map_concat {α β : Type} {f : α → β} {l : List α} {a : α} (h : (l.map f).Nodup)
    (ha : f a ∉ l.map f) : ((l ++ [a]).map f).Nodup := by
  rw [List.map_append, List.nodup_append]
  refine ⟨h, List.nodup_cons.2 ⟨List.not_mem_nil, List.nodup_nil⟩, ?_⟩
  intro b hb c hc
  rw [List.map_singleton, List.mem_singleton] at hc
  rw [hc]
  exact fun he => ha (he ▸ hb)

/-- Records stay sound with a definition of a new name and identifier. -/
theorem Sound.addCheck (h : r.Sound) {c : Check} (hid : c.id ∉ r.checks.map Check.id)
    (hname : r.check? c.name = none) : (r.addCheck c).Sound := by
  refine { h with checkIds := ?_, checkNames := ?_, linked := ?_ }
  · exact nodup_map_concat h.checkIds hid
  · refine nodup_map_concat h.checkNames ?_
    intro hc
    obtain ⟨d, hd, hdc⟩ := List.mem_map.1 hc
    exact check?_eq_none hname d hd hdc
  · intro p hp
    obtain ⟨hc, hn⟩ := h.linked p hp
    exact ⟨List.mem_append_left _ hc, hn⟩

/-- They stay so with an entry of a new key and identifier that has a definition. -/
theorem Sound.addEntry (h : r.Sound) {p : Linked} (hid : p.entry.id ∉ r.entries.map (·.entry.id))
    (hkey : r.linked? p.key = none) (hcheck : p.definition ∈ r.checks)
    (hname : p.definition.name = p.entry.name) : (r.addEntry p).Sound := by
  refine { h with entryIds := ?_, entryKeys := ?_, linked := ?_, owned := ?_ }
  · exact nodup_map_concat h.entryIds hid
  · refine nodup_map_concat h.entryKeys ?_
    intro hk
    obtain ⟨q, hq, hqk⟩ := List.mem_map.1 hk
    exact linked?_eq_none hkey q hq hqk
  · intro q hq
    rcases List.mem_append.1 hq with hq | hq
    · exact h.linked q hq
    · rw [List.mem_singleton.1 hq]
      exact ⟨hcheck, hname⟩
  · intro x hx
    obtain ⟨q, hq, hqx⟩ := h.owned x hx
    exact ⟨q, List.mem_append_left _ hq, hqx⟩

/-- And with a transition of an entry. -/
theorem Sound.addTransition (h : r.Sound) {x : Transition}
    (hid : x.id ∉ r.transitions.map Transition.id)
    (hentry : ∃ p ∈ r.entries, p.entry.id = x.entryId) : (r.addTransition x).Sound := by
  refine { h with transitionIds := ?_, owned := ?_ }
  · exact nodup_map_concat h.transitionIds hid
  · intro y hy
    rcases List.mem_append.1 hy with hy | hy
    · exact h.owned y hy
    · rw [List.mem_singleton.1 hy]
      exact hentry

/-- A report changes neither the identifier, nor the key, nor the definition of an
    entry. -/
theorem Sound.renew (h : r.Sound) (id : Identifier) (report : Entry) (now : Instant) :
    (r.renew id report now).Sound := by
  have hids : (r.renew id report now).entries.map (·.entry.id) = r.entries.map (·.entry.id) := by
    rw [Records.renew, List.map_map]
    exact List.map_congr_left fun p _ => id_renewed id report now p
  have hkeys : (r.renew id report now).entries.map Linked.key = r.entries.map Linked.key := by
    rw [Records.renew, List.map_map]
    exact List.map_congr_left fun p _ => key_renewed id report now p
  refine { h with entryIds := ?_, entryKeys := ?_, linked := ?_, owned := ?_ }
  · rw [hids]
    exact h.entryIds
  · rw [hkeys]
    exact h.entryKeys
  · intro p hp
    obtain ⟨q, hq, rfl⟩ := List.mem_map.1 hp
    obtain ⟨hc, hn⟩ := h.linked q hq
    rw [definition_renewed]
    exact ⟨hc, hn.trans (congrArg Key.name (key_renewed id report now q)).symm⟩
  · intro x hx
    obtain ⟨p, hp, hpx⟩ := h.owned x hx
    exact ⟨renewed id report now p, List.mem_map_of_mem hp, (id_renewed ..).trans hpx⟩

/-- What a successful registration gives: the definition of that name that is there,
    or the one that it adds. -/
theorem registered_eq_ok {c d : Check} {fresh : Identifier} {r' : Records}
    (h : r.registered c fresh = .ok (d, r')) :
    (r.check? c.name = some d ∧ r' = r) ∨
    (r.check? c.name = none ∧ d = c.identified fresh ∧ d.id ∉ r.checks.map Check.id
      ∧ r' = r.addCheck d) := by
  rw [registered] at h
  cases hname : r.check? c.name with
  | some e =>
      rw [hname] at h
      cases h
      exact Or.inl ⟨rfl, rfl⟩
  | none =>
      rw [hname] at h
      by_cases hid : (c.identified fresh).id ∈ r.checks.map Check.id
      · simp only [if_pos hid] at h
        exact nomatch h
      · simp only [if_neg hid] at h
        cases h
        exact Or.inr ⟨rfl, rfl, hid, rfl⟩

/-- Registering keeps records sound. -/
theorem Sound.registered (h : r.Sound) {c d : Check} {fresh : Identifier} {r' : Records}
    (hr : r.registered c fresh = .ok (d, r')) : r'.Sound := by
  rcases registered_eq_ok hr with ⟨-, rfl⟩ | ⟨hname, rfl, hid, rfl⟩
  · exact h
  · exact h.addCheck hid (by rw [Check.name_identified, hname])

/-- What a report that is taken over gives and leaves: it opens an entry, or renews
    one with a new transition or without. -/
theorem taken_eq_some {report : Entry} {now : Instant} {entryId transitionId : Identifier}
    {o : Outcome} {r' : Records} (h : r.taken report now entryId transitionId = some (o, r')) :
    (∃ c, r.linked? (.ofEntry report) = none ∧ r.check? report.name = some c
      ∧ o = ⟨entryId, true, true⟩ ∧ r' = r.opened report c now entryId transitionId) ∨
    (∃ p, r.linked? (.ofEntry report) = some p ∧ r.appends p.entry.id report = true
      ∧ o = ⟨p.entry.id, false, true⟩
      ∧ r' = (r.addTransition (.arrival transitionId p.entry.id report now)).renew
          p.entry.id report now) ∨
    (∃ p, r.linked? (.ofEntry report) = some p ∧ r.appends p.entry.id report = false
      ∧ o = ⟨p.entry.id, false, false⟩ ∧ r' = r.renew p.entry.id report now) := by
  rw [taken] at h
  cases hkey : r.linked? (.ofEntry report) with
  | none =>
      rw [hkey] at h
      obtain ⟨c, hname, hc⟩ := Option.map_eq_some_iff.1 h
      cases hc
      exact Or.inl ⟨c, rfl, hname, rfl, rfl⟩
  | some p =>
      rw [hkey] at h
      by_cases happ : r.appends p.entry.id report
      · simp only [if_pos happ] at h
        cases h
        exact Or.inr (Or.inl ⟨p, rfl, happ, rfl, rfl⟩)
      · simp only [if_neg happ] at h
        cases h
        exact Or.inr (Or.inr ⟨p, rfl, by simpa using happ, rfl, rfl⟩)

/-- A report is refused when its key has no entry and its name no definition. -/
theorem taken_eq_none {report : Entry} {now : Instant} {entryId transitionId : Identifier}
    (h : r.taken report now entryId transitionId = none) :
    r.linked? (.ofEntry report) = none ∧ r.check? report.name = none := by
  rw [taken] at h
  cases hkey : r.linked? (.ofEntry report) with
  | none =>
      rw [hkey] at h
      exact ⟨rfl, Option.map_eq_none_iff.1 h⟩
  | some p =>
      rw [hkey] at h
      by_cases happ : r.appends p.entry.id report
      · simp only [if_pos happ] at h
        exact nomatch h
      · simp only [if_neg happ] at h
        exact nomatch h

/-- Taking over a report with fresh identifiers leaves the records sound. -/
theorem Sound.taken (h : r.Sound) {report : Entry} {now : Instant}
    {entryId transitionId : Identifier} {o : Outcome} {r' : Records}
    (hentry : o.created = true → entryId ∉ r.entries.map (·.entry.id))
    (htransition : o.historyAppended = true → transitionId ∉ r.transitions.map Transition.id)
    (ht : r.taken report now entryId transitionId = some (o, r')) : r'.Sound := by
  rcases taken_eq_some ht with ⟨c, hkey, hname, rfl, rfl⟩ | ⟨p, hkey, -, rfl, rfl⟩
    | ⟨p, -, -, -, rfl⟩
  · obtain ⟨hc, hn⟩ := check?_eq_some hname
    -- the entry first, for its transition refers to it
    have hopen : (r.addEntry ⟨.first report c entryId now, c⟩).Sound :=
      h.addEntry (hentry rfl) hkey hc hn
    exact hopen.addTransition (htransition rfl)
      ⟨_, List.mem_append_right _ (List.mem_singleton.2 rfl), rfl⟩
  · have hadd : (r.addTransition (.arrival transitionId p.entry.id report now)).Sound :=
      h.addTransition (htransition rfl) ⟨p, (linked?_eq_some hkey).1, rfl⟩
    exact hadd.renew p.entry.id report now
  · exact h.renew p.entry.id report now

theorem sound_empty : ({} : Records).Sound where
  checkIds := List.nodup_nil
  checkNames := List.nodup_nil
  entryIds := List.nodup_nil
  entryKeys := List.nodup_nil
  transitionIds := List.nodup_nil
  linked := fun _ hp => nomatch hp
  owned := fun _ hx => nomatch hx

end Records

end Store

end HealthWatch
