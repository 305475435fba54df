import HealthWatch.Proofs.Store.History
import HealthWatch.Proofs.Text.Utf8

/-! # Refinement — the store as a map from keys to entries

    Of everything that a run reports, the reads of the store depend on two reports for
    each key: the first one, which gives the identifier, and the last one, which gives
    all that a report changes (`Reads`).

    The rows stand in the order in which they were stored, and an entry is found through
    the row of its definition; the readers sort, join and decode without losing an
    entry, without listing one twice and without a fault (`reads_of_run`). -/

namespace HealthWatch.Store

/-! ## The order of entries -/

/-- The octets of a text. -/
def octets (s : String) : List UInt8 := Text.Utf8.encode s.toList

theorem octets_lt {s t : String} (h : s < t) : octets s < octets t :=
  Text.Utf8.encode_lt (String.lt_iff.1 h)

/-- One entry stands before another one: by the octets of the name, and for one name by
    those of the server. -/
def Precedes (a b : Entry) : Prop :=
  octets a.name < octets b.name ∨ a.name = b.name ∧ octets a.serverName < octets b.serverName

namespace Records

variable {r : Records}

/-- Entries are ordered by name, and then by server. -/
theorem precedes_iff {p q : Linked} : precedes p q = true ↔ p.entry.name < q.entry.name
    ∨ p.entry.name = q.entry.name ∧ p.entry.serverName ≤ q.entry.serverName := by
  rw [precedes, Tables.precedes]
  show (if p.entry.name = q.entry.name then
    !(decide (q.entry.serverName < p.entry.serverName))
    else decide (p.entry.name < q.entry.name)) = true ↔ _
  by_cases hname : p.entry.name = q.entry.name
  · rw [if_pos hname, Bool.not_eq_true', decide_eq_false_iff_not, String.not_lt, hname]
    constructor
    · exact fun h => Or.inr ⟨rfl, h⟩
    · rintro (h | ⟨-, h⟩)
      · exact absurd h (String.lt_irrefl _)
      · exact h
  · rw [if_neg hname, decide_eq_true_iff]
    exact ⟨Or.inl, fun h => h.resolve_right fun he => hname he.1⟩

theorem precedes_trans (p q t : Linked) (hpq : precedes p q = true) (hqt : precedes q t = true) :
    precedes p t = true := by
  rw [precedes_iff] at hpq hqt ⊢
  rcases hpq with hpq | ⟨hpq, hps⟩
  · rcases hqt with hqt | ⟨hqt, -⟩
    · exact Or.inl (String.lt_trans hpq hqt)
    · exact Or.inl (hqt ▸ hpq)
  · rcases hqt with hqt | ⟨hqt, hqs⟩
    · exact Or.inl (hpq ▸ hqt)
    · exact Or.inr ⟨hpq.trans hqt, String.le_trans hps hqs⟩

theorem precedes_total (p q : Linked) : (precedes p q || precedes q p) = true := by
  rw [Bool.or_eq_true, precedes_iff, precedes_iff]
  by_cases hname : p.entry.name = q.entry.name
  · rcases String.le_total p.entry.serverName q.entry.serverName with h | h
    · exact Or.inl (Or.inr ⟨hname, h⟩)
    · exact Or.inr (Or.inr ⟨hname.symm, h⟩)
  · by_cases hlt : p.entry.name < q.entry.name
    · exact Or.inl (Or.inl hlt)
    · refine Or.inr (Or.inl (Decidable.byContradiction fun hge => hname ?_))
      exact String.le_antisymm (String.not_lt.1 hge) (String.not_lt.1 hlt)

/-- The rows of an application. -/
def ofApplication (applicationId : Identifier) (e : EntryRow) : Bool :=
  e.applicationId = applicationId.toText

theorem ofApplication_row {applicationId : Identifier} {p : Linked} :
    ofApplication applicationId p.row = true ↔ p.key.applicationId = applicationId := by
  rw [ofApplication, decide_eq_true_iff]
  exact Identifier.toText_inj

/-- Entries of one application that precede each other are one entry. -/
theorem Sound.precedes_antisymm (h : r.Sound) {applicationId : Identifier} {p q : Linked}
    (hp : p ∈ r.list (ofApplication applicationId))
    (hq : q ∈ r.list (ofApplication applicationId))
    (hpq : precedes p q = true) (hqp : precedes q p = true) : p = q := by
  obtain ⟨hpm, hpa⟩ := mem_list.1 hp
  obtain ⟨hqm, hqa⟩ := mem_list.1 hq
  have happlication : p.entry.applicationId = q.entry.applicationId :=
    (ofApplication_row.1 hpa).trans (ofApplication_row.1 hqa).symm
  -- neither name nor server can be smaller both ways
  have hsame : p.entry.name = q.entry.name ∧ p.entry.serverName = q.entry.serverName := by
    rw [precedes_iff] at hpq hqp
    rcases hpq with hpq | ⟨hname, hps⟩
    · rcases hqp with hqp | ⟨hname, -⟩
      · exact absurd (String.lt_trans hpq hqp) (String.lt_irrefl _)
      · exact absurd (hname ▸ hpq) (String.lt_irrefl _)
    · rcases hqp with hqp | ⟨-, hqs⟩
      · exact absurd (hname ▸ hqp) (String.lt_irrefl _)
      · exact ⟨hname, String.le_antisymm hps hqs⟩
  have hkey : p.key = q.key := by
    rw [Linked.key, Linked.key, Key.ofEntry, Key.ofEntry, happlication, hsame.1, hsame.2]
  have hfind := h.linked?_of_mem hpm
  rw [hkey, h.linked?_of_mem hqm] at hfind
  exact (Option.some.inj hfind).symm

/-- Entries are listed in order. -/
theorem pairwise_list (r : Records) (test : EntryRow → Bool) :
    (r.list test).Pairwise fun p q => precedes p q = true :=
  List.pairwise_mergeSort precedes_trans precedes_total _

/-- Each of them is listed once. -/
theorem Sound.nodup_list (h : r.Sound) (test : EntryRow → Bool) : (r.list test).Nodup := by
  have hentries : r.entries.Nodup := by
    refine (List.pairwise_map.1 h.entryIds).imp ?_
    intro p q hne he
    exact hne (congrArg (·.entry.id) he)
  exact (List.mergeSort_perm _ _).nodup_iff.2 (hentries.filter _)

/-- The entries of an application stand in the order of the octets of name and server. -/
theorem Sound.sorted_list (h : r.Sound) (applicationId : Identifier) :
    ((r.list (ofApplication applicationId)).map Linked.value).Pairwise Precedes := by
  rw [List.pairwise_map]
  have hboth := (r.pairwise_list (ofApplication applicationId)).and
    (h.nodup_list (ofApplication applicationId))
  -- two entries in this order are different ones, so the order is strict
  refine hboth.imp_of_mem ?_
  rintro p q hp hq ⟨hpq, hne⟩
  rcases precedes_iff.1 hpq with hname | ⟨hname, hserver⟩
  · exact Or.inl (octets_lt hname)
  · refine Or.inr ⟨hname, octets_lt ?_⟩
    refine Decidable.byContradiction fun hge => hne ?_
    refine h.precedes_antisymm hp hq hpq (precedes_iff.2 (Or.inr ⟨hname.symm, ?_⟩))
    exact String.not_lt.1 hge

/-- The entries of one check are those of its application that have its name. -/
theorem Sound.list_of_name (h : r.Sound) (applicationId : Identifier) (name : String) :
    (r.list fun e => e.applicationId = applicationId.toText && e.name = name)
      = (r.list (ofApplication applicationId)).filter fun p => p.entry.name = name := by
  -- both lists are sorted and hold the same entries
  refine List.Perm.eq_of_pairwise ?_ (r.pairwise_list _)
    ((r.pairwise_list (ofApplication applicationId)).filter _) ?_
  · intro p q hp hq hpq hqp
    refine h.precedes_antisymm ?_ (List.mem_filter.1 hq).1 hpq hqp
    obtain ⟨hpm, hpt⟩ := mem_list.1 hp
    exact mem_list.2 ⟨hpm, (Bool.and_eq_true_iff.1 hpt).1⟩
  · refine (List.mergeSort_perm _ _).trans ?_
    refine List.Perm.trans ?_ ((List.mergeSort_perm _ _).symm.filter _)
    rw [List.filter_filter]
    refine List.Perm.of_eq (List.filter_congr ?_)
    intro p _
    rw [Bool.and_comm]
    rfl

/-! ## What the store reads -/

/-- The store finds the definition that the records have. -/
theorem find?_store (r : Records) (name : String) : r.store.find? name = .ok (r.check? name) := by
  rw [Store.find?, Store.read, store, if_neg Bool.false_ne_true, findCheck?_tables]
  rfl

/-- The store reads the entries of an application in the order of the records. -/
theorem entries_store (h : r.Sound) (applicationId : Identifier) : r.store.entries applicationId
    = .ok ((r.list (ofApplication applicationId)).map Linked.value) := by
  rw [Store.entries, Store.read, store, if_neg Bool.false_ne_true, Tables.applicationEntries,
    list_tables h]
  rfl

/-- It reads those of a check with their histories. -/
theorem checkEntries_store (h : r.Sound) (applicationId : Identifier) (name : String) :
    r.store.checkEntries applicationId name
      = .ok (((r.list (ofApplication applicationId)).filter fun p => p.entry.name = name).map
          r.valueWithHistory) := by
  rw [Store.checkEntries, Store.read, store, if_neg Bool.false_ne_true, checkEntries_tables h,
    h.list_of_name]
  rfl

end Records

/-! ## The map from keys to entries -/

/-- The entry of a key by its definition, its first report and its last one. -/
def summary (k : Key) (definition : Check) (first last : Taken) : Entry where
  id := first.outcome.entryId
  applicationId := k.applicationId
  serverName := k.serverName
  name := k.name
  description := last.report.description
  status := last.report.status
  lastExecution := last.now
  lastDuration := last.report.lastDuration.truncate
  check := some definition
  history := none

/-- What the store reads after a run with this log: no read fails, an application lists
    the summaries of its keys in their order, and a check those of its name with their
    histories. -/
structure Reads (s : Store) (log : List Taken) (histories : Identifier → List Transition)
    (listing : Identifier → List Entry) : Prop where
  history : ∀ entryId, s.history entryId = .ok (histories entryId)
  entries : ∀ applicationId, s.entries applicationId = .ok (listing applicationId)
  checkEntries : ∀ applicationId name, s.checkEntries applicationId name
    = .ok (((listing applicationId).filter fun e => e.name = name).map
        fun e => { e with history := some (histories e.id) })
  sorted : ∀ applicationId, (listing applicationId).Pairwise Precedes
  mem_listing : ∀ applicationId e, e ∈ listing applicationId ↔
    ∃ k first later definition, k.applicationId = applicationId
      ∧ ofKey k log = first :: later
      ∧ s.find? k.name = .ok (some definition)
      ∧ e = summary k definition first (later.getLastD first)

theorem key_of_ofKey {k : Key} {log xs : List Taken} {x : Taken} (h : ofKey k log = x :: xs) :
    x.key = k := by
  have hmem : x ∈ ofKey k log := h ▸ List.mem_cons_self ..
  exact of_decide_eq_true (List.mem_filter.1 hmem).2

/-- What the reports of a key leave reads as their summary. -/
theorem value_entryOf {k : Key} (c : Check) {x : Taken} (xs : List Taken) (hx : x.key = k) :
    (Linked.mk (entryOf c x xs) c).value = summary k c x (xs.getLastD x) := by
  subst hx
  rw [entryOf_eq]
  rfl

/-- What is read of the records is what their log promises. -/
theorem Records.Tracks.reads {r : Records} {given : List Check} {log : List Taken}
    (h : r.Tracks given log) (hs : r.Sound) :
    Reads r.store log (fun entryId => (r.history entryId).map Transition.kept)
      (fun applicationId => (r.list (Records.ofApplication applicationId)).map Linked.value) where
  history := history_store r
  entries := Records.entries_store hs
  checkEntries := by
    intro applicationId name
    rw [Records.checkEntries_store hs, List.filter_map, List.map_map]
    rfl
  sorted := hs.sorted_list
  mem_listing := by
    intro applicationId e
    constructor
    · intro he
      -- every listed entry is what the reports of its key left
      obtain ⟨p, hp, rfl⟩ := List.mem_map.1 he
      obtain ⟨hpm, happlication⟩ := Records.mem_list.1 hp
      obtain ⟨x, xs, hl, hname, hentry⟩ := h.linked?_eq_some (hs.linked?_of_mem hpm)
      refine ⟨p.key, x, xs, p.definition, Records.ofApplication_row.1 happlication, hl, ?_, ?_⟩
      · rw [Records.find?_store, hname]
      · rw [← value_entryOf p.definition xs (key_of_ofKey hl), ← hentry]
    · rintro ⟨k, x, xs, d, rfl, hl, hd, rfl⟩
      -- every key with a report has its entry among those that are listed
      have hk := h.entries k
      rw [hl] at hk
      obtain ⟨c, hname, hc⟩ := hk
      rw [Records.find?_store, hname] at hd
      cases hd
      obtain ⟨hpm, hpk⟩ := Records.linked?_eq_some hc
      rw [← value_entryOf d xs (key_of_ofKey hl)]
      refine List.mem_map_of_mem (Records.mem_list.2 ⟨hpm, Records.ofApplication_row.2 ?_⟩)
      rw [hpk]

/-- A report of a registered check is taken over, and one of another check changes
    nothing. -/
theorem Records.ingest_store_registered {r : Records} (hs : r.Sound) {report : Entry}
    {now : Instant} {entryId transitionId : Identifier}
    (hf : r.store.Fresh (.ingest report now entryId transitionId)) :
    match r.check? report.name with
    | none => r.store.ingest report (some now) entryId transitionId
        = (.error (.unregistered report.name), r.store)
    | some _ => ∃ o, (r.store.ingest report (some now) entryId transitionId).1 = .ok o := by
  rw [ingest_store hs hf, taken]
  cases hkey : r.linked? (.ofEntry report) with
  | none =>
      cases hname : r.check? report.name with
      | none => rfl
      | some c => exact ⟨_, rfl⟩
  | some p =>
      obtain ⟨hpm, hpk⟩ := linked?_eq_some hkey
      -- the key has an entry already, so its name has a definition
      have hname : r.check? report.name = some p.definition := by
        rw [← hs.check?_of_entry hpm]
        exact congrArg (fun k : Key => r.check? k.name) hpk.symm
      rw [hname]
      by_cases happ : r.appends p.entry.id report
      · simp only [if_pos happ]
        exact ⟨_, rfl⟩
      · simp only [if_neg happ]
        exact ⟨_, rfl⟩

/-- After every fresh run, whatever its texts, durations and clock readings are, the
    reads of the store give the summaries of the keys that were reported.  A next report
    is taken over exactly when its check is registered, and of the report only the key,
    the description, the status and the duration count. -/
theorem reads_of_run {calls : List Call} (hfresh : empty.FreshRun calls) :
    (∃ histories listing, Reads (empty.run calls) (empty.log calls) histories listing)
      ∧ (∀ report now entryId transitionId,
          (empty.run calls).Fresh (.ingest report now entryId transitionId) →
          ((empty.run calls).find? report.name = .ok none
            ∧ (empty.run calls).ingest report (some now) entryId transitionId
              = (.error (.unregistered report.name), empty.run calls))
          ∨ ∃ definition o, (empty.run calls).find? report.name = .ok (some definition)
            ∧ ((empty.run calls).ingest report (some now) entryId transitionId).1 = .ok o)
      ∧ (∀ report now entryId transitionId id lastExecution check history,
          (empty.run calls).ingest { report with id, lastExecution, check, history } now
            entryId transitionId
          = (empty.run calls).ingest report now entryId transitionId) := by
  obtain ⟨r, hrun, hs, htracks⟩ := exists_records hfresh
  rw [hrun]
  refine ⟨⟨_, _, htracks.reads hs⟩, ?_, ?_⟩
  · intro report now entryId transitionId hnext
    have hingest := Records.ingest_store_registered hs hnext
    cases hname : r.check? report.name with
    | none =>
        rw [hname] at hingest
        exact Or.inl ⟨by rw [Records.find?_store, hname], hingest⟩
    | some c =>
        rw [hname] at hingest
        obtain ⟨o, ho⟩ := hingest
        exact Or.inr ⟨c, o, by rw [Records.find?_store, hname], ho⟩
  · intro report now entryId transitionId id lastExecution check history
    cases now <;> rfl

theorem Sample.given_calls : empty.given calls = [check.identified (.ofNat 1)] := by
  decide +kernel

theorem Sample.find?_calls :
    (empty.run calls).find? "disk" = .ok (some (check.identified (.ofNat 1))) := by
  obtain ⟨r, hrun, -, htracks⟩ := exists_records freshRun_calls
  rw [hrun, Records.find?_store, htracks.checks, given_calls]
  rfl

/-- The entry of two reports is listed with what the second one said. -/
theorem reads_of_two_reports :
    ∃ entries, (empty.run Sample.calls).entries (.ofNat 7) = .ok entries
      ∧ summary Sample.later.key (Sample.check.identified (.ofNat 1)) Sample.first Sample.later
        ∈ entries := by
  obtain ⟨histories, listing, h⟩ := (reads_of_run Sample.freshRun_calls).1
  refine ⟨listing (.ofNat 7), h.entries (.ofNat 7), (h.mem_listing _ _).2 ?_⟩
  exact ⟨Sample.later.key, Sample.first, [Sample.later], _, rfl, Sample.log_calls,
    Sample.find?_calls, rfl⟩

end HealthWatch.Store
