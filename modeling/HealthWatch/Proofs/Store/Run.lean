import HealthWatch.Proofs.Store.Changes
import HealthWatch.Store.Basic

/-! # Runs — what the calls of a run leave in the store

    A run is a list of calls that register definitions and take over reports.  Its log
    holds, in their order, the reports that were taken over, each with its outcome, and
    the definitions that registrations gave.

    * `Fresh` says that the identifiers a call offers are not stored yet;
    * `Tracks` ties the records of a store to the log: an entry is what the reports of
      its key leave, and the transitions are those that the log says were appended;
    * `exists_records`: after every fresh run the store holds sound records that track
      its log. -/

namespace HealthWatch.Store

/-! ## Runs and their logs -/

/-- A call that changes the store, with the identifiers it offers. -/
inductive Call where
  | register (definition : Check) (fresh : Identifier)
  | ingest (report : Entry) (now : Instant) (entryId transitionId : Identifier)
deriving DecidableEq, Repr

/-- The store after a call, whether the call succeeds or fails. -/
def after (s : Store) : Call → Store
  | .register c fresh => (s.register c fresh).2
  | .ingest report now entryId transitionId =>
      (s.ingest report (some now) entryId transitionId).2

/-- The store after a run. -/
def run (s : Store) (calls : List Call) : Store := calls.foldl after s

/-- A report that was taken over. -/
structure Taken where
  report : Entry
  now : Instant
  transitionId : Identifier
  outcome : Outcome
deriving DecidableEq, Repr

/-- The report that a call makes the store take over. -/
def taken? (s : Store) : Call → Option Taken
  | .register _ _ => none
  | .ingest report now entryId transitionId =>
      (s.ingest report (some now) entryId transitionId).1.toOption.map
        fun outcome => { report, now, transitionId, outcome }

/-- The definition that a call gives. -/
def given? (s : Store) : Call → Option Check
  | .register c fresh => (s.register c fresh).1.toOption
  | .ingest _ _ _ _ => none

/-- The reports that a run makes the store take over. -/
def log (s : Store) : List Call → List Taken
  | [] => []
  | call :: rest => (s.taken? call).toList ++ (s.after call).log rest

/-- The definitions that the registrations of a run give. -/
def given (s : Store) : List Call → List Check
  | [] => []
  | call :: rest => (s.given? call).toList ++ (s.after call).given rest

/-- The identifiers that a call offers are not stored yet. -/
def Fresh (s : Store) : Call → Prop
  | .register _ fresh => fresh ≠ .nil ∧ ∀ row ∈ s.tables.checks, row.id ≠ fresh.toText
  | .ingest _ _ entryId transitionId =>
      (∀ row ∈ s.tables.entries, row.id ≠ entryId.toText)
        ∧ ∀ row ∈ s.tables.transitions, row.id ≠ transitionId.toText

/-- Each call of a run offers identifiers that are not stored when its turn comes. -/
def FreshRun (s : Store) : List Call → Prop
  | [] => True
  | call :: rest => s.Fresh call ∧ (s.after call).FreshRun rest

instance (s : Store) (call : Call) : Decidable (s.Fresh call) :=
  match call with
  | .register _ _ => inferInstanceAs (Decidable (_ ∧ _))
  | .ingest _ _ _ _ => inferInstanceAs (Decidable (_ ∧ _))

instance decidableFreshRun (s : Store) (calls : List Call) : Decidable (s.FreshRun calls) :=
  match calls with
  | [] => .isTrue trivial
  | call :: rest =>
      have := decidableFreshRun (s.after call) rest
      inferInstanceAs (Decidable (_ ∧ _))

/-! ## What reports leave -/

namespace Taken

/-- What names the entry of a report. -/
def key (x : Taken) : Key := .ofEntry x.report

/-- The transition that a report makes. -/
def row (x : Taken) : Transition := .arrival x.transitionId x.outcome.entryId x.report x.now

end Taken

/-- The reports for a key. -/
def ofKey (k : Key) (xs : List Taken) : List Taken := xs.filter fun x => x.key = k

/-- The transitions that reports left, the oldest first. -/
def rowsOf (xs : List Taken) : List Transition :=
  (xs.filter fun x => x.outcome.historyAppended).map Taken.row

/-- The transitions that reports left, as a history lists them. -/
def historyOf (xs : List Taken) : List Transition :=
  (rowsOf xs).reverse.mergeSort Records.notBefore

theorem historyOf_nil : historyOf [] = [] := List.mergeSort_nil

/-- The entry that the reports for a key leave, of which `x` is the first. -/
def entryOf (c : Check) (x : Taken) (xs : List Taken) : Entry :=
  xs.foldl (fun e y => e.update y.report y.now) (.first x.report c x.outcome.entryId x.now)

/-- Reports for one key with the outcomes that they have one after the other: all have
    the same entry, the first one makes it, and a report appends a transition when the
    history so far does not start with its status. -/
inductive Course : List Taken → Prop
  | nil : Course []
  | concat {xs : List Taken} {y : Taken} : Course xs →
      (∀ x ∈ xs, x.outcome.entryId = y.outcome.entryId) →
      y.outcome.created = xs.isEmpty →
      y.outcome.historyAppended
        = decide ((historyOf xs).head?.map Transition.status ≠ some y.report.status) →
      Course (xs ++ [y])

/-- All reports of a course have one entry. -/
theorem Course.entryId {xs : List Taken} (h : Course xs) :
    ∀ x ∈ xs, ∀ y ∈ xs, x.outcome.entryId = y.outcome.entryId := by
  induction h with
  | nil => exact fun x hx => nomatch hx
  | concat _ hid _ _ ih =>
      intro x hx y hy
      rcases List.mem_append.1 hx with hx | hx
      · rcases List.mem_append.1 hy with hy | hy
        · exact ih x hx y hy
        · rw [List.mem_singleton.1 hy, hid x hx]
      · rw [List.mem_singleton.1 hx]
        rcases List.mem_append.1 hy with hy | hy
        · exact (hid y hy).symm
        · rw [List.mem_singleton.1 hy]

theorem ofKey_concat_self {k : Key} {y : Taken} (h : y.key = k) (xs : List Taken) :
    ofKey k (xs ++ [y]) = ofKey k xs ++ [y] := by
  simp [ofKey, h]

theorem ofKey_concat_other {k : Key} {y : Taken} (h : y.key ≠ k) (xs : List Taken) :
    ofKey k (xs ++ [y]) = ofKey k xs := by
  simp [ofKey, h]

/-- A report adds its row when it changed the history. -/
theorem rowsOf_concat (xs : List Taken) (y : Taken) :
    rowsOf (xs ++ [y]) = rowsOf xs ++ if y.outcome.historyAppended then [y.row] else [] := by
  rw [rowsOf, List.filter_append, List.map_append, ← rowsOf]
  cases h : y.outcome.historyAppended with
  | true => simp [h]
  | false => simp [h]

/-- A report updates the entry of those before it. -/
theorem entryOf_concat (c : Check) (x y : Taken) (xs : List Taken) :
    entryOf c x (xs ++ [y]) = (entryOf c x xs).update y.report y.now := by
  rw [entryOf, List.foldl_append]
  rfl

/-- Only the last report decides what a report changes. -/
theorem entryOf_eq (c : Check) (x : Taken) (xs : List Taken) :
    entryOf c x xs = (Entry.first x.report c x.outcome.entryId x.now).update
      (xs.getLastD x).report (xs.getLastD x).now := by
  rcases List.eq_nil_or_concat xs with rfl | ⟨ys, y, rfl⟩
  · rfl
  · rw [List.concat_eq_append, List.getLastD_concat, entryOf_concat, entryOf]
    -- each update overwrites what the one before wrote, from any entry on
    generalize Entry.first x.report c x.outcome.entryId x.now = e
    induction ys generalizing e with
    | nil => rfl
    | cons z zs ih => exact ih (e.update z.report z.now)

/-- Reports change neither the identifier nor the key of an entry. -/
theorem id_entryOf (c : Check) (x : Taken) (xs : List Taken) :
    (entryOf c x xs).id = x.outcome.entryId
      ∧ Key.ofEntry (entryOf c x xs) = x.key := by
  rw [entryOf_eq]
  exact ⟨rfl, rfl⟩

namespace Records

/-- What records hold for a key after these reports: no entry when there are none, and
    otherwise the entry that they leave, which belongs to the definition of its name. -/
def Holds (r : Records) (k : Key) : List Taken → Prop
  | [] => r.linked? k = none
  | x :: xs => ∃ c, r.check? k.name = some c ∧ r.linked? k = some ⟨entryOf c x xs, c⟩

/-- The records are what a run with this log leaves. -/
structure Tracks (r : Records) (given : List Check) (log : List Taken) : Prop where
  checks : ∀ name, r.check? name = given.find? fun c => c.name = name
  given : ∀ d ∈ given, r.check? d.name = some d
  entries : ∀ k, r.Holds k (ofKey k log)
  courses : ∀ k, Course (ofKey k log)
  transitions : r.transitions = rowsOf log

variable {r : Records} {given : List Check} {log : List Taken}

theorem tracks_empty : ({} : Records).Tracks [] [] where
  checks := fun _ => rfl
  given := fun _ hd => nomatch hd
  entries := fun _ => rfl
  courses := fun _ => .nil
  transitions := rfl

/-- A key has an entry exactly when a report for it was taken over. -/
theorem Tracks.linked?_eq_none (h : r.Tracks given log) {k : Key} :
    r.linked? k = none ↔ ofKey k log = [] := by
  have hk := h.entries k
  cases hl : ofKey k log with
  | nil =>
      rw [hl] at hk
      exact ⟨fun _ => rfl, fun _ => hk⟩
  | cons x xs =>
      rw [hl] at hk
      obtain ⟨c, -, hc⟩ := hk
      rw [hc]
      exact iff_of_false (fun he => nomatch he) (fun he => nomatch he)

/-- The entry of a key is what its reports leave. -/
theorem Tracks.linked?_eq_some (h : r.Tracks given log) {k : Key} {p : Linked}
    (hp : r.linked? k = some p) :
    ∃ x xs, ofKey k log = x :: xs ∧ r.check? k.name = some p.definition
      ∧ p.entry = entryOf p.definition x xs := by
  have hk := h.entries k
  cases hl : ofKey k log with
  | nil =>
      rw [hl] at hk
      rw [show r.linked? k = none from hk] at hp
      exact nomatch hp
  | cons x xs =>
      rw [hl] at hk
      obtain ⟨c, hname, hc⟩ := hk
      rw [hc] at hp
      cases hp
      exact ⟨x, xs, rfl, hname, rfl⟩

/-- A report was taken over for the entry of its key. -/
theorem Tracks.entry_of_mem (h : r.Tracks given log) {y : Taken} (hy : y ∈ log) :
    ∃ p, r.linked? y.key = some p ∧ p.entry.id = y.outcome.entryId := by
  have hmem : y ∈ ofKey y.key log := List.mem_filter.2 ⟨hy, decide_eq_true rfl⟩
  cases hp : r.linked? y.key with
  | none =>
      rw [h.linked?_eq_none.1 hp] at hmem
      exact nomatch hmem
  | some p =>
      obtain ⟨x, xs, hl, -, hentry⟩ := h.linked?_eq_some hp
      have hcourse := h.courses y.key
      rw [hl] at hcourse hmem
      refine ⟨p, rfl, ?_⟩
      rw [hentry, (id_entryOf p.definition x xs).1]
      exact hcourse.entryId x (List.mem_cons_self ..) y hmem

/-- Entries with one identifier are one entry. -/
theorem Sound.entry_inj (h : r.Sound) {p q : Linked} (hp : p ∈ r.entries) (hq : q ∈ r.entries)
    (he : p.entry.id = q.entry.id) : p = q := by
  have h1 := find?_of_nodup h.entryIds hp
  have h2 := find?_of_nodup h.entryIds hq
  rw [he] at h1
  exact Option.some.inj (h1.symm.trans h2)

/-- The history of an entry is what the reports of its key left. -/
theorem Tracks.history_eq (h : r.Tracks given log) (hs : r.Sound) {k : Key} {p : Linked}
    (hp : r.linked? k = some p) : r.history p.entry.id = historyOf (ofKey k log) := by
  -- entries of two keys have two identifiers, so the owner of a row tells its key
  have howner : ∀ y ∈ log, y.outcome.entryId = p.entry.id ↔ y.key = k := by
    intro y hy
    obtain ⟨q, hq, hid⟩ := h.entry_of_mem hy
    obtain ⟨hqm, hqk⟩ := Records.linked?_eq_some hq
    obtain ⟨hpm, hpk⟩ := Records.linked?_eq_some hp
    constructor
    · intro he
      rw [← hqk, hs.entry_inj hqm hpm (hid.trans he), hpk]
    · rintro rfl
      rw [← hid, Option.some.inj (hq.symm.trans hp)]
  have hrows : (rowsOf log).filter (fun x => x.entryId = p.entry.id) = rowsOf (ofKey k log) := by
    rw [rowsOf, rowsOf, ofKey, List.filter_map, List.filter_filter, List.filter_filter]
    refine congrArg (List.map Taken.row) (List.filter_congr ?_)
    intro y hy
    have : (decide (y.row.entryId = p.entry.id)) = decide (y.key = k) :=
      decide_eq_decide.2 (howner y hy)
    rw [Function.comp_apply, this, Bool.and_comm]
  rw [history, h.transitions, hrows, historyOf]

/-! ## One step -/

/-- A definition is found under its name, after those before it. -/
theorem check?_addCheck (r : Records) (c : Check) (name : String) :
    (r.addCheck c).check? name
      = (r.check? name).or (if c.name = name then some c else none) := by
  rw [check?, addCheck, List.find?_append, ← check?, List.find?_singleton]
  simp only [decide_eq_true_eq]

/-- A new entry is found under its key. -/
theorem linked?_opened (r : Records) (report : Entry) (c : Check) (now : Instant)
    (entryId transitionId : Identifier) (k : Key) :
    (r.opened report c now entryId transitionId).linked? k
      = (r.linked? k).or
          (if Key.ofEntry report = k then some ⟨.first report c entryId now, c⟩ else none) := by
  rw [linked?, opened, addTransition, addEntry, List.find?_append, ← linked?, List.find?_singleton]
  simp only [decide_eq_true_eq]
  rfl

/-- A renewed entry is found where it was. -/
theorem linked?_renew (r : Records) (id : Identifier) (report : Entry) (now : Instant) (k : Key) :
    (r.renew id report now).linked? k = (r.linked? k).map (renewed id report now) := by
  rw [linked?, renew, List.find?_map, linked?]
  simp only [Function.comp_def, key_renewed]

/-- A report for a key renews its entry and no other. -/
theorem linked?_renew_of_linked (hs : r.Sound) {k : Key} {p : Linked} (hp : r.linked? k = some p)
    (report : Entry) (now : Instant) (k' : Key) :
    (r.renew p.entry.id report now).linked? k'
      = if k = k' then some { p with entry := p.entry.update report now } else r.linked? k' := by
  rw [linked?_renew]
  by_cases hk : k = k'
  · rw [if_pos hk, ← hk, hp, Option.map_some, renewed, if_pos rfl]
  · rw [if_neg hk]
    cases hq : r.linked? k' with
    | none => rfl
    | some q =>
        obtain ⟨hpm, hpk⟩ := Records.linked?_eq_some hp
        obtain ⟨hqm, hqk⟩ := Records.linked?_eq_some hq
        -- the entry of another key has another identifier
        have hne : q.entry.id ≠ p.entry.id := by
          intro he
          refine hk ?_
          rw [← hpk, ← hqk, hs.entry_inj hqm hpm he]
        rw [Option.map_some, renewed, if_neg hne]

/-- Records hold for a key what they held when neither its entry nor its definition
    changes. -/
theorem Holds.of_eq {r r' : Records} {k : Key} {xs : List Taken} (h : r.Holds k xs)
    (hentry : r'.linked? k = r.linked? k)
    (hcheck : ∀ c, r.check? k.name = some c → r'.check? k.name = some c) : r'.Holds k xs := by
  cases xs with
  | nil => exact hentry.trans h
  | cons x xs =>
      obtain ⟨c, hname, hc⟩ := h
      exact ⟨c, hcheck c hname, hentry.trans hc⟩

/-- A registration adds the definition it gives to the log. -/
theorem Tracks.registered (h : r.Tracks given log) {c d : Check} {fresh : Identifier}
    {r' : Records} (hr : r.registered c fresh = .ok (d, r')) :
    r'.Tracks (given ++ [d]) log := by
  rcases registered_eq_ok hr with ⟨hname, rfl⟩ | ⟨hname, rfl, -, rfl⟩
  · -- the name was there: what is given is what its first registration gave
    have hd : r'.check? d.name = some d := by
      rw [(check?_eq_some hname).2, hname]
    refine { h with checks := ?_, given := ?_ }
    · intro name
      rw [List.find?_append, ← h.checks, List.find?_singleton]
      by_cases hdn : d.name = name
      · rw [← hdn, hd]
        rfl
      · rw [if_neg (by simpa using hdn), Option.or_none]
    · intro e he
      rcases List.mem_append.1 he with he | he
      · exact h.given e he
      · rw [List.mem_singleton.1 he, hd]
  · -- the name was new: the first registration of it is this one
    refine ⟨?_, ?_, ?_, h.courses, h.transitions⟩
    · intro name
      rw [List.find?_append, ← h.checks, List.find?_singleton, check?_addCheck]
      simp only [decide_eq_true_eq]
    · intro e he
      rw [check?_addCheck]
      rcases List.mem_append.1 he with he | he
      · rw [h.given e he, Option.some_or]
      · rw [List.mem_singleton.1 he, Check.name_identified, hname, if_pos rfl, Option.none_or]
    · intro k
      refine (h.entries k).of_eq rfl ?_
      intro e he
      rw [check?_addCheck, he, Option.some_or]

/-- A first report opens an entry. -/
theorem Tracks.opened (h : r.Tracks given log) {report : Entry} {c : Check} {now : Instant}
    {entryId transitionId : Identifier} (hkey : r.linked? (.ofEntry report) = none)
    (hname : r.check? report.name = some c) :
    (r.opened report c now entryId transitionId).Tracks given
      (log ++ [⟨report, now, transitionId, ⟨entryId, true, true⟩⟩]) := by
  let y : Taken := ⟨report, now, transitionId, ⟨entryId, true, true⟩⟩
  have hnone : ofKey y.key log = [] := h.linked?_eq_none.1 hkey
  refine ⟨h.checks, h.given, ?_, ?_, ?_⟩
  · intro k
    by_cases hk : y.key = k
    · -- the report is the first one of its key, and the other keys keep what they have
      rw [ofKey_concat_self hk, ← hk, hnone]
      refine ⟨c, hname, ?_⟩
      rw [linked?_opened, show r.linked? y.key = none from hkey, Option.none_or]
      exact if_pos rfl
    · rw [ofKey_concat_other hk]
      refine (h.entries k).of_eq ?_ fun _ he => he
      rw [linked?_opened, if_neg (show Key.ofEntry report ≠ k from hk), Option.or_none]
  · intro k
    by_cases hk : y.key = k
    · rw [ofKey_concat_self hk, ← hk, hnone]
      exact Course.nil.concat (fun x hx => nomatch hx) rfl (by rw [historyOf_nil]; rfl)
    · rw [ofKey_concat_other hk]
      exact h.courses k
  · rw [rowsOf_concat, ← h.transitions]
    rfl

/-- A later report renews the entry of its key, and appends a transition when the
    history starts with another status. -/
theorem Tracks.renewed (h : r.Tracks given log) (hs : r.Sound) {y : Taken} {p : Linked}
    (hp : r.linked? y.key = some p)
    (ho : y.outcome = ⟨p.entry.id, false, r.appends p.entry.id y.report⟩) {r' : Records}
    (hchecks : r'.checks = r.checks)
    (hentries : r'.entries = (r.renew p.entry.id y.report y.now).entries)
    (htransitions : r'.transitions
      = r.transitions ++ if y.outcome.historyAppended then [y.row] else []) :
    r'.Tracks given (log ++ [y]) := by
  obtain ⟨x, xs, hl, hname, hentry⟩ := h.linked?_eq_some hp
  have hid : p.entry.id = x.outcome.entryId := by
    rw [hentry]
    exact (id_entryOf p.definition x xs).1
  have hcheck? : ∀ name, r'.check? name = r.check? name := by
    intro name
    rw [check?, hchecks, check?]
  have hlinked? : ∀ k, r'.linked? k = if y.key = k
      then some { p with entry := p.entry.update y.report y.now } else r.linked? k := by
    intro k
    rw [← linked?_renew_of_linked hs hp, linked?, hentries, linked?]
  refine ⟨fun name => (hcheck? name).trans (h.checks name),
    fun d hd => (hcheck? d.name).trans (h.given d hd), ?_, ?_, ?_⟩
  · intro k
    by_cases hk : y.key = k
    · -- the entry takes one more report, and the other keys keep what they have
      rw [ofKey_concat_self hk, ← hk, hl, List.cons_append]
      refine ⟨p.definition, (hcheck? _).trans hname, ?_⟩
      rw [hlinked?, if_pos rfl, entryOf_concat, ← hentry]
    · rw [ofKey_concat_other hk]
      refine (h.entries k).of_eq ?_ fun c hc => (hcheck? _).trans hc
      rw [hlinked?, if_neg hk]
  · intro k
    by_cases hk : y.key = k
    · have hcourse := h.courses y.key
      rw [ofKey_concat_self hk, ← hk]
      refine hcourse.concat ?_ ?_ ?_
      · intro z hz
        rw [hl] at hcourse hz
        rw [ho, hcourse.entryId z hz x (List.mem_cons_self ..), hid]
      · rw [ho, hl]
        rfl
      · -- the decision looks at the history in the store, which is that of the log
        rw [ho, appends, h.history_eq hs hp]
    · rw [ofKey_concat_other hk]
      exact h.courses k
  · rw [htransitions, h.transitions, rowsOf_concat]

/-- A report that is taken over is added to the log. -/
theorem Tracks.taken (h : r.Tracks given log) (hs : r.Sound) {report : Entry} {now : Instant}
    {entryId transitionId : Identifier} {o : Outcome} {r' : Records}
    (ht : r.taken report now entryId transitionId = some (o, r')) :
    r'.Tracks given (log ++ [⟨report, now, transitionId, o⟩]) := by
  rcases taken_eq_some ht with ⟨c, hkey, hname, rfl, rfl⟩ | ⟨p, hp, happ, rfl, rfl⟩
    | ⟨p, hp, happ, rfl, rfl⟩
  · exact h.opened hkey hname
  · exact h.renewed (y := ⟨report, now, transitionId, ⟨p.entry.id, false, true⟩⟩) hs hp
      (by rw [happ]) rfl rfl rfl
  · exact h.renewed (y := ⟨report, now, transitionId, ⟨p.entry.id, false, false⟩⟩) hs hp
      (by rw [happ]) rfl rfl (List.append_nil _).symm

/-! ## Whole runs -/

/-- The store that holds these records. -/
def store (r : Records) : Store := { tables := r.tables, poisoned := false }

/-- Registering does to the store what it does to the records. -/
theorem register_store (r : Records) (c : Check) (fresh : Identifier) :
    r.store.register c fresh
      = match r.registered c fresh with
        | .ok (d, r') => (.ok d, r'.store)
        | .error e => (.error (.table e), r.store) := by
  rw [Store.register, change, store, if_neg Bool.false_ne_true]
  simp only [register_tables]
  cases r.registered c fresh with
  | error e => rfl
  | ok x => rfl

/-- Identifiers that are fresh for the store are in none of its records. -/
theorem fresh_store_ingest {report : Entry} {now : Instant} {entryId transitionId : Identifier}
    (h : r.store.Fresh (.ingest report now entryId transitionId)) :
    entryId ∉ r.entries.map (·.entry.id) ∧ transitionId ∉ r.transitions.map Transition.id := by
  obtain ⟨hentry, htransition⟩ := h
  constructor
  · intro hmem
    obtain ⟨p, hp, rfl⟩ := List.mem_map.1 hmem
    exact hentry p.row (List.mem_map_of_mem hp) rfl
  · intro hmem
    obtain ⟨x, hx, rfl⟩ := List.mem_map.1 hmem
    exact htransition (.ofTransition x) (List.mem_map_of_mem hx) rfl

/-- A report does to the store what `ingested` does to its records; a fault leaves it as
    it was. -/
theorem ingest_store_eq (hs : r.Sound) (report : Entry) (now : Instant)
    (entryId transitionId : Identifier) :
    r.store.ingest report (some now) entryId transitionId
      = match r.ingested report now entryId transitionId with
        | .ok (o, r') => (.ok o, r'.store)
        | .error e => (.error e, r.store) := by
  rw [Store.ingest, change, store, if_neg Bool.false_ne_true]
  simp only [ingest_tables hs]
  cases r.ingested report now entryId transitionId with
  | error e => rfl
  | ok x => rfl

/-- Taking over a report does to the store what it does to the records. -/
theorem ingest_store (hs : r.Sound) {report : Entry} {now : Instant}
    {entryId transitionId : Identifier}
    (hf : r.store.Fresh (.ingest report now entryId transitionId)) :
    r.store.ingest report (some now) entryId transitionId
      = match r.taken report now entryId transitionId with
        | some (o, r') => (.ok o, r'.store)
        | none => (.error (.unregistered report.name), r.store) := by
  obtain ⟨hentry, htransition⟩ := fresh_store_ingest hf
  rw [ingest_store_eq hs, ingested_of_fresh hentry htransition]
  cases r.taken report now entryId transitionId with
  | none => rfl
  | some x => rfl

/-- Definitions stay where they are: no call changes or removes one. -/
theorem prefix_of_taken {report : Entry} {now : Instant} {entryId transitionId : Identifier}
    {o : Outcome} {r' : Records} (ht : r.taken report now entryId transitionId = some (o, r')) :
    r.checks <+: r'.checks := by
  rcases taken_eq_some ht with ⟨c, -, -, -, rfl⟩ | ⟨p, -, -, -, rfl⟩ | ⟨p, -, -, -, rfl⟩
  · exact List.prefix_refl _
  · exact List.prefix_refl _
  · exact List.prefix_refl _

/-- Definitions are only added, at the end. -/
theorem prefix_of_registered {c d : Check} {fresh : Identifier} {r' : Records}
    (hr : r.registered c fresh = .ok (d, r')) : r.checks <+: r'.checks := by
  rcases registered_eq_ok hr with ⟨-, rfl⟩ | ⟨-, -, -, rfl⟩
  · exact List.prefix_refl _
  · exact List.prefix_append _ _

/-- A call with fresh identifiers leaves sound records that track the longer log. -/
theorem exists_after (hs : r.Sound) (h : r.Tracks given log) {call : Call}
    (hf : r.store.Fresh call) :
    ∃ r' : Records, r.store.after call = r'.store ∧ r'.Sound ∧ r.checks <+: r'.checks ∧
      r'.Tracks (given ++ (r.store.given? call).toList) (log ++ (r.store.taken? call).toList) := by
  cases call with
  | register c fresh =>
      simp only [after, given?, taken?, register_store]
      cases hr : r.registered c fresh with
      | error e => exact ⟨r, rfl, hs, List.prefix_refl _, by simpa [Except.toOption] using h⟩
      | ok x =>
          obtain ⟨d, r'⟩ := x
          refine ⟨r', rfl, hs.registered hr, prefix_of_registered hr, ?_⟩
          simpa [Except.toOption] using h.registered hr
  | ingest report now entryId transitionId =>
      obtain ⟨hentry, htransition⟩ := fresh_store_ingest hf
      simp only [after, given?, taken?, ingest_store hs hf]
      cases ht : r.taken report now entryId transitionId with
      | none => exact ⟨r, rfl, hs, List.prefix_refl _, by simpa [Except.toOption] using h⟩
      | some x =>
          obtain ⟨o, r'⟩ := x
          refine ⟨r', rfl, hs.taken (fun _ => hentry) (fun _ => htransition) ht, prefix_of_taken ht, ?_⟩
          simpa [Except.toOption] using h.taken hs ht

/-- After any fresh run there are records of all that was taken over. -/
theorem exists_run (hs : r.Sound) (h : r.Tracks given log) {calls : List Call}
    (hf : r.store.FreshRun calls) :
    ∃ r' : Records, r.store.run calls = r'.store ∧ r'.Sound ∧ r.checks <+: r'.checks ∧
      r'.Tracks (given ++ r.store.given calls) (log ++ r.store.log calls) := by
  -- on the calls, with the records and the log of what was called before
  induction calls generalizing r given log with
  | nil =>
      refine ⟨r, rfl, hs, List.prefix_refl _, ?_⟩
      rw [Store.given, Store.log, List.append_nil, List.append_nil]
      exact h
  | cons call rest ih =>
      obtain ⟨hfresh, hrest⟩ := hf
      obtain ⟨r', hafter, hs', hkept', h'⟩ := exists_after hs h hfresh
      rw [hafter] at hrest
      obtain ⟨r'', hrun, hs'', hkept'', h''⟩ := ih hs' h' hrest
      refine ⟨r'', ?_, hs'', hkept'.trans hkept'', ?_⟩
      · rw [← hrun, ← hafter]
        rfl
      · rw [Store.given, Store.log, hafter, ← List.append_assoc, ← List.append_assoc]
        exact h''

end Records

/-- After a fresh run the store holds sound records that track its log. -/
theorem exists_records {calls : List Call} (h : empty.FreshRun calls) :
    ∃ r : Records, empty.run calls = r.store ∧ r.Sound
      ∧ r.Tracks (empty.given calls) (empty.log calls) := by
  obtain ⟨r, hrun, hs, -, htracks⟩ := Records.exists_run Records.sound_empty Records.tracks_empty h
  rw [List.nil_append, List.nil_append] at htracks
  exact ⟨r, hrun, hs, htracks⟩

end HealthWatch.Store
