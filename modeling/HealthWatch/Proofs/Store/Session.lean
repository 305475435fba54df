import HealthWatch.Proofs.Store.History
import Mathlib.Control.Monad.Basic

/-! # Sessions — all that a store can be asked, and what faults leave behind

    A session is a list of requests: registrations, reports, whose clock may fail, and
    reads.  Its reports may be offered any identifiers, also ones that are taken.

    * `exists_served`: after every session the tables hold sound records that track a
      log.  A poisoned lock keeps the tables as they are.
    * `faults_leave_no_trace`: a request that fails changes nothing, unless the clock
      fails under the lock; then the tables stay and every later request is refused.
      Entries and transitions are stored together. -/

namespace HealthWatch.Store

/-! ## Requests -/

/-- A request to a store, with the identifiers that it is offered. -/
inductive Request where
  | register (definition : Check) (fresh : Identifier)
  | ingest (report : Entry) (clock : Option Instant) (entryId transitionId : Identifier)
  | find (name : String)
  | entries (applicationId : Identifier)
  | checkEntries (applicationId : Identifier) (name : String)
  | history (entryId : Identifier)
  | applicationStatus (applicationId : Identifier)
  | checkStatus (applicationId : Identifier) (name : String)
deriving DecidableEq, Repr

/-- What a store gives for a request. -/
inductive Reply where
  | definition (value : Check)
  | outcome (value : Outcome)
  | found (value : Option Check)
  | entries (value : List Entry)
  | history (value : List Transition)
  | views (value : List View)
  | view (value : Option View)
deriving DecidableEq, Repr

/-- Answers a request. -/
def serve (s : Store) : Request → Except Fault Reply × Store
  | .register c fresh => ((s.register c fresh).1.map .definition, (s.register c fresh).2)
  | .ingest report clock entryId transitionId =>
      ((s.ingest report clock entryId transitionId).1.map .outcome,
        (s.ingest report clock entryId transitionId).2)
  | .find name => ((s.find? name).map .found, s)
  | .entries applicationId => ((s.entries applicationId).map .entries, s)
  | .checkEntries applicationId name => ((s.checkEntries applicationId name).map .entries, s)
  | .history entryId => ((s.history entryId).map .history, s)
  | .applicationStatus applicationId => ((s.applicationStatus applicationId).map .views, s)
  | .checkStatus applicationId name => ((s.checkStatus applicationId name).map .view, s)

/-- The store after a session. -/
def served (s : Store) (requests : List Request) : Store :=
  requests.foldl (fun s request => (s.serve request).2) s

/-- The replies of a session. -/
def replies (s : Store) : List Request → List (Except Fault Reply)
  | [] => []
  | request :: later => (s.serve request).1 :: (s.serve request).2.replies later

/-- A store that a session leaves. -/
def Reached (s : Store) : Prop := ∃ requests, empty.served requests = s

/-! ## Poisoned stores -/

theorem read_poisoned {α : Type} {s : Store} (h : s.poisoned = true)
    (f : Tables → Except TableFault α) : s.read f = .error .lockPoisoned := by
  rw [read, if_pos h]

theorem change_poisoned {α : Type} {s : Store} (h : s.poisoned = true)
    (f : Tables → Except Fault (α × Tables)) : s.change f = (.error .lockPoisoned, s) := by
  rw [change, if_pos h]

theorem ingest_poisoned {s : Store} (h : s.poisoned = true) (report : Entry)
    (clock : Option Instant) (entryId transitionId : Identifier) :
    s.ingest report clock entryId transitionId = (.error .lockPoisoned, s) := by
  cases clock with
  | none => rw [Store.ingest, if_pos h]
  | some now => exact change_poisoned h fun t => t.ingest report now entryId transitionId

theorem applicationStatus_poisoned {s : Store} (h : s.poisoned = true)
    (applicationId : Identifier) : s.applicationStatus applicationId = .error .lockPoisoned := by
  rw [Store.applicationStatus, Store.entries, read_poisoned h]
  rfl

theorem checkStatus_poisoned {s : Store} (h : s.poisoned = true) (applicationId : Identifier)
    (name : String) : s.checkStatus applicationId name = .error .lockPoisoned := by
  rw [Store.checkStatus, Store.checkEntries, read_poisoned h]
  rfl

/-- Behind a poisoned lock every request is refused. -/
theorem serve_poisoned {s : Store} (h : s.poisoned = true) (request : Request) :
    s.serve request = (.error .lockPoisoned, s) := by
  cases request with
  | register c fresh =>
      rw [serve, Store.register, change_poisoned h]
      rfl
  | ingest report clock entryId transitionId =>
      rw [serve, ingest_poisoned h]
      rfl
  | find name =>
      rw [serve, Store.find?, read_poisoned h]
      rfl
  | entries applicationId =>
      rw [serve, Store.entries, read_poisoned h]
      rfl
  | checkEntries applicationId name =>
      rw [serve, Store.checkEntries, read_poisoned h]
      rfl
  | history entryId =>
      rw [serve, Store.history, read_poisoned h]
      rfl
  | applicationStatus applicationId =>
      rw [serve, applicationStatus_poisoned h]
      rfl
  | checkStatus applicationId name =>
      rw [serve, checkStatus_poisoned h]
      rfl

/-- Every later request is told of the lock. -/
theorem replies_poisoned {s : Store} (h : s.poisoned = true) (later : List Request) :
    s.replies later = later.map fun _ => .error .lockPoisoned := by
  induction later with
  | nil => rfl
  | cons request later ih => rw [replies, serve_poisoned h, ih, List.map_cons]

/-! ## Faults -/

/-- A change that fails leaves the store as it was. -/
theorem change_of_error {α : Type} {s : Store} {f : Tables → Except Fault (α × Tables)}
    {fault : Fault} (h : (s.change f).1 = .error fault) : (s.change f).2 = s := by
  rw [change] at h ⊢
  split
  · rfl
  next hlock =>
    rw [if_neg hlock] at h
    cases hf : f s.tables with
    | error e => rfl
    | ok x =>
        rw [hf] at h
        cases h

theorem eq_error_of_map {α β : Type} {f : α → β} {x : Except Fault α} {fault : Fault}
    (h : x.map f = .error fault) : x = .error fault := by
  cases x with
  | error e => exact congrArg Except.error (Except.error.inj h)
  | ok a => exact nomatch h

/-- A clock that fails under the lock poisons it and leaves the tables as they were. -/
theorem ingest_none {s : Store} (h : s.poisoned = false) (report : Entry)
    (entryId transitionId : Identifier) :
    s.ingest report none entryId transitionId
      = (.error .noClock, { s with poisoned := true }) := by
  rw [Store.ingest, if_neg (by rw [h]; exact Bool.false_ne_true)]

/-- A request that fails for another reason than its clock leaves the store as it was. -/
theorem serve_of_error {s : Store} {request : Request} {fault : Fault}
    (h : (s.serve request).1 = .error fault) (hclock : fault ≠ .noClock) :
    (s.serve request).2 = s := by
  cases hlock : s.poisoned with
  | true => rw [serve_poisoned hlock]
  | false =>
      cases request with
      | register c fresh => exact change_of_error (eq_error_of_map h)
      | ingest report clock entryId transitionId =>
          cases clock with
          | none =>
              rw [serve, ingest_none hlock] at h
              exact absurd (Except.error.inj h).symm hclock
          | some now => exact change_of_error (eq_error_of_map h)
      | _ => rfl

/-! ## Reached stores -/

theorem eq_store {s : Store} {r : Records} (ht : s.tables = r.tables) (h : s.poisoned = false) :
    s = r.store := by
  cases s
  cases ht
  cases h
  rfl

namespace Records

variable {r : Records} {given : List Check} {log : List Taken}

/-- A request leaves sound records that track a log. -/
theorem exists_serve (hs : r.Sound) (h : r.Tracks given log) {s : Store}
    (ht : s.tables = r.tables) (request : Request) :
    ∃ (r' : Records) (given' : List Check) (log' : List Taken),
      (s.serve request).2.tables = r'.tables ∧ r'.Sound
      ∧ r'.Tracks given' log' := by
  cases hlock : s.poisoned with
  | true =>
      rw [serve_poisoned hlock]
      exact ⟨r, given, log, ht, hs, h⟩
  | false =>
      cases request with
      | register c fresh =>
          rw [serve, eq_store ht hlock, register_store]
          cases hr : r.registered c fresh with
          | error e => exact ⟨r, given, log, rfl, hs, h⟩
          | ok x => exact ⟨x.2, _, log, rfl, hs.registered hr, h.registered hr⟩
      | ingest report clock entryId transitionId =>
          cases clock with
          | none =>
              rw [serve, ingest_none hlock]
              exact ⟨r, given, log, ht, hs, h⟩
          | some now =>
              rw [serve, eq_store ht hlock, ingest_store_eq hs]
              cases hi : r.ingested report now entryId transitionId with
              | error e => exact ⟨r, given, log, rfl, hs, h⟩
              | ok x =>
                  obtain ⟨htaken, hentry, htransition⟩ := ingested_eq_ok hi
                  exact ⟨x.2, given, _, rfl, hs.taken hentry htransition htaken,
                    h.taken hs htaken⟩
      | _ => exact ⟨r, given, log, ht, hs, h⟩

/-- Whatever was asked, the tables have records that keep track of it. -/
theorem exists_served (hs : r.Sound) (h : r.Tracks given log) {s : Store}
    (ht : s.tables = r.tables) (requests : List Request) :
    ∃ (r' : Records) (given' : List Check) (log' : List Taken),
      (s.served requests).tables = r'.tables ∧ r'.Sound
      ∧ r'.Tracks given' log' := by
  -- on the requests, with the records of those before
  induction requests generalizing s r given log with
  | nil => exact ⟨r, given, log, ht, hs, h⟩
  | cons request later ih =>
      obtain ⟨r', given', log', ht', hs', h'⟩ := exists_serve hs h ht request
      exact ih hs' h' ht'

end Records

/-- A reached store holds sound records that track a log. -/
theorem Reached.exists_records {s : Store} (h : Reached s) :
    ∃ (r : Records) (given : List Check) (log : List Taken),
      s.tables = r.tables ∧ r.Sound ∧ r.Tracks given log := by
  obtain ⟨requests, rfl⟩ := h
  exact Records.exists_served Records.sound_empty Records.tracks_empty rfl requests

/-! ## Entries and their transitions -/

/-- Every entry has a transition, and every transition its entry. -/
structure Tables.Paired (t : Tables) : Prop where
  history : ∀ row ∈ t.entries, ∃ x ∈ t.transitions, x.entryId = row.id
  owner : ∀ x ∈ t.transitions, ∃ row ∈ t.entries, row.id = x.entryId

namespace Records

variable {r : Records} {given : List Check} {log : List Taken}

/-- The first report of a key appends a transition. -/
theorem Tracks.exists_transition (h : r.Tracks given log) (hs : r.Sound) {p : Linked}
    (hp : p ∈ r.entries) : ∃ x ∈ r.transitions, x.entryId = p.entry.id := by
  obtain ⟨x, xs, hl, -, hentry⟩ := h.linked?_eq_some (hs.linked?_of_mem hp)
  have hmem : x ∈ log := (List.mem_filter.1 (hl ▸ List.mem_cons_self ..)).1
  have happ : x.outcome.historyAppended = true := by
    obtain ⟨-, -, happ⟩ := (h.courses p.key).outcome (show _ = [] ++ x :: xs from hl)
    rw [happ, historyOf_nil]
    exact decide_eq_true fun he => nomatch he
  refine ⟨x.row, ?_, ?_⟩
  · rw [h.transitions]
    exact List.mem_map_of_mem (List.mem_filter.2 ⟨hmem, happ⟩)
  · rw [hentry, (id_entryOf p.definition x xs).1]
    rfl

/-- Entries and transitions belong together. -/
theorem Tracks.paired (h : r.Tracks given log) (hs : r.Sound) : r.tables.Paired where
  history := by
    intro row hrow
    obtain ⟨p, hp, rfl⟩ := List.mem_map.1 hrow
    obtain ⟨x, hx, hid⟩ := h.exists_transition hs hp
    exact ⟨_, List.mem_map_of_mem hx, congrArg Identifier.toText hid⟩
  owner := by
    intro row hrow
    obtain ⟨x, hx, rfl⟩ := List.mem_map.1 hrow
    obtain ⟨p, hp, hid⟩ := hs.owned x hx
    exact ⟨_, List.mem_map_of_mem hp, congrArg Identifier.toText hid⟩

/-- The first report of a key stores its entry together with its first transition. -/
theorem opened_of_ingest (hs : r.Sound) {report : Entry} {now : Instant}
    {entryId transitionId : Identifier} (hkey : r.store.stored? (.ofEntry report) = none)
    {o : Outcome} (ho : (r.store.ingest report (some now) entryId transitionId).1 = .ok o) :
    o = ⟨entryId, true, true⟩ ∧ ∃ d, r.store.find? report.name = .ok (some d)
      ∧ (r.store.ingest report (some now) entryId transitionId).2.tables = { r.store.tables with
          entries := r.store.tables.entries ++ [.ofEntry (.first report d entryId now) d.id]
          transitions := r.store.tables.transitions
            ++ [.ofTransition (.arrival transitionId entryId report now)] } := by
  rw [stored?_store hs, Option.map_eq_none_iff] at hkey
  rw [ingest_store_eq hs] at ho ⊢
  cases hr : r.ingested report now entryId transitionId with
  | error e =>
      rw [hr] at ho
      exact nomatch ho
  | ok x =>
      obtain ⟨o', r'⟩ := x
      rw [hr] at ho
      cases ho
      -- a key without an entry leaves only the first of the three ways
      rcases taken_eq_some (ingested_eq_ok hr).1 with ⟨c, -, hname, rfl, rfl⟩ | ⟨p, hp, -⟩
        | ⟨p, hp, -⟩
      · refine ⟨rfl, c, ?_, ?_⟩
        · rw [Store.find?, Store.read, store, if_neg Bool.false_ne_true, findCheck?_tables, hname]
          rfl
        · simp [store, tables, opened, addTransition, addEntry, Linked.row]
      · rw [hkey] at hp
        cases hp
      · rw [hkey] at hp
        cases hp

end Records

/-- In a reached store a fault leaves no trace: the store stays as it was, so every later
    request is answered as if the failed one had not been made.  Only a clock that fails
    under the lock leaves something, the poisoned lock: the tables stay, and every later
    request is refused.  A first report that is taken over stores its entry and its first
    transition, and no entry or transition stands without the other. -/
theorem faults_leave_no_trace {s : Store} (hs : Reached s) :
    (∀ request fault, (s.serve request).1 = .error fault → fault ≠ .noClock →
        (s.serve request).2 = s
          ∧ ∀ later, s.replies (request :: later) = .error fault :: s.replies later)
      ∧ (∀ report entryId transitionId, s.poisoned = false →
          (s.ingest report none entryId transitionId).1 = .error .noClock
            ∧ (s.ingest report none entryId transitionId).2.tables = s.tables
            ∧ ∀ later, (s.ingest report none entryId transitionId).2.replies later
                = later.map fun _ => .error .lockPoisoned)
      ∧ (∀ report now entryId transitionId o, s.stored? (.ofEntry report) = none →
          (s.ingest report (some now) entryId transitionId).1 = .ok o →
          o = ⟨entryId, true, true⟩ ∧ ∃ d, s.find? report.name = .ok (some d)
            ∧ (s.ingest report (some now) entryId transitionId).2.tables = { s.tables with
                entries := s.tables.entries ++ [.ofEntry (.first report d entryId now) d.id]
                transitions := s.tables.transitions
                  ++ [.ofTransition (.arrival transitionId entryId report now)] })
      ∧ s.tables.Paired := by
  obtain ⟨r, given, log, ht, hsound, htracks⟩ := hs.exists_records
  refine ⟨?_, ?_, ?_, ?_⟩
  · intro request fault h hclock
    have hsame := serve_of_error h hclock
    refine ⟨hsame, ?_⟩
    intro later
    rw [replies, h, hsame]
  · intro report entryId transitionId hlock
    rw [ingest_none hlock]
    exact ⟨rfl, rfl, replies_poisoned rfl⟩
  · intro report now entryId transitionId o hkey ho
    cases hlock : s.poisoned with
    | true =>
        -- behind a poisoned lock no report is taken over
        have hrefused := serve_poisoned hlock (.ingest report (some now) entryId transitionId)
        rw [serve, ho] at hrefused
        exact nomatch congrArg Prod.fst hrefused
    | false =>
        have heq := eq_store ht hlock
        subst heq
        exact Records.opened_of_ingest hsound hkey ho
  · rw [ht]
    exact htracks.paired hsound

namespace Sample

/-- A registration and a first report. -/
def session : List Request :=
  [.register check (.ofNat 1), .ingest (report .healthy) (some (second 10)) (.ofNat 2) (.ofNat 3)]

/-- A report of a check that is not registered. -/
def unknown : Request :=
  .ingest { report .healthy with name := "memory" } (some (second 11)) (.ofNat 4) (.ofNat 5)

theorem serve_unknown :
    ((empty.served session).serve unknown).1 = .error (.unregistered "memory") := by
  decide +kernel

end Sample

/-- A report of an unknown check changes nothing; a report whose clock fails makes the
    store refuse the next look-up. -/
theorem faults_after_first_report :
    ((empty.served Sample.session).serve Sample.unknown).2 = empty.served Sample.session
      ∧ ((empty.served Sample.session).ingest (Sample.report .degraded) none (.ofNat 4)
          (.ofNat 5)).2.replies [.find "disk"] = [.error .lockPoisoned] := by
  have h := faults_leave_no_trace (s := empty.served Sample.session) ⟨_, rfl⟩
  refine ⟨(h.1 Sample.unknown _ Sample.serve_unknown (by decide)).1, ?_⟩
  exact (h.2.1 (Sample.report .degraded) (.ofNat 4) (.ofNat 5) (by decide +kernel)).2.2 _

end HealthWatch.Store
