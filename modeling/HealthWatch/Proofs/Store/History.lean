import HealthWatch.Proofs.Instant.Order
import HealthWatch.Proofs.Store.Run

/-! # Histories — which reports they show

    A report is compared with the transition that the history of its entry starts with:
    the one with the greatest stored time, and of those the one stored last.

    * While the clock of a run does not step back, that one is the last one stored, and
      it has the status of the report before: the history shows exactly the changes of
      the status (`history_of_ordered_run`).
    * For other clocks the decision is taken against the transition of the greatest time,
      which need not have the status of the entry any more (`ingest_appends_iff`). -/

namespace HealthWatch.Store

/-! ## The order of times -/

/-- No report came in before an earlier one, going by the stored texts of the times. -/
def InOrder (xs : List Taken) : Prop :=
  xs.Pairwise fun x y => ¬timeText y.now < timeText x.now

/-- Times in short years sort as their texts. -/
theorem timeText_le_of_le {t u : Instant} (ht : t.HasShortYear) (hu : u.HasShortYear)
    (h : t ≤ u) : ¬timeText u < timeText t := by
  rw [String.lt_iff, timeText, timeText, String.toList_ofList, String.toList_ofList]
  exact Instant.Stored.format_le_of_le ht hu h

/-- Transitions stored in the order of their times are listed the other way round. -/
theorem historyOf_of_inOrder {xs : List Taken} (h : InOrder xs) :
    historyOf xs = (rowsOf xs).reverse := by
  refine List.mergeSort_of_pairwise ?_
  rw [List.pairwise_reverse, rowsOf, List.pairwise_map]
  refine (List.Pairwise.filter _ h).imp ?_
  intro x y hxy
  exact Records.notBefore_iff.2 hxy

/-! ## Courses -/

theorem append_cons_eq_concat {α : Type} {pre post xs : List α} {y z : α}
    (h : pre ++ y :: post = xs ++ [z]) :
    pre = xs ∧ y = z ∨ ∃ post', post = post' ++ [z] ∧ pre ++ y :: post' = xs := by
  rcases List.eq_nil_or_concat post with rfl | ⟨post', w, rfl⟩
  · obtain ⟨h1, h2⟩ := List.append_inj' h rfl
    exact Or.inl ⟨h1, (List.cons.inj h2).1⟩
  · rw [List.concat_eq_append, ← List.cons_append, ← List.append_assoc] at h
    obtain ⟨h1, h2⟩ := List.append_inj' h rfl
    exact Or.inr ⟨post', by rw [List.concat_eq_append, (List.cons.inj h2).1], h1⟩

/-- Each report of a course has the outcome that the reports before it make. -/
theorem Course.outcome {xs : List Taken} (h : Course xs) {pre post : List Taken} {y : Taken}
    (hxs : xs = pre ++ y :: post) :
    Course pre ∧ y.outcome.created = pre.isEmpty ∧ y.outcome.historyAppended
      = decide ((historyOf pre).head?.map Transition.status ≠ some y.report.status) := by
  induction h generalizing post with
  | nil => exact absurd hxs.symm (by simp)
  | concat hc _ hcreated happended ih =>
      rcases append_cons_eq_concat hxs.symm with ⟨rfl, rfl⟩ | ⟨post', -, hsplit⟩
      · exact ⟨hc, hcreated, happended⟩
      · exact ih hsplit.symm

/-- While times do not step back, a history starts with the status of the last report:
    a report that appends nothing has the status that the history starts with. -/
theorem Course.head_history {xs : List Taken} (h : Course xs) (ho : InOrder xs) :
    (historyOf xs).head?.map Transition.status = xs.getLast?.map (·.report.status) := by
  induction h with
  | nil => rw [historyOf_nil]; rfl
  | @concat xs y _ _ _ happended ih =>
      have hpre := ih (List.pairwise_append.1 ho).1
      rw [historyOf_of_inOrder (List.pairwise_append.1 ho).1] at hpre happended
      rw [historyOf_of_inOrder ho, rowsOf_concat, List.getLast?_concat, Option.map_some]
      -- either the new row stands first, or the history began with this status already
      by_cases happ : y.outcome.historyAppended = true
      · rw [if_pos happ, List.reverse_concat]
        rfl
      · rw [if_neg happ, List.append_nil]
        rw [happended, decide_eq_true_iff] at happ
        exact Decidable.not_not.1 happ

/-- The reports whose status differs from that of the report before, where `prev` is
    the status before the first one. -/
def changesAfter (prev : Option Status) : List Taken → List Taken
  | [] => []
  | x :: xs =>
      (if prev = some x.report.status then [] else [x])
        ++ changesAfter (some x.report.status) xs

/-- The first report, and those whose status differs from that of the report before. -/
def changes (xs : List Taken) : List Taken := changesAfter none xs

/-- One more report is a change when its status is not that of the one before. -/
theorem changesAfter_concat (prev : Option Status) (xs : List Taken) (y : Taken) :
    changesAfter prev (xs ++ [y]) = changesAfter prev xs
      ++ if (xs.getLast?.map (·.report.status)).or prev = some y.report.status then []
        else [y] := by
  induction xs generalizing prev with
  | nil =>
      rw [List.nil_append, changesAfter, changesAfter, changesAfter, List.append_nil]
      rfl
  | cons x xs ih =>
      rw [List.cons_append, changesAfter, ih, changesAfter, List.append_assoc]
      cases xs with
      | nil => rfl
      | cons z zs =>
          have hlast : ∃ w, (z :: zs).getLast? = some w :=
            ⟨_, List.getLast?_eq_some_getLast (List.cons_ne_nil z zs)⟩
          obtain ⟨w, hw⟩ := hlast
          rw [List.getLast?_cons_cons, hw]
          rfl

/-- Changes are among the reports. -/
theorem mem_of_mem_changes {xs : List Taken} {x : Taken} (h : x ∈ changes xs) : x ∈ xs := by
  -- for any status before, since it changes along the list
  have hafter : ∀ prev, x ∈ changesAfter prev xs → x ∈ xs := by
    clear h
    induction xs with
    | nil => exact fun _ h => h
    | cons z zs ih =>
        intro prev h
        rcases List.mem_append.1 h with h | h
        · split at h
          · exact nomatch h
          · exact List.mem_cons.2 (Or.inl (List.mem_singleton.1 h))
        · exact List.mem_cons_of_mem z (ih _ h)
  exact hafter none h

/-- While times do not step back, the changes of the status are stored. -/
theorem Course.rowsOf_eq {xs : List Taken} (h : Course xs) (ho : InOrder xs) :
    rowsOf xs = (changes xs).map Taken.row := by
  induction h with
  | nil => rfl
  | @concat xs y hc _ _ happended ih =>
      have hpre : InOrder xs := (List.pairwise_append.1 ho).1
      -- the decision is against the status of the report before
      rw [hc.head_history hpre] at happended
      rw [rowsOf_concat, ih hpre, changes, changes, changesAfter_concat, Option.or_none,
        List.map_append, happended]
      by_cases hs : xs.getLast?.map (·.report.status) = some y.report.status
      · rw [if_pos hs, if_neg (by simpa using hs)]
        rfl
      · rw [if_neg hs, if_pos (decide_eq_true hs)]
        rfl

/-! ## Runs whose clock does not step back -/

/-- The clock reading of a call. -/
def Call.reading? : Call → Option Instant
  | .register _ _ => none
  | .ingest _ now _ _ => some now

/-- The clock readings of a run. -/
def readings (calls : List Call) : List Instant := calls.filterMap Call.reading?

/-- The times in a log are readings of the clock, in their order. -/
theorem log_now_sublist (s : Store) (calls : List Call) :
    ((s.log calls).map Taken.now).Sublist (readings calls) := by
  induction calls generalizing s with
  | nil => exact .slnil
  | cons call rest ih =>
      rw [log, List.map_append]
      cases call with
      | register c fresh => exact ih _
      | ingest report now entryId transitionId =>
          rw [show readings (.ingest report now entryId transitionId :: rest)
            = now :: readings rest from rfl, taken?]
          cases (s.ingest report (some now) entryId transitionId).1.toOption with
          | none => exact (ih _).cons now
          | some o => exact (ih _).cons_cons now

/-- Readings that do not step back within the years 0 to 9999 keep their order when they
    are stored. -/
theorem inOrder_log {s : Store} {calls : List Call} (hclock : (readings calls).Pairwise (· ≤ ·))
    (hyears : ∀ t ∈ readings calls, t.HasShortYear) (k : Key) :
    InOrder (ofKey k (s.log calls)) := by
  -- the readings of a key are some of those of the run, in the same order
  have hsub : ((ofKey k (s.log calls)).map Taken.now).Sublist (readings calls) :=
    (List.filter_sublist.map _).trans (log_now_sublist s calls)
  have hshort : ∀ x ∈ ofKey k (s.log calls), x.now.HasShortYear :=
    fun x hx => hyears x.now (hsub.subset (List.mem_map_of_mem hx))
  refine (List.pairwise_map.1 (hclock.sublist hsub)).imp_of_mem ?_
  intro x y hx hy hxy
  exact timeText_le_of_le (hshort x hx) (hshort y hy) hxy

/-- The transition that the history shows for a report. -/
def recorded (entryId : Identifier) (x : Taken) : Transition where
  id := x.transitionId
  entryId := entryId
  status := x.report.status
  statusFrom := x.now
  lastExecution := x.now
  lastDuration := x.report.lastDuration.truncate

/-- The store reads the history that is recorded. -/
theorem history_store (r : Records) (entryId : Identifier) :
    r.store.history entryId = .ok ((r.history entryId).map Transition.kept) := by
  rw [Store.history, Store.read, Records.store, if_neg Bool.false_ne_true, Records.history_tables]
  rfl

/-- The history of a key whose times did not step back: its changes, the last one
    first. -/
theorem Records.Tracks.history_of_inOrder {r : Records} {given : List Check} {log : List Taken}
    (h : r.Tracks given log) (hs : r.Sound) {k : Key} (horder : InOrder (ofKey k log))
    {y : Taken} (hy : y ∈ ofKey k log) :
    r.store.history y.outcome.entryId
      = .ok ((changes (ofKey k log)).map (recorded y.outcome.entryId)).reverse := by
  obtain ⟨hlog, hkey⟩ := List.mem_filter.1 hy
  obtain ⟨p, hp, hid⟩ := h.entry_of_mem hlog
  have hhistory : r.history p.entry.id = ((changes (ofKey k log)).map Taken.row).reverse := by
    rw [h.history_eq hs hp, of_decide_eq_true hkey, historyOf_of_inOrder horder,
      (h.courses k).rowsOf_eq horder]
  rw [history_store, ← hid, hhistory, List.map_reverse, List.map_map]
  refine congrArg (fun rows => Except.ok (List.reverse rows)) (List.map_congr_left ?_)
  intro x hx
  have hsame := (h.courses k).entryId x (mem_of_mem_changes hx) y hy
  rw [Function.comp_apply, Taken.row, hsame, hid]
  rfl

/-- After a run whose clock does not step back, the history of a key shows exactly its
    first report and those with another status than the report before, the latest one
    first.  Each report said so: only the first one made the entry, and those that the
    history shows are those that appended to it. -/
theorem history_of_ordered_run {calls : List Call} (hfresh : empty.FreshRun calls)
    (hclock : (readings calls).Pairwise (· ≤ ·))
    (hyears : ∀ t ∈ readings calls, t.HasShortYear) {k : Key} {pre post : List Taken}
    {y : Taken} (hy : ofKey k (empty.log calls) = pre ++ y :: post) :
    (y.outcome.created = true ↔ pre = [])
      ∧ (y.outcome.historyAppended = true
        ↔ pre = [] ∨ pre.getLast?.map (·.report.status) ≠ some y.report.status)
      ∧ (∀ x ∈ pre ++ y :: post, x.outcome.entryId = y.outcome.entryId)
      ∧ (empty.run calls).history y.outcome.entryId
        = .ok ((changes (pre ++ y :: post)).map (recorded y.outcome.entryId)).reverse := by
  obtain ⟨r, hrun, hs, htracks⟩ := exists_records hfresh
  have hcourse := htracks.courses k
  have horder : InOrder (ofKey k (empty.log calls)) := inOrder_log hclock hyears k
  have hmem : y ∈ ofKey k (empty.log calls) := by
    rw [hy]
    exact List.mem_append_right _ (List.mem_cons_self ..)
  have hhistory := htracks.history_of_inOrder hs horder hmem
  rw [← hrun] at hhistory
  rw [hy] at hcourse horder hhistory hmem
  obtain ⟨hpre, hcreated, happended⟩ := hcourse.outcome rfl
  refine ⟨?_, ?_, fun x hx => hcourse.entryId x hx y hmem, hhistory⟩
  · rw [hcreated, List.isEmpty_iff]
  · -- the reports before are in order too, so their history starts with the last status
    rw [happended, decide_eq_true_iff, hpre.head_history (List.pairwise_append.1 horder).1]
    constructor
    · exact Or.inr
    · rintro (rfl | h)
      · exact fun he => nomatch he
      · exact h

namespace Sample

/-- A second of a minute of the first of May 2024. -/
def second (n : Nat) : Instant :=
  ((Date.of? 2024 5 1).bind fun day => Instant.of? day 12 0 n 0).getD default

/-- A definition without an identifier. -/
def check : Check where
  id := .nil
  name := "disk"
  description := "free space"
  tags := ["storage", "infra"]

/-- A report of this status. -/
def report (status : Status) : Entry where
  id := .nil
  applicationId := .ofNat 7
  serverName := "web"
  name := "disk"
  description := none
  status := status
  lastExecution := second 0
  lastDuration := .ofSeconds 1
  check := none
  history := none

/-- A registration and two reports of different statuses in the same second. -/
def calls : List Call :=
  [.register check (.ofNat 1),
   .ingest (report .healthy) (second 10) (.ofNat 2) (.ofNat 3),
   .ingest (report .degraded) (second 10) (.ofNat 4) (.ofNat 5)]

/-- The first report of the run. -/
def first : Taken := ⟨report .healthy, second 10, .ofNat 3, ⟨.ofNat 2, true, true⟩⟩

/-- The second report of the run. -/
def later : Taken := ⟨report .degraded, second 10, .ofNat 5, ⟨.ofNat 2, false, true⟩⟩

theorem freshRun_calls : empty.FreshRun calls := by decide +kernel

theorem log_calls : ofKey later.key (empty.log calls) = [first] ++ later :: [] := by
  decide +kernel

end Sample

/-- Two reports in the same second both stand in the history, the second one first. -/
theorem history_of_equal_readings :
    (empty.run Sample.calls).history (.ofNat 2)
      = .ok [recorded (.ofNat 2) Sample.later, recorded (.ofNat 2) Sample.first] := by
  exact (history_of_ordered_run Sample.freshRun_calls (by decide) (by decide)
    Sample.log_calls).2.2.2

/-! ## Runs with any clock -/

/-- The entry of a key. -/
def stored? (s : Store) (k : Key) : Option Entry := (s.tables.findEntry? k).toOption.join

/-- The status of the entry of a key. -/
def entryStatus? (s : Store) (k : Key) : Option Status := (s.stored? k).map Entry.status

/-- The transition that the history of a key starts with. -/
def newest? (s : Store) (k : Key) : Option Transition :=
  (s.stored? k).bind fun e => (s.history e.id).toOption.bind List.head?

/-- The status that the history of a key starts with. -/
def newestStatus? (s : Store) (k : Key) : Option Status := (s.newest? k).map Transition.status

/-- The stored entry of a key is the recorded one. -/
theorem stored?_store {r : Records} (hs : r.Sound) (k : Key) :
    r.store.stored? k = (r.linked? k).map Linked.value := by
  rw [stored?, show r.store.tables = r.tables from rfl, Records.findEntry?_tables hs]
  rfl

/-- The newest transition of a key is the first one of its history. -/
theorem newest?_store {r : Records} (hs : r.Sound) (k : Key) :
    r.store.newest? k
      = (r.linked? k).bind fun p => (r.history p.entry.id).head?.map Transition.kept := by
  rw [newest?, stored?_store hs]
  cases r.linked? k with
  | none => rfl
  | some p =>
      show (r.store.history p.entry.id).toOption.bind List.head? = _
      rw [history_store]
      exact List.head?_map

theorem newestStatus?_store {r : Records} (hs : r.Sound) {k : Key} {p : Linked}
    (hp : r.linked? k = some p) :
    r.store.newestStatus? k = (r.history p.entry.id).head?.map Transition.status := by
  rw [newestStatus?, newest?_store hs, hp, Option.bind_some, Option.map_map]
  rfl

/-- No transition of a history has a greater stored time than the first one. -/
theorem le_head_historyOf {xs : List Taken} {x : Transition} (hx : (historyOf xs).head? = some x)
    {y : Transition} (hy : y ∈ rowsOf xs) :
    ¬timeText x.lastExecution < timeText y.lastExecution := by
  have hmem : y ∈ historyOf xs := List.mem_mergeSort.2 (List.mem_reverse.2 hy)
  have hsorted : (historyOf xs).Pairwise fun a b => Records.notBefore a b = true := by
    refine List.pairwise_mergeSort ?_ ?_ _
    · intro a b c hab hbc
      rw [Records.notBefore_iff, String.not_lt] at hab hbc ⊢
      exact String.le_trans hbc hab
    · intro a b
      rw [Bool.or_eq_true, Records.notBefore_iff, Records.notBefore_iff, String.not_lt,
        String.not_lt]
      exact String.le_total _ _
  cases hl : historyOf xs with
  | nil =>
      rw [hl] at hmem
      exact nomatch hmem
  | cons z zs =>
      rw [hl] at hx hmem hsorted
      cases hx
      rcases List.mem_cons.1 hmem with rfl | hmem
      · exact String.lt_irrefl _
      · exact Records.notBefore_iff.1 ((List.pairwise_cons.1 hsorted).1 y hmem)

/-- The outcome of a report says that it appended exactly when the history of its key did
    not start with its status. -/
theorem Records.historyAppended_iff {r : Records} (hs : r.Sound) {report : Entry} {now : Instant}
    {entryId transitionId : Identifier}
    (hnext : r.store.Fresh (.ingest report now entryId transitionId)) {o : Outcome}
    (ho : (r.store.ingest report (some now) entryId transitionId).1 = .ok o) :
    o.historyAppended = true ↔ r.store.newestStatus? (.ofEntry report) ≠ some report.status := by
  rw [ingest_store hs hnext] at ho
  cases ht : r.taken report now entryId transitionId with
  | none =>
      rw [ht] at ho
      exact nomatch ho
  | some x =>
      obtain ⟨o', r'⟩ := x
      rw [ht] at ho
      cases ho
      -- a first report has no history to compare with, a later one has that of its entry
      rcases taken_eq_some ht with ⟨c, hkey, -, rfl, -⟩ | ⟨p, hp, happ, rfl, -⟩
        | ⟨p, hp, happ, rfl, -⟩
      · rw [newestStatus?, newest?_store hs, hkey]
        exact iff_of_true rfl (fun h => nomatch h)
      · rw [newestStatus?_store hs hp]
        exact iff_of_true rfl (appends_iff.1 happ)
      · rw [newestStatus?_store hs hp]
        refine iff_of_false (fun h => nomatch h) ?_
        exact fun h => absurd (appends_iff.2 h) (by rw [happ]; decide)

/-- While the times of a key do not step back, its history starts with the status of its
    entry. -/
theorem Records.Tracks.newestStatus?_of_inOrder {r : Records} {given : List Check}
    {log : List Taken} (h : r.Tracks given log) (hs : r.Sound) {k : Key}
    (horder : InOrder (ofKey k log)) : r.store.newestStatus? k = r.store.entryStatus? k := by
  rw [entryStatus?, stored?_store hs]
  cases hp : r.linked? k with
  | none =>
      rw [newestStatus?, newest?_store hs, hp]
      rfl
  | some p =>
      obtain ⟨x, xs, hl, -, hentry⟩ := h.linked?_eq_some hp
      rw [newestStatus?_store hs hp, h.history_eq hs hp, (h.courses k).head_history horder, hl,
        List.getLast?_cons, ← List.getLastD_eq_getLast?]
      show some (xs.getLastD x).report.status = some p.entry.status
      rw [hentry, entryOf_eq]
      rfl

/-- The transition that a history starts with has the greatest time of all. -/
theorem Records.Tracks.le_newest {r : Records} {given : List Check} {log : List Taken}
    (h : r.Tracks given log) (hs : r.Sound) {k : Key} {x : Transition}
    (hx : r.store.newest? k = some x) {y : Taken} (hy : y ∈ ofKey k log)
    (happ : y.outcome.historyAppended = true) :
    ¬timeText x.lastExecution < timeText y.now := by
  rw [newest?_store hs] at hx
  obtain ⟨p, hp, hx⟩ := Option.bind_eq_some_iff.1 hx
  obtain ⟨z, hz, rfl⟩ := Option.map_eq_some_iff.1 hx
  rw [h.history_eq hs hp] at hz
  have hrow : y.row ∈ rowsOf (ofKey k log) := List.mem_map_of_mem (List.mem_filter.2 ⟨hy, happ⟩)
  -- a kept transition has the time of the one that was stored
  have hle := le_head_historyOf hz hrow
  exact hle

/-- Whatever the clock reads, a report appends a transition exactly when the history of
    its key does not start with its status, which is one of the transitions with the
    greatest time.  So it appends one exactly when the status of the entry changes,
    as long as the two statuses agree on it; they do when the times of the key's reports
    never stepped back. -/
theorem ingest_appends_iff {calls : List Call} (hfresh : empty.FreshRun calls) {report : Entry}
    {now : Instant} {entryId transitionId : Identifier}
    (hnext : (empty.run calls).Fresh (.ingest report now entryId transitionId)) {o : Outcome}
    (ho : ((empty.run calls).ingest report (some now) entryId transitionId).1 = .ok o) :
    (o.historyAppended = true
        ↔ (empty.run calls).newestStatus? (.ofEntry report) ≠ some report.status)
      ∧ ((o.historyAppended = true
            ↔ (empty.run calls).entryStatus? (.ofEntry report) ≠ some report.status)
          ↔ ((empty.run calls).newestStatus? (.ofEntry report) = some report.status
            ↔ (empty.run calls).entryStatus? (.ofEntry report) = some report.status))
      ∧ (InOrder (ofKey (.ofEntry report) (empty.log calls)) →
          (empty.run calls).newestStatus? (.ofEntry report)
            = (empty.run calls).entryStatus? (.ofEntry report))
      ∧ (∀ x, (empty.run calls).newest? (.ofEntry report) = some x →
          ∀ y ∈ ofKey (.ofEntry report) (empty.log calls), y.outcome.historyAppended = true →
            ¬timeText x.lastExecution < timeText y.now) := by
  obtain ⟨r, hrun, hs, htracks⟩ := exists_records hfresh
  rw [hrun] at hnext ho ⊢
  have happended := Records.historyAppended_iff hs hnext ho
  refine ⟨happended, ?_, htracks.newestStatus?_of_inOrder hs, ?_⟩
  · rw [happended]
    exact ⟨fun h => Decidable.not_iff_not.1 h, fun h => not_congr h⟩
  · intro x hx y hy happ
    exact htracks.le_newest hs hx hy happ

namespace Sample

/-- A run whose clock steps back by five seconds before the second report. -/
def steppedBack : List Call :=
  [.register check (.ofNat 1),
   .ingest (report .healthy) (second 10) (.ofNat 2) (.ofNat 3),
   .ingest (report .degraded) (second 5) (.ofNat 4) (.ofNat 5)]

/-- A next report, one second later. -/
def next (status : Status) : Call :=
  .ingest (report status) (second 6) (.ofNat 6) (.ofNat 7)

/-- The transition of the first report. -/
def healthyRow : Transition :=
  .arrival (.ofNat 3) (.ofNat 2) (report .healthy) (second 10)

/-- The transition of the second report. -/
def degradedRow : Transition :=
  .arrival (.ofNat 5) (.ofNat 2) (report .degraded) (second 5)

/-- The entry after both reports. -/
def linked : Linked where
  entry := (Entry.first (report .healthy) (check.identified (.ofNat 1)) (.ofNat 2)
    (second 10)).update (report .degraded) (second 5)
  definition := check.identified (.ofNat 1)

/-- What the run leaves. -/
def records : Records where
  checks := [linked.definition]
  entries := [linked]
  transitions := [healthyRow, degradedRow]

theorem freshRun_steppedBack : empty.FreshRun steppedBack := by decide +kernel

theorem run_steppedBack : empty.run steppedBack = records.store := by decide +kernel

theorem fresh_next (status : Status) : (empty.run steppedBack).Fresh (next status) := by
  rw [run_steppedBack]
  cases status <;> decide +kernel

theorem sound_records : records.Sound where
  checkIds := by decide
  checkNames := by decide
  entryIds := by decide
  entryKeys := by decide
  transitionIds := by decide
  linked := by decide
  owned := by decide

theorem linked?_records (status : Status) : records.linked? (.ofEntry (report status)) = some linked := by
  cases status <;> decide

/-- The history starts with the transition of the later time, which was stored first. -/
theorem history_records : records.history linked.entry.id = [healthyRow, degradedRow] := by
  have hsort : [degradedRow, healthyRow].mergeSort Records.notBefore
      = [healthyRow, degradedRow] := by
    have hle : Records.notBefore degradedRow healthyRow = false := by decide +kernel
    rw [List.mergeSort]
    simp [hle]
  exact hsort

/-- A next report is compared with the status of the first one. -/
theorem ingest_next (status : Status) :
    ((empty.run steppedBack).ingest (report status) (some (second 6))
      (.ofNat 6) (.ofNat 7)).1 = .ok ⟨.ofNat 2, false, decide (Status.healthy ≠ status)⟩ := by
  have hfresh := fresh_next status
  have happ : records.appends linked.entry.id (report status)
      = decide (Status.healthy ≠ status) := by
    rw [Records.appends, history_records]
    cases status <;> rfl
  rw [run_steppedBack] at hfresh ⊢
  rw [Records.ingest_store sound_records hfresh, Records.taken, linked?_records]
  simp only [happ]
  cases status <;> rfl

theorem entryStatus?_steppedBack (status : Status) :
    (empty.run steppedBack).entryStatus? (.ofEntry (report status)) = some .degraded := by
  rw [run_steppedBack, entryStatus?, stored?_store sound_records, linked?_records]
  rfl

end Sample

/-- After the clock stepped back, a second degraded report appends another transition,
    and a healthy one, which changes the status, appends none. -/
theorem appended_after_step_back :
    empty.FreshRun Sample.steppedBack
      ∧ (∃ o, ((empty.run Sample.steppedBack).ingest (Sample.report .degraded)
            (some (Sample.second 6)) (.ofNat 6) (.ofNat 7)).1 = .ok o
          ∧ ¬(o.historyAppended = true ↔ (empty.run Sample.steppedBack).entryStatus?
            (.ofEntry (Sample.report .degraded)) ≠ some .degraded))
      ∧ (∃ o, ((empty.run Sample.steppedBack).ingest (Sample.report .healthy)
            (some (Sample.second 6)) (.ofNat 6) (.ofNat 7)).1 = .ok o
          ∧ ¬(o.historyAppended = true ↔ (empty.run Sample.steppedBack).entryStatus?
            (.ofEntry (Sample.report .healthy)) ≠ some .healthy)) := by
  refine ⟨Sample.freshRun_steppedBack, ⟨_, Sample.ingest_next .degraded, ?_⟩,
    ⟨_, Sample.ingest_next .healthy, ?_⟩⟩
  · rw [Sample.entryStatus?_steppedBack]
    decide
  · rw [Sample.entryStatus?_steppedBack]
    decide

/-- The decision after the clock stepped back. -/
theorem newest_after_step_back :
    (empty.run Sample.steppedBack).newestStatus? (.ofEntry (Sample.report .degraded))
      ≠ some .degraded :=
  (ingest_appends_iff Sample.freshRun_steppedBack (Sample.fresh_next .degraded)
    (Sample.ingest_next .degraded)).1.1 rfl

end HealthWatch.Store
