import HealthWatch.Proofs.Store.Refinement
import HealthWatch.Proofs.Wire.RoundTrip

/-! # Durations — how much of a reported duration is kept

    A duration that goes through its text is cut down to a multiple of one hundred
    nanoseconds, and it is cut down once only: going through texts again changes nothing.

    * `Duration.KeptOf` says how far a kept duration may be from a reported one, and
      `Duration.keptOf_iff` that there is one such duration;
    * `Store.Keeps` says which reports the durations in a store come from;
    * `Store.durations_are_kept` says it of texts, of the rows and the reads of a store, and
      of entries that are sent. -/

namespace HealthWatch

/-! ## Kept durations -/

namespace Duration

/-- A multiple of one hundred nanoseconds that is less than one hundred nanoseconds short. -/
structure KeptOf (kept d : Duration) : Prop where
  dvd : 100 ∣ kept.nanos
  le : kept.totalNanos ≤ d.totalNanos
  lt : d.totalNanos < kept.totalNanos + 100

variable {kept d : Duration}

/-- Cutting down loses less than one hundred nanoseconds. -/
theorem truncate_keptOf (d : Duration) : d.truncate.KeptOf d where
  dvd := Nat.dvd_mul_left 100 (d.nanos / 100)
  le := by
    show d.seconds * 1000000000 + d.nanos / 100 * 100 ≤ d.seconds * 1000000000 + d.nanos
    omega
  lt := by
    show d.seconds * 1000000000 + d.nanos < d.seconds * 1000000000 + d.nanos / 100 * 100 + 100
    omega

/-- One duration only is kept of another one. -/
theorem keptOf_iff : kept.KeptOf d ↔ kept = d.truncate := by
  constructor
  · rintro ⟨hdvd, hle, hlt⟩
    have hkept := kept.nanos_lt
    have hd := d.nanos_lt
    rw [totalNanos, totalNanos] at hle hlt
    -- a second is a multiple as well, so no second gets lost with the rest
    have hseconds : kept.seconds = d.seconds := by omega
    have hnanos : kept.nanos = d.nanos / 100 * 100 := by omega
    cases kept
    cases hseconds
    cases hnanos
    rfl
  · rintro rfl
    exact truncate_keptOf d

/-- What is kept of a kept duration is kept of the first one. -/
theorem KeptOf.trans {e : Duration} (h : kept.KeptOf d) (h' : d.KeptOf e) : kept.KeptOf e := by
  rw [keptOf_iff] at h h' ⊢
  rw [h, h', truncate_truncate]

/-- A multiple of one hundred nanoseconds is kept as it is. -/
theorem truncate_of_dvd (h : 100 ∣ d.nanos) : d.truncate = d :=
  (keptOf_iff.1 ⟨h, Nat.le_refl _, Nat.lt_add_of_pos_right (by decide)⟩).symm

end Duration

/-- The durations of an entry and of its history are kept from those of another one. -/
structure Entry.KeptOf (kept e : Entry) : Prop where
  lastDuration : kept.lastDuration.KeptOf e.lastDuration
  history : Option.Rel (List.Forall₂ fun t t' : Transition => t.lastDuration.KeptOf t'.lastDuration)
    kept.history e.history

theorem Entry.carried_keptOf (e : Entry) : e.carried.KeptOf e where
  lastDuration := e.lastDuration.truncate_keptOf
  history := by
    have hkept : ∀ ts : List Transition, List.Forall₂
        (fun t t' : Transition => t.lastDuration.KeptOf t'.lastDuration) (ts.map .kept) ts := by
      intro ts
      induction ts with
      | nil => exact .nil
      | cons t ts ih => exact .cons t.lastDuration.truncate_keptOf ih
    rw [carried]
    cases e.history with
    | none => exact .none
    | some ts => exact .some (hkept ts)

namespace TimeSpan

/-- Durations of one text are the same when they are multiples of one hundred nanoseconds. -/
theorem format_injOn {d e : Duration} (hd : 100 ∣ d.nanos) (he : 100 ∣ e.nanos)
    (h : format d = format e) : d = e := by
  have hparse := parse?_format d
  rw [h, parse?_format, Duration.truncate_of_dvd hd, Duration.truncate_of_dvd he] at hparse
  exact (Option.some.inj hparse).symm

end TimeSpan

namespace Store

/-! ## The reports behind what is stored -/

/-- The last report for the key of an entry. -/
def IsLast (log : List Taken) (k : Key) (x : Taken) : Prop :=
  (ofKey k log).getLast? = some x

/-- The report that a transition was made from. -/
structure IsOrigin (log : List Taken) (t : Transition) (x : Taken) : Prop where
  mem : x ∈ log
  id : x.transitionId = t.id
  entryId : x.outcome.entryId = t.entryId

/-- An entry with the duration of the last report for its key. -/
def KeepsEntry (log : List Taken) (e : Entry) : Prop :=
  ∃ x, IsLast log (.ofEntry e) x ∧ e.lastDuration.KeptOf x.report.lastDuration

/-- A transition with the duration of the report that made it. -/
def KeepsTransition (log : List Taken) (t : Transition) : Prop :=
  ∃ x, IsOrigin log t x ∧ t.lastDuration.KeptOf x.report.lastDuration

/-- What a store holds, and what is read from it, are the durations of the reports in a log. -/
structure Keeps (s : Store) (log : List Taken) : Prop where
  /-- The row of an entry has the text of the duration of the last report for its key. -/
  entryRows : ∀ row ∈ s.tables.entries, ∃ k x, row.hasKey k = true ∧ IsLast log k x
    ∧ row.lastDuration = durationText x.report.lastDuration
  /-- The row of a transition has the text of the duration of the report that made it. -/
  transitionRows : ∀ row ∈ s.tables.transitions, ∃ x ∈ log, row.id = x.transitionId.toText
    ∧ row.lastDuration = durationText x.report.lastDuration
  entries : ∀ applicationId, ∃ entries, s.entries applicationId = .ok entries
    ∧ ∀ e ∈ entries, KeepsEntry log e
  checkEntries : ∀ applicationId name, ∃ entries, s.checkEntries applicationId name = .ok entries
    ∧ ∀ e ∈ entries, KeepsEntry log e
      ∧ ∃ history, e.history = some history ∧ ∀ t ∈ history, KeepsTransition log t
  history : ∀ entryId, ∃ history, s.history entryId = .ok history
    ∧ ∀ t ∈ history, KeepsTransition log t

namespace Records

variable {r : Records} {given : List Check} {log : List Taken}

/-- The duration of an entry is that of the last report for its key. -/
theorem Tracks.exists_last (h : r.Tracks given log) (hs : r.Sound) {p : Linked}
    (hp : p ∈ r.entries) :
    ∃ x, IsLast log p.key x ∧ p.entry.lastDuration = x.report.lastDuration := by
  obtain ⟨x, xs, hl, -, hentry⟩ := h.linked?_eq_some (hs.linked?_of_mem hp)
  refine ⟨xs.getLastD x, ?_, ?_⟩
  · rw [IsLast, hl, List.getLast?_cons, List.getLastD_eq_getLast?]
  · rw [hentry, entryOf_eq]
    rfl

/-- Every transition was made from a report. -/
theorem Tracks.exists_origin (h : r.Tracks given log) {t : Transition} (ht : t ∈ r.transitions) :
    ∃ x, IsOrigin log t x ∧ t.lastDuration = x.report.lastDuration := by
  rw [h.transitions, rowsOf] at ht
  obtain ⟨x, hx, rfl⟩ := List.mem_map.1 ht
  exact ⟨x, ⟨(List.mem_filter.1 hx).1, rfl, rfl⟩, rfl⟩

/-- An entry as it is read keeps the duration of the report that counts. -/
theorem Tracks.keepsEntry (h : r.Tracks given log) (hs : r.Sound) {p : Linked}
    (hp : p ∈ r.entries) (history : Option (List Transition)) :
    KeepsEntry log { p.value with history } := by
  obtain ⟨x, hx, hduration⟩ := h.exists_last hs hp
  refine ⟨x, hx, ?_⟩
  rw [← hduration]
  exact p.entry.lastDuration.truncate_keptOf

/-- A transition as it is read keeps the duration of the report that brought it. -/
theorem Tracks.keepsTransition (h : r.Tracks given log) {entryId : Identifier} {t : Transition}
    (ht : t ∈ (r.history entryId).map Transition.kept) : KeepsTransition log t := by
  obtain ⟨t, hmem, rfl⟩ := List.mem_map.1 ht
  rw [history, List.mem_mergeSort, List.mem_reverse] at hmem
  obtain ⟨x, hx, hduration⟩ := h.exists_origin (List.mem_filter.1 hmem).1
  refine ⟨x, ⟨hx.mem, hx.id, hx.entryId⟩, ?_⟩
  rw [← hduration]
  exact t.lastDuration.truncate_keptOf

/-- Everything that is read of the store keeps the duration of a report. -/
theorem Tracks.keeps (h : r.Tracks given log) (hs : r.Sound) : r.store.Keeps log where
  entryRows := by
    intro row hrow
    obtain ⟨p, hp, rfl⟩ := List.mem_map.1 hrow
    obtain ⟨x, hx, hduration⟩ := h.exists_last hs hp
    refine ⟨p.key, x, ?_, hx, congrArg durationText hduration⟩
    rw [Linked.hasKey_row, decide_eq_true rfl]
  transitionRows := by
    intro row hrow
    obtain ⟨t, ht, rfl⟩ := List.mem_map.1 hrow
    obtain ⟨x, hx, hduration⟩ := h.exists_origin ht
    exact ⟨x, hx.mem, congrArg Identifier.toText hx.id.symm, congrArg durationText hduration⟩
  entries := by
    intro applicationId
    refine ⟨_, entries_store hs applicationId, ?_⟩
    intro e he
    obtain ⟨p, hp, rfl⟩ := List.mem_map.1 he
    exact h.keepsEntry hs (mem_list.1 hp).1 none
  checkEntries := by
    intro applicationId name
    refine ⟨_, checkEntries_store hs applicationId name, ?_⟩
    intro e he
    obtain ⟨p, hp, rfl⟩ := List.mem_map.1 he
    refine ⟨h.keepsEntry hs (mem_list.1 (List.mem_filter.1 hp).1).1 _, _, rfl, ?_⟩
    exact fun t ht => h.keepsTransition ht
  history := by
    intro entryId
    exact ⟨_, history_store r entryId, fun t ht => h.keepsTransition ht⟩

end Records

/-! ## Texts, rows and JSON -/

/-- A duration is read from its text cut down to a multiple of one hundred nanoseconds, so
    two of these multiples have two texts.  A duration in a column or in JSON, those of an entry
    and its history, and all that a store holds after a run and reads, are less than one hundred
    nanoseconds short of what was reported. -/
theorem durations_are_kept :
    (∀ d, TimeSpan.parse? (TimeSpan.format d) = some d.truncate)
      ∧ (∀ d e, 100 ∣ d.nanos → 100 ∣ e.nanos → TimeSpan.format d = TimeSpan.format e → d = e)
      ∧ (∀ index d, ∃ kept, readDuration index (durationText d) = .ok kept ∧ kept.KeptOf d)
      ∧ (∀ d, ∃ kept, Json.Decode.whole Wire.decodeDuration (Wire.encodeDuration d).render.toList
          = .ok kept ∧ kept.KeptOf d)
      ∧ (∀ now e, ∃ kept, Json.Decode.whole (Wire.decodeEntry now .written)
          (Wire.encodeEntry e).render.toList = .ok kept ∧ kept.KeptOf e)
      ∧ (∀ calls, empty.FreshRun calls → (empty.run calls).Keeps (empty.log calls))
      ∧ ∀ kept d e : Duration, kept.KeptOf d → d.KeptOf e → kept.KeptOf e := by
  refine ⟨TimeSpan.parse?_format, ?_, ?_, ?_, ?_, ?_, ?_⟩
  · exact fun d e => TimeSpan.format_injOn
  · intro index d
    exact ⟨_, readDuration_durationText index d, d.truncate_keptOf⟩
  · intro d
    exact ⟨_, Wire.carries_duration.whole d, d.truncate_keptOf⟩
  · intro now e
    exact ⟨_, (Wire.carries_entry now .written).whole e, e.carried_keptOf⟩
  · intro calls hfresh
    obtain ⟨r, hrun, hs, htracks⟩ := exists_records hfresh
    rw [hrun]
    exact htracks.keeps hs
  · exact fun kept d e => Duration.KeptOf.trans

end Store

end HealthWatch
