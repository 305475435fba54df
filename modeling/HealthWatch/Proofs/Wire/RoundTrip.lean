import HealthWatch.Proofs.Instant.Rfc3339
import HealthWatch.Proofs.Store.Row
import HealthWatch.Wire.View

/-! # The wire — what is sent is what arrives

    Statuses, definitions, transitions, entries and views go through their texts.  All
    that is lost is what a duration has below one hundred nanoseconds, at every depth:
    in an entry, in its history and in the entries of a view. -/

namespace HealthWatch

/-- An entry as it is carried: its durations are cut down, also those of its history. -/
def Entry.carried (e : Entry) : Entry :=
  { e with
    lastDuration := e.lastDuration.truncate
    history := e.history.map (List.map Transition.kept) }

/-- A view as it is carried. -/
def View.carried (v : View) : View := { v with checks := v.checks.map Entry.carried }

namespace Wire

open Json Json.Decode

/-! ## Plain values -/

/-- Identifiers are carried as they are. -/
theorem carries_identifier : Carries encodeIdentifier decodeIdentifier id where
  numberFree := fun i => .text i.toText
  decode_encode := by
    intro i
    simp only [encodeIdentifier, Document.ofJson, decodeIdentifier, Identifier.parse_toText, id]
  cut_eq_self := fun _ => rfl

/-- So are instants. -/
theorem carries_instant : Carries encodeInstant decodeInstant id where
  numberFree := fun t => .text _
  decode_encode := by
    intro t
    simp only [encodeInstant, ofChars, Document.ofJson, decodeInstant, String.toList_ofList,
      Instant.Rfc3339.parse_format, id]
  cut_eq_self := fun _ => rfl

/-- Durations are carried cut down. -/
theorem carries_duration : Carries encodeDuration decodeDuration Duration.truncate where
  numberFree := fun t => .text _
  decode_encode := by
    intro t
    simp only [encodeDuration, ofChars, Document.ofJson, decodeDuration, string, bind, Except.bind,
      String.toList_ofList, TimeSpan.parse?_format]
  cut_eq_self := by
    intro d t h
    obtain ⟨s, -, h⟩ := bind_eq_ok h
    cases ht : TimeSpan.parse? s.toList with
    | none =>
        rw [ht] at h
        cases h
    | some u =>
        rw [ht] at h
        cases h
        exact TimeSpan.truncate_of_parse? ht

/-- Statuses are carried by their names. -/
theorem carries_status (medium : Medium) : Carries encodeStatus (decodeStatus medium) id where
  numberFree := fun s => .text s.name
  decode_encode := by
    intro s
    simp only [encodeStatus, Document.ofJson, decodeStatus, variant, Status.ofName?_name, id]
  cut_eq_self := fun _ => rfl

/-! ## Definitions -/

/-- Definitions are carried as they are. -/
theorem carries_check (medium : Medium) : Carries encodeCheck (decodeCheck medium) id where
  numberFree := by
    intro c
    refine .object ?_
    simp only [List.forall_mem_cons]
    exact ⟨carries_identifier.numberFree _, .text _, .text _,
      carries_string.list.numberFree _, fun _ h => nomatch h⟩
  decode_encode := by
    intro c
    have hid := carries_identifier.decode_encode c.id
    have htags : list string (.ofJson (encodeTexts c.tags)) = .ok (c.tags.map id) :=
      carries_string.list.decode_encode c.tags
    simp only [decodeCheck, encodeCheck, Document.ofJson, Document.ofMembers, record, members,
      CheckDraft.step, once, within, Functor.map, Except.map, bind, Except.bind, pure, Except.pure,
      hid, htags, string]
    rw [List.map_id]
    rfl
  cut_eq_self := fun _ => rfl

/-! ## Transitions -/

/-- The durations of a transition read so far cannot be cut down. -/
def TransitionDraft.Cut (b : TransitionDraft) : Prop :=
  b.lastDuration.map Duration.truncate = b.lastDuration

/-- A member of a transition keeps the draft cut down. -/
theorem TransitionDraft.cut_step {medium : Medium} {b b' : TransitionDraft} {key : String}
    {d : Document} (hb : b.Cut) (h : b.step medium key d = .ok b') : b'.Cut := by
  rw [step.eq_def] at h
  split at h
  case h_6 =>
    obtain ⟨new, hnew, h⟩ := bind_eq_ok h
    cases h
    obtain ⟨t, rfl, ht⟩ := once_eq_ok hnew
    exact congrArg some (carries_duration.cut_eq_self ht)
  -- the other members leave the duration alone
  all_goals
    obtain ⟨new, -, h⟩ := bind_eq_ok h
    cases h
    exact hb

theorem TransitionDraft.Cut.kept_of_finish {b : TransitionDraft} (hb : b.Cut) {x : Transition}
    (h : b.finish = .ok x) : x.kept = x := by
  obtain ⟨id, -, h⟩ := bind_eq_ok h
  obtain ⟨entryId, -, h⟩ := bind_eq_ok h
  obtain ⟨status, -, h⟩ := bind_eq_ok h
  obtain ⟨statusFrom, -, h⟩ := bind_eq_ok h
  obtain ⟨lastExecution, -, h⟩ := bind_eq_ok h
  obtain ⟨t, ht, h⟩ := bind_eq_ok h
  cases h
  rw [Cut, required_eq_ok ht] at hb
  rw [Transition.kept, show t.truncate = t from Option.some.inj hb]

/-- Transitions are carried with their durations cut down. -/
theorem carries_transition (medium : Medium) :
    Carries encodeTransition (decodeTransition medium) Transition.kept where
  numberFree := by
    intro x
    refine .object ?_
    simp only [List.forall_mem_cons]
    exact ⟨.text _, .text _, .text _, .text _, .text _, .text _, fun _ h => nomatch h⟩
  decode_encode := by
    intro x
    have hid := carries_identifier.decode_encode x.id
    have hentry := carries_identifier.decode_encode x.entryId
    have hstatus := (carries_status medium).decode_encode x.status
    have hfrom := carries_instant.decode_encode x.statusFrom
    have htime := carries_instant.decode_encode x.lastExecution
    have hduration := carries_duration.decode_encode x.lastDuration
    simp only [decodeTransition, encodeTransition, Document.ofJson, Document.ofMembers, record,
      members, TransitionDraft.step, once, within, Functor.map, Except.map, bind, Except.bind, pure,
      Except.pure, hid, hentry, hstatus, hfrom, htime, hduration]
    rfl
  cut_eq_self := by
    intro d x h
    rcases record_eq_ok h with ⟨ms, ending, b, hb, hx⟩ | ⟨fs, rest, hfields⟩
    · exact (members_induct (P := TransitionDraft.Cut) TransitionDraft.cut_step
        (show TransitionDraft.Cut {} from rfl) hb).kept_of_finish hx
    · obtain ⟨⟨_, _⟩, -, h⟩ := bind_eq_ok hfields
      obtain ⟨⟨_, _⟩, -, h⟩ := bind_eq_ok h
      obtain ⟨⟨_, _⟩, -, h⟩ := bind_eq_ok h
      obtain ⟨⟨_, _⟩, -, h⟩ := bind_eq_ok h
      obtain ⟨⟨_, _⟩, -, h⟩ := bind_eq_ok h
      obtain ⟨⟨t, _⟩, ht, h⟩ := bind_eq_ok h
      cases h
      obtain ⟨d, hd⟩ := next_eq_ok ht
      rw [Transition.kept, carries_duration.cut_eq_self hd]

/-! ## Entries -/

/-- The durations of an entry read so far, and those of its history, cannot be cut
    down. -/
structure EntryDraft.Cut (b : EntryDraft) : Prop where
  lastDuration : b.lastDuration.map Duration.truncate = b.lastDuration
  history : b.history.map (Option.map (List.map Transition.kept)) = b.history

theorem carries_history (medium : Medium) :
    Carries (fun xs => .array (xs.map encodeTransition)) (list (decodeTransition medium))
      (List.map Transition.kept) :=
  (carries_transition medium).list

/-- A member of an entry keeps the draft cut down. -/
theorem EntryDraft.cut_step {medium : Medium} {b b' : EntryDraft} {key : String} {d : Document}
    (hb : b.Cut) (h : b.step medium key d = .ok b') : b'.Cut := by
  rw [step.eq_def] at h
  split at h
  case h_8 =>
    obtain ⟨new, hnew, h⟩ := bind_eq_ok h
    cases h
    obtain ⟨t, rfl, ht⟩ := once_eq_ok hnew
    exact ⟨congrArg some (carries_duration.cut_eq_self ht), hb.history⟩
  case h_10 =>
    obtain ⟨new, hnew, h⟩ := bind_eq_ok h
    cases h
    obtain ⟨xs, rfl, hxs⟩ := once_eq_ok hnew
    have hkept := ((carries_history medium).option fun _ h => nomatch h).cut_eq_self hxs
    exact ⟨hb.lastDuration, congrArg some hkept⟩
  -- the other members leave durations and history alone
  all_goals
    obtain ⟨new, -, h⟩ := bind_eq_ok h
    cases h
    exact ⟨hb.lastDuration, hb.history⟩

theorem EntryDraft.Cut.carried_of_finish {b : EntryDraft} (hb : b.Cut) {now : Instant} {e : Entry}
    (h : b.finish now = .ok e) : e.carried = e := by
  obtain ⟨applicationId, -, h⟩ := bind_eq_ok h
  obtain ⟨serverName, -, h⟩ := bind_eq_ok h
  obtain ⟨name, -, h⟩ := bind_eq_ok h
  obtain ⟨status, -, h⟩ := bind_eq_ok h
  cases h
  have hduration : (b.lastDuration.getD .zero).truncate = b.lastDuration.getD .zero :=
    getD_of_map_eq hb.lastDuration rfl
  have hhistory : (b.history.getD none).map (List.map Transition.kept) = b.history.getD none :=
    getD_of_map_eq hb.history rfl
  rw [Entry.carried, hduration, hhistory]

theorem numberFree_member? {α : Type} {encode : α → Json} (h : ∀ a, NumberFree (encode a))
    (key : String) (o : Option α) : ∀ p ∈ member? key encode o, NumberFree p.2 := by
  cases o with
  | none => exact fun _ hp => nomatch hp
  | some a =>
      intro p hp
      rw [List.mem_singleton.1 hp]
      exact h a

/-- Definition and history are read from their members, and stay away when these are left
    out. -/
theorem EntryDraft.members_optional (medium : Medium) {b : EntryDraft} (hcheck : b.check = none)
    (hhistory : b.history = none) (check : Option Check) (history : Option (List Transition)) :
    members (EntryDraft.step medium) .closed b (Document.ofMembers
        (member? "healthCheck" encodeCheck check
          ++ member? "historyEntries" (fun xs => .array (xs.map encodeTransition)) history))
      = .ok { b with
          check := check.map some
          history := history.map fun xs => some (xs.map Transition.kept) } := by
  have hhistories : ∀ b' : EntryDraft, b'.history = none →
      members (EntryDraft.step medium) .closed b' (Document.ofMembers
          (member? "historyEntries" (fun xs => .array (xs.map encodeTransition)) history))
        = .ok { b' with history := history.map fun xs => some (xs.map Transition.kept) } := by
    intro b' hb'
    cases history with
    | none =>
        obtain ⟨⟩ := b'
        cases hb'
        rfl
    | some xs =>
        have hread : option (list (decodeTransition medium))
              (.ofJson (.array (xs.map encodeTransition))) = .ok (some (xs.map Transition.kept)) :=
          ((carries_history medium).option (by rintro _ ⟨⟩)).decode_encode (some xs)
        simp only [member?, Document.ofMembers, members, EntryDraft.step, once, hb', within, hread,
          Functor.map, Except.map, bind, Except.bind, pure, Except.pure]
        rfl
  cases check with
  | none =>
      rw [show member? "healthCheck" encodeCheck none = [] from rfl, List.nil_append,
        hhistories b hhistory]
      obtain ⟨⟩ := b
      cases hcheck
      rfl
  | some c =>
      have hread : option (decodeCheck medium) (.ofJson (encodeCheck c)) = .ok (some c) :=
        ((carries_check medium).option (by rintro _ ⟨⟩)).decode_encode (some c)
      rw [show member? "healthCheck" encodeCheck (some c) = [("healthCheck", encodeCheck c)] from rfl]
      simp only [List.cons_append, List.nil_append, Document.ofMembers, members, EntryDraft.step,
        once, hcheck, within, hread, Functor.map, Except.map, bind, Except.bind, pure, Except.pure]
      exact hhistories _ hhistory

/-- Entries are carried with all their durations cut down. -/
theorem carries_entry (now : Instant) (medium : Medium) :
    Carries encodeEntry (decodeEntry now medium) Entry.carried where
  numberFree := by
    intro e
    refine .object (List.forall_mem_append.2 ⟨List.forall_mem_append.2 ⟨?_, ?_⟩, ?_⟩)
    · simp only [List.forall_mem_cons]
      exact ⟨.text _, .text _, .text _, .text _,
        (carries_string.option fun _ h => nomatch h).numberFree _, .text _, .text _, .text _,
        fun _ h => nomatch h⟩
    · exact numberFree_member? (carries_check medium).numberFree _ _
    · exact numberFree_member? (carries_history medium).numberFree _ _
  decode_encode := by
    intro e
    have hid := carries_identifier.decode_encode e.id
    have happlication := carries_identifier.decode_encode e.applicationId
    have hdescription := (carries_string.option fun _ h => nomatch h).decode_encode e.description
    have hstatus := (carries_status medium).decode_encode e.status
    have htime := carries_instant.decode_encode e.lastExecution
    have hduration := carries_duration.decode_encode e.lastDuration
    simp only [decodeEntry, encodeEntry, Document.ofJson, List.cons_append, List.nil_append,
      Document.ofMembers, record, members, EntryDraft.step, once, within, Functor.map, Except.map,
      bind, Except.bind, pure, Except.pure, encodeText?, string, hid, happlication, hdescription,
      hstatus, htime, hduration, EntryDraft.members_optional, Option.map_id_fun, id]
    have hcheck : (e.check.map some).getD none = e.check := by cases e.check <;> rfl
    have hhistory : (e.history.map fun xs => some (xs.map Transition.kept)).getD none
        = e.history.map (List.map Transition.kept) := by cases e.history <;> rfl
    simp only [EntryDraft.finish, required, bind, Except.bind, pure, Except.pure, Option.getD_some,
      hcheck, hhistory]
    rfl
  cut_eq_self := by
    intro d e h
    rcases record_eq_ok h with ⟨ms, ending, b, hb, he⟩ | ⟨fs, rest, hfields⟩
    · exact (members_induct (P := EntryDraft.Cut) EntryDraft.cut_step
        (show EntryDraft.Cut {} from ⟨rfl, rfl⟩) hb).carried_of_finish he
    · obtain ⟨⟨_, _⟩, -, h⟩ := bind_eq_ok hfields
      obtain ⟨⟨_, _⟩, -, h⟩ := bind_eq_ok h
      obtain ⟨⟨_, _⟩, -, h⟩ := bind_eq_ok h
      obtain ⟨⟨_, _⟩, -, h⟩ := bind_eq_ok h
      obtain ⟨⟨_, _⟩, -, h⟩ := bind_eq_ok h
      obtain ⟨⟨_, _⟩, -, h⟩ := bind_eq_ok h
      obtain ⟨⟨_, _⟩, -, h⟩ := bind_eq_ok h
      obtain ⟨⟨t, _⟩, ht, h⟩ := bind_eq_ok h
      obtain ⟨⟨_, _⟩, -, h⟩ := bind_eq_ok h
      obtain ⟨⟨xs, _⟩, hxs, h⟩ := bind_eq_ok h
      cases h
      have hduration : t.truncate = t := by
        rcases nextD_eq_ok ht with rfl | ⟨d, hd⟩
        · rfl
        · exact carries_duration.cut_eq_self hd
      have hhistory : xs.map (List.map Transition.kept) = xs := by
        rcases nextD_eq_ok hxs with rfl | ⟨d, hd⟩
        · rfl
        · exact ((carries_history medium).option (by rintro _ ⟨⟩)).cut_eq_self hd
      rw [Entry.carried, hduration, hhistory]

/-! ## Views -/

/-- The entries of a view read so far cannot be cut down. -/
def ViewDraft.Cut (b : ViewDraft) : Prop :=
  b.checks.map (List.map Entry.carried) = b.checks

/-- A member of a view keeps the draft cut down. -/
theorem ViewDraft.cut_step {now : Instant} {medium : Medium} {b b' : ViewDraft} {key : String}
    {d : Document} (hb : b.Cut) (h : b.step now medium key d = .ok b') : b'.Cut := by
  rw [step.eq_def] at h
  split at h
  case h_4 =>
    obtain ⟨new, hnew, h⟩ := bind_eq_ok h
    cases h
    obtain ⟨es, rfl, hes⟩ := once_eq_ok hnew
    exact congrArg some ((carries_entry now medium).list.cut_eq_self hes)
  -- the other members leave the entries alone
  all_goals
    obtain ⟨new, -, h⟩ := bind_eq_ok h
    cases h
    exact hb

theorem ViewDraft.Cut.carried_of_finish {b : ViewDraft} (hb : b.Cut) {v : View}
    (h : b.finish = .ok v) : v.carried = v := by
  obtain ⟨firstLevel, -, h⟩ := bind_eq_ok h
  obtain ⟨secondLevel, -, h⟩ := bind_eq_ok h
  obtain ⟨checkName, -, h⟩ := bind_eq_ok h
  obtain ⟨checks, hchecks, h⟩ := bind_eq_ok h
  obtain ⟨status, -, h⟩ := bind_eq_ok h
  cases h
  rw [Cut, required_eq_ok hchecks] at hb
  rw [View.carried, show checks.map Entry.carried = checks from Option.some.inj hb]

/-- Views are carried with all their durations cut down. -/
theorem carries_view (now : Instant) (medium : Medium) :
    Carries encodeView (decodeView now medium) View.carried where
  numberFree := by
    intro v
    refine .object ?_
    simp only [List.forall_mem_cons]
    exact ⟨.text _, .text _, .text _, (carries_entry now medium).list.numberFree _, .text _,
      fun _ h => nomatch h⟩
  decode_encode := by
    intro v
    have hchecks : list (decodeEntry now medium)
          (.array (Document.ofItems (v.checks.map encodeEntry)) .closed)
        = .ok (v.checks.map Entry.carried) :=
      (carries_entry now medium).list.decode_encode v.checks
    have hstatus := (carries_status medium).decode_encode v.status
    simp only [decodeView, encodeView, Document.ofJson, Document.ofMembers, record, members,
      ViewDraft.step, once, within, Functor.map, Except.map, bind, Except.bind, pure, Except.pure,
      string, hchecks, hstatus]
    rfl
  cut_eq_self := by
    intro d v h
    rcases record_eq_ok h with ⟨ms, ending, b, hb, hv⟩ | ⟨fs, rest, hfields⟩
    · exact (members_induct (P := ViewDraft.Cut) ViewDraft.cut_step
        (show ViewDraft.Cut {} from rfl) hb).carried_of_finish hv
    · obtain ⟨⟨_, _⟩, -, h⟩ := bind_eq_ok hfields
      obtain ⟨⟨_, _⟩, -, h⟩ := bind_eq_ok h
      obtain ⟨⟨_, _⟩, -, h⟩ := bind_eq_ok h
      obtain ⟨⟨es, _⟩, hes, h⟩ := bind_eq_ok h
      obtain ⟨⟨_, _⟩, -, h⟩ := bind_eq_ok h
      cases h
      obtain ⟨d, hd⟩ := next_eq_ok hes
      rw [View.carried, (carries_entry now medium).list.cut_eq_self hd]

/-! ## Texts -/

/-- Values that go through their texts: a value is decoded from the text that is written
    for it, cut down, and a value that is decoded from any text stays the same from then
    on, whenever it is decoded. -/
structure RoundTrips {α : Type} (encode : α → Json) (decode : Instant → Document → Except Fault α)
    (cut : α → α) : Prop where
  decode_encode : ∀ now a, whole (decode now) (encode a).render.toList = .ok (cut a)
  decode_again : ∀ now later s a, whole (decode now) s = .ok a →
    whole (decode later) (encode a).render.toList = .ok a

/-- What is carried goes through its text in both directions. -/
theorem roundTrips_of_carries {α : Type} {encode : α → Json}
    {decode : Instant → Document → Except Fault α} {cut : α → α}
    (h : ∀ now, Carries encode (decode now) cut) : RoundTrips encode decode cut where
  decode_encode := fun now a => (h now).whole a
  decode_again := by
    intro now later s a ha
    rw [(h later).whole a, (h now).cut_of_whole ha]

/-- Every status, definition, transition, entry and view is decoded from its text, with
    all its durations cut down to multiples of one hundred nanoseconds; and what is
    decoded from any text of one of these types is decoded again from the text that is
    written for it. -/
theorem values_round_trip :
    RoundTrips encodeStatus (fun _ => decodeStatus .written) id
      ∧ RoundTrips encodeCheck (fun _ => decodeCheck .written) id
      ∧ RoundTrips encodeTransition (fun _ => decodeTransition .written) Transition.kept
      ∧ RoundTrips encodeEntry (fun now => decodeEntry now .written) Entry.carried
      ∧ RoundTrips encodeView (fun now => decodeView now .written) View.carried := by
  refine ⟨?_, ?_, ?_, ?_, ?_⟩
  · exact roundTrips_of_carries fun _ => carries_status .written
  · exact roundTrips_of_carries fun _ => carries_check .written
  · exact roundTrips_of_carries fun _ => carries_transition .written
  · exact roundTrips_of_carries fun now => carries_entry now .written
  · exact roundTrips_of_carries fun now => carries_view now .written

end Wire

end HealthWatch
