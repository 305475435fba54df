import HealthWatch.Proofs.Api.Session
import HealthWatch.Proofs.Wire.RoundTrip

/-! # Acceptance — what the interface takes and then shows

    A definition with a name is registered when the store is left to give it its
    identifier, and a report of a registered check is taken over.  From then on the view
    of the check shows the report on its server, until the next one comes.  Definitions
    stay, whatever is exchanged (`Exchange.knows_after`). -/

namespace HealthWatch.Api

open Http Text

/-- A definition of this name is stored. -/
def Knows (s : Store) (name : String) : Prop := ∃ d, s.find? name = .ok (some d)

/-- The view of a report's check shows the report on its server, with its duration cut
    down. -/
def Shows (s : Store) (e : Entry) : Prop :=
  ∃ view, s.checkStatus e.applicationId e.name = .ok (some view)
    ∧ ∃ shown ∈ view.checks, shown.serverName = e.serverName ∧ shown.status = e.status
      ∧ shown.description = e.description ∧ shown.lastDuration = e.lastDuration.truncate

/-! ## What requests bring -/

/-- A definition with a name is taken from the request that brings it. -/
theorem checkOf_of_brings {request : Request} {c : Check}
    (h : Brings request (Wire.encodeCheck c)) (hname : isBlankText c.name = false) :
    checkOf request = .ok c := by
  rw [checkOf, bodyOf_of_carries (Wire.carries_check .written) h]
  simp only [Except.mapError, bind, Except.bind, demand, id, hname]
  rfl

/-- A report with both names is taken from the request that brings it, apart from what no text
    carries. -/
theorem reportOf_of_brings (now : Instant) {request : Request} {e : Entry}
    (h : Brings request (Wire.encodeEntry e)) (hname : isBlankText e.name = false)
    (hserver : isBlankText e.serverName = false) : reportOf now request = .ok e.carried := by
  have hname' : isBlankText e.carried.name = false := hname
  have hserver' : isBlankText e.carried.serverName = false := hserver
  rw [reportOf, bodyOf_of_carries (Wire.carries_entry now .written) h]
  simp only [Except.mapError, bind, Except.bind, demand, hname', hserver']
  rfl

/-! ## What records show -/

section Records

variable {r : Store.Records}

/-- A definition that a registration gives is found by its name. -/
theorem check?_registered {c d : Check} {fresh : Identifier} {r' : Store.Records}
    (h : r.registered c fresh = .ok (d, r')) : r'.check? c.name = some d := by
  rcases Store.Records.registered_eq_ok h with ⟨hname, rfl⟩ | ⟨hname, rfl, -, rfl⟩
  · exact hname
  · rw [Store.Records.check?_addCheck, hname, Check.name_identified, if_pos rfl]
    rfl

/-- After a report the entry of its key holds what the report says. -/
theorem linked?_taken {report : Entry} {now : Instant} {entryId transitionId : Identifier}
    {o : Store.Outcome} {r' : Store.Records}
    (h : r.taken report now entryId transitionId = some (o, r')) :
    ∃ p, r'.linked? (.ofEntry report) = some p ∧ p.entry.status = report.status
      ∧ p.entry.description = report.description
      ∧ p.entry.lastDuration = report.lastDuration := by
  rcases Store.Records.taken_eq_some h with ⟨c, hkey, -, -, rfl⟩ | ⟨p, hp, -, -, rfl⟩
    | ⟨p, hp, -, -, rfl⟩
  · refine ⟨⟨.first report c entryId now, c⟩, ?_, rfl, rfl, rfl⟩
    rw [Store.Records.linked?_opened, hkey, if_pos rfl]
    rfl
  -- the entry that was there is renewed, with a new transition or without
  all_goals
    refine ⟨{ p with entry := p.entry.update report now }, ?_, rfl, rfl, rfl⟩
    rw [Store.Records.linked?_renew]
  · rw [show (r.addTransition _).linked? (.ofEntry report) = some p from hp, Option.map_some,
      Store.Records.renewed, if_pos rfl]
  · rw [hp, Option.map_some, Store.Records.renewed, if_pos rfl]

/-- The view of a check shows the entry of every key of its name. -/
theorem shows_of_linked? (hs : r.Sound) {e : Entry} {p : Store.Linked}
    (hp : r.linked? (.ofEntry e) = some p) (hstatus : p.entry.status = e.status)
    (hdescription : p.entry.description = e.description)
    (hduration : p.entry.lastDuration.truncate = e.lastDuration.truncate) :
    Shows r.store e := by
  obtain ⟨hmem, hkey⟩ := Store.Records.linked?_eq_some hp
  have happlication : p.entry.applicationId = e.applicationId :=
    congrArg Store.Key.applicationId hkey
  have hserver : p.entry.serverName = e.serverName := congrArg Store.Key.serverName hkey
  have hname : p.entry.name = e.name := congrArg Store.Key.name hkey
  have hnamed : p.value ∈ ((r.list (Store.Records.ofApplication e.applicationId)).map
      Store.Linked.value).filter fun e' => e'.name = e.name := by
    refine List.mem_filter.2 ⟨List.mem_map_of_mem (Store.Records.mem_list.2 ⟨hmem, ?_⟩), ?_⟩
    · exact Store.Records.ofApplication_row.2 happlication
    · exact decide_eq_true hname
  rcases hs.views_of_name e.applicationId e.name with ⟨hnone, -⟩ | ⟨group, hviews⟩
  · rw [hnone] at hnamed
    exact nomatch hnamed
  · refine ⟨_, by rw [Store.Records.checkStatus_store hs, hviews]; rfl, ?_⟩
    exact ⟨p.value.withHistory r.histories, List.mem_map_of_mem hnamed, hserver, hstatus,
      hdescription, hduration⟩

end Records

namespace Exchange

variable {x : Exchange}

/-- A definition that is stored stays so. -/
theorem knows_after (h : Ran x.before) (hfresh : x.Fresh) {name : String}
    (hknown : Knows x.before name) : Knows x.after name := by
  obtain ⟨r, given, log, hx, hs, htracks⟩ := h.exists_records
  rcases x.after_eq hs hx hfresh with hsame | ⟨call, hcall, hafter⟩
  · exact hsame ▸ hknown
  · rw [hx] at hcall hafter hknown
    obtain ⟨r', hr', hs', hkept, -⟩ := Store.Records.exists_after hs htracks hcall
    obtain ⟨d, hd⟩ := hknown
    rw [Store.Records.find?_store] at hd
    obtain ⟨hmem, rfl⟩ := Store.Records.check?_eq_some (Except.ok.inj hd)
    refine ⟨d, ?_⟩
    rw [hafter, hr', Store.Records.find?_store, hs'.check?_of_mem (hkept.subset hmem)]

/-- A definition with a name and without an identifier is registered. -/
theorem register_accepted (h : Ran x.before) (hfresh : x.Fresh)
    (hpath : x.request.path = path "RegisterHealthCheck") (hmethod : x.request.method = "POST")
    {c : Check} (hbrings : Brings x.request (Wire.encodeCheck c))
    (hname : isBlankText c.name = false) (hnil : c.id = .nil) :
    x.response.status = 200 ∧ Knows x.after c.name := by
  obtain ⟨r, -, -, hx, hs, -⟩ := h.exists_records
  obtain ⟨hstatus, hafter⟩ := answered_post rfl hpath hmethod
  have hf := hfresh.register c
  rw [hx] at hf hstatus hafter
  -- a definition without an identifier is not refused
  have hgives := (Store.Records.registers_store hf).succeeds_iff.2 (.inr (.inl (by rw [hnil]; rfl)))
  rw [hstatus, hafter, register, checkOf_of_brings hbrings hname]
  simp only [Store.Records.register_store] at hgives ⊢
  cases hr : r.registered c x.moment.checkId with
  | error e =>
      rw [hr] at hgives
      obtain ⟨d, hd⟩ := hgives
      cases hd
  | ok result =>
      obtain ⟨d, r'⟩ := result
      refine ⟨rfl, d, ?_⟩
      show r'.store.find? c.name = .ok (some d)
      rw [Store.Records.find?_store, check?_registered hr]

/-- A report of a registered check is taken over and shown. -/
theorem add_accepted (h : Ran x.before) (hfresh : x.Fresh)
    (hpath : x.request.path = path "AddHealthCheck") (hmethod : x.request.method = "POST")
    {e : Entry} (hbrings : Brings x.request (Wire.encodeEntry e))
    (hname : isBlankText e.name = false) (hserver : isBlankText e.serverName = false)
    (hknown : Knows x.before e.name) : x.response.status = 200 ∧ Shows x.after e := by
  obtain ⟨r, -, -, hx, hs, -⟩ := h.exists_records
  obtain ⟨hstatus, hafter⟩ := answered_post rfl hpath hmethod
  have hf := hfresh.ingest e.carried
  rw [hx] at hf hstatus hafter hknown
  obtain ⟨d, hd⟩ := hknown
  rw [Store.Records.find?_store] at hd
  rw [hstatus, hafter, add, reportOf_of_brings x.moment.now hbrings hname hserver]
  simp only [Store.Records.ingest_store hs hf]
  cases ht : r.taken e.carried x.moment.now x.moment.entryId x.moment.transitionId with
  | none =>
      cases (Store.Records.taken_eq_none ht).2.symm.trans (Except.ok.inj hd)
  | some result =>
      obtain ⟨o, r'⟩ := result
      obtain ⟨hentry, htransition⟩ := Store.Records.fresh_store_ingest hf
      have hs' := hs.taken (fun _ => hentry) (fun _ => htransition) ht
      obtain ⟨p, hp, hpstatus, hpdescription, hpduration⟩ := linked?_taken ht
      refine ⟨rfl, shows_of_linked? hs' hp hpstatus hpdescription ?_⟩
      rw [hpduration]
      exact Duration.truncate_truncate e.lastDuration

end Exchange

end HealthWatch.Api
