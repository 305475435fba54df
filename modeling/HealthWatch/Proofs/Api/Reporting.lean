import HealthWatch.Proofs.Api.Acceptance

/-! # Reports over the interface — taken over when their check is registered

    In a session that starts with an empty store a report is taken over exactly when it
    is well formed and an exchange before it registered its check (`report_accepted_iff`).
    The store looks for a definition only at the first report of a key.  That later
    reports are of registered checks too is because definitions stay, and a definition
    is known exactly when it was registered (`knows_leave_iff`). -/

namespace HealthWatch.Api

open Http Text

/-! ## Sessions in two parts -/

/-- The store that a session leaves. -/
def leave (s : Store) : List (Moment × Request) → Store
  | [] => s
  | (moment, request) :: later => leave (Exchange.after ⟨s, moment, request⟩) later

/-- Later requests find what the earlier ones left. -/
theorem exchanges_append (s : Store) (earlier later : List (Moment × Request)) :
    exchanges s (earlier ++ later) = exchanges s earlier ++ exchanges (leave s earlier) later := by
  induction earlier generalizing s with
  | nil => rfl
  | cons first rest ih =>
      rw [List.cons_append, exchanges, exchanges, leave, ih, List.cons_append]

/-- A session with fresh identifiers leaves a store that a fresh run leaves. -/
theorem ran_leave {s : Store} (h : Ran s) {session : List (Moment × Request)}
    (hfresh : ∀ y ∈ exchanges s session, y.Fresh) : Ran (leave s session) := by
  induction session generalizing s with
  | nil => exact h
  | cons first rest ih =>
      obtain ⟨hfirst, hrest⟩ := List.forall_mem_cons.1 hfresh
      exact ih (Exchange.ran_after h hfirst) hrest

theorem ran_empty : Ran .empty := ⟨[], trivial, rfl⟩

/-! ## Registered and known -/

/-- A server that was asked nothing knows nothing. -/
theorem not_knows_empty (name : String) : ¬Knows .empty name := by
  rintro ⟨d, hd⟩
  cases hd

/-- No failure is answered as a success. -/
theorem status_ne_ok (e : Failure) : e.response.status ≠ 200 := by
  show e.status ≠ 200
  rw [Failure.status]
  split <;> decide

section Records

variable {r : Store.Records} {name : String}

/-- A name is known when a definition of that name is recorded. -/
theorem knows_store : Knows r.store name ↔ (r.check? name).isSome = true := by
  rw [Knows, Store.Records.find?_store, Option.isSome_iff_exists]
  exact exists_congr fun d => ⟨Except.ok.inj, congrArg Except.ok⟩

/-- A definition that is known after a registration was known before, or the
    registration gave it. -/
theorem knows_of_register {c : Check} {fresh : Identifier}
    (h : Knows (r.store.register c fresh).2 name) :
    Knows r.store name ∨ c.name = name ∧ ∃ d, (r.store.register c fresh).1 = .ok d := by
  rw [Store.Records.register_store] at h ⊢
  cases hr : r.registered c fresh with
  | error e =>
      rw [hr] at h
      exact .inl h
  | ok result =>
      obtain ⟨d, r'⟩ := result
      rw [hr] at h
      rw [knows_store] at h ⊢
      rcases Store.Records.registered_eq_ok hr with ⟨-, rfl⟩ | ⟨-, rfl, -, rfl⟩
      · exact .inl h
      · rw [Store.Records.check?_addCheck, Option.isSome_or, Bool.or_eq_true] at h
        refine h.imp_right fun hnew => ⟨?_, _, rfl⟩
        by_contra hne
        rw [Check.name_identified, if_neg hne] at hnew
        exact nomatch hnew

/-- A registration that succeeds makes its name known. -/
theorem knows_of_registered {c d : Check} {fresh : Identifier}
    (h : (r.store.register c fresh).1 = .ok d) : Knows (r.store.register c fresh).2 c.name := by
  rw [Store.Records.register_store] at h ⊢
  cases hr : r.registered c fresh with
  | error e =>
      rw [hr] at h
      exact nomatch h
  | ok result =>
      obtain ⟨d', r'⟩ := result
      rw [knows_store, check?_registered hr]
      rfl

/-- A report adds no definition. -/
theorem knows_of_ingest (hs : r.Sound) {e : Entry} {now : Instant}
    {entryId transitionId : Identifier}
    (hf : r.store.Fresh (.ingest e now entryId transitionId))
    (h : Knows (r.store.ingest e (some now) entryId transitionId).2 name) :
    Knows r.store name := by
  rw [Store.Records.ingest_store hs hf] at h
  cases ht : r.taken e now entryId transitionId with
  | none =>
      rw [ht] at h
      exact h
  | some result =>
      obtain ⟨o, r'⟩ := result
      rw [ht] at h
      rw [knows_store] at h ⊢
      rcases Store.Records.taken_eq_some ht with ⟨c, -, -, -, rfl⟩ | ⟨p, -, -, -, rfl⟩
        | ⟨p, -, -, -, rfl⟩
      all_goals exact h

end Records

namespace Exchange

variable {x : Exchange}

/-- The request registers a definition of this name, with success. -/
def Registers (x : Exchange) (name : String) : Prop :=
  x.request.path = path "RegisterHealthCheck" ∧ x.request.method = "POST"
    ∧ x.response.status = 200 ∧ ∃ c, checkOf x.request = .ok c ∧ c.name = name

/-- After an exchange a definition is known if it was known before, or is registered. -/
theorem knows_after_iff (h : Ran x.before) (hfresh : x.Fresh) (name : String) :
    Knows x.after name ↔ Knows x.before name ∨ x.Registers name := by
  obtain ⟨r, -, -, hx, hs, -⟩ := h.exists_records
  constructor
  · intro hknown
    rcases x.answered with ⟨-, hafter⟩ | ⟨hpath, hmethod, hstatus, hafter⟩
      | ⟨-, -, -, hafter⟩ | ⟨handler, hmem, -, hafter⟩
    · exact .inl (hafter ▸ hknown)
    · rcases register_eq x.moment x.request x.before with ⟨-, -, hsame⟩ | ⟨c, hc, hchange, hresult⟩
      · exact .inl ((hafter.trans hsame) ▸ hknown)
      · rw [hafter, hchange, hx] at hknown
        rw [hx] at hresult ⊢
        refine (knows_of_register hknown).imp_right ?_
        rintro ⟨hname, d, hd⟩
        refine ⟨hpath, hmethod, ?_, c, hc, hname⟩
        obtain ⟨d', -, hanswer⟩ | ⟨e, he, -⟩ := hresult
        · rw [hstatus, hx, hanswer]
          rfl
        · exact nomatch hd.symm.trans he
    · rcases add_eq x.moment x.request x.before with ⟨-, hsame⟩ | ⟨report, -, hchange, -⟩
      · exact .inl ((hafter.trans hsame) ▸ hknown)
      · have hf := hfresh.ingest report
        rw [hafter, hchange, hx] at hknown
        rw [hx] at hf ⊢
        exact .inl (knows_of_ingest hs hf hknown)
    · refine .inl ?_
      simp only [List.mem_cons, List.not_mem_nil, or_false] at hmem
      rw [hx] at hafter ⊢
      rcases hmem with rfl | rfl
      · rwa [hafter, (applicationStatus_eq hs x.request).2] at hknown
      · rwa [hafter, (checkStatus_eq hs x.request).2] at hknown
  · rintro (hknown | ⟨hpath, hmethod, hstatus, c, hc, rfl⟩)
    · exact knows_after h hfresh hknown
    · obtain ⟨hanswer, hafter⟩ := answered_post rfl hpath hmethod
      rw [hanswer] at hstatus
      rw [hafter]
      rcases register_eq x.moment x.request x.before with ⟨⟨e, he⟩, -⟩ | ⟨c', hc', hchange, hresult⟩
      · exact nomatch he.symm.trans hc
      · cases hc.symm.trans hc'
        rw [hx] at hchange hresult hstatus ⊢
        rw [hchange]
        obtain ⟨d, hd, -⟩ | ⟨e, he, hanswer'⟩ := hresult
        · exact knows_of_registered hd
        · rw [hanswer'] at hstatus
          exact absurd hstatus (status_ne_ok _)

end Exchange

/-- What is known after a session was known before, or registered in it. -/
theorem knows_leave_iff {s : Store} (h : Ran s) {session : List (Moment × Request)}
    (hfresh : ∀ y ∈ exchanges s session, y.Fresh) (name : String) :
    Knows (leave s session) name ↔ Knows s name ∨ ∃ y ∈ exchanges s session, y.Registers name := by
  induction session generalizing s with
  | nil => simp [leave, exchanges]
  | cons first rest ih =>
      obtain ⟨moment, request⟩ := first
      obtain ⟨hfirst, hrest⟩ := List.forall_mem_cons.1 hfresh
      have hstep := Exchange.knows_after_iff (x := ⟨s, moment, request⟩) h hfirst name
      rw [leave, ih (Exchange.ran_after h hfirst) hrest, hstep, or_assoc]
      simp only [exchanges, List.mem_cons, exists_eq_or_imp]

/-! ## Reports -/

/-- A name is accepted when a character in it is no blank. -/
theorem demand_eq_ok {name value : String} :
    demand name value = .ok () ↔ ∃ c ∈ value.toList, isBlank c = false := by
  rw [demand, isBlankText]
  split
  next hblank => simpa using hblank
  next hblank => simpa using hblank

namespace Exchange

variable {x : Exchange}

/-- The request brings a report that names a check and a server. -/
structure Reports (x : Exchange) (e : Entry) : Prop where
  body : bodyOf (Wire.decodeEntry x.moment.now .written) x.request = .ok e
  name : ∃ c ∈ e.name.toList, isBlank c = false
  serverName : ∃ c ∈ e.serverName.toList, isBlank c = false

/-- A request reports an entry exactly when the interface takes that entry from it. -/
theorem reports_iff {e : Entry} : x.Reports e ↔ reportOf x.moment.now x.request = .ok e := by
  constructor
  · rintro ⟨hbody, hname, hserver⟩
    rw [reportOf, hbody]
    simp only [Except.mapError, bind, Except.bind, demand_eq_ok.2 hname, demand_eq_ok.2 hserver]
    rfl
  · intro h
    obtain ⟨e', hbody, h⟩ := Json.bind_eq_ok h
    obtain ⟨⟨⟩, hname, h⟩ := Json.bind_eq_ok h
    obtain ⟨⟨⟩, hserver, h⟩ := Json.bind_eq_ok h
    cases h
    refine ⟨?_, demand_eq_ok.1 hname, demand_eq_ok.1 hserver⟩
    cases hdecoded : bodyOf (Wire.decodeEntry x.moment.now .written) x.request with
    | error fault =>
        rw [hdecoded] at hbody
        cases hbody
    | ok e' =>
        rw [hdecoded] at hbody
        exact congrArg Except.ok (Except.ok.inj hbody)

/-- A report of a known check is taken over, and any other is refused. -/
theorem add_eq_of_reports (h : Ran x.before) (hfresh : x.Fresh)
    (hpath : x.request.path = path "AddHealthCheck") (hmethod : x.request.method = "POST")
    {e : Entry} (hreport : x.Reports e) :
    (Knows x.before e.name ∧ x.response.status = 200
        ∧ ∃ o, x.before.ingest e (some x.moment.now) x.moment.entryId x.moment.transitionId
          = (.ok o, x.after))
      ∨ ¬Knows x.before e.name ∧ x.response.status = 400 ∧ x.after = x.before := by
  obtain ⟨r, -, -, hx, hs, -⟩ := h.exists_records
  obtain ⟨hstatus, hafter⟩ := answered_post rfl hpath hmethod
  have hf := hfresh.ingest e
  rw [hx] at hf
  have hingest := Store.Records.ingest_store hs hf
  rw [add, reports_iff.1 hreport] at hstatus hafter
  rw [hx] at hstatus hafter ⊢
  simp only [hingest] at hstatus hafter ⊢
  cases ht : r.taken e x.moment.now x.moment.entryId x.moment.transitionId with
  | none =>
      rw [ht] at hstatus hafter
      refine .inr ⟨?_, hstatus, hafter⟩
      rw [knows_store, (Store.Records.taken_eq_none ht).2]
      exact Bool.false_ne_true
  | some result =>
      obtain ⟨o, r'⟩ := result
      rw [ht] at hstatus hafter
      refine .inl ⟨?_, hstatus, o, by rw [hafter]⟩
      rw [knows_store, Option.isSome_iff_exists]
      rcases Store.Records.taken_eq_some ht with ⟨c, -, hc, -⟩ | ⟨p, hp, -⟩ | ⟨p, hp, -⟩
      · exact ⟨c, hc⟩
      -- the entry of the key belongs to the definition of its name
      all_goals
        obtain ⟨hmem, hkey⟩ := Store.Records.linked?_eq_some hp
        have hname : p.entry.name = e.name := congrArg Store.Key.name hkey
        exact ⟨p.definition, hname ▸ hs.check?_of_entry hmem⟩

/-- Without a report of a known check nothing is taken over. -/
theorem add_refused (h : Ran x.before) (hfresh : x.Fresh)
    (hpath : x.request.path = path "AddHealthCheck") (hmethod : x.request.method = "POST")
    (hnone : ¬∃ e, x.Reports e ∧ Knows x.before e.name) :
    x.response.status = 400 ∧ x.after = x.before := by
  by_cases hreport : ∃ e, x.Reports e
  · obtain ⟨e, he⟩ := hreport
    rcases add_eq_of_reports h hfresh hpath hmethod he with ⟨hknown, -⟩ | ⟨-, hrefused⟩
    · exact absurd ⟨e, he, hknown⟩ hnone
    · exact hrefused
  · obtain ⟨hstatus, hafter⟩ := answered_post rfl hpath hmethod
    rw [hstatus, hafter]
    rcases add_eq x.moment x.request x.before with hrefused | ⟨e, hbrings, -⟩
    · exact hrefused
    · exact absurd ⟨e, reports_iff.2 hbrings⟩ hreport

end Exchange

/-- In a session with fresh identifiers that starts with an empty store, a report is
    answered with success exactly when it is accepted by its decoder, names a check and
    a server, and an exchange before it registered a definition of this very name.  The
    store then takes it over with the time of the answer.  Any other is answered as a
    fault of the client, and the session goes on as if it had not been sent. -/
theorem report_accepted_iff {earlier : List (Moment × Request)} {x : Exchange}
    (hbefore : x.before = leave .empty earlier)
    (hearlier : ∀ y ∈ exchanges .empty earlier, y.Fresh) (hfresh : x.Fresh)
    (hpath : x.request.path = path "AddHealthCheck") (hmethod : x.request.method = "POST") :
    (x.response.status = 200
        ↔ ∃ e, x.Reports e ∧ ∃ y ∈ exchanges .empty earlier, y.Registers e.name)
      ∧ (x.response.status = 200 → ∃ e o, x.Reports e
        ∧ x.before.ingest e (some x.moment.now) x.moment.entryId x.moment.transitionId
          = (.ok o, x.after))
      ∧ (x.response.status ≠ 200 → x.response.status = 400
        ∧ ∀ later, exchanges .empty (earlier ++ (x.moment, x.request) :: later)
            = exchanges .empty earlier ++ x :: exchanges (leave .empty earlier) later
          ∧ exchanges .empty (earlier ++ later)
            = exchanges .empty earlier ++ exchanges (leave .empty earlier) later) := by
  have hran : Ran x.before := hbefore ▸ ran_leave ran_empty hearlier
  have hknows : ∀ name, Knows x.before name
      ↔ ∃ y ∈ exchanges .empty earlier, y.Registers name := by
    intro name
    rw [hbefore, knows_leave_iff ran_empty hearlier, or_iff_right (not_knows_empty name)]
  simp only [← hknows]
  by_cases htaken : ∃ e, x.Reports e ∧ Knows x.before e.name
  · obtain ⟨e, he, hknown⟩ := htaken
    rcases Exchange.add_eq_of_reports hran hfresh hpath hmethod he with
      ⟨-, hstatus, o, hingest⟩ | ⟨hunknown, -⟩
    · exact ⟨iff_of_true hstatus ⟨e, he, hknown⟩, fun _ => ⟨e, o, he, hingest⟩,
        fun hnot => absurd hstatus hnot⟩
    · exact absurd hknown hunknown
  · obtain ⟨hstatus, hsame⟩ := Exchange.add_refused hran hfresh hpath hmethod htaken
    have hrefused : x.response.status ≠ 200 := by
      rw [hstatus]
      decide
    refine ⟨iff_of_false hrefused htaken, fun h => absurd h hrefused,
      fun _ => ⟨hstatus, fun later => ⟨?_, exchanges_append ..⟩⟩⟩
    rw [exchanges_append, exchanges, ← hbefore]
    show _ ++ x :: exchanges x.after later = _
    rw [hsame]

namespace Sample

/-- A request that brings a report with nothing in it but what is asked for. -/
def reporting (status : Status) : Request where
  method := "POST"
  target := path "AddHealthCheck"
  headers := [("content-type", "application/json")]
  body := jsonBody (.object [
    ("applicationId", Wire.encodeIdentifier (.ofNat 7)), ("serverName", .text "web"),
    ("name", .text "disk"), ("status", Wire.encodeStatus status)])

/-- A check is registered and reported. -/
def reported : List (Moment × Request) :=
  [(moment 0, registration (check "disk")), (moment 1, reporting .healthy)]

/-- It is reported again. -/
def again : Exchange where
  before := leave .empty reported
  moment := moment 2
  request := reporting .degraded

/-- All three requests have fresh identifiers and succeed. -/
theorem exchanges_again :
    (∀ y ∈ exchanges .empty (reported ++ [(again.moment, again.request)]), y.Fresh)
      ∧ (exchanges .empty (reported ++ [(again.moment, again.request)])).map (·.response.status)
        = [200, 200, 200] := by
  decide +kernel

end Sample

/-- The second report of a key is taken over, for its check was registered; the store
    does not look for the definition again. -/
theorem second_report_accepted : Sample.again.response.status = 200
    ∧ (∃ e, Sample.again.Reports e ∧ ∃ y ∈ exchanges .empty Sample.reported, y.Registers e.name)
    ∧ ∃ e o, Sample.again.Reports e ∧ Sample.again.before.ingest e (some Sample.again.moment.now)
        Sample.again.moment.entryId Sample.again.moment.transitionId
      = (.ok o, Sample.again.after) := by
  obtain ⟨hfresh, hstatuses⟩ := Sample.exchanges_again
  have hbefore : Sample.again.before = leave .empty Sample.reported := by
    rw [Sample.again]
  -- the third exchange is the second report
  have hsplit : exchanges .empty (Sample.reported ++ [(Sample.again.moment, Sample.again.request)])
      = exchanges .empty Sample.reported ++ [Sample.again] := by
    rw [exchanges_append, exchanges, exchanges, ← hbefore]
  rw [hsplit] at hfresh hstatuses
  obtain ⟨hearlier, hagain⟩ := List.forall_mem_append.1 hfresh
  have hstatus : Sample.again.response.status = 200 := by
    have hlast := congrArg List.getLast? hstatuses
    rw [List.map_append, List.map_singleton, List.getLast?_concat] at hlast
    exact Option.some.inj hlast
  have haccepted := report_accepted_iff hbefore hearlier (hagain _ List.mem_cons_self)
    (by decide +kernel) (by decide +kernel)
  exact ⟨hstatus, haccepted.1.1 hstatus, haccepted.2.1 hstatus⟩

end HealthWatch.Api
