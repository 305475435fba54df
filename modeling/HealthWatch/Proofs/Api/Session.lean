import HealthWatch.Api.Basic
import HealthWatch.Proofs.Api.Body
import HealthWatch.Proofs.Http.Router
import HealthWatch.Proofs.Store.Definitions
import HealthWatch.Proofs.Store.Views

/-! # Sessions over the interface — requests one after the other

    An exchange is a request to a store with its answer.  It changes the store as one
    call does, or not at all, so every store in a session is what a fresh run of calls
    leaves (`ran_of_mem_exchanges`).  On such a store everything reads back, and the only
    failure that is not the client's comes from a definition whose identifier belongs to
    another one (`storage_failure_iff`). -/

namespace HealthWatch.Api

open Http

/-! ## Exchanges -/

/-- A request to a store, with what it takes from outside. -/
structure Exchange where
  before : Store
  moment : Moment
  request : Request
deriving Repr

namespace Exchange

/-- The answer. -/
def response (x : Exchange) : Response := (answer x.moment x.request x.before).1

/-- The store that the request leaves. -/
def after (x : Exchange) : Store := (answer x.moment x.request x.before).2

/-- The identifiers for new rows are not stored yet. -/
def Fresh (x : Exchange) : Prop :=
  (x.moment.checkId ≠ .nil ∧ ∀ row ∈ x.before.tables.checks, row.id ≠ x.moment.checkId.toText)
    ∧ (∀ row ∈ x.before.tables.entries, row.id ≠ x.moment.entryId.toText)
    ∧ ∀ row ∈ x.before.tables.transitions, row.id ≠ x.moment.transitionId.toText

instance (x : Exchange) : Decidable x.Fresh :=
  inferInstanceAs (Decidable (_ ∧ _))

variable {x : Exchange}

theorem Fresh.register (h : x.Fresh) (c : Check) :
    x.before.Fresh (.register c x.moment.checkId) := h.1

theorem Fresh.ingest (h : x.Fresh) (report : Entry) :
    x.before.Fresh (.ingest report x.moment.now x.moment.entryId x.moment.transitionId) := h.2

/-- The request registers a definition with a new name and an identifier of its own,
    which belongs to another definition. -/
def Clashes (x : Exchange) : Prop :=
  x.request.path = path "RegisterHealthCheck" ∧ x.request.method = "POST"
    ∧ ∃ c d, checkOf x.request = .ok c ∧ c.id.isNil = false
      ∧ x.before.find? c.name = .ok none ∧ x.before.find? d.name = .ok (some d) ∧ d.id = c.id

end Exchange

/-- The exchanges of a session. -/
def exchanges (s : Store) : List (Moment × Request) → List Exchange
  | [] => []
  | (moment, request) :: later =>
      ⟨s, moment, request⟩ :: exchanges (Exchange.after ⟨s, moment, request⟩) later

/-! ## What requests bring -/

/-- A result that fails only by a fault of the client. -/
def ByClient {α : Type} (x : Except Failure α) : Prop :=
  ∀ e, x = .error e → e.isClients = true

/-- Steps that fail by the fault of the client fail so together. -/
theorem ByClient.bind {α β : Type} {x : Except Failure α} {f : α → Except Failure β}
    (hx : ByClient x) (hf : ∀ a, ByClient (f a)) : ByClient (x >>= f) := by
  intro e he
  cases x with
  | error e' =>
      cases he
      exact hx _ rfl
  | ok a => exact hf a e he

theorem byClient_ok {α : Type} (a : α) : ByClient (.ok a) := fun _ h => nomatch h

theorem byClient_mapError {α β : Type} (x : Except β α) (reason : β → String) :
    ByClient (x.mapError fun e => .badRequest (reason e)) := by
  intro e he
  cases x with
  | error fault =>
      cases he
      rfl
  | ok a => exact nomatch he

theorem byClient_demand (name value : String) : ByClient (demand name value) := by
  intro e he
  rw [demand] at he
  split at he
  · cases he
    rfl
  · exact nomatch he

/-- Whatever is wrong with a definition in a request is the fault of the client. -/
theorem byClient_checkOf (request : Request) : ByClient (checkOf request) := by
  refine (byClient_mapError _ _).bind fun check => ?_
  exact (byClient_demand _ _).bind fun _ => byClient_ok check

/-- So is whatever is wrong with a report. -/
theorem byClient_reportOf (now : Instant) (request : Request) :
    ByClient (reportOf now request) := by
  refine (byClient_mapError _ _).bind fun entry => ?_
  refine (byClient_demand _ _).bind fun _ => ?_
  exact (byClient_demand _ _).bind fun _ => byClient_ok entry

/-- A fault of the client has the code 400. -/
theorem status_of_isClients {e : Failure} (h : e.isClients = true) : e.response.status = 400 :=
  if_pos h

/-! ## What handlers do -/

section Handlers

variable {r : Store.Records} {m : Moment} {request : Request}

/-- A registration is refused for what the client sent, or answered as the store does. -/
theorem register_eq (m : Moment) (request : Request) (s : Store) :
    ((∃ e, checkOf request = .error e) ∧ (register m request s).1.status = 400
        ∧ (register m request s).2 = s)
      ∨ ∃ c, checkOf request = .ok c ∧ (register m request s).2 = (s.register c m.checkId).2
        ∧ ((∃ d, (s.register c m.checkId).1 = .ok d
            ∧ (register m request s).1 = .json 200 (Wire.encodeCheck d))
          ∨ ∃ e, (s.register c m.checkId).1 = .error e
            ∧ (register m request s).1 = (Failure.store e).response) := by
  rw [register]
  cases hc : checkOf request with
  | error e => exact .inl ⟨⟨e, rfl⟩, status_of_isClients (byClient_checkOf request e hc), rfl⟩
  | ok c =>
      refine .inr ⟨c, rfl, ?_⟩
      dsimp only
      split
      · next d after heq =>
          rw [heq]
          exact ⟨rfl, .inl ⟨d, rfl, rfl⟩⟩
      · next e after heq =>
          rw [heq]
          exact ⟨rfl, .inr ⟨e, rfl, rfl⟩⟩

/-- So is a report. -/
theorem add_eq (m : Moment) (request : Request) (s : Store) :
    ((add m request s).1.status = 400 ∧ (add m request s).2 = s)
      ∨ ∃ report, reportOf m.now request = .ok report
        ∧ (add m request s).2 = (s.ingest report (some m.now) m.entryId m.transitionId).2
        ∧ ((∃ o, (s.ingest report (some m.now) m.entryId m.transitionId).1 = .ok o
            ∧ (add m request s).1 = .empty 200)
          ∨ ∃ e, (s.ingest report (some m.now) m.entryId m.transitionId).1 = .error e
            ∧ (add m request s).1 = (Failure.store e).response) := by
  rw [add]
  cases hr : reportOf m.now request with
  | error e => exact .inl ⟨status_of_isClients (byClient_reportOf m.now request e hr), rfl⟩
  | ok report =>
      refine .inr ⟨report, rfl, ?_⟩
      dsimp only
      split
      · next o after heq =>
          rw [heq]
          exact ⟨rfl, .inl ⟨o, rfl, rfl⟩⟩
      · next e after heq =>
          rw [heq]
          exact ⟨rfl, .inr ⟨e, rfl, rfl⟩⟩

/-- Views are given or the query is refused; nothing changes. -/
theorem applicationStatus_eq (hs : r.Sound) (request : Request) :
    (applicationStatus request r.store).1.status ∈ [200, 400]
      ∧ (applicationStatus request r.store).2 = r.store := by
  rw [applicationStatus]
  cases Query.application request with
  | error e => exact ⟨List.mem_cons_of_mem _ List.mem_cons_self, rfl⟩
  | ok id =>
      dsimp only
      rw [Store.Records.applicationStatus_store hs]
      exact ⟨List.mem_cons_self, rfl⟩

/-- Asking for the view of a check changes nothing, and fails only by the fault of the client. -/
theorem checkStatus_eq (hs : r.Sound) (request : Request) :
    (checkStatus request r.store).1.status ∈ [200, 400]
      ∧ (checkStatus request r.store).2 = r.store := by
  rw [checkStatus]
  cases Query.check request with
  | error e => exact ⟨List.mem_cons_of_mem _ List.mem_cons_self, rfl⟩
  | ok query =>
      dsimp only
      rw [Store.Records.checkStatus_store hs]
      exact ⟨List.mem_cons_self, rfl⟩

end Handlers

/-! ## One exchange -/

namespace Exchange

variable {r : Store.Records} {x : Exchange}

/-- Who answers: none, or one of the four handlers. -/
theorem answered (x : Exchange) :
    (x.response.status ∈ [200, 404, 405] ∧ x.after = x.before)
      ∨ (x.request.path = path "RegisterHealthCheck" ∧ x.request.method = "POST"
        ∧ x.response.status = (register x.moment x.request x.before).1.status
        ∧ x.after = (register x.moment x.request x.before).2)
      ∨ (x.request.path = path "AddHealthCheck" ∧ x.request.method = "POST"
        ∧ x.response.status = (add x.moment x.request x.before).1.status
        ∧ x.after = (add x.moment x.request x.before).2)
      ∨ ∃ handler ∈ [applicationStatus, checkStatus],
        x.response.status = (handler x.request x.before).1.status
          ∧ x.after = (handler x.request x.before).2 := by
  rcases crossOrigin_cases (routes x.moment) x.request x.before with h | ⟨route, hroute, hstatus, hafter⟩
  · exact .inl h
  · have hmem := hroute.mem
    simp only [routes, List.mem_cons, List.not_mem_nil, or_false] at hmem
    rcases hmem with rfl | rfl | rfl | rfl
    · refine .inr (.inl ⟨hroute.path.symm, ?_, hstatus, hafter⟩)
      simpa [Route.methods] using hroute.method
    · refine .inr (.inr (.inl ⟨hroute.path.symm, ?_, hstatus, hafter⟩))
      simpa [Route.methods] using hroute.method
    · exact .inr (.inr (.inr ⟨_, List.mem_cons_self, hstatus, hafter⟩))
    · exact .inr (.inr (.inr ⟨_, List.mem_cons_of_mem _ List.mem_cons_self, hstatus, hafter⟩))

/-- A request to an action that takes something in is answered by its handler. -/
theorem answered_post {action : String} {handler : Handler Store}
    (hroute : (routes x.moment).ofPath (path action) = [⟨path action, "POST", handler⟩])
    (hpath : x.request.path = path action) (hmethod : x.request.method = "POST") :
    x.response.status = (handler x.request x.before).1.status
      ∧ x.after = (handler x.request x.before).2 := by
  rw [response, after, answer, crossOrigin_of_route (hpath ▸ hroute)
    (by rw [hmethod]; exact List.mem_cons_self) (by rw [hmethod]; decide) (by rw [hmethod]; decide)]
  exact ⟨rfl, rfl⟩

/-- An exchange changes the store as a call does, or not at all. -/
theorem after_eq (hs : r.Sound) (hx : x.before = r.store) (hfresh : x.Fresh) :
    x.after = x.before ∨ ∃ call, x.before.Fresh call ∧ x.after = x.before.after call := by
  rcases x.answered with ⟨-, h⟩ | ⟨-, -, -, h⟩ | ⟨-, -, -, h⟩ | ⟨handler, hmem, -, h⟩
  · exact .inl h
  · rcases register_eq x.moment x.request x.before with ⟨-, -, h'⟩ | ⟨c, -, h', -⟩
    · exact .inl (h.trans h')
    · exact .inr ⟨_, hfresh.register c, h.trans h'⟩
  · rcases add_eq x.moment x.request x.before with ⟨-, h'⟩ | ⟨report, -, h', -⟩
    · exact .inl (h.trans h')
    · exact .inr ⟨_, hfresh.ingest report, h.trans h'⟩
  · rw [hx] at h ⊢
    simp only [List.mem_cons, List.not_mem_nil, or_false] at hmem
    rcases hmem with rfl | rfl
    · exact .inl (h.trans (applicationStatus_eq hs x.request).2)
    · exact .inl (h.trans (checkStatus_eq hs x.request).2)

/-- A report with fresh identifiers fails only by a fault of the client. -/
theorem add_status (hs : r.Sound) (hx : x.before = r.store) (hfresh : x.Fresh) :
    (add x.moment x.request x.before).1.status ∈ [200, 400] := by
  rcases add_eq x.moment x.request x.before with ⟨h, -⟩ | ⟨report, -, -, hresult⟩
  · exact h ▸ List.mem_cons_of_mem _ List.mem_cons_self
  · have hf := hfresh.ingest report
    rw [hx, Store.Records.ingest_store hs (hx ▸ hf)] at hresult
    rw [hx]
    rcases hresult with ⟨o, -, h⟩ | ⟨e, he, h⟩
    · rw [h]
      exact List.mem_cons_self
    · -- a fault is that of an unregistered check
      cases ht : r.taken report x.moment.now x.moment.entryId x.moment.transitionId with
      | none =>
          rw [ht] at he
          cases he
          exact h ▸ List.mem_cons_of_mem _ List.mem_cons_self
      | some o =>
          rw [ht] at he
          exact nomatch he

/-- A registration fails by a fault of the client, or of the store when its identifier is
    that of another definition. -/
theorem register_status (hs : r.Sound) (hx : x.before = r.store) (hfresh : x.Fresh)
    (hpath : x.request.path = path "RegisterHealthCheck") (hmethod : x.request.method = "POST") :
    (¬x.Clashes ∧ (register x.moment x.request x.before).1.status ∈ [200, 400])
      ∨ (x.Clashes ∧ (register x.moment x.request x.before).1.status = 500) := by
  rcases register_eq x.moment x.request x.before with ⟨⟨e, he⟩, hstatus, -⟩ | ⟨c, hc, -, hresult⟩
  · refine .inl ⟨?_, by rw [hstatus]; decide⟩
    rintro ⟨-, -, c, d, hc, -⟩
    exact nomatch he.symm.trans hc
  · have hf := hfresh.register c
    have hfind : ∀ name, x.before.find? name = .ok (r.check? name) := by
      intro name
      rw [hx, Store.Records.find?_store]
    rw [hx] at hf
    have hregisters := Store.Records.registers_store hf
    rw [← hx] at hregisters
    -- a clash is one with the definition that the request brings
    have hclash : x.Clashes → c.id.isNil = false ∧ r.check? c.name = none
        ∧ ∃ d ∈ r.checks, d.id = c.id := by
      rintro ⟨-, -, c', d, hc', hnil, hname, hd, hid⟩
      cases hc.symm.trans hc'
      rw [hfind] at hname hd
      exact ⟨hnil, Except.ok.inj hname, d, (Store.Records.check?_eq_some (Except.ok.inj hd)).1, hid⟩
    generalize hres : x.before.register c x.moment.checkId = result at hregisters hresult
    cases hregisters with
    | @existing d hd hname =>
        obtain ⟨_, -, heq⟩ | ⟨e, he, -⟩ := hresult
        · refine .inl ⟨fun h => ?_, by rw [heq]; exact List.mem_cons_self⟩
          have := hs.check?_of_mem hd
          rw [hname, (hclash h).2.1] at this
          exact nomatch this
        · exact nomatch he
    | new hnew hids hnil =>
        obtain ⟨_, -, heq⟩ | ⟨e, he, -⟩ := hresult
        · refine .inl ⟨fun h => ?_, by rw [heq]; exact List.mem_cons_self⟩
          obtain ⟨hcnil, -, d, hd, hid⟩ := hclash h
          rcases hids with hcnil' | hids
          · exact nomatch hcnil.symm.trans hcnil'
          · exact hids d hd hid
        · exact nomatch he
    | @refused d hnew hnil hd hid =>
        obtain ⟨_, hok, -⟩ | ⟨e, he, heq⟩ := hresult
        · exact nomatch hok
        · cases he
          refine .inr ⟨⟨hpath, hmethod, c, d, hc, hnil, ?_, ?_, hid⟩, by rw [heq]; rfl⟩
          · rw [hfind, Store.Records.check?, List.find?_eq_none.2]
            exact fun d hd => by simpa using hnew d hd
          · rw [hfind, hs.check?_of_mem hd]

/-- The answer tells of a success or of a fault of the client, unless the request
    registers a definition with the identifier of another one. -/
theorem status_eq (hs : r.Sound) (hx : x.before = r.store) (hfresh : x.Fresh) :
    (¬x.Clashes ∧ x.response.status ∈ [200, 400, 404, 405])
      ∨ (x.Clashes ∧ x.response.status = 500) := by
  have hviews {status : Nat} (h : status ∈ [200, 400]) : status ∈ [200, 400, 404, 405] :=
    (by decide : [200, 400] ⊆ [200, 400, 404, 405]) h
  by_cases hregister : x.request.path = path "RegisterHealthCheck" ∧ x.request.method = "POST"
  · rw [(answered_post rfl hregister.1 hregister.2).1]
    rcases register_status hs hx hfresh hregister.1 hregister.2 with ⟨hclash, hstatus⟩ | h
    · exact .inl ⟨hclash, hviews hstatus⟩
    · exact .inr h
  · refine .inl ⟨fun h => hregister ⟨h.1, h.2.1⟩, ?_⟩
    rcases x.answered with ⟨h, -⟩ | ⟨hpath, hmethod, -⟩ | ⟨-, -, h, -⟩ | ⟨handler, hmem, h, -⟩
    · exact (by decide : [200, 404, 405] ⊆ [200, 400, 404, 405]) h
    · exact absurd ⟨hpath, hmethod⟩ hregister
    · exact h ▸ hviews (add_status hs hx hfresh)
    · rw [h, hx]
      simp only [List.mem_cons, List.not_mem_nil, or_false] at hmem
      rcases hmem with rfl | rfl
      · exact hviews (applicationStatus_eq hs x.request).1
      · exact hviews (checkStatus_eq hs x.request).1

end Exchange

/-! ## Sessions -/

theorem freshRun_concat {s : Store} {calls : List Store.Call} {call : Store.Call}
    (h : s.FreshRun calls) (hcall : (s.run calls).Fresh call) : s.FreshRun (calls ++ [call]) := by
  induction calls generalizing s with
  | nil => exact ⟨hcall, trivial⟩
  | cons first rest ih => exact ⟨h.1, ih h.2 hcall⟩

/-- A store that a fresh run of calls leaves. -/
def Ran (s : Store) : Prop := ∃ calls, Store.empty.FreshRun calls ∧ Store.empty.run calls = s

/-- Such a store holds records that are sound and track what was done to it. -/
theorem Ran.exists_records {s : Store} (h : Ran s) :
    ∃ (r : Store.Records) (given : List Check) (log : List Store.Taken),
      s = r.store ∧ r.Sound ∧ r.Tracks given log := by
  obtain ⟨calls, hcalls, hrun⟩ := h
  obtain ⟨r, hr, hs, htracks⟩ := Store.exists_records hcalls
  exact ⟨r, _, _, hrun.symm.trans hr, hs, htracks⟩

/-- An exchange takes a store that a fresh run leaves to another one. -/
theorem Exchange.ran_after {x : Exchange} (h : Ran x.before) (hfresh : x.Fresh) : Ran x.after := by
  obtain ⟨calls, hcalls, hrun⟩ := h
  obtain ⟨r, hr, hs, -⟩ := Store.exists_records hcalls
  rcases x.after_eq hs (hrun.symm.trans hr) hfresh with hsame | ⟨call, hcall, hafter⟩
  · exact ⟨calls, hcalls, hrun.trans hsame.symm⟩
  · refine ⟨calls ++ [call], freshRun_concat hcalls (hrun ▸ hcall), ?_⟩
    rw [hafter, ← hrun, Store.run, List.foldl_append]
    rfl

/-- All stores of a session are such. -/
theorem ran_of_mem_exchanges {s : Store} (h : Ran s) {session : List (Moment × Request)}
    (hfresh : ∀ x ∈ exchanges s session, x.Fresh) : ∀ x ∈ exchanges s session, Ran x.before := by
  induction session generalizing s with
  | nil => exact fun x hx => nomatch hx
  | cons first later ih =>
      obtain ⟨moment, request⟩ := first
      obtain ⟨hfirst, hlater⟩ := List.forall_mem_cons.1 hfresh
      exact List.forall_mem_cons.2 ⟨h, ih (Exchange.ran_after (x := ⟨s, moment, request⟩) h hfirst) hlater⟩

/-- In a session with fresh identifiers that starts with an empty store, a request is
    answered with a failure of the store exactly when it registers a definition under a
    new name with the identifier of another definition.  Every other answer tells of a
    success or of a fault of the client. -/
theorem storage_failure_iff {session : List (Moment × Request)}
    (hfresh : ∀ x ∈ exchanges .empty session, x.Fresh) :
    ∀ x ∈ exchanges .empty session, (x.response.status = 500 ↔ x.Clashes)
      ∧ (¬x.Clashes → x.response.status ∈ [200, 400, 404, 405]) := by
  intro x hx
  obtain ⟨r, -, -, hr, hs, -⟩ :=
    (ran_of_mem_exchanges ⟨[], trivial, rfl⟩ hfresh x hx).exists_records
  rcases Exchange.status_eq hs hr (hfresh x hx) with ⟨hclash, h⟩ | ⟨hclash, h⟩
  · refine ⟨iff_of_false (fun h500 => ?_) hclash, fun _ => h⟩
    rw [h500] at h
    exact absurd h (by decide)
  · exact ⟨iff_of_true h hclash, fun hnot => absurd hclash hnot⟩

namespace Sample

/-- A request that registers a definition. -/
def registration (c : Check) : Request where
  method := "POST"
  target := path "RegisterHealthCheck"
  headers := [("content-type", "application/json")]
  body := jsonBody (Wire.encodeCheck c)

/-- A moment with identifiers of its own. -/
def moment (n : Nat) : Moment where
  now := .epoch
  checkId := .ofNat (3 * n + 1)
  entryId := .ofNat (3 * n + 2)
  transitionId := .ofNat (3 * n + 3)

/-- A definition with a chosen identifier. -/
def check (name : String) : Check := { id := .ofNat 100, name, description := "", tags := [] }

/-- Two definitions are registered with one identifier. -/
def session : List (Moment × Request) :=
  [(moment 0, registration (check "disk")), (moment 1, registration (check "memory"))]

theorem fresh_session : ∀ x ∈ exchanges .empty session, x.Fresh := by
  decide +kernel

/-- The second registration is refused as a failure of the store. -/
theorem status_session : (exchanges .empty session).map (·.response.status) = [200, 500] := by
  decide +kernel

end Sample

/-- The second definition with one identifier is answered with a failure of the store, so
    not every answer tells of a success or of a fault of the client. -/
theorem storage_failure_of_taken_identifier :
    ¬∀ session : List (Moment × Request), (∀ x ∈ exchanges .empty session, x.Fresh) →
      ∀ x ∈ exchanges .empty session, x.response.status ≠ 500 := by
  intro h
  have hmem : 500 ∈ (exchanges .empty Sample.session).map (·.response.status) := by
    rw [Sample.status_session]
    decide
  obtain ⟨x, hx, h500⟩ := List.mem_map.1 hmem
  exact h Sample.session Sample.fresh_session x hx h500

/-- It is the request for which that failure is foretold. -/
theorem clash_of_taken_identifier :
    ∃ x ∈ exchanges .empty Sample.session, x.response.status = 500 ∧ x.Clashes := by
  have hmem : 500 ∈ (exchanges .empty Sample.session).map (·.response.status) := by
    rw [Sample.status_session]
    decide
  obtain ⟨x, hx, h500⟩ := List.mem_map.1 hmem
  exact ⟨x, hx, h500, ((storage_failure_iff Sample.fresh_session x hx).1).1 h500⟩

end HealthWatch.Api
