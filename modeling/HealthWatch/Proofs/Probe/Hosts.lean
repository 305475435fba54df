import HealthWatch.Probe.Names
import HealthWatch.Probe.Transfer.Basic

/-! # Lists of hosts — the first host that fails decides, and ends the check

    Names are looked up and file servers are tried one after the other.  What is done and
    what is reported hang together: nothing is asked behind the host that the report is about.
    Peers may answer each question differently, also questions about one host, so the `n`th
    host of a list has a resolver, or a network, of its own here.

    * `UpToFirst` says how far a list is visited and what comes of it;
    * `Names.Stops` and `Transfer.Stops` say which hosts fail, and how each is told of;
    * `stops_at_first_failing_host` puts the two kinds of lists side by side. -/

namespace HealthWatch

/-! ## Visits -/

section Visits

variable {α β : Type}

/-- Items are visited up to and including the first that stops the visit, and this one gives
    the result; nothing is wrong when no item stops it. -/
inductive UpToFirst (stops : Nat → α → ProbeResult → Prop) (items : List α) :
    List α → ProbeResult → Prop
  | all (h : ∀ n x r, items[n]? = some x → ¬ stops n x r) :
      UpToFirst stops items items .healthy
  | first {n : Nat} {x : α} {r : ProbeResult} (hx : items[n]? = some x) (hstops : stops n x r)
      (h : ∀ m < n, ∀ y r', items[m]? = some y → ¬ stops m y r') :
      UpToFirst stops items (items.take (n + 1)) r

section Steps

variable {stops : Nat → α → ProbeResult → Prop} {x : α} {rest visited : List α} {r : ProbeResult}

theorem UpToFirst.head (h : stops 0 x r) : UpToFirst stops (x :: rest) [x] r :=
  .first (n := 0) rfl h fun m hm => absurd hm (Nat.not_lt_zero m)

/-- An item that does not stop the visit is visited before the rest. -/
theorem UpToFirst.cons (hx : ∀ r, ¬ stops 0 x r)
    (h : UpToFirst (fun n => stops (n + 1)) rest visited r) :
    UpToFirst stops (x :: rest) (x :: visited) r := by
  cases h with
  | all h =>
      refine .all fun n y r hy => ?_
      cases n with
      | zero =>
          cases hy
          exact hx r
      | succ n => exact h n y r hy
  | @first n y _ hy hstops h =>
      refine .first (n := n + 1) hy hstops fun m hm z r' hz => ?_
      cases m with
      | zero =>
          cases hz
          exact hx r'
      | succ m => exact h m (Nat.lt_of_succ_lt_succ hm) z r' hz

end Steps

/-- Asks about items in their order until `judge` makes a result of an answer; keeps the items
    with their answers.  `ask n` answers about the item behind `n` others. -/
def visit (ask : Nat → α → β) (judge : α → β → Option ProbeResult) :
    List α → ProbeResult × List (α × β)
  | [] => (.healthy, [])
  | x :: rest =>
      match judge x (ask 0 x) with
      | some r => (r, [(x, ask 0 x)])
      | none =>
          let (r, heard) := visit (fun n => ask (n + 1)) judge rest
          (r, (x, ask 0 x) :: heard)

section Trace

variable (ask : Nat → α → β) (judge : α → β → Option ProbeResult) (items : List α)

/-- The visit goes up to the first item that stops it. -/
theorem upToFirst_visit : UpToFirst (fun n x r => judge x (ask n x) = some r) items
    ((visit ask judge items).2.map Prod.fst) (visit ask judge items).1 := by
  induction items generalizing ask with
  | nil => exact .all fun n x r hx => nomatch hx
  | cons x rest ih =>
      rw [visit]
      cases hx : judge x (ask 0 x) with
      | some r => exact .head hx
      | none => exact .cons (fun r h => nomatch hx.symm.trans h) (ih fun n => ask (n + 1))

/-- What is kept of a visit are the answers. -/
theorem heard_visit (n : Nat) (x : α) (y : β) (h : (visit ask judge items).2[n]? = some (x, y)) :
    y = ask n x := by
  induction items generalizing ask n with
  | nil => cases h
  | cons z rest ih =>
      rw [visit] at h
      cases hz : judge z (ask 0 z) with
      | some r =>
          rw [hz] at h
          cases n with
          | zero =>
              cases h
              rfl
          | succ n => cases h
      | none =>
          rw [hz] at h
          cases n with
          | zero =>
              cases h
              rfl
          | succ n => exact ih (fun n => ask (n + 1)) n h

end Trace

end Visits

/-! ## Names -/

namespace Names

/-- The result that an answer about a host leads to, if it is not a good one. -/
def finding (ctx : ProbeContext) (host : String) :
    Except String (List String) → Option ProbeResult
  | .error reason => some (.failed .unhealthy (.io reason))
  | .ok [] =>
      some (.described ctx.failureStatus
        ("host " ++ host ++ " was not resolved from dns server"))
  | .ok (_ :: _) => none

/-- Looks up hosts with resolvers that may answer each call differently. -/
def lookUpEach (resolvers : Nat → Resolver) (ctx : ProbeContext) (hosts : List String) :
    ProbeResult × List (String × Except String (List String)) :=
  visit resolvers (finding ctx) hosts

/-- A host that ends a check, and the result it gives.  A resolver that fails is a matter of its
    own, which the status for failures is not meant for. -/
inductive Stops (resolve : Resolver) (ctx : ProbeContext) (host : String) : ProbeResult → Prop
  | unknown (h : resolve host = .ok []) :
      Stops resolve ctx host (.described ctx.failureStatus
        ("host " ++ host ++ " was not resolved from dns server"))
  | broken {reason : String} (h : resolve host = .error reason) :
      Stops resolve ctx host (.failed .unhealthy (.io reason))

/-- Something is found about a host that stops the check. -/
theorem finding_eq_some_iff {resolve : Resolver} {ctx : ProbeContext} {host : String}
    {r : ProbeResult} : finding ctx host (resolve host) = some r ↔ Stops resolve ctx host r := by
  constructor
  · intro h
    match hhost : resolve host with
    | .error reason =>
        rw [hhost] at h
        cases h
        exact .broken hhost
    | .ok [] =>
        rw [hhost] at h
        cases h
        exact .unknown hhost
    | .ok (address :: more) =>
        rw [hhost] at h
        cases h
  · intro h
    cases h with
    | unknown h => rw [h, finding]
    | broken h => rw [h, finding]

/-- With a resolver that answers equal calls alike the hosts are those that the probe looks up. -/
theorem lookUp_eq (resolve : Resolver) (ctx : ProbeContext) (hosts : List String) :
    lookUp resolve ctx hosts
      = ((lookUpEach (fun _ => resolve) ctx hosts).1,
        (lookUpEach (fun _ => resolve) ctx hosts).2.map Prod.fst) := by
  rw [lookUpEach]
  induction hosts with
  | nil => rfl
  | cons host rest ih =>
      rw [lookUp, visit]
      match resolve host with
      | .error reason => rfl
      | .ok [] => rfl
      | .ok (address :: more) =>
          dsimp only
          rw [ih]
          rfl

end Names

/-! ## File servers -/

namespace Transfer

open Text

/-- The result that a dialogue with a server leads to, if it is not a good one. -/
def finding (ctx : ProbeContext) (h : Host) (d : Dialogue) : Option ProbeResult :=
  match d.outcome with
  | .error e => some (.failed ctx.failureStatus e)
  | .ok reply =>
      if isDirectoryCode reply.code then none
      else some (.described ctx.failureStatus ("Error connecting to ftp host " ++ h.host
        ++ " with exit code " ++ natText reply.code))

/-- Tries servers in networks that may answer each connection differently. -/
def checkEach (networks : Nat → Network) (ctx : ProbeContext) (hosts : List Host) :
    ProbeResult × List (Host × Dialogue) :=
  visit (fun n => talk (networks n) ctx) (finding ctx) hosts

/-- A server that ends a check, and the result it gives: there is no address, or no connection,
    or the dialogue fails, or it ends with a code that does not name a directory. -/
inductive Stops (network : Network) (ctx : ProbeContext) (h : Host) : ProbeResult → Prop
  | address (hparse : Address.parse? h.host = none) :
      Stops network ctx h (.failed ctx.failureStatus (.address h.host))
  | refused {a : Address} {reason : String} (hparse : Address.parse? h.host = some a)
      (hconnect : network a = .refused reason) :
      Stops network ctx h (.failed ctx.failureStatus (.io reason))
  | silent {a : Address} (hparse : Address.parse? h.host = some a)
      (hconnect : network a = .silent) :
      Stops network ctx h (.failed ctx.failureStatus (.timeout ctx.timeout))
  | dialogue {a : Address} {c : Channel} {e : ProbeError}
      (hparse : Address.parse? h.host = some a) (hconnect : network a = .opened c)
      (hrun : (Dialogue.run (h.user.getD "anonymous") (h.password.getD "anonymous@") c).outcome
        = .error e) :
      Stops network ctx h (.failed ctx.failureStatus e)
  | code {a : Address} {c : Channel} {reply : Reply}
      (hparse : Address.parse? h.host = some a) (hconnect : network a = .opened c)
      (hrun : (Dialogue.run (h.user.getD "anonymous") (h.password.getD "anonymous@") c).outcome
        = .ok reply)
      (hcode : reply.code ≠ 257 ∧ reply.code ≠ 226) :
      Stops network ctx h (.described ctx.failureStatus ("Error connecting to ftp host "
        ++ h.host ++ " with exit code " ++ natText reply.code))

section Findings

variable {network : Network} {ctx : ProbeContext} {h : Host} {a : Address} {d : Dialogue}
  {r : ProbeResult}

/-- Two codes bring a directory. -/
theorem isDirectoryCode_eq_false_iff {code : Nat} :
    isDirectoryCode code = false ↔ code ≠ 257 ∧ code ≠ 226 := by
  rw [isDirectoryCode, Bool.or_eq_false_iff, decide_eq_false_iff_not, decide_eq_false_iff_not]

theorem finding_of_error {e : ProbeError} (hd : d.outcome = .error e) :
    finding ctx h d = some (.failed ctx.failureStatus e) := by
  rw [finding, hd]

theorem finding_of_code {reply : Reply} (hd : d.outcome = .ok reply)
    (hcode : reply.code ≠ 257 ∧ reply.code ≠ 226) :
    finding ctx h d = some (.described ctx.failureStatus ("Error connecting to ftp host "
      ++ h.host ++ " with exit code " ++ natText reply.code)) := by
  rw [finding, hd]
  dsimp only
  rw [isDirectoryCode_eq_false_iff.2 hcode]
  rfl

/-- A dialogue that leads to a result fails, or ends with a code that names no directory. -/
theorem of_finding_eq_some (hd : finding ctx h d = some r) :
    (∃ e, d.outcome = .error e)
      ∨ ∃ reply, d.outcome = .ok reply ∧ reply.code ≠ 257 ∧ reply.code ≠ 226 := by
  cases houtcome : d.outcome with
  | error e => exact Or.inl ⟨e, rfl⟩
  | ok reply =>
      refine Or.inr ⟨reply, rfl, isDirectoryCode_eq_false_iff.1 ?_⟩
      rw [finding, houtcome] at hd
      dsimp only at hd
      cases hcode : isDirectoryCode reply.code with
      | false => rfl
      | true =>
          rw [hcode] at hd
          cases hd

/-- Nobody is talked to without an address. -/
theorem talk_of_no_address (hparse : Address.parse? h.host = none) :
    talk network ctx h = .ended (.address h.host) := by
  rw [talk, hparse]

/-- A server that opens a connection is talked to; others end the talk at once. -/
theorem talk_of_address (hparse : Address.parse? h.host = some a) :
    talk network ctx h = match network a with
      | .opened c => .run (h.user.getD "anonymous") (h.password.getD "anonymous@") c
      | .refused reason => .ended (.io reason)
      | .silent => .ended (.timeout ctx.timeout) := by
  rw [talk, hparse]
  dsimp only
  cases network a <;> rfl

/-- Something is found about a server that stops the check. -/
theorem finding_talk_eq_some_iff :
    finding ctx h (talk network ctx h) = some r ↔ Stops network ctx h r := by
  constructor
  · intro hd
    cases hparse : Address.parse? h.host with
    | none =>
        rw [talk_of_no_address hparse] at hd
        cases hd
        exact .address hparse
    | some a =>
        rw [talk_of_address hparse] at hd
        cases hconnect : network a with
        | refused reason =>
            rw [hconnect] at hd
            cases hd
            exact .refused hparse hconnect
        | silent =>
            rw [hconnect] at hd
            cases hd
            exact .silent hparse hconnect
        | opened c =>
            rw [hconnect] at hd
            rcases of_finding_eq_some hd with ⟨e, hrun⟩ | ⟨reply, hrun, hcode⟩
            · cases (finding_of_error hrun).symm.trans hd
              exact .dialogue hparse hconnect hrun
            · cases (finding_of_code hrun hcode).symm.trans hd
              exact .code hparse hconnect hrun hcode
  · intro hstops
    cases hstops with
    | address hparse => rw [talk_of_no_address hparse]; rfl
    | refused hparse hconnect => rw [talk_of_address hparse, hconnect]; rfl
    | silent hparse hconnect => rw [talk_of_address hparse, hconnect]; rfl
    | dialogue hparse hconnect hrun =>
        rw [talk_of_address hparse, hconnect]
        exact finding_of_error hrun
    | code hparse hconnect hrun hcode =>
        rw [talk_of_address hparse, hconnect]
        exact finding_of_code hrun hcode

end Findings

/-- In a network that answers equal connections alike the dialogues are those of the probe. -/
theorem check_eq (network : Network) (ctx : ProbeContext) (hosts : List Host) :
    check network ctx hosts
      = ((checkEach (fun _ => network) ctx hosts).1,
        (checkEach (fun _ => network) ctx hosts).2.map fun p => p.2.sent) := by
  rw [checkEach]
  induction hosts with
  | nil => rfl
  | cons h rest ih =>
      rw [check, visit, finding]
      cases (talk network ctx h).outcome with
      | error e => rfl
      | ok reply =>
          dsimp only
          cases isDirectoryCode reply.code with
          | false => rfl
          | true =>
              rw [ih]
              rfl

end Transfer

/-! ## Both lists -/

/-- Names are looked up, and file servers are tried, up to and including the first host that
    fails; this host gives the result, and nothing is wrong when there is none.  What is heard
    are the answers of this host's own peers.  With peers that answer alike this is what the
    two probes do. -/
theorem stops_at_first_failing_host (ctx : ProbeContext) (resolvers : Nat → Names.Resolver)
    (names : List String) (networks : Nat → Transfer.Network) (servers : List Transfer.Host) :
    let asked := Names.lookUpEach resolvers ctx names
    let tried := Transfer.checkEach networks ctx servers
    UpToFirst (fun n => Names.Stops (resolvers n) ctx) names (asked.2.map Prod.fst) asked.1
      ∧ (∀ n host answer, asked.2[n]? = some (host, answer) → answer = resolvers n host)
      ∧ UpToFirst (fun n => Transfer.Stops (networks n) ctx) servers (tried.2.map Prod.fst) tried.1
      ∧ (∀ n h d, tried.2[n]? = some (h, d) → d = Transfer.talk (networks n) ctx h)
      ∧ (∀ resolve, resolvers = (fun _ => resolve) →
          Names.lookUp resolve ctx names = (asked.1, asked.2.map Prod.fst))
      ∧ (∀ network, networks = (fun _ => network) →
          Transfer.check network ctx servers = (tried.1, tried.2.map fun p => p.2.sent)) := by
  intro asked tried
  have hasked := upToFirst_visit resolvers (Names.finding ctx) names
  have htried := upToFirst_visit (fun n => Transfer.talk (networks n) ctx)
    (Transfer.finding ctx) servers
  simp only [Names.finding_eq_some_iff] at hasked
  simp only [Transfer.finding_talk_eq_some_iff] at htried
  refine ⟨hasked, heard_visit _ _ names, htried, heard_visit _ _ servers, ?_, ?_⟩
  · rintro resolve rfl
    exact Names.lookUp_eq resolve ctx names
  · rintro network rfl
    exact Transfer.check_eq network ctx servers

end HealthWatch
