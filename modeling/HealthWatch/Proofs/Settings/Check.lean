import HealthWatch.Proofs.Settings.Variables

/-! # Checking settings — which settings are accepted

    Settings are looked at in a fixed order, and the first thing that is wrong is told:
    no storage, an interval or a report timeout of zero, then the checks from the first
    one on, whose names must not be blank and must not have stood before.

    * `checkNames_eq_ok_iff` and `checkNames_eq_error_iff` follow the loop over the
      checks, with the names seen so far;
    * `accepted_or_refused_iff` says what becomes of the text of a settings file;
    * `report_timeout_positive_iff` says which accepted settings leave a report any time:
      a report timeout of zero is refused, but one that falls back to the seconds of a
      shutdown may be zero. -/

namespace HealthWatch.Settings

open Text

/-! ## One thing after the other -/

section

variable {ε : Type} {p : Prop} [Decidable p] {e e' : ε} {next : Except ε Unit}

/-- Nothing is wrong when this is not wrong and nothing after it is. -/
theorem refuse_eq_ok_iff :
    (if p then .error e else next) = .ok () ↔ ¬p ∧ next = .ok () := by
  by_cases h : p
  · rw [if_pos h]
    exact iff_of_false (fun heq => nomatch heq) fun hnot => hnot.1 h
  · rw [if_neg h]
    exact ⟨fun hnext => ⟨h, hnext⟩, And.right⟩

/-- The fault is this one, or a later one when this is not wrong. -/
theorem refuse_eq_error_iff :
    (if p then .error e else next) = .error e' ↔ p ∧ e' = e ∨ ¬p ∧ next = .error e' := by
  by_cases h : p
  · rw [if_pos h, Except.error.injEq, eq_comm]
    exact ⟨fun he => Or.inl ⟨h, he⟩,
      fun hcases => hcases.elim And.right fun hnot => absurd h hnot.1⟩
  · rw [if_neg h]
    exact ⟨fun hnext => Or.inr ⟨h, hnext⟩,
      fun hcases => hcases.elim (fun hp => absurd hp.1 h) And.right⟩

end

/-! ## The names of checks -/

/-- What is wrong with a check behind checks of the names `before`. -/
inductive NameFault (before : List String) (c : CheckSettings) : SettingsFault → Prop where
  | blank (h : ∀ x ∈ c.name.toList, isBlank x = true) :
      NameFault before c (.invalidCheck c.name "name must not be empty")
  | repeated (hname : ∃ x ∈ c.name.toList, isBlank x = false) (h : c.name ∈ before) :
      NameFault before c (.invalidCheck c.name "name is configured more than once")

/-- What is wrong with the check at a place of a list, behind checks of the names `before`. -/
def FaultAt (before : List String) (checks : List CheckSettings) (i : Nat) (e : SettingsFault) :
    Prop :=
  ∃ c, checks[i]? = some c ∧ NameFault (before ++ (checks.take i).map CheckSettings.name) c e

/-- The first check with a fault has this one. -/
def FirstFault (before : List String) (checks : List CheckSettings) (e : SettingsFault) : Prop :=
  ∃ i, FaultAt before checks i e ∧ ∀ j < i, ∀ e', ¬FaultAt before checks j e'

theorem NameFault.congr {before before' : List String} {c : CheckSettings} {e : SettingsFault}
    (hmem : c.name ∈ before ↔ c.name ∈ before') : NameFault before c e ↔ NameFault before' c e := by
  constructor
  · rintro (h | ⟨hname, h⟩)
    · exact .blank h
    · exact .repeated hname (hmem.1 h)
  · rintro (h | ⟨hname, h⟩)
    · exact .blank h
    · exact .repeated hname (hmem.2 h)

theorem faultAt_zero {before : List String} {c : CheckSettings} {rest : List CheckSettings}
    {e : SettingsFault} : FaultAt before (c :: rest) 0 e ↔ NameFault before c e := by
  constructor
  · rintro ⟨_, ⟨⟩, h⟩
    rwa [List.take_zero, List.map_nil, List.append_nil] at h
  · intro h
    exact ⟨c, rfl, by rwa [List.take_zero, List.map_nil, List.append_nil]⟩

theorem faultAt_succ {before : List String} {c : CheckSettings} {rest : List CheckSettings}
    {i : Nat} {e : SettingsFault} :
    FaultAt before (c :: rest) (i + 1) e ↔ FaultAt (c.name :: before) rest i e := by
  rw [FaultAt, FaultAt, List.getElem?_cons_succ, List.take_succ_cons, List.map_cons]
  refine exists_congr fun d => and_congr_right fun _ => NameFault.congr ?_
  simp only [List.mem_append, List.mem_cons]
  exact or_left_comm.trans or_assoc.symm

/-- The first check has the fault, or it has none and the others have it behind its name. -/
theorem firstFault_cons {before : List String} {c : CheckSettings} {rest : List CheckSettings}
    {e : SettingsFault} :
    FirstFault before (c :: rest) e
      ↔ NameFault before c e
        ∨ (∀ e', ¬NameFault before c e') ∧ FirstFault (c.name :: before) rest e := by
  constructor
  · rintro ⟨i, hi, hfirst⟩
    cases i with
    | zero => exact Or.inl (faultAt_zero.1 hi)
    | succ i =>
        refine Or.inr ⟨fun e' h => hfirst 0 (Nat.succ_pos i) e' (faultAt_zero.2 h), i,
          faultAt_succ.1 hi, fun j hj e' h => ?_⟩
        exact hfirst (j + 1) (Nat.succ_lt_succ hj) e' (faultAt_succ.2 h)
  · rintro (h | ⟨hnone, i, hi, hfirst⟩)
    · exact ⟨0, faultAt_zero.2 h, fun j hj => absurd hj (Nat.not_lt_zero j)⟩
    · refine ⟨i + 1, faultAt_succ.2 hi, fun j hj e' h => ?_⟩
      cases j with
      | zero => exact hnone e' (faultAt_zero.1 h)
      | succ j => exact hfirst j (Nat.lt_of_succ_lt_succ hj) e' (faultAt_succ.1 h)

/-- A name with a character in it that was not used before is no fault. -/
theorem not_nameFault {before : List String} {c : CheckSettings}
    (hname : ∃ x ∈ c.name.toList, isBlank x = false) (hmem : c.name ∉ before) (e : SettingsFault) :
    ¬NameFault before c e := by
  rintro (h | ⟨-, h⟩)
  · exact isBlankText_ne_true_iff.2 hname (isBlankText_eq_true_iff.2 h)
  · exact hmem h

/-- The loop passes when no name is blank, stands before the list or comes twice in it. -/
theorem checkNames_eq_ok_iff {before : List String} {checks : List CheckSettings} :
    checkNames before checks = .ok ()
      ↔ (∀ c ∈ checks, (∃ x ∈ c.name.toList, isBlank x = false) ∧ c.name ∉ before)
        ∧ (checks.map CheckSettings.name).Nodup := by
  induction checks generalizing before with
  | nil => exact iff_of_true rfl ⟨fun _ hc => absurd hc List.not_mem_nil, List.nodup_nil⟩
  | cons c rest ih =>
      rw [checkNames, refuse_eq_ok_iff, refuse_eq_ok_iff, ih, isBlankText_ne_true_iff,
        List.forall_mem_cons, List.map_cons, List.nodup_cons]
      simp only [List.mem_cons, not_or, List.mem_map, not_exists, not_and]
      constructor
      · rintro ⟨hname, hmem, hrest, hnodup⟩
        exact ⟨⟨⟨hname, hmem⟩, fun d hd => ⟨(hrest d hd).1, (hrest d hd).2.2⟩⟩,
          fun d hd => (hrest d hd).2.1, hnodup⟩
      · rintro ⟨⟨⟨hname, hmem⟩, hrest⟩, hne, hnodup⟩
        exact ⟨hname, hmem, fun d hd => ⟨(hrest d hd).1, hne d hd, (hrest d hd).2⟩, hnodup⟩

/-- The loop ends with the fault of the first check that has one. -/
theorem checkNames_eq_error_iff {before : List String} {checks : List CheckSettings}
    {e : SettingsFault} : checkNames before checks = .error e ↔ FirstFault before checks e := by
  induction checks generalizing before with
  | nil =>
      refine iff_of_false (fun h => nomatch h) ?_
      rintro ⟨i, ⟨c, hc, -⟩, -⟩
      exact nomatch hc
  | cons c rest ih =>
      rw [firstFault_cons, checkNames, refuse_eq_error_iff, refuse_eq_error_iff, ih,
        isBlankText_ne_true_iff, isBlankText_eq_true_iff]
      constructor
      · rintro (⟨h, rfl⟩ | ⟨hname, ⟨h, rfl⟩ | ⟨hmem, h⟩⟩)
        · exact Or.inl (.blank h)
        · exact Or.inl (.repeated hname h)
        · exact Or.inr ⟨not_nameFault hname hmem, h⟩
      · rintro ((h | ⟨hname, h⟩) | ⟨hnone, h⟩)
        · exact Or.inl ⟨h, rfl⟩
        · exact Or.inr ⟨hname, Or.inl ⟨h, rfl⟩⟩
        · have hname : ∃ x ∈ c.name.toList, isBlank x = false :=
            isBlankText_ne_true_iff.1 fun hb => hnone _ (.blank (isBlankText_eq_true_iff.1 hb))
          exact Or.inr ⟨hname, Or.inr ⟨fun hmem => hnone _ (.repeated hname hmem), h⟩⟩

/-! ## All settings -/

/-- Settings that are accepted. -/
structure Valid (s : Settings) : Prop where
  storageApi : ∃ x ∈ s.storageApi.toList, isBlank x = false
  checkInterval : s.checkInterval ≠ 0
  reportTimeout : s.reportTimeout ≠ some 0
  names : ∀ c ∈ s.checks, ∃ x ∈ c.name.toList, isBlank x = false
  distinct : (s.checks.map CheckSettings.name).Nodup

/-- The first thing that is wrong with settings. -/
inductive Refused (s : Settings) : SettingsFault → Prop where
  | storageApi (h : ∀ x ∈ s.storageApi.toList, isBlank x = true) :
      Refused s (.missing "Health.StorageApi")
  | checkInterval (hapi : ∃ x ∈ s.storageApi.toList, isBlank x = false)
      (h : s.checkInterval = 0) : Refused s (.invalid "Health.CheckInterval" "0")
  | reportTimeout (hapi : ∃ x ∈ s.storageApi.toList, isBlank x = false)
      (hinterval : s.checkInterval ≠ 0) (h : s.reportTimeout = some 0) :
      Refused s (.invalid "Health.ReportTimeout" "0")
  | checks {e : SettingsFault} (hapi : ∃ x ∈ s.storageApi.toList, isBlank x = false)
      (hinterval : s.checkInterval ≠ 0) (htimeout : s.reportTimeout ≠ some 0)
      (h : FirstFault [] s.checks e) : Refused s e

/-- Settings pass the check when they are valid. -/
theorem check_eq_ok_iff {s : Settings} : s.check = .ok () ↔ s.Valid := by
  rw [check, refuse_eq_ok_iff, refuse_eq_ok_iff, refuse_eq_ok_iff, checkNames_eq_ok_iff,
    isBlankText_ne_true_iff]
  constructor
  · rintro ⟨hapi, hinterval, htimeout, hnames, hnodup⟩
    exact ⟨hapi, hinterval, htimeout, fun c hc => (hnames c hc).1, hnodup⟩
  · intro hs
    exact ⟨hs.storageApi, hs.checkInterval, hs.reportTimeout,
      fun c hc => ⟨hs.names c hc, List.not_mem_nil⟩, hs.distinct⟩

/-- They are refused for their first fault. -/
theorem check_eq_error_iff {s : Settings} {e : SettingsFault} :
    s.check = .error e ↔ s.Refused e := by
  rw [check, refuse_eq_error_iff, refuse_eq_error_iff, refuse_eq_error_iff,
    checkNames_eq_error_iff, isBlankText_ne_true_iff, isBlankText_eq_true_iff]
  constructor
  · rintro (⟨h, rfl⟩ | ⟨hapi, ⟨h, rfl⟩ | ⟨hinterval, ⟨h, rfl⟩ | ⟨htimeout, h⟩⟩⟩)
    · exact .storageApi h
    · exact .checkInterval hapi h
    · exact .reportTimeout hapi hinterval h
    · exact .checks hapi hinterval htimeout h
  · rintro (h | ⟨hapi, h⟩ | ⟨hapi, hinterval, h⟩ | ⟨hapi, hinterval, htimeout, h⟩)
    · exact Or.inl ⟨h, rfl⟩
    · exact Or.inr ⟨hapi, Or.inl ⟨h, rfl⟩⟩
    · exact Or.inr ⟨hapi, Or.inr ⟨hinterval, Or.inl ⟨h, rfl⟩⟩⟩
    · exact Or.inr ⟨hapi, Or.inr ⟨hinterval, Or.inr ⟨htimeout, h⟩⟩⟩

/-- The name of the server is not checked. -/
theorem check_withServerName (host : Option String) (s : Settings) :
    (s.withServerName host).check = s.check := by
  rw [withServerName]
  split <;> rfl

/-- A blank name of the server is replaced; nothing else changes. -/
theorem withServerName_eq (host : Option String) (s : Settings) :
    s.withServerName host
      = { s with
          serverName :=
            if s.serverName.toList.all isBlank then host.getD "localhost" else s.serverName } := by
  rw [withServerName, isBlankText]
  split <;> rfl

/-- Valid settings are accepted, with a name for the server. -/
theorem finish_eq_ok_iff {host : Option String} {s t : Settings} :
    s.finish host = .ok t ↔ s.Valid ∧ t = s.withServerName host := by
  rw [finish, check_withServerName]
  constructor
  · intro h
    obtain ⟨⟨⟩, hcheck, h⟩ := Json.bind_eq_ok h
    cases h
    exact ⟨check_eq_ok_iff.1 hcheck, rfl⟩
  · rintro ⟨hs, rfl⟩
    rw [check_eq_ok_iff.2 hs]
    rfl

/-- Others are refused for their first fault. -/
theorem finish_eq_error_iff {host : Option String} {s : Settings} {e : SettingsFault} :
    s.finish host = .error e ↔ s.Refused e := by
  rw [finish, check_withServerName, ← check_eq_error_iff]
  cases s.check with
  | error e' =>
      show (Except.error e' : Except SettingsFault Settings) = _ ↔ _
      rw [Except.error.injEq, Except.error.injEq]
  | ok u => exact iff_of_false (fun h => nomatch h) fun h => nomatch h

/-- A settings file is accepted exactly when its settings are valid, and only a blank name of
    the server is replaced in them.  What is refused is no settings file, or its first fault is
    told: among the checks, that of the first one with a blank name or that of an earlier one. -/
theorem accepted_or_refused_iff (host : Option String) (text : String) :
    (∀ s, fromJson host text = .ok s ↔
        ∃ read, parse text = .ok read ∧ read.Valid
          ∧ s = { read with
              serverName :=
                if read.serverName.toList.all isBlank then host.getD "localhost"
                else read.serverName })
      ∧ ∀ e, fromJson host text = .error e ↔
          parse text = .error e ∨ ∃ read, parse text = .ok read ∧ read.Refused e := by
  have hfromJson : fromJson host text = (parse text).bind fun read => read.finish host := rfl
  rw [hfromJson]
  cases parse text with
  | error fault =>
      constructor
      · intro s
        refine iff_of_false (fun h => nomatch h) ?_
        rintro ⟨read, h, -⟩
        exact nomatch h
      · intro e
        constructor
        · exact fun h => Or.inl h
        · rintro (h | ⟨read, h, -⟩)
          · exact h
          · exact nomatch h
  | ok read =>
      constructor
      · intro s
        rw [Except.bind, finish_eq_ok_iff, withServerName_eq]
        constructor
        · rintro ⟨hvalid, hs⟩
          exact ⟨read, rfl, hvalid, hs⟩
        · rintro ⟨_, ⟨⟩, hvalid, hs⟩
          exact ⟨hvalid, hs⟩
      · intro e
        rw [Except.bind, finish_eq_error_iff]
        constructor
        · exact fun h => Or.inr ⟨read, rfl, h⟩
        · rintro (h | ⟨_, ⟨⟩, h⟩)
          · exact nomatch h
          · exact h

/-! ## The report timeout -/

/-- No variable replaces a timeout. -/
theorem timeouts_overrideAll {w : Surroundings} {s t : Settings} (h : s.overrideAll w = .ok t) :
    t.reportTimeout = s.reportTimeout ∧ t.shutdownTimeout = s.shutdownTimeout := by
  rw [(overrideAll_eq_ok_iff.1 h).2]
  exact ⟨rfl, rfl⟩

/-- Valid settings leave a report no time exactly when they leave a shutdown none and have
    no timeout of their own for reports. -/
theorem Valid.effectiveReportTimeout_pos_iff {s : Settings} (h : s.Valid) (host : Option String) :
    1 ≤ (s.withServerName host).effectiveReportTimeout
      ↔ s.reportTimeout ≠ none ∨ s.shutdownTimeout ≠ 0 := by
  have hsame : (s.withServerName host).effectiveReportTimeout = s.effectiveReportTimeout := by
    rw [withServerName]
    split <;> rfl
  have hzero := h.reportTimeout
  rw [hsame, effectiveReportTimeout]
  cases hown : s.reportTimeout with
  | none =>
      show 1 ≤ s.shutdownTimeout ↔ _
      simp only [ne_eq, not_true, false_or]
      omega
  | some n =>
      have hn : n ≠ 0 := fun hn => hzero (hown.trans (congrArg some hn))
      show 1 ≤ n ↔ _
      exact iff_of_true (Nat.pos_of_ne_zero hn) (Or.inl fun h => nomatch h)

/-- The settings that are read from a file and accepted leave a report at least one second
    exactly when they set a timeout for reports or leave a shutdown any time. -/
theorem report_timeout_positive_iff (host : Option String) :
    (∀ text s, fromJson host text = .ok s →
        ∃ read, parse text = .ok read
          ∧ (1 ≤ s.effectiveReportTimeout ↔ read.reportTimeout ≠ none ∨ read.shutdownTimeout ≠ 0))
      ∧ ∀ (w : Surroundings) s, load host w = .ok s →
          ∃ text read, w.read (path w) = .ok text ∧ parse text = .ok read
            ∧ (1 ≤ s.effectiveReportTimeout
              ↔ read.reportTimeout ≠ none ∨ read.shutdownTimeout ≠ 0) := by
  constructor
  · intro text s h
    obtain ⟨read, hread, h⟩ := Json.bind_eq_ok h
    obtain ⟨hvalid, rfl⟩ := finish_eq_ok_iff.1 h
    exact ⟨read, hread, hvalid.effectiveReportTimeout_pos_iff host⟩
  · intro w s h
    obtain ⟨text, htext, h⟩ := Json.bind_eq_ok h
    obtain ⟨read, hread, h⟩ := Json.bind_eq_ok h
    obtain ⟨replaced, hreplaced, h⟩ := Json.bind_eq_ok h
    obtain ⟨hvalid, rfl⟩ := finish_eq_ok_iff.1 h
    obtain ⟨hreport, hshutdown⟩ := timeouts_overrideAll hreplaced
    have hfile : w.read (path w) = .ok text := by
      cases hf : w.read (path w) with
      | error e =>
          rw [hf] at htext
          exact nomatch htext
      | ok t =>
          rw [hf] at htext
          cases htext
          rfl
    refine ⟨text, read, hfile, hread, ?_⟩
    rw [hvalid.effectiveReportTimeout_pos_iff host, hreport, hshutdown]

/-- A settings file with no time for a shutdown and no timeout for reports. -/
def hasty : String :=
  "\x7b\"Health\": \x7b\"StorageApi\": \"http://localhost:8080\", \"ShutdownTimeout\": 0\x7d\x7d"

/-- Settings are accepted, from a text and from a file, though they leave a report no time. -/
theorem zero_report_timeout_accepted :
    (∃ s, fromJson none hasty = .ok s ∧ s.effectiveReportTimeout = 0)
      ∧ ∃ s, load none ⟨[("appsettings.json", hasty)], []⟩ = .ok s
          ∧ s.effectiveReportTimeout = 0 := by
  have haccepted : ∀ {x : Except SettingsFault Settings},
      x.toOption.map effectiveReportTimeout = some 0 →
        ∃ s, x = .ok s ∧ s.effectiveReportTimeout = 0 := by
    intro x h
    cases x with
    | error e => exact nomatch h
    | ok s => exact ⟨s, rfl, Option.some.inj h⟩
  exact ⟨haccepted (by decide +kernel), haccepted (by decide +kernel)⟩

end HealthWatch.Settings
