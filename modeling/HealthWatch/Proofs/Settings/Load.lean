import HealthWatch.Proofs.Settings.Check

/-! # Loading settings — what becomes of a file and the variables

    A file is read as settings, then the variables replace single ones of them, and only then
    are the settings checked.  So what the file says of a setting makes no difference once its
    variable can be read, and a variable that cannot be read is told before anything that is
    wrong with the settings.

    * `Fits` and `FileFits` say what each part has to bring: a variable that is set has a value
      that is accepted, and the file has what the variables leave to it;
    * `Apart` are settings that differ in the setting of one variable only;
    * `load_in_order` puts the steps together: what is loaded, what is told, and when which. -/

namespace HealthWatch.Settings

open Text Variable

/-! ## What each part has to bring -/

/-- The values of a variable with which settings can be accepted. -/
def Variable.Fits : Variable → String → Prop
  | applicationId, v => ∃ id, Identifier.parse v.toList = .ok id
  | serverName, _ => True
  | storageApi, v => ∃ c ∈ v.toList, isBlank c = false
  | checkInterval, v => ∃ n, unsigned? wordBound v.toList = some n ∧ n ≠ 0
  | healthPort, v => ∃ n, unsigned? portBound v.toList = some n

/-- The settings of a file bring what no variable does. -/
structure FileFits (w : Surroundings) (file : Settings) : Prop where
  storageApi : w.valueOf? Variable.storageApi.key = none →
    ∃ c ∈ file.storageApi.toList, isBlank c = false
  checkInterval : w.valueOf? Variable.checkInterval.key = none → file.checkInterval ≠ 0
  reportTimeout : file.reportTimeout ≠ some 0
  names : ∀ c ∈ file.checks, ∃ x ∈ c.name.toList, isBlank x = false
  distinct : (file.checks.map CheckSettings.name).Nodup

/-- No variable is unread when every value that is set can be read. -/
theorem not_unread_iff {w : Surroundings} {x : Variable} :
    (∀ e, ¬x.Unread w e) ↔ ∀ v, w.valueOf? x.key = some v → ∃ f, x.change? v = some f := by
  constructor
  · intro h v hset
    cases hread : x.change? v with
    | none => exact absurd ⟨hset, hread⟩ (h _)
    | some f => exact ⟨f, rfl⟩
  · rintro h e ⟨hset, hread⟩
    obtain ⟨f, hf⟩ := h _ hset
    exact nomatch hread.symm.trans hf

theorem toOption_eq_some_iff {ε α : Type} {x : Except ε α} {a : α} :
    x.toOption = some a ↔ x = .ok a := by
  cases x with
  | error e => exact iff_of_false (fun h => nomatch h) fun h => nomatch h
  | ok b => exact Option.some_inj.trans (iff_of_eq (Except.ok.injEq b a).symm)

/-- A variable that is set decides about its setting, and else the file does. -/
theorem getD_reading_iff {α : Type} {w : Surroundings} {x : Variable} {read? : String → Option α}
    {P : α → Prop} {a : α} (hread : ∀ v, w.valueOf? x.key = some v → ∃ b, read? v = some b) :
    P ((reading w x read?).getD a)
      ↔ (∀ v, w.valueOf? x.key = some v → ∃ b, read? v = some b ∧ P b)
        ∧ (w.valueOf? x.key = none → P a) := by
  rw [reading]
  cases hset : w.valueOf? x.key with
  | none =>
      constructor
      · intro h
        refine ⟨?_, fun _ => h⟩
        rintro v ⟨⟩
      · exact fun h => h.2 rfl
  | some v =>
      obtain ⟨b, hb⟩ := hread v hset
      rw [Option.bind_some, hb]
      constructor
      · intro h
        constructor
        · rintro _ ⟨⟩
          exact ⟨b, hb, h⟩
        · rintro ⟨⟩
      · rintro ⟨h, -⟩
        obtain ⟨b', hb', h⟩ := h v rfl
        cases hb.symm.trans hb'
        exact h

/-- What fits can be read. -/
theorem Variable.Fits.exists_change? {x : Variable} {v : String} (h : x.Fits v) :
    ∃ f, x.change? v = some f := by
  cases x with
  | applicationId =>
      obtain ⟨id, hid⟩ := h
      exact ⟨_, Option.map_eq_some_iff.2 ⟨id, toOption_eq_some_iff.2 hid, rfl⟩⟩
  | serverName => exact ⟨_, rfl⟩
  | storageApi => exact ⟨_, rfl⟩
  | checkInterval =>
      obtain ⟨n, hn, -⟩ := h
      exact ⟨_, Option.map_eq_some_iff.2 ⟨n, hn, rfl⟩⟩
  | healthPort =>
      obtain ⟨n, hn⟩ := h
      exact ⟨_, Option.map_eq_some_iff.2 ⟨n, hn, rfl⟩⟩

theorem overridden_storageApi_iff {w : Surroundings} {s : Settings} :
    (∃ c ∈ (s.overridden w).storageApi.toList, isBlank c = false)
      ↔ (∀ v, w.valueOf? Variable.storageApi.key = some v → Variable.storageApi.Fits v)
        ∧ (w.valueOf? Variable.storageApi.key = none →
          ∃ c ∈ s.storageApi.toList, isBlank c = false) := by
  refine (getD_reading_iff (P := fun api => ∃ c ∈ api.toList, isBlank c = false)
    fun v _ => ⟨v, rfl⟩).trans (and_congr_left' (forall₂_congr fun v _ => ?_))
  constructor
  · rintro ⟨_, ⟨⟩, h⟩
    exact h
  · exact fun h => ⟨v, rfl, h⟩

theorem overridden_checkInterval_iff {w : Surroundings} {s : Settings}
    (hread : ∀ e, ¬Variable.checkInterval.Unread w e) :
    (s.overridden w).checkInterval ≠ 0
      ↔ (∀ v, w.valueOf? Variable.checkInterval.key = some v → Variable.checkInterval.Fits v)
        ∧ (w.valueOf? Variable.checkInterval.key = none → s.checkInterval ≠ 0) := by
  refine getD_reading_iff (P := fun n => n ≠ 0) fun v hset => ?_
  obtain ⟨f, hf⟩ := not_unread_iff.1 hread v hset
  obtain ⟨n, hn, -⟩ := Option.map_eq_some_iff.1 hf
  exact ⟨n, hn⟩

/-- Settings with all variables read are valid when every part brings what it has to. -/
theorem overridden_valid_iff {w : Surroundings} {s : Settings} :
    AllRead w ∧ (s.overridden w).Valid
      ↔ (∀ (x : Variable) (v : String), w.valueOf? x.key = some v → x.Fits v)
        ∧ FileFits w s := by
  constructor
  · rintro ⟨hread, hvalid⟩
    obtain ⟨hapi, hfileApi⟩ := overridden_storageApi_iff.1 hvalid.storageApi
    obtain ⟨hinterval, hfileInterval⟩ :=
      (overridden_checkInterval_iff (hread _)).1 hvalid.checkInterval
    refine ⟨fun x v hset => ?_,
      ⟨hfileApi, hfileInterval, hvalid.reportTimeout, hvalid.names, hvalid.distinct⟩⟩
    obtain ⟨f, hf⟩ := not_unread_iff.1 (hread x) v hset
    cases x with
    | applicationId =>
        obtain ⟨id, hid, -⟩ := Option.map_eq_some_iff.1 hf
        exact ⟨id, toOption_eq_some_iff.1 hid⟩
    | serverName => trivial
    | storageApi => exact hapi v hset
    | checkInterval => exact hinterval v hset
    | healthPort =>
        obtain ⟨n, hn, -⟩ := Option.map_eq_some_iff.1 hf
        exact ⟨n, hn⟩
  · rintro ⟨hfits, hfile⟩
    have hread : AllRead w :=
      fun x => not_unread_iff.2 fun v hset => (hfits x v hset).exists_change?
    exact ⟨hread, overridden_storageApi_iff.2 ⟨hfits _, hfile.storageApi⟩,
      (overridden_checkInterval_iff (hread _)).2 ⟨hfits _, hfile.checkInterval⟩,
      hfile.reportTimeout, hfile.names, hfile.distinct⟩

/-! ## Settings of which a variable decides -/

/-- Settings that differ in the setting of a variable only. -/
inductive Variable.Apart : Variable → Settings → Settings → Prop where
  | applicationId (s : Settings) (id : Identifier) :
      Apart applicationId s { s with applicationId := id }
  | serverName (s : Settings) (name : String) : Apart serverName s { s with serverName := name }
  | storageApi (s : Settings) (api : String) : Apart storageApi s { s with storageApi := api }
  | checkInterval (s : Settings) (n : Nat) : Apart checkInterval s { s with checkInterval := n }
  | healthPort (s : Settings) (n : Option Nat) : Apart healthPort s { s with healthPort := n }

/-- What stood in the setting of a variable that is set and read makes no difference. -/
theorem Variable.Apart.overridden_eq {x : Variable} {s t : Settings} (h : x.Apart s t)
    {w : Surroundings} {v : String} {f : Settings → Settings}
    (hset : w.valueOf? x.key = some v) (hread : x.change? v = some f) :
    s.overridden w = t.overridden w := by
  cases h with
  | applicationId id =>
      obtain ⟨_, hid, -⟩ := Option.map_eq_some_iff.1 hread
      simp [overridden, reading, hset, hid]
  | serverName name => simp [overridden, reading, hset]
  | storageApi api => simp [overridden, reading, hset]
  | checkInterval n =>
      obtain ⟨_, hn, -⟩ := Option.map_eq_some_iff.1 hread
      simp [overridden, reading, hset, hn]
  | healthPort n =>
      obtain ⟨_, hn, -⟩ := Option.map_eq_some_iff.1 hread
      simp [overridden, reading, hset, hn]

/-! ## Loading -/

/-- What becomes of loading when the file is read as settings. -/
structure Loaded (host : Option String) (w : Surroundings) (file : Settings)
    (loaded : Except SettingsFault Settings) : Prop where
  /-- all variables are read, what they say is valid, and a blank name of the server is filled in -/
  accepted : ∀ s, loaded = .ok s ↔
    AllRead w ∧ (file.overridden w).Valid
      ∧ s = { file.overridden w with
          serverName :=
            if (file.overridden w).serverName.toList.all isBlank then host.getD "localhost"
            else (file.overridden w).serverName }
  /-- the first variable that cannot be read is told, or else the first thing that is wrong -/
  refused : ∀ e, loaded = .error e ↔
    FirstUnread w all e ∨ AllRead w ∧ (file.overridden w).Refused e
  /-- values that are set have to fit, and the file only has to bring what is not set -/
  succeeds : (∃ s, loaded = .ok s) ↔
    (∀ (x : Variable) (v : String), w.valueOf? x.key = some v → x.Fits v) ∧ FileFits w file
  /-- the file may say what it wants of a setting whose variable is read -/
  replaced : ∀ (x : Variable) (v : String) (f : Settings → Settings),
    w.valueOf? x.key = some v → x.change? v = some f →
      ∀ (text : String) (other : Settings), parse text = .ok other → x.Apart file other →
        loadFile host w (.ok text) = loaded

section

variable {host : Option String} {w : Surroundings} {text : String} {file : Settings}

/-- Behind the file stand the variables, and behind them the check. -/
theorem loadFile_of_parse (h : parse text = .ok file) :
    loadFile host w (.ok text) = (file.overrideAll w).bind (finish host) := by
  show (parse text).bind (fun s => (s.overrideAll w).bind (finish host)) = _
  rw [h, Except.bind]

/-- What is no settings file is told as such. -/
theorem loadFile_of_fault {e : SettingsFault} (h : parse text = .error e) :
    loadFile host w (.ok text) = .error e := by
  show (parse text).bind (fun s => (s.overrideAll w).bind (finish host)) = _
  rw [h, Except.bind]

/-- With all variables read it is left to finish the settings. -/
theorem loadFile_of_read (h : parse text = .ok file) (hread : AllRead w) :
    loadFile host w (.ok text) = (file.overridden w).finish host := by
  rw [loadFile_of_parse h, overrideAll_eq_ok_iff.2 ⟨hread, rfl⟩, Except.bind]

theorem loadFile_eq_ok_iff (h : parse text = .ok file) {s : Settings} :
    loadFile host w (.ok text) = .ok s
      ↔ AllRead w ∧ (file.overridden w).Valid ∧ s = (file.overridden w).withServerName host := by
  constructor
  · intro hload
    rw [loadFile_of_parse h] at hload
    obtain ⟨_, hall, hfinish⟩ := Json.bind_eq_ok hload
    obtain ⟨hread, rfl⟩ := overrideAll_eq_ok_iff.1 hall
    exact ⟨hread, finish_eq_ok_iff.1 hfinish⟩
  · rintro ⟨hread, hvalid⟩
    rw [loadFile_of_read h hread]
    exact finish_eq_ok_iff.2 hvalid

theorem loadFile_eq_error_iff (h : parse text = .ok file) {e : SettingsFault} :
    loadFile host w (.ok text) = .error e
      ↔ FirstUnread w all e ∨ AllRead w ∧ (file.overridden w).Refused e := by
  cases hall : file.overrideAll w with
  | error e' =>
      have hfirst := overrideAll_eq_error_iff.1 hall
      obtain ⟨_, x, _, -, hx, -⟩ := hfirst
      rw [loadFile_of_parse h, or_iff_left fun hrefused => hrefused.1 x e' hx,
        ← overrideAll_eq_error_iff, hall, Except.bind]
  | ok t =>
      obtain ⟨hread, rfl⟩ := overrideAll_eq_ok_iff.1 hall
      rw [loadFile_of_read h hread, finish_eq_error_iff]
      constructor
      · exact fun hrefused => Or.inr ⟨hread, hrefused⟩
      · rintro (⟨_, x, _, -, hx, -⟩ | ⟨-, hrefused⟩)
        · exact absurd hx (hread x e)
        · exact hrefused

/-- Files that come to the same settings come to the same. -/
theorem loadFile_congr (h : parse text = .ok file) {text' : String} {file' : Settings}
    (h' : parse text' = .ok file') (hsame : file.overridden w = file'.overridden w) :
    loadFile host w (.ok text') = loadFile host w (.ok text) := by
  cases hload : loadFile host w (.ok text) with
  | error e =>
      have hcases := (loadFile_eq_error_iff h).1 hload
      rw [hsame] at hcases
      exact (loadFile_eq_error_iff h').2 hcases
  | ok s =>
      have haccepted := (loadFile_eq_ok_iff h).1 hload
      rw [hsame] at haccepted
      exact (loadFile_eq_ok_iff h').2 haccepted

/-- Without variables the text of the file is all that counts. -/
theorem loadFile_of_unset (hunset : ∀ x : Variable, w.valueOf? x.key = none) :
    loadFile host w (.ok text) = fromJson host text := by
  have hread : AllRead w :=
    fun x => not_unread_iff.2 fun v hset => nomatch (hunset x).symm.trans hset
  have hfromJson : fromJson host text = (parse text).bind (finish host) := rfl
  rw [hfromJson]
  cases hparse : parse text with
  | error e => rw [loadFile_of_fault hparse, Except.bind]
  | ok file =>
      have hsame : file.overridden w = file := by simp [overridden, reading, hunset]
      rw [loadFile_of_read hparse hread, hsame, Except.bind]

/-- What becomes of the settings in a file. -/
theorem loaded_of_parse (h : parse text = .ok file) :
    Loaded host w file (loadFile host w (.ok text)) where
  accepted s := by rw [loadFile_eq_ok_iff h, withServerName_eq]
  refused e := loadFile_eq_error_iff h
  succeeds := by
    rw [← overridden_valid_iff]
    constructor
    · rintro ⟨s, hload⟩
      obtain ⟨hread, hvalid, -⟩ := (loadFile_eq_ok_iff h).1 hload
      exact ⟨hread, hvalid⟩
    · rintro ⟨hread, hvalid⟩
      exact ⟨_, (loadFile_eq_ok_iff h).2 ⟨hread, hvalid, rfl⟩⟩
  replaced x v f hset hread text' other hparse hapart :=
    loadFile_congr h hparse (hapart.overridden_eq hset hread)

end

/-- Settings are loaded from the file that a variable names: it has to be there and to be
    settings, then the variables replace their own settings one after the other, and then the
    name of the server is filled in and everything is checked.  Without variables this is what
    becomes of the text alone. -/
theorem load_in_order (host : Option String) (w : Surroundings) :
    load host w
        = loadFile host w (w.read ((w.valueOf? "HEALTHMON_CONFIG").getD "appsettings.json"))
      ∧ (∀ reason, loadFile host w (.error reason)
        = .error (.unreadable ((w.valueOf? "HEALTHMON_CONFIG").getD "appsettings.json") reason))
      ∧ ∀ text,
        ((∀ x : Variable, w.valueOf? x.key = none) →
          loadFile host w (.ok text) = fromJson host text)
        ∧ (∀ e, parse text = .error e → loadFile host w (.ok text) = .error e)
        ∧ ∀ file, parse text = .ok file → Loaded host w file (loadFile host w (.ok text)) := by
  refine ⟨rfl, fun reason => rfl, fun text => ⟨loadFile_of_unset, ?_, ?_⟩⟩
  · exact fun e => loadFile_of_fault
  · exact fun file => loaded_of_parse

/-- A settings file without a storage and with an interval of zero. -/
def bare : String := "\x7b\"Health\": \x7b\"CheckInterval\": 0\x7d\x7d"

theorem parse_bare : ∃ file, parse bare = .ok file ∧ file.storageApi = ""
    ∧ file.reportTimeout = none ∧ file.checks = [] := by
  have h : (parse bare).toOption.map (fun s => (s.storageApi, s.reportTimeout, s.checks.length))
      = some ("", none, 0) := by decide +kernel
  obtain ⟨file, hparse, h⟩ := Option.map_eq_some_iff.1 h
  simp only [Prod.mk.injEq, List.length_eq_zero_iff] at h
  exact ⟨file, toOption_eq_some_iff.1 hparse, h⟩

/-- The variables bring what this file lacks. -/
def mended : Surroundings :=
  ⟨[("site.json", bare)],
    [("HEALTHMON_CONFIG", "site.json"), ("HEALTHMON_STORAGE_API", "http://localhost"),
      ("HEALTHMON_CHECK_INTERVAL", "+5")]⟩

/-- A file that is refused by itself is loaded when variables bring what it lacks, and none is
    loaded when a variable cannot be read. -/
theorem variables_decide :
    fromJson none bare = .error (.missing "Health.StorageApi")
      ∧ (∃ s, load none mended = .ok s)
      ∧ load none ⟨[("appsettings.json", bare)], [("HEALTHMON_APPLICATION_ID", "")]⟩
          = .error (.invalid "HEALTHMON_APPLICATION_ID" "") := by
  obtain ⟨file, hparse, hapi, htimeout, hchecks⟩ := parse_bare
  have hload : ∀ w : Surroundings, Loaded none w file (loadFile none w (.ok bare)) :=
    fun w => ((load_in_order none w).2.2 bare).2.2 file hparse
  refine ⟨?_, ?_, ?_⟩
  · rw [← ((load_in_order none ⟨[], []⟩).2.2 bare).1 fun _ => rfl, (hload _).refused]
    have hread : AllRead ⟨[], []⟩ :=
      fun x => not_unread_iff.2 fun v hset => nomatch hset
    refine Or.inr ⟨hread, .storageApi ?_⟩
    show ∀ c ∈ file.storageApi.toList, isBlank c = true
    rw [hapi]
    exact fun c hc => nomatch hc
  · have hvalue : ∀ x : Variable, mended.valueOf? x.key = match x with
        | .storageApi => some "http://localhost"
        | .checkInterval => some "+5"
        | _ => none := by
      intro x
      cases x <;> decide
    have hfits : ∀ (x : Variable) (v : String), mended.valueOf? x.key = some v → x.Fits v := by
      intro x v hset
      rw [hvalue] at hset
      cases x with
      | storageApi =>
          cases hset
          exact ⟨'h', by decide, by decide⟩
      | checkInterval =>
          cases hset
          exact ⟨5, by decide, by decide⟩
      | _ => cases hset
    have hfile : FileFits mended file := by
      constructor
      · rw [hvalue]
        rintro ⟨⟩
      · rw [hvalue]
        rintro ⟨⟩
      · rw [htimeout]
        rintro ⟨⟩
      · rw [hchecks]
        exact fun c hc => absurd hc List.not_mem_nil
      · rw [hchecks]
        exact List.nodup_nil
    rw [(load_in_order none _).1]
    exact (hload _).succeeds.2 ⟨hfits, hfile⟩
  · rw [(load_in_order none _).1]
    refine ((hload _).refused _).2 (Or.inl ⟨[], .applicationId, _, rfl, ⟨rfl, by decide⟩, ?_⟩)
    exact fun y hy => absurd hy List.not_mem_nil

end HealthWatch.Settings
