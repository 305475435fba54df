import HealthWatch.Proofs.Json.Decode
import HealthWatch.Settings.Load

/-! # Variables — which settings they replace

    Five settings have a variable.  The variables are looked at in a fixed order: one that is
    set changes its own setting, and the first one with a value that cannot be read is told.

    * `overrideAll_eq_foldlM` makes a loop over the variables of what is done for each;
    * `overrideAll_eq_ok_iff` and `overrideAll_eq_error_iff` follow the loop: the settings
      become those that the variables say (`overridden`), or the first variable that is
      unread is the fault (`FirstUnread`). -/

namespace HealthWatch.Settings

open Text

/-- The variables of settings. -/
inductive Variable where
  | applicationId
  | serverName
  | storageApi
  | checkInterval
  | healthPort
deriving DecidableEq, Repr

namespace Variable

/-- The variables in the order in which they are looked at. -/
def all : List Variable := [applicationId, serverName, storageApi, checkInterval, healthPort]

theorem mem_all (x : Variable) : x ∈ all := by
  cases x <;> decide

/-- The name of a variable. -/
def key : Variable → String
  | applicationId => "HEALTHMON_APPLICATION_ID"
  | serverName => "HEALTHMON_SERVER_NAME"
  | storageApi => "HEALTHMON_STORAGE_API"
  | checkInterval => "HEALTHMON_CHECK_INTERVAL"
  | healthPort => "HEALTHMON_HEALTH_PORT"

/-- The change that a value makes to settings, none when it cannot be read. -/
def change? : Variable → String → Option (Settings → Settings)
  | applicationId, v =>
      (Identifier.parse v.toList).toOption.map fun id s => { s with applicationId := id }
  | serverName, v => some fun s => { s with serverName := v }
  | storageApi, v => some fun s => { s with storageApi := v }
  | checkInterval, v => (unsigned? wordBound v.toList).map fun n s => { s with checkInterval := n }
  | healthPort, v => (unsigned? portBound v.toList).map fun n s => { s with healthPort := some n }

/-- The fault of a variable that is set to a value that cannot be read. -/
inductive Unread (w : Surroundings) (x : Variable) : SettingsFault → Prop where
  | mk {v : String} (hset : w.valueOf? x.key = some v) (hread : x.change? v = none) :
      Unread w x (.invalid x.key v)

/-- Settings after a look at a variable. -/
def replace (w : Surroundings) (s : Settings) (x : Variable) : Except SettingsFault Settings :=
  s.override w x.key x.change? fun s f => f s

/-- Settings with the value of a variable, as far as it can be read. -/
def applied (w : Surroundings) (s : Settings) (x : Variable) : Settings :=
  match (w.valueOf? x.key).bind x.change? with
  | some f => f s
  | none => s

/-- A variable with an unreadable value is told, and any other leaves its setting changed. -/
theorem replace_cases (w : Surroundings) (s : Settings) (x : Variable) :
    (∃ e, x.Unread w e ∧ replace w s x = .error e)
      ∨ (∀ e, ¬x.Unread w e) ∧ replace w s x = .ok (applied w s x) := by
  rw [replace, override, applied]
  cases hset : w.valueOf? x.key with
  | none =>
      refine Or.inr ⟨?_, rfl⟩
      rintro _ ⟨hset', -⟩
      exact nomatch hset.symm.trans hset'
  | some v =>
      dsimp only
      rw [Option.bind_some]
      cases hread : x.change? v with
      | none => exact Or.inl ⟨_, ⟨hset, hread⟩, rfl⟩
      | some f =>
          refine Or.inr ⟨?_, rfl⟩
          rintro _ ⟨hset', hread'⟩
          cases hset.symm.trans hset'
          exact nomatch hread.symm.trans hread'

/-- A variable is not read for one reason. -/
theorem Unread.unique {w : Surroundings} {x : Variable} {e e' : SettingsFault}
    (h : x.Unread w e) (h' : x.Unread w e') : e = e' := by
  obtain ⟨hset, -⟩ := h
  obtain ⟨hset', -⟩ := h'
  cases hset.symm.trans hset'
  rfl

end Variable

open Variable

/-- The first of some variables with an unreadable value has this fault. -/
def FirstUnread (w : Surroundings) (xs : List Variable) (e : SettingsFault) : Prop :=
  ∃ front x back, xs = front ++ x :: back ∧ x.Unread w e ∧ ∀ y ∈ front, ∀ e', ¬y.Unread w e'

/-- No variable has an unreadable value. -/
def AllRead (w : Surroundings) : Prop :=
  ∀ (x : Variable) (e : SettingsFault), ¬x.Unread w e

/-- The first variable has the fault, or it has none and the others have it. -/
theorem firstUnread_cons {w : Surroundings} {x : Variable} {xs : List Variable}
    {e : SettingsFault} :
    FirstUnread w (x :: xs) e
      ↔ x.Unread w e ∨ (∀ e', ¬x.Unread w e') ∧ FirstUnread w xs e := by
  constructor
  · rintro ⟨front, y, back, hxs, hy, hfront⟩
    cases front with
    | nil =>
        cases hxs
        exact Or.inl hy
    | cons z front =>
        cases hxs
        obtain ⟨hz, hfront⟩ := List.forall_mem_cons.1 hfront
        exact Or.inr ⟨hz, front, y, back, rfl, hy, hfront⟩
  · rintro (h | ⟨hnone, front, y, back, rfl, hy, hfront⟩)
    · exact ⟨[], x, xs, rfl, h, fun y hy => absurd hy List.not_mem_nil⟩
    · exact ⟨x :: front, y, back, rfl, hy, List.forall_mem_cons.2 ⟨hnone, hfront⟩⟩

/-- A look at some variables is over when none of them is unread. -/
theorem foldlM_replace_eq_ok_iff {w : Surroundings} {xs : List Variable} {s t : Settings} :
    xs.foldlM (replace w) s = .ok t
      ↔ (∀ x ∈ xs, ∀ e, ¬x.Unread w e) ∧ t = xs.foldl (applied w) s := by
  induction xs generalizing s with
  | nil =>
      constructor
      · rintro ⟨⟩
        exact ⟨fun x hx => absurd hx List.not_mem_nil, rfl⟩
      · rintro ⟨-, rfl⟩
        rfl
  | cons x xs ih =>
      rw [List.foldlM_cons, List.foldl_cons, List.forall_mem_cons]
      rcases replace_cases w s x with ⟨e, hx, hreplace⟩ | ⟨hx, hreplace⟩
      · rw [hreplace]
        exact iff_of_false (fun h => nomatch h) fun h => h.1.1 e hx
      · rw [hreplace]
        exact ih.trans ⟨fun h => ⟨⟨hx, h.1⟩, h.2⟩, fun h => ⟨h.1.2, h.2⟩⟩

/-- A look at some variables ends with the fault of the first one that is unread. -/
theorem foldlM_replace_eq_error_iff {w : Surroundings} {xs : List Variable} {s : Settings}
    {e : SettingsFault} : xs.foldlM (replace w) s = .error e ↔ FirstUnread w xs e := by
  induction xs generalizing s with
  | nil =>
      refine iff_of_false (fun h => nomatch h) ?_
      rintro ⟨front, x, back, hxs, -⟩
      exact List.append_ne_nil_of_right_ne_nil front (List.cons_ne_nil x back) hxs.symm
  | cons x xs ih =>
      rw [List.foldlM_cons, firstUnread_cons]
      rcases replace_cases w s x with ⟨e', hx, hreplace⟩ | ⟨hx, hreplace⟩
      · rw [hreplace]
        constructor
        · rintro ⟨⟩
          exact Or.inl hx
        · rintro (h | ⟨hnone, -⟩)
          · rw [h.unique hx]
            rfl
          · exact absurd hx (hnone e')
      · rw [hreplace]
        exact ih.trans ⟨fun h => Or.inr ⟨hx, h⟩, fun h => h.elim (absurd · (hx e)) And.right⟩

/-- The value that a variable has for its setting, none when it is not set or cannot be read. -/
def reading {α : Type} (w : Surroundings) (x : Variable) (read? : String → Option α) : Option α :=
  (w.valueOf? x.key).bind read?

/-- Settings with what the variables say, each of its own setting. -/
def overridden (w : Surroundings) (s : Settings) : Settings :=
  { s with
    applicationId :=
      (reading w .applicationId fun v => (Identifier.parse v.toList).toOption).getD s.applicationId
    serverName := (reading w .serverName some).getD s.serverName
    storageApi := (reading w .storageApi some).getD s.storageApi
    checkInterval :=
      (reading w .checkInterval fun v => unsigned? wordBound v.toList).getD s.checkInterval
    healthPort := (reading w .healthPort fun v => unsigned? portBound v.toList).or s.healthPort }

/-- A variable is applied by putting what is read of it. -/
theorem applied_eq {α : Type} (x : Variable) (read? : String → Option α)
    (put : Option α → Settings → Settings)
    (hsome : ∀ v, x.change? v = (read? v).map fun a => put (some a))
    (hnone : ∀ s, put none s = s) (w : Surroundings) (s : Settings) :
    applied w s x = put (reading w x read?) s := by
  rw [applied, reading]
  cases w.valueOf? x.key with
  | none => exact (hnone s).symm
  | some v =>
      rw [Option.bind_some, Option.bind_some, hsome]
      cases read? v with
      | none => exact (hnone s).symm
      | some a => rfl

/-- All variables together are applied each to its own setting. -/
theorem foldl_applied_all (w : Surroundings) (s : Settings) :
    all.foldl (applied w) s = s.overridden w := by
  rw [all, List.foldl_cons, List.foldl_cons, List.foldl_cons, List.foldl_cons, List.foldl_cons,
    List.foldl_nil,
    applied_eq .applicationId _ (fun o s => { s with applicationId := o.getD s.applicationId })
      (fun _ => rfl) fun _ => rfl,
    applied_eq .serverName some (fun o s => { s with serverName := o.getD s.serverName })
      (fun _ => rfl) fun _ => rfl,
    applied_eq .storageApi some (fun o s => { s with storageApi := o.getD s.storageApi })
      (fun _ => rfl) fun _ => rfl,
    applied_eq .checkInterval _ (fun o s => { s with checkInterval := o.getD s.checkInterval })
      (fun _ => rfl) fun _ => rfl,
    applied_eq .healthPort _ (fun o s => { s with healthPort := o.or s.healthPort })
      (fun _ => rfl) fun _ => rfl]
  rfl

/-- A look at a variable, with what is read and what is set told apart. -/
theorem override_eq_replace {α : Type} {w : Surroundings} (x : Variable)
    {read? : String → Option α} {set : Settings → α → Settings}
    (h : ∀ v, x.change? v = (read? v).map fun a s => set s a) (s : Settings) :
    s.override w x.key read? set = replace w s x := by
  rw [replace, override, override]
  cases w.valueOf? x.key with
  | none => rfl
  | some v =>
      dsimp only
      rw [h]
      cases read? v <;> rfl

theorem bind_congr_both {ε α β : Type} {x y : Except ε α} {f g : α → Except ε β} (hx : x = y)
    (hf : ∀ a, f a = g a) : x >>= f = y >>= g :=
  hx ▸ bind_congr hf

/-- The variables are looked at one after the other. -/
theorem overrideAll_eq_foldlM (w : Surroundings) (s : Settings) :
    s.overrideAll w = all.foldlM (replace w) s := by
  rw [all, List.foldlM_cons]
  refine bind_congr_both (override_eq_replace .applicationId (fun _ => rfl) s) fun s => ?_
  rw [List.foldlM_cons]
  refine bind_congr_both (override_eq_replace .serverName (fun _ => rfl) s) fun s => ?_
  rw [List.foldlM_cons]
  refine bind_congr_both (override_eq_replace .storageApi (fun _ => rfl) s) fun s => ?_
  rw [List.foldlM_cons]
  refine bind_congr_both (override_eq_replace .checkInterval (fun _ => rfl) s) fun s => ?_
  rw [List.foldlM_cons]
  exact (override_eq_replace .healthPort (fun _ => rfl) s).trans (bind_pure _).symm

/-- All variables are read, and each replaces its setting. -/
theorem overrideAll_eq_ok_iff {w : Surroundings} {s t : Settings} :
    s.overrideAll w = .ok t
      ↔ AllRead w ∧ t = s.overridden w := by
  rw [overrideAll_eq_foldlM, foldlM_replace_eq_ok_iff, foldl_applied_all]
  exact and_congr_left' ⟨fun h x => h x (mem_all x), fun h x _ => h x⟩

/-- The first variable that is not read ends the load. -/
theorem overrideAll_eq_error_iff {w : Surroundings} {s : Settings} {e : SettingsFault} :
    s.overrideAll w = .error e ↔ FirstUnread w all e := by
  rw [overrideAll_eq_foldlM, foldlM_replace_eq_error_iff]

end HealthWatch.Settings
