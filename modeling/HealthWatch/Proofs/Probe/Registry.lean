import HealthWatch.Probe.Registry
import HealthWatch.Proofs.Json.Decode
import HealthWatch.Proofs.Text.Spelling
import Mathlib.Data.List.Induction

/-! # Registries — which factory a tag stands for

    A registry starts empty or with the built-in factories, and others are added one by
    one.  What it holds in the end is a list of registrations (`registered_eq`), and a tag
    stands for the last one whose tag has the same normal form (`factory?_eq_some_iff`).

    A factory refuses a check for its options and says so with the name of the check
    (`Fair`).  All built-in ones do (`fair_builtins`), so with fair additions a refusal
    tells for certain whether the tag is known (`refusal_cases`). -/

namespace HealthWatch.Registry

open Text

variable {α β : Type}

/-! ## Registrations -/

/-- A factory and the tag under which it is put in. -/
abbrev Registration (α : Type) := String × ProbeFactory α

/-- What a registry holds before anything is added. -/
inductive Start (α : Type) where
  | empty
  /-- The built-in probes, used as those of another type. -/
  | builtin (use : Probe → α)

/-- The registry that is added to. -/
def Start.registry : Start α → Registry α
  | empty => Registry.empty
  | builtin use => Registry.builtin.map use

/-- The registrations that are there from the start. -/
def Start.registered : Start α → List (Registration α)
  | empty => []
  | builtin use => builtins.map fun (tag, factory) => (tag, fun c => use <$> factory c)

/-- A registry to which factories are added in their order. -/
def adds (r : Registry α) (added : List (Registration α)) : Registry α :=
  added.foldl (fun r x => r.register x.1 x.2) r

/-- Registrations are added one after the other. -/
theorem adds_append (r : Registry α) (front rest : List (Registration α)) :
    r.adds (front ++ rest) = (r.adds front).adds rest :=
  List.foldl_append

/-- Using the probes in another way does not change under which tags they stand. -/
theorem map_adds (use : α → β) (r : Registry α) (added : List (Registration α)) :
    (r.adds added).map use
      = (r.map use).adds (added.map fun (tag, factory) => (tag, fun c => use <$> factory c)) := by
  induction added generalizing r with
  | nil => rfl
  | cons x added ih => exact ih (r.register x.1 x.2)

/-- The built-in factories are registrations like any others. -/
theorem registry_eq (start : Start α) : start.registry = Registry.empty.adds start.registered := by
  cases start with
  | empty => rfl
  | builtin use => exact map_adds use Registry.empty builtins

/-- All that has been registered. -/
def Start.followedBy (start : Start α) (added : List (Registration α)) : List (Registration α) :=
  start.registered ++ added

/-- A registry is the list of its registrations, those of its start first. -/
theorem registered_eq (start : Start α) (added : List (Registration α)) :
    start.registry.adds added = Registry.empty.adds (start.followedBy added) := by
  rw [registry_eq, Start.followedBy, adds_append]

/-! ## Look-ups -/

/-- A registration counts for its own tag and leaves the others. -/
theorem factory?_register (r : Registry α) (own : String) (factory : ProbeFactory α)
    (tag : String) : (r.register own factory).factory? tag
      = if normalTag own = normalTag tag then some factory else r.factory? tag := by
  rw [factory?, register, List.lookup_cons]
  by_cases h : normalTag own = normalTag tag
  · rw [if_pos h, h, beq_self_eq_true]
  · rw [if_neg h, beq_false_of_ne fun he => h he.symm]
    rfl

/-- A registration under a tag with another normal form changes nothing. -/
theorem factory?_register_of_ne {own tag : String} (h : normalTag own ≠ normalTag tag)
    (r : Registry α) (factory : ProbeFactory α) :
    (r.register own factory).factory? tag = r.factory? tag := by
  rw [factory?_register, if_neg h]

/-- The factory of a tag is that of the last registration under it. -/
theorem factory?_adds (registered : List (Registration α)) (tag : String) :
    (Registry.empty.adds registered).factory? tag
      = (registered.reverse.find? fun x => normalTag x.1 = normalTag tag).map Prod.snd := by
  induction registered using List.reverseRecOn with
  | nil => rfl
  | append_singleton registered x ih =>
      rw [adds_append, adds, List.foldl_cons, List.foldl_nil, factory?_register, ih,
        List.reverse_append, List.reverse_singleton, List.singleton_append, List.find?_cons]
      by_cases h : normalTag x.1 = normalTag tag
      · simp [h]
      · simp [h]

/-- The last registration with the normal form of a tag. -/
def IsLast (registered : List (Registration α)) (tag : String) (factory : ProbeFactory α) : Prop :=
  ∃ front own rest, registered = front ++ (own, factory) :: rest ∧
    normalTag own = normalTag tag ∧ ∀ x ∈ rest, normalTag x.1 ≠ normalTag tag

/-- A tag stands for the factory that was registered last under it. -/
theorem factory?_eq_some_iff {registered : List (Registration α)} {tag : String}
    {factory : ProbeFactory α} : (Registry.empty.adds registered).factory? tag = some factory
      ↔ IsLast registered tag factory := by
  rw [factory?_adds, Option.map_eq_some_iff]
  constructor
  · rintro ⟨⟨own, _⟩, hfind, rfl⟩
    obtain ⟨hown, later, earlier, hsplit, hlater⟩ := List.find?_eq_some_iff_append.1 hfind
    refine ⟨earlier.reverse, own, later.reverse, ?_, of_decide_eq_true hown, fun x hx => ?_⟩
    · rw [← List.reverse_reverse registered, hsplit]
      simp
    · simpa using hlater x (List.mem_reverse.1 hx)
  · rintro ⟨front, own, rest, rfl, hown, hrest⟩
    refine ⟨(own, factory), List.find?_eq_some_iff_append.2
      ⟨decide_eq_true hown, rest.reverse, front.reverse, by simp, fun x hx => ?_⟩, rfl⟩
    simpa using hrest x (List.mem_reverse.1 hx)

/-- A tag is there when something was registered under it. -/
theorem contains_adds {registered : List (Registration α)} {tag : String} :
    (Registry.empty.adds registered).contains tag = true
      ↔ ∃ x ∈ registered, normalTag x.1 = normalTag tag := by
  rw [contains, factory?_adds, Option.isSome_map, List.find?_isSome]
  simp

example : (Registry.builtin.contains " Disk storage\t", Registry.builtin.contains "Ping")
    = (true, false) := by decide +kernel

/-- The spelling of a tag makes no difference. -/
theorem normalTag_eq_of_respells {tag other : String} (h : Respells tag.toList other.toList) :
    normalTag tag = normalTag other :=
  h.uppercase_trim

/-! ## Refusals -/

/-- A probe is made by the factory of the kind. -/
theorem build_eq_ok_iff {r : Registry α} {c : CheckSettings} {probe : α} :
    r.build c = .ok probe ↔ ∃ factory, r.factory? c.kind = some factory ∧ factory c = .ok probe := by
  rw [build]
  cases r.factory? c.kind with
  | none => exact iff_of_false (by rintro ⟨⟩) (by rintro ⟨_, ⟨⟩, _⟩)
  | some factory => simp

/-- No probe is made of an unknown kind, or when its factory makes none. -/
theorem build_eq_error_iff {r : Registry α} {c : CheckSettings} {e : SettingsFault} :
    r.build c = .error e ↔ (r.contains c.kind = false ∧ e = .unknownKind c.name c.kind) ∨
      ∃ factory, r.factory? c.kind = some factory ∧ factory c = .error e := by
  rw [build, contains]
  cases r.factory? c.kind with
  | none => simp [eq_comm]
  | some factory => simp

/-- A factory is fair when all that it refuses is the options of the check it is given. -/
def Fair (factory : ProbeFactory α) : Prop :=
  ∀ c e, factory c = .error e → ∃ reason, e = .invalidCheck c.name reason

theorem fair_ok (probe : α) : Fair fun _ => .ok probe :=
  fun _ _ h => nomatch h

/-- Reading options refuses nothing but options. -/
theorem fair_readOptions (decode : Json.Document → Except Json.Fault α) :
    Fair fun c => c.readOptions decode := by
  intro c e h
  dsimp only [CheckSettings.readOptions] at h
  split at h
  · cases h
  · cases h
    exact ⟨_, rfl⟩

/-- Demanding an option refuses nothing but that option. -/
theorem fair_demand (option value : String) : Fair (demand option value) := by
  intro c e h
  rw [demand] at h
  split at h
  · cases h
    exact ⟨_, rfl⟩
  · cases h

/-- Fair steps are fair together. -/
theorem Fair.bind {factory : ProbeFactory α} (h : Fair factory) {next : α → ProbeFactory β}
    (hnext : ∀ a, Fair (next a)) : Fair fun c => factory c >>= fun a => next a c := by
  intro c e he
  dsimp only at he
  cases hc : factory c with
  | ok a =>
      rw [hc] at he
      exact hnext a c e he
  | error e' =>
      rw [hc] at he
      exact Except.error.inj he ▸ h c e' hc

/-- A fair factory stays fair when its probes are used in another way. -/
theorem Fair.map {factory : ProbeFactory α} (h : Fair factory) (use : α → β) :
    Fair fun c => use <$> factory c := by
  intro c e he
  refine h.bind (fun a => fair_ok (use a)) c e ?_
  rw [← he]
  cases factory c <;> rfl

/-- The built-in factories are fair. -/
theorem fair_builtins : ∀ x ∈ builtins, Fair x.2 := by
  intro x hx
  simp only [builtins, List.mem_cons, List.not_mem_nil, or_false] at hx
  rcases hx with rfl | rfl | rfl | rfl | rfl | rfl | rfl | rfl
  · exact fair_ok _
  · exact (fair_readOptions _).map _
  · exact (fair_readOptions _).map _
  · exact (fair_readOptions _).bind fun server =>
      (fair_demand "Hostname" server.hostname).bind fun _ => fair_ok _
  · exact (fair_readOptions _).map _
  · exact (fair_readOptions _).map _
  · exact (fair_readOptions _).map _
  · exact (fair_readOptions _).bind fun url => (fair_demand "Url" url).bind fun _ => fair_ok _

/-- So is everything a registry starts with. -/
theorem Start.fair_registered (start : Start α) : ∀ x ∈ start.registered, Fair x.2 := by
  cases start with
  | empty => exact fun x hx => nomatch hx
  | builtin use =>
      intro x hx
      obtain ⟨y, hy, rfl⟩ := List.mem_map.1 hx
      exact (fair_builtins y hy).map use

/-- Among fair factories a refusal tells whether the tag is known, and names the check. -/
theorem refusal_cases {start : Start α} {added : List (Registration α)}
    (h : ∀ x ∈ added, Fair x.2) {c : CheckSettings} {e : SettingsFault}
    (he : (start.registry.adds added).build c = .error e) :
    ((start.registry.adds added).contains c.kind = false ∧ e = .unknownKind c.name c.kind) ∨
      ((start.registry.adds added).contains c.kind = true ∧
        ∃ reason, e = .invalidCheck c.name reason) := by
  rcases build_eq_error_iff.1 he with hunknown | ⟨factory, hfactory, hrefused⟩
  · exact Or.inl hunknown
  · have hfair : Fair factory := by
      rw [registered_eq] at hfactory
      obtain ⟨front, own, rest, hsplit, -, -⟩ := factory?_eq_some_iff.1 hfactory
      have hmem : (own, factory) ∈ start.followedBy added := by
        rw [hsplit]
        exact List.mem_append_right front List.mem_cons_self
      rcases List.mem_append.1 hmem with hstart | hadded
      · exact start.fair_registered _ hstart
      · exact h _ hadded
    refine Or.inr ⟨?_, hfair c e hrefused⟩
    rw [contains, hfactory]
    rfl

end HealthWatch.Registry
