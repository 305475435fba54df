import HealthWatch.Proofs.Store.Refinement

/-! # Definitions — stored once and read back for ever

    The first registration of a name decides: it stores its definition, and every later
    one of that name gives this definition back (`Registers`).  What is stored reads back
    with the same identifier, texts and tags, no call changes or removes it, and the
    entries of its name belong to it (`Registry`). -/

namespace HealthWatch.Store

/-- What the store holds of definitions after registrations gave `given`. -/
structure Registry (s : Store) (given stored : List Check) : Prop where
  rows : s.tables.checks = stored.map CheckRow.ofCheck
  ids : (stored.map Check.id).Nodup
  names : (stored.map Check.name).Nodup
  /-- What registrations gave is what is stored. -/
  mem_stored : ∀ d, d ∈ stored ↔ d ∈ given
  /-- A name reads back as what its first registration gave. -/
  find? : ∀ name, s.find? name = .ok (given.find? fun d => d.name = name)
  /-- The row of an entry refers to the definition of its own name. -/
  linked : ∀ row ∈ s.tables.entries,
    ∃ d ∈ stored, d.id.toText = row.checkId ∧ d.name = row.name
  /-- An entry is read with the definition of its own name. -/
  entries : ∀ applicationId, ∃ entries, s.entries applicationId = .ok entries
    ∧ ∀ e ∈ entries, ∃ d, e.check = some d ∧ s.find? e.name = .ok (some d)

/-- What a registration does to a store that holds these definitions. -/
inductive Registers (s : Store) (stored : List Check) (c : Check) (fresh : Identifier) :
    Except Fault Check × Store → Prop
  /-- A definition of this name is there, and is given back. -/
  | existing {d : Check} : d ∈ stored → d.name = c.name → Registers s stored c fresh (.ok d, s)
  /-- The name is new, and the identifier too: the definition is stored. -/
  | new : (∀ d ∈ stored, d.name ≠ c.name) →
      (c.id.isNil = true ∨ ∀ d ∈ stored, d.id ≠ c.id) →
      (c.identified fresh).id ≠ .nil →
      Registers s stored c fresh (.ok (c.identified fresh), { s with
        tables := { s.tables with
          checks := s.tables.checks ++ [CheckRow.ofCheck (c.identified fresh)] } })
  /-- The name is new, but another definition has the identifier. -/
  | refused {d : Check} : (∀ d ∈ stored, d.name ≠ c.name) → c.id.isNil = false → d ∈ stored →
      d.id = c.id → Registers s stored c fresh (.error (.table (.duplicate ["health_checks.id"])), s)

/-- A registration succeeds unless its name is new and its identifier is not. -/
theorem Registers.succeeds_iff {s : Store} {stored : List Check} {c : Check} {fresh : Identifier}
    {result : Except Fault Check × Store} (h : Registers s stored c fresh result) :
    (∃ d, result.1 = .ok d) ↔ (∃ d ∈ stored, d.name = c.name) ∨ c.id.isNil = true
      ∨ ∀ d ∈ stored, d.id ≠ c.id := by
  cases h with
  | existing hd hname => exact iff_of_true ⟨_, rfl⟩ (Or.inl ⟨_, hd, hname⟩)
  | new _ hid _ => exact iff_of_true ⟨_, rfl⟩ (Or.inr hid)
  | refused hname hnil hd hid =>
      refine iff_of_false (fun he => nomatch he) ?_
      rintro (⟨e, he, hen⟩ | hnil' | hids)
      · exact hname e he hen
      · rw [hnil] at hnil'
        exact nomatch hnil'
      · exact hids _ hd hid

namespace Records

variable {r : Records}

/-- The registry of the store is that of the records. -/
theorem Tracks.registry {given : List Check} {log : List Taken} (h : r.Tracks given log)
    (hs : r.Sound) : Registry r.store given r.checks where
  rows := rfl
  ids := hs.checkIds
  names := hs.checkNames
  mem_stored := by
    intro d
    constructor
    · intro hd
      have hfind := hs.check?_of_mem hd
      rw [h.checks] at hfind
      exact List.mem_of_find?_eq_some hfind
    · intro hd
      exact (check?_eq_some (h.given d hd)).1
  find? := by
    intro name
    rw [find?_store, h.checks]
  linked := by
    intro row hrow
    obtain ⟨p, hp, rfl⟩ := List.mem_map.1 hrow
    obtain ⟨hd, hname⟩ := hs.linked p hp
    exact ⟨p.definition, hd, rfl, hname⟩
  entries := by
    intro applicationId
    refine ⟨_, entries_store hs applicationId, ?_⟩
    intro e he
    obtain ⟨p, hp, rfl⟩ := List.mem_map.1 he
    refine ⟨p.definition, rfl, ?_⟩
    rw [find?_store, ← hs.check?_of_entry (mem_list.1 hp).1]
    rfl

/-- A fresh identifier is no stored one. -/
theorem fresh_store_register {c : Check} {fresh : Identifier}
    (h : r.store.Fresh (.register c fresh)) :
    fresh ≠ .nil ∧ ∀ d ∈ r.checks, d.id ≠ fresh := by
  obtain ⟨hnil, hrows⟩ := h
  refine ⟨hnil, ?_⟩
  rintro d hd rfl
  exact hrows (.ofCheck d) (List.mem_map_of_mem hd) rfl

/-- A registration comes out as the rule for definitions says. -/
theorem registers_store {c : Check} {fresh : Identifier}
    (h : r.store.Fresh (.register c fresh)) :
    Registers r.store r.checks c fresh (r.store.register c fresh) := by
  obtain ⟨hnil, hids⟩ := fresh_store_register h
  rw [register_store, registered]
  cases hname : r.check? c.name with
  | some d =>
      obtain ⟨hd, hdn⟩ := check?_eq_some hname
      exact .existing hd hdn
  | none =>
      have hnames := check?_eq_none hname
      by_cases hid : (c.identified fresh).id ∈ r.checks.map Check.id
      · simp only [if_pos hid]
        -- a fresh identifier is free, so the one that is taken is the definition's own
        obtain ⟨d, hd, hdid⟩ := List.mem_map.1 hid
        rw [Check.identified] at hdid
        by_cases hcnil : c.id.isNil = true
        · rw [if_pos hcnil] at hdid
          exact absurd hdid (hids d hd)
        · rw [if_neg hcnil] at hdid
          exact .refused hnames (Bool.eq_false_iff.2 hcnil) hd hdid
      · have hstore : (r.addCheck (c.identified fresh)).store = { r.store with
            tables := { r.store.tables with
              checks := r.store.tables.checks ++ [CheckRow.ofCheck (c.identified fresh)] } } := by
          simp [addCheck, store, tables]
        simp only [if_neg hid, hstore]
        refine .new hnames ?_ ?_
        · by_cases hcnil : c.id.isNil = true
          · exact Or.inl hcnil
          · refine Or.inr fun d hd hdid => hid ?_
            rw [Check.identified, if_neg hcnil, ← hdid]
            exact List.mem_map_of_mem hd
        · rw [Check.identified]
          split
          · exact hnil
          next hcnil =>
            intro he
            exact hcnil (by rw [he]; rfl)

end Records

/-- After every fresh run the names and the identifiers of the stored definitions are
    distinct, and each is what the first registration of its name gave.  A next
    registration gives the definition of its name or stores a new one, unless its own
    identifier is taken.  Whatever calls follow, the definitions stay as they are. -/
theorem definitions_of_run {calls : List Call} (hfresh : empty.FreshRun calls) :
    ∃ stored, Registry (empty.run calls) (empty.given calls) stored
      ∧ (∀ c fresh, (empty.run calls).Fresh (.register c fresh) →
          Registers (empty.run calls) stored c fresh ((empty.run calls).register c fresh)
          ∧ ((∃ d, ((empty.run calls).register c fresh).1 = .ok d)
            ↔ (∃ d ∈ stored, d.name = c.name) ∨ c.id.isNil = true
              ∨ ∀ d ∈ stored, d.id ≠ c.id))
      ∧ (∀ more, (empty.run calls).FreshRun more →
          (empty.run calls).tables.checks <+: ((empty.run calls).run more).tables.checks
          ∧ ∀ name d, (empty.run calls).find? name = .ok (some d) →
            ((empty.run calls).run more).find? name = .ok (some d)) := by
  obtain ⟨r, hrun, hs, htracks⟩ := exists_records hfresh
  rw [hrun]
  refine ⟨r.checks, htracks.registry hs, ?_, ?_⟩
  · intro c fresh hnext
    have hregisters := Records.registers_store hnext
    exact ⟨hregisters, hregisters.succeeds_iff⟩
  · intro more hmore
    obtain ⟨r', hrun', hs', hkept, -⟩ := Records.exists_run hs htracks hmore
    rw [hrun']
    refine ⟨hkept.map _, ?_⟩
    intro name d hd
    -- names stay unique, so what was stored is still what its name finds
    rw [Records.find?_store] at hd
    obtain ⟨hdm, hdn⟩ := Records.check?_eq_some (Except.ok.inj hd)
    rw [Records.find?_store, ← hdn, hs'.check?_of_mem (hkept.subset hdm)]

/-- After two reports the definition of their check is still the one that was
    registered, with a fresh identifier and its two tags in their order. -/
theorem definition_after_reports :
    (empty.run Sample.calls).find? "disk" = .ok (some
      { id := .ofNat 1, name := "disk", description := "free space",
        tags := ["storage", "infra"] }) := by
  obtain ⟨stored, hregistry, -⟩ := definitions_of_run Sample.freshRun_calls
  rw [hregistry.find?, Sample.given_calls]
  rfl

end HealthWatch.Store
