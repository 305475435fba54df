import HealthWatch.Proofs.Json.Decode
import Mathlib.Data.List.Forall2

/-! # Traversals — what becomes of going through a list

    A list is gone through with a function that may refuse a member.  The results stand in
    the places of the members (`mapM_eq_ok_iff`), or the first member that is refused is what
    the whole ends with (`mapM_eq_error_iff`). -/

namespace HealthWatch

open Json

variable {α β ε : Type} {f : α → Except ε β}

/-- A list is gone through when each of its members is accepted, in its place. -/
theorem mapM_eq_ok_iff {as : List α} {bs : List β} :
    as.mapM f = .ok bs ↔ List.Forall₂ (fun a b => f a = .ok b) as bs := by
  induction as generalizing bs with
  | nil =>
      rw [List.forall₂_nil_left_iff]
      exact ⟨fun h => (Except.ok.inj h).symm, fun h => congrArg Except.ok h.symm⟩
  | cons a as ih =>
      rw [List.mapM_cons, List.forall₂_cons_left_iff]
      constructor
      · intro h
        obtain ⟨b, hb, h⟩ := bind_eq_ok h
        obtain ⟨rest, hrest, h⟩ := bind_eq_ok h
        exact ⟨b, rest, hb, ih.1 hrest, (Except.ok.inj h).symm⟩
      · rintro ⟨b, rest, hb, hrest, rfl⟩
        rw [hb, ih.2 hrest]
        rfl

/-- A list is gone through up to the first member that is refused. -/
theorem mapM_eq_error_iff {as : List α} {e : ε} :
    as.mapM f = .error e ↔ ∃ front a rest, as = front ++ a :: rest ∧
      (∀ a' ∈ front, ∃ b, f a' = .ok b) ∧ f a = .error e := by
  induction as with
  | nil =>
      refine iff_of_false (fun h => nomatch h) ?_
      rintro ⟨front, a, rest, hsplit, -⟩
      cases front <;> cases hsplit
  | cons a as ih =>
      rw [List.mapM_cons, bind_eq_error_iff]
      constructor
      · rintro (h | ⟨b, hb, h⟩)
        · exact ⟨[], a, as, rfl, fun _ h => (nomatch h), h⟩
        · rcases bind_eq_error_iff.1 h with h | ⟨_, _, h⟩
          · obtain ⟨front, a', rest, rfl, hfront, ha'⟩ := ih.1 h
            exact ⟨a :: front, a', rest, rfl, List.forall_mem_cons.2 ⟨⟨b, hb⟩, hfront⟩, ha'⟩
          · cases h
      · rintro ⟨front, a', rest, hsplit, hfront, ha'⟩
        cases front with
        | nil =>
            cases hsplit
            exact Or.inl ha'
        | cons a'' front =>
            cases hsplit
            obtain ⟨⟨b, hb⟩, hfront⟩ := List.forall_mem_cons.1 hfront
            exact Or.inr ⟨b, hb, bind_eq_error_iff.2 (Or.inl
              (ih.2 ⟨front, a', rest, rfl, hfront, ha'⟩))⟩

/-- A member of a list has its counterpart in a list that is related to it. -/
theorem exists_mem_of_forall₂ {R : α → β → Prop} {as : List α} {bs : List β}
    (h : List.Forall₂ R as bs) {a : α} (ha : a ∈ as) : ∃ b ∈ bs, R a b := by
  induction h with
  | nil => cases ha
  | @cons a' b as bs hab _ ih =>
      rcases List.mem_cons.1 ha with rfl | ha
      · exact ⟨b, List.mem_cons_self, hab⟩
      · obtain ⟨b', hb', hab'⟩ := ih ha
        exact ⟨b', List.mem_cons_of_mem b hb', hab'⟩

end HealthWatch
