import Mathlib.Data.List.Basic
import Mathlib.Data.List.Nodup
import Mathlib.Logic.Equiv.Basic

/-! # Interleavings — lists merged, each in its own order

    Several lists are merged by taking the first member of one of them, again and again
    (`Interleaves`).  Where members of different lists are told apart by a function, the
    members with one value stand in the merged list as they stood in their list, whatever
    the turns were (`Interleaves.filter_eq`).

    Names of one kind can be replaced by other names without confusing two of them
    (`exists_perm_map_eq`). -/

namespace HealthWatch

/-- The second list takes its members from the fronts of the first ones, in any turn. -/
inductive Interleaves {α : Type} : List (List α) → List α → Prop
  | done {lists : List (List α)} : (∀ l ∈ lists, l = []) → Interleaves lists []
  | step (before : List (List α)) {after : List (List α)} {rest merged : List α} {a : α} :
      Interleaves (before ++ rest :: after) merged →
      Interleaves (before ++ (a :: rest) :: after) (a :: merged)

namespace Interleaves

variable {α β : Type} {lists : List (List α)} {merged : List α}

theorem perm (h : Interleaves lists merged) : merged.Perm lists.flatten := by
  induction h with
  | done hnil => rw [List.flatten_eq_nil_iff.2 hnil]
  | @step before after rest merged a _ ih =>
      rw [List.flatten_append, List.flatten_cons, List.cons_append]
      rw [List.flatten_append, List.flatten_cons] at ih
      exact (ih.cons a).trans List.perm_middle.symm

/-- What belongs to one value of a function stands in one of the lists, and keeps its
    order. -/
theorem filter_eq [DecidableEq β] {f : α → β} (h : Interleaves lists merged)
    (hown : (lists.map (List.map f)).Pairwise List.Disjoint) (b : β) :
    merged.filter (fun a => f a = b) = lists.flatten.filter fun a => f a = b := by
  induction h with
  | done hnil => rw [List.flatten_eq_nil_iff.2 hnil]
  | @step before after rest merged a _ ih =>
      rw [List.map_append, List.map_cons, List.pairwise_append, List.pairwise_cons] at hown
      obtain ⟨hbefore, ⟨hrest, hafter⟩, hacross⟩ := hown
      -- the list that is shorter by its first member shares no value with the others either
      have hih := ih (by
        rw [List.map_append, List.map_cons, List.pairwise_append, List.pairwise_cons]
        refine ⟨hbefore, ⟨?_, hafter⟩, ?_⟩
        · exact fun l hl => (List.disjoint_cons_left.1 (hrest l hl)).2
        · intro l hl l' hl'
          rcases List.mem_cons.1 hl' with rfl | hl'
          · exact (List.disjoint_cons_right.1 (hacross l hl _ (List.mem_cons_self ..))).2
          · exact hacross l hl l' (List.mem_cons_of_mem _ hl'))
      rw [List.flatten_append, List.flatten_cons] at hih ⊢
      by_cases hab : f a = b
      · -- none of the lists before has a member with this value
        have hnone : before.flatten.filter (fun c => f c = b) = [] := by
          rw [List.filter_eq_nil_iff]
          intro c hc hcb
          obtain ⟨l, hl, hcl⟩ := List.mem_flatten.1 hc
          have hdisjoint := hacross _ (List.mem_map_of_mem hl) _ (List.mem_cons_self ..)
          refine hdisjoint (List.mem_map_of_mem hcl) ?_
          rw [of_decide_eq_true hcb, ← hab]
          exact List.mem_cons_self ..
        rw [List.filter_append, hnone, List.nil_append] at hih ⊢
        rw [List.filter_cons, if_pos (decide_eq_true hab), hih, List.cons_append,
          List.filter_cons, if_pos (decide_eq_true hab)]
      · have hlost : ¬decide (f a = b) = true := fun h => hab (of_decide_eq_true h)
        rw [List.filter_append] at hih ⊢
        rw [List.filter_cons, if_neg hlost, hih, List.cons_append, List.filter_cons,
          if_neg hlost]

end Interleaves

/-- Names that are told apart become other names that are told apart by a change of all
    names. -/
theorem exists_perm_map_eq {α : Type} [DecidableEq α] {xs ys : List α}
    (hlength : xs.length = ys.length) (hxs : xs.Nodup) (hys : ys.Nodup) :
    ∃ σ : Equiv.Perm α, xs.map σ = ys := by
  induction xs generalizing ys with
  | nil => exact ⟨.refl α, (List.length_eq_zero_iff.1 hlength.symm).symm⟩
  | cons x xs ih =>
      cases ys with
      | nil => exact nomatch hlength
      | cons y ys =>
          obtain ⟨hx, hxs⟩ := List.nodup_cons.1 hxs
          obtain ⟨hy, hys⟩ := List.nodup_cons.1 hys
          obtain ⟨σ, hσ⟩ := ih (Nat.succ.inj hlength) hxs hys
          -- the first name goes where it should, and what stood there takes its place
          refine ⟨σ.trans (Equiv.swap (σ x) y), ?_⟩
          rw [List.map_cons, Equiv.trans_apply, Equiv.swap_apply_left]
          refine congrArg (List.cons y) ((List.map_congr_left ?_).trans hσ)
          intro z hz
          rw [Equiv.trans_apply]
          refine Equiv.swap_apply_of_ne_of_ne ?_ ?_
          · exact fun he => hx (σ.injective he ▸ hz)
          · exact fun he => hy (he ▸ hσ ▸ List.mem_map_of_mem hz)

end HealthWatch
