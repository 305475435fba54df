import HealthWatch.Probe.Disk
import Mathlib.Data.List.DropRight
import Mathlib.Data.List.Forall2

/-! # Disk storage — every minimum that is not kept is told

    A minimum is kept by the first drive with its path.  Paths are the same when slashes at
    their ends make them equal, and free space counts to the octet: comparing whole megabytes
    loses nothing, because a minimum is a whole number of them.

    * `SamePath` and `sameDrive_iff` tell which paths are the same;
    * `Kept` and `Broken` say what a minimum asks of an inventory and how it is told of;
    * `broken_minimums_told` puts all minimums together. -/

namespace HealthWatch.Disk

open Text

/-! ## Paths -/

/-- Two paths are the same when slashes at their ends make them equal.  Slashes alone are the
    root, which is not the empty path. -/
structure SamePath (a b : String) : Prop where
  slashes : ∃ m n, a.toList ++ List.replicate m '/' = b.toList ++ List.replicate n '/'
  empty_iff : a = "" ↔ b = ""

/-- A path without the slashes it ends with. -/
def bare (path : List Char) : List Char :=
  path.rdropWhile (· == '/')

/-- Slashes at the end of a path make no difference. -/
theorem bare_append_slashes (path : List Char) (n : Nat) :
    bare (path ++ List.replicate n '/') = bare path := by
  induction n with
  | zero => rw [List.replicate_zero, List.append_nil]
  | succ n ih =>
      rw [List.replicate_succ', ← List.append_assoc, bare, List.rdropWhile_concat_pos _ _ _ rfl]
      exact ih

/-- A path is its bare form with slashes behind it. -/
theorem exists_slashes (path : List Char) : ∃ n, path = bare path ++ List.replicate n '/' := by
  induction path using List.reverseRecOn with
  | nil => exact ⟨0, rfl⟩
  | append_singleton front c ih =>
      by_cases hc : c = '/'
      · subst hc
        obtain ⟨n, hn⟩ := ih
        refine ⟨n + 1, ?_⟩
        have hbare : bare (front ++ ['/']) = bare front := bare_append_slashes front 1
        rw [hbare, List.replicate_succ', ← List.append_assoc, ← hn]
      · refine ⟨0, ?_⟩
        have hbare : bare (front ++ [c]) = front ++ [c] :=
          List.rdropWhile_concat_neg _ _ _ (by simpa using hc)
        rw [hbare, List.replicate_zero, List.append_nil]

/-- Paths are equal up to slashes at their ends. -/
theorem bare_eq_bare_iff {a b : List Char} :
    bare a = bare b ↔ ∃ m n, a ++ List.replicate m '/' = b ++ List.replicate n '/' := by
  constructor
  · intro h
    obtain ⟨m, hm⟩ := exists_slashes a
    obtain ⟨n, hn⟩ := exists_slashes b
    refine ⟨n, m, ?_⟩
    -- both sides are the bare path with all the slashes
    rw [hm, hn, h, List.append_assoc, List.append_assoc, List.replicate_append_replicate,
      List.replicate_append_replicate, Nat.add_comm]
  · rintro ⟨m, n, h⟩
    rw [← bare_append_slashes a m, h, bare_append_slashes]

/-- No bare path is the root. -/
theorem bare_ne_root (path : List Char) : bare path ≠ ['/'] := by
  intro h
  have hdrop : path.rdropWhile (· == '/') = ['/'] := h
  have hlast := List.rdropWhile_last_not (· == '/') path (by rw [hdrop]; exact List.cons_ne_nil _ _)
  simp only [hdrop] at hlast
  exact hlast rfl

/-- A path that is more than slashes loses those at its end. -/
theorem normalPath_of_bare_ne_nil {path : List Char} (h : bare path ≠ []) :
    normalPath path = bare path := by
  show (if (bare path).isEmpty && path.head? = some '/' then ['/'] else bare path) = bare path
  rw [List.isEmpty_eq_false_iff.2 h, Bool.false_and, if_neg Bool.false_ne_true]

/-- Slashes alone are the root, and the empty path is itself. -/
theorem normalPath_of_bare_eq_nil {path : List Char} (h : bare path = []) :
    normalPath path = if path = [] then [] else ['/'] := by
  obtain ⟨n, hn⟩ := exists_slashes path
  rw [h, List.nil_append] at hn
  show (if (bare path).isEmpty && path.head? = some '/' then ['/'] else bare path) = _
  rw [h, hn]
  cases n with
  | zero => rfl
  | succ n => rfl

theorem normalPath_eq_iff {a b : List Char} :
    normalPath a = normalPath b ↔ bare a = bare b ∧ (a = [] ↔ b = []) := by
  have hne : ∀ {p : List Char}, bare p ≠ [] → p ≠ [] := by
    rintro p h rfl
    exact h rfl
  by_cases ha : bare a = []
  · by_cases hb : bare b = []
    · rw [normalPath_of_bare_eq_nil ha, normalPath_of_bare_eq_nil hb, ha, hb]
      by_cases ha' : a = [] <;> by_cases hb' : b = [] <;> simp [ha', hb']
    · -- only one of them is more than slashes
      rw [normalPath_of_bare_eq_nil ha, normalPath_of_bare_ne_nil hb, ha]
      refine iff_of_false ?_ fun h => hb h.1.symm
      split
      · exact Ne.symm hb
      · exact Ne.symm (bare_ne_root b)
  · by_cases hb : bare b = []
    · rw [normalPath_of_bare_ne_nil ha, normalPath_of_bare_eq_nil hb, hb]
      refine iff_of_false ?_ fun h => ha h.1
      split
      · exact ha
      · exact bare_ne_root a
    · rw [normalPath_of_bare_ne_nil ha, normalPath_of_bare_ne_nil hb]
      simp [hne ha, hne hb]

/-- Drives are compared by their paths, up to slashes at the ends. -/
theorem sameDrive_iff {a b : String} : sameDrive a b = true ↔ SamePath a b := by
  rw [sameDrive, decide_eq_true_iff, normalPath_eq_iff, bare_eq_bare_iff]
  constructor
  · rintro ⟨hslashes, hempty⟩
    exact ⟨hslashes, by simpa using hempty⟩
  · rintro ⟨hslashes, hempty⟩
    exact ⟨hslashes, by simpa using hempty⟩

/-! ## Minimums -/

/-- The first drive of an inventory with a path. -/
structure FirstAt (path : String) (drives : List Drive) (d : Drive) : Prop where
  same : SamePath d.name path
  first : ∃ front rest, drives = front ++ d :: rest ∧ ∀ e ∈ front, ¬ SamePath e.name path

/-- Number of octets in a megabyte. -/
def megabyte : Nat := 1048576

/-- The first drive with the path of a minimum has that many megabytes free. -/
def Kept (drives : List Drive) (t : Threshold) : Prop :=
  ∃ d, FirstAt t.drive drives d ∧ t.minimum * megabyte ≤ d.available

/-- How a minimum that is not kept is told of. -/
inductive Broken (drives : List Drive) (t : Threshold) : String → Prop
  | missing (h : ∀ d ∈ drives, ¬ SamePath d.name t.drive) :
      Broken drives t ("disk " ++ t.drive ++ " not found")
  | short {d : Drive} (h : FirstAt t.drive drives d) (hlt : d.available < t.minimum * megabyte) :
      Broken drives t ("free disk space for " ++ t.drive ++ " was "
        ++ natText (d.available / megabyte)
        ++ " mbytes, minimum free disk space was configured with " ++ natText t.minimum
        ++ " mbytes")

section Search

variable {path : String} {drives : List Drive} {d : Drive}

/-- The search finds the first drive with a path. -/
theorem find?_eq_some_iff :
    drives.find? (fun e => sameDrive e.name path) = some d ↔ FirstAt path drives d := by
  rw [List.find?_eq_some_iff_append]
  constructor
  · rintro ⟨hd, front, rest, rfl, hfront⟩
    refine ⟨sameDrive_iff.1 hd, front, rest, rfl, fun e he hsame => ?_⟩
    simpa [sameDrive_iff.2 hsame] using hfront e he
  · rintro ⟨hd, front, rest, rfl, hfront⟩
    refine ⟨sameDrive_iff.2 hd, front, rest, rfl, fun e he => ?_⟩
    simpa using mt sameDrive_iff.1 (hfront e he)

theorem find?_eq_none_iff :
    drives.find? (fun e => sameDrive e.name path) = none
      ↔ ∀ e ∈ drives, ¬ SamePath e.name path := by
  simp only [List.find?_eq_none, sameDrive_iff]

end Search

/-- Whole megabytes fall short of a minimum exactly when the octets do. -/
theorem megabytes_lt_iff (available minimum : Nat) :
    available / 1024 / 1024 < minimum ↔ available < minimum * megabyte := by
  rw [Nat.div_div_eq_div_mul]
  exact Nat.div_lt_iff_lt_mul (by decide)

/-- A minimum is kept and nothing is told, or it is not and that is told. -/
theorem violation?_cases (drives : List Drive) (t : Threshold) :
    Kept drives t ∧ violation? drives t = none
      ∨ ¬ Kept drives t ∧ ∃ m, Broken drives t m ∧ violation? drives t = some m := by
  rw [violation?]
  cases hfind : drives.find? fun d => sameDrive d.name t.drive with
  | none =>
      have hmissing := find?_eq_none_iff.1 hfind
      refine Or.inr ⟨?_, _, .missing hmissing, rfl⟩
      rintro ⟨d, hd, -⟩
      cases hfind.symm.trans (find?_eq_some_iff.2 hd)
  | some d =>
      have hfirst := find?_eq_some_iff.1 hfind
      by_cases hlt : d.available < t.minimum * megabyte
      · refine Or.inr ⟨?_, _, .short hfirst hlt, ?_⟩
        · rintro ⟨e, he, hle⟩
          cases hfind.symm.trans (find?_eq_some_iff.2 he)
          exact absurd hlt (Nat.not_lt.2 hle)
        · show (if d.available / 1024 / 1024 < t.minimum then _ else _) = _
          rw [if_pos ((megabytes_lt_iff _ _).2 hlt), Nat.div_div_eq_div_mul]
          rfl
      · refine Or.inl ⟨⟨d, hfirst, Nat.not_lt.1 hlt⟩, ?_⟩
        show (if d.available / 1024 / 1024 < t.minimum then _ else _) = _
        exact if_neg (mt (megabytes_lt_iff _ _).1 hlt)

/-- Nothing is told of a minimum that is kept. -/
theorem violation?_eq_none_iff {drives : List Drive} {t : Threshold} :
    violation? drives t = none ↔ Kept drives t := by
  rcases violation?_cases drives t with ⟨hkept, hnone⟩ | ⟨hkept, m, -, hsome⟩
  · exact iff_of_true hnone hkept
  · exact iff_of_false (by rw [hsome]; rintro ⟨⟩) hkept

instance (drives : List Drive) : DecidablePred (Kept drives) := fun _ =>
  decidable_of_iff _ violation?_eq_none_iff

/-- One message for each minimum that is not kept, in their order. -/
theorem forall₂_violations (drives : List Drive) (thresholds : List Threshold) :
    List.Forall₂ (Broken drives) (thresholds.filter fun t => ¬ Kept drives t)
      (thresholds.filterMap (violation? drives)) := by
  induction thresholds with
  | nil => exact .nil
  | cons t rest ih =>
      rcases violation?_cases drives t with ⟨hkept, hnone⟩ | ⟨hkept, m, hbroken, hsome⟩
      · rw [List.filter_cons_of_neg (by simpa using hkept), List.filterMap_cons_none hnone]
        exact ih
      · rw [List.filter_cons_of_pos (by simpa using hkept), List.filterMap_cons_some hsome]
        exact .cons hbroken ih

/-! ## All minimums -/

/-- All is well, and nothing is said, exactly when every minimum is kept.  Otherwise the result
    has the status for trouble, and its words are the messages of the minimums that are not kept,
    one for each and in their order. -/
theorem broken_minimums_told (thresholds : List Threshold) (ctx : ProbeContext)
    (drives : List Drive) :
    ((check thresholds ctx (.drives drives)).status = .healthy
        ∧ (check thresholds ctx (.drives drives)).description = none
      ↔ ∀ t ∈ thresholds, Kept drives t)
    ∧ ((∀ t ∈ thresholds, Kept drives t) ∧ check thresholds ctx (.drives drives) = .healthy
      ∨ (∃ t ∈ thresholds, ¬ Kept drives t) ∧ ∃ messages,
          List.Forall₂ (Broken drives) (thresholds.filter fun t => ¬ Kept drives t) messages
            ∧ check thresholds ctx (.drives drives)
              = .described ctx.failureStatus ("; ".intercalate messages)) := by
  have hnil : thresholds.filterMap (violation? drives) = [] ↔ ∀ t ∈ thresholds, Kept drives t := by
    simp only [List.filterMap_eq_nil_iff, violation?_eq_none_iff]
  have hmessages := forall₂_violations drives thresholds
  rw [check]
  cases hv : thresholds.filterMap (violation? drives) with
  | nil =>
      have hkept := hnil.1 hv
      exact ⟨iff_of_true ⟨rfl, rfl⟩ hkept, Or.inl ⟨hkept, rfl⟩⟩
  | cons m rest =>
      rw [hv] at hmessages
      have hbroken : ¬ ∀ t ∈ thresholds, Kept drives t := by
        intro hkept
        cases (hnil.2 hkept).symm.trans hv
      refine ⟨iff_of_false (fun h => nomatch h.2) hbroken, Or.inr ⟨?_, _, hmessages, rfl⟩⟩
      simpa using hbroken

end HealthWatch.Disk
