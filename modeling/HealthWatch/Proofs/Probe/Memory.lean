import HealthWatch.Probe.Memory
import HealthWatch.Proofs.Text.Decimal

/-! # Allocated memory — which samples are exact

    The kilobytes of resident memory stand in the second column of the first line with
    their name.  Every number of sixty-four bits is taken there, but its octets are
    counted in sixty-four bits too.  So the numbers of the upper ten bits are read and
    then end in a crash, which takes the check with it.

    * `kilobytes?_eq_none_iff` and `kilobytes?_of_tells` say what is read of a status
      text, `parseResident_of_lt` and `parseResident_of_le` what becomes of it;
    * `check_of_octets` says what a maximum is compared with;
    * `resident_exact_iff` puts them together: the numbers that come out are those below
      2 ^ 54, and they come out exact. -/

namespace HealthWatch.Memory

open Text

/-! ## Status texts -/

/-- What the line of the resident memory starts with. -/
def label : List Char := "VmRSS:".toList

/-- The first line of a status text that starts with the label. -/
structure FirstNamed (status : String) (line : List Char) : Prop where
  named : label <+: line
  first : ∃ front rest, lines status.toList = front ++ line :: rest ∧ ∀ l ∈ front, ¬ label <+: l

/-- A line tells a number of kilobytes: its second column is a numeral for it, and it has no
    more than sixty-four bits. -/
structure Tells (line : List Char) (k : Nat) : Prop where
  column : ∃ n : Numeral, (words line)[1]? = some n.text ∧ n.value = k
  fits : k < 2 ^ 64

section Status

variable {status : String} {line : List Char} {k : Nat}

/-- The search finds the first line with the label. -/
theorem firstNamed_iff :
    (lines status.toList).find? (fun l => (dropStart? label l).isSome) = some line
      ↔ FirstNamed status line := by
  rw [List.find?_eq_some_iff_append]
  constructor
  · rintro ⟨hline, front, rest, hsplit, hfront⟩
    refine ⟨isSome_dropStart?_iff.1 hline, front, rest, hsplit, fun l hl hnamed => ?_⟩
    simpa [isSome_dropStart?_iff.2 hnamed] using hfront l hl
  · rintro ⟨hline, front, rest, hsplit, hfront⟩
    refine ⟨isSome_dropStart?_iff.2 hline, front, rest, hsplit, fun l hl => ?_⟩
    simpa using mt isSome_dropStart?_iff.1 (hfront l hl)

/-- Reading the second column of a line gives the number that the line tells. -/
theorem tells_iff :
    (words line)[1]?.bind (unsigned? wordBound) = some k ↔ Tells line k := by
  rw [Option.bind_eq_some_iff]
  constructor
  · rintro ⟨column, hcolumn, hread⟩
    obtain ⟨n, rfl, hvalue, hfits⟩ := unsigned?_eq_some_iff.1 hread
    exact ⟨⟨n, hcolumn, hvalue⟩, hfits⟩
  · rintro ⟨⟨n, hcolumn, hvalue⟩, hfits⟩
    exact ⟨n.text, hcolumn, unsigned?_eq_some_iff.2 ⟨n, rfl, hvalue, hfits⟩⟩

/-- A number is read of the line that the search finds. -/
theorem kilobytes?_eq (status : String) :
    kilobytes? status
      = ((lines status.toList).find? fun l => (dropStart? label l).isSome).bind fun line =>
          (words line)[1]?.bind (unsigned? wordBound) :=
  rfl

/-- The number is that of the first line with the label. -/
theorem kilobytes?_of_firstNamed (hfirst : FirstNamed status line) :
    kilobytes? status = (words line)[1]?.bind (unsigned? wordBound) := by
  rw [kilobytes?_eq, firstNamed_iff.2 hfirst, Option.bind_some]

/-- Nothing is read without a line, and nothing of a line that tells no number. -/
theorem kilobytes?_eq_none_iff :
    kilobytes? status = none
      ↔ (∀ l ∈ lines status.toList, ¬ label <+: l)
        ∨ ∃ line, FirstNamed status line ∧ ∀ k, ¬ Tells line k := by
  cases hfind : (lines status.toList).find? fun l => (dropStart? label l).isSome with
  | none =>
      have hnone : kilobytes? status = none := by
        rw [kilobytes?_eq, hfind, Option.bind_none]
      refine iff_of_true hnone (Or.inl fun l hl hnamed => ?_)
      exact List.find?_eq_none.1 hfind l hl (isSome_dropStart?_iff.2 hnamed)
  | some line =>
      have hfirst : FirstNamed status line := firstNamed_iff.1 hfind
      rw [kilobytes?_of_firstNamed hfirst, Option.eq_none_iff_forall_ne_some]
      constructor
      · intro h
        exact Or.inr ⟨line, hfirst, fun k hk => h k (tells_iff.2 hk)⟩
      · rintro (hnone | ⟨other, hother, h⟩) k hk
        · obtain ⟨front, rest, hsplit, -⟩ := hfirst.first
          exact hnone line (by simp [hsplit]) hfirst.named
        · cases hfind.symm.trans (firstNamed_iff.2 hother)
          exact h k (tells_iff.1 hk)

/-- A number that is told is read as it is. -/
theorem kilobytes?_of_tells (hfirst : FirstNamed status line) (htells : Tells line k) :
    kilobytes? status = some k :=
  (kilobytes?_of_firstNamed hfirst).trans (tells_iff.2 htells)

/-! ## Octets -/

/-- The octets of a number that fits with them are counted. -/
theorem parseResident_of_lt (hread : kilobytes? status = some k) (h : k < 2 ^ 54) :
    parseResident status = .ok (some (1024 * k)) := by
  have hfits : k * 1024 < wordBound := by
    rw [wordBound]
    omega
  rw [parseResident, hread]
  show some <$> word wordBound (k * 1024) = _
  rw [word_of_lt hfits, Nat.mul_comm]
  rfl

/-- Counting the octets of a greater number is a crash. -/
theorem parseResident_of_le (hread : kilobytes? status = some k) (h : 2 ^ 54 ≤ k) :
    parseResident status = .error ⟨2 ^ 64, 1024 * k⟩ := by
  have hfits : wordBound ≤ k * 1024 := by
    rw [wordBound]
    omega
  rw [parseResident, hread]
  show some <$> word wordBound (k * 1024) = _
  rw [word_of_le hfits, Nat.mul_comm]
  rfl

/-- Nothing comes out of a status text exactly when no number is read of it. -/
theorem parseResident_eq_none_iff :
    parseResident status = .ok none ↔ kilobytes? status = none := by
  cases hread : kilobytes? status with
  | none =>
      rw [parseResident, hread]
      exact iff_of_true rfl rfl
  | some k =>
      refine iff_of_false (fun h => ?_) (Option.some_ne_none k)
      rcases Nat.lt_or_ge k (2 ^ 54) with hk | hk
      · cases (parseResident_of_lt hread hk).symm.trans h
      · cases (parseResident_of_le hread hk).symm.trans h

end Status

/-! ## Checks -/

/-- Whole megabytes of a sample are compared with the maximum. -/
theorem check_of_octets (maximum : Nat) (ctx : ProbeContext) (k : Nat) :
    (check maximum ctx (.ok (1024 * k)) = .healthy ↔ k / 1024 < maximum)
      ∧ ((check maximum ctx (.ok (1024 * k))).status = .unhealthy ↔ maximum ≤ k / 1024) := by
  have hused : 1024 * k / 1024 / 1024 = k / 1024 := by
    rw [Nat.mul_div_cancel_left k (by decide)]
  rw [check]
  simp only [hused]
  by_cases h : maximum ≤ k / 1024
  · rw [if_pos h]
    exact ⟨iff_of_false (fun he => by cases congrArg ProbeResult.status he) (Nat.not_lt.2 h),
      iff_of_true rfl h⟩
  · rw [if_neg h]
    exact ⟨iff_of_true rfl (Nat.not_le.1 h), iff_of_false (fun he => by cases he) h⟩

/-- A check has what was read for its sample, and crashes when reading does. -/
theorem measure_eq (maximum : Nat) (ctx : ProbeContext) (status : String) :
    measure maximum ctx (.ok status)
      = (parseResident status).map fun octets => check maximum ctx (reported octets) := by
  rw [measure, sample]
  cases parseResident status <;> rfl

/-- Nothing is read of a status text without a number behind the label.  A number of kilobytes
    comes out as its octets exactly when it is below 2 ^ 54, and then its whole megabytes are
    compared with the maximum; a greater one that is still of sixty-four bits is a crash, and no
    maximum gives a result. -/
theorem resident_exact_iff (status : String) :
    (parseResident status = .ok none
      ↔ (∀ l ∈ lines status.toList, ¬ label <+: l)
        ∨ ∃ line, FirstNamed status line ∧ ∀ k, ¬ Tells line k)
      ∧ ∀ line k, FirstNamed status line → Tells line k →
        (parseResident status = .ok (some (1024 * k)) ↔ k < 2 ^ 54)
          ∧ (parseResident status = .error ⟨2 ^ 64, 1024 * k⟩ ↔ 2 ^ 54 ≤ k)
          ∧ ∀ maximum ctx,
            (k < 2 ^ 54 → ∃ r, measure maximum ctx (.ok status) = .ok r
              ∧ (r = .healthy ↔ k / 1024 < maximum)
              ∧ (r.status = .unhealthy ↔ maximum ≤ k / 1024))
            ∧ (2 ^ 54 ≤ k → measure maximum ctx (.ok status) = .error ⟨2 ^ 64, 1024 * k⟩) := by
  refine ⟨parseResident_eq_none_iff.trans kilobytes?_eq_none_iff, fun line k hfirst htells => ?_⟩
  have hread := kilobytes?_of_tells hfirst htells
  rcases Nat.lt_or_ge k (2 ^ 54) with hk | hk
  · have hexact := parseResident_of_lt hread hk
    refine ⟨iff_of_true hexact hk, ?_, fun maximum ctx => ⟨fun _ => ?_, fun hle => ?_⟩⟩
    · rw [hexact]
      exact iff_of_false (fun h => by cases h) (Nat.not_le.2 hk)
    · refine ⟨check maximum ctx (.ok (1024 * k)), ?_, check_of_octets maximum ctx k⟩
      rw [measure_eq, hexact]
      rfl
    · exact absurd hle (Nat.not_le.2 hk)
  · have hcrash := parseResident_of_le hread hk
    refine ⟨?_, iff_of_true hcrash hk, fun maximum ctx => ⟨fun hlt => ?_, fun _ => ?_⟩⟩
    · rw [hcrash]
      exact iff_of_false (fun h => by cases h) (Nat.not_lt.2 hk)
    · exact absurd hlt (Nat.not_lt.2 hk)
    · rw [measure_eq, hcrash]
      rfl

/-- The usual numbers are far below the bound, and so they are exact. -/
theorem usual_number_is_exact :
    let status := "Name:\thealthmon\nVmPeak:\t   90000 kB\nVmRSS:\t   12345 kB\nThreads:\t4\n"
    let line := "VmRSS:\t   12345 kB".toList
    FirstNamed status line ∧ Tells line 12345
      ∧ parseResident status = .ok (some (1024 * 12345)) := by
  intro status line
  have hfirst : FirstNamed status line := firstNamed_iff.1 (by decide +kernel)
  have htells : Tells line 12345 := tells_iff.1 (by decide +kernel)
  obtain ⟨-, hread⟩ := resident_exact_iff status
  obtain ⟨hexact, -⟩ := hread line 12345 hfirst htells
  exact ⟨hfirst, htells, hexact.2 (by decide)⟩

/-- The first number beyond the bound is read, but not its octets, and no check comes to a
    result. -/
theorem great_number_crashes :
    let status := "VmRSS:\t18014398509481984 kB\n"
    let line := "VmRSS:\t18014398509481984 kB".toList
    FirstNamed status line ∧ Tells line (2 ^ 54)
      ∧ parseResident status = .error ⟨2 ^ 64, 1024 * 2 ^ 54⟩
      ∧ ∀ maximum ctx r, measure maximum ctx (.ok status) ≠ .ok r := by
  intro status line
  have hfirst : FirstNamed status line := firstNamed_iff.1 (by decide +kernel)
  have htells : Tells line (2 ^ 54) := tells_iff.1 (by decide +kernel)
  have hcrash := parseResident_of_le (kilobytes?_of_tells hfirst htells) (Nat.le_refl (2 ^ 54))
  refine ⟨hfirst, htells, hcrash, fun maximum ctx r h => ?_⟩
  rw [measure_eq, hcrash] at h
  cases h

end HealthWatch.Memory
