import HealthWatch.Json.Place

/-! # Places — the octet with which a fault first shows

    The search for a place halves the text again and again.  It always ends between a start
    of the text that does not show the fault and the next longer one, which does
    (`longestBefore_spec`).  So a place lies behind the octet that brings the fault, or in
    front of it, and behind what is read on of the text (`place_of_fault`). -/

namespace HealthWatch.Json

/-! ## The search -/

section Search

variable {test : List UInt8 → Bool} {bytes : List UInt8}

/-- A start does not pass a test, but the start with one octet more does, if there is one. -/
structure Turns (test : List UInt8 → Bool) (bytes : List UInt8) (k : Nat) : Prop where
  le : k ≤ bytes.length
  before : test (bytes.take k) = false
  after : k < bytes.length → test (bytes.take (k + 1)) = true

/-- Whatever the test is, the search ends where it turns. -/
theorem longestBefore_spec {low bits : Nat} (hle : low ≤ bytes.length)
    (hlow : test (bytes.take low) = false)
    (hhigh : low + Nat.pow 2 bits ≤ bytes.length →
      test (bytes.take (low + Nat.pow 2 bits)) = true) :
    Turns test bytes (longestBefore test bytes low bits) := by
  induction bits generalizing low with
  | zero => exact ⟨hle, hlow, hhigh⟩
  | succ bits ih =>
      have hdouble : low + Nat.pow 2 bits + Nat.pow 2 bits = low + Nat.pow 2 (bits + 1) := by
        rw [Nat.add_assoc, ← Nat.mul_two]
        rfl
      rw [longestBefore]
      split
      · next h =>
          simp only [Bool.and_eq_true, decide_eq_true_eq, Bool.not_eq_true'] at h
          exact ih h.1 h.2 (hdouble ▸ hhigh)
      · next h =>
          refine ih hle hlow fun hnext => Bool.of_not_eq_false fun hfalse => h ?_
          rw [hfalse, decide_eq_true hnext]
          rfl

/-- Starting from nothing, the search looks at the whole text. -/
theorem turns_longestBefore (hnil : test [] = false) :
    Turns test bytes (longestBefore test bytes 0 (bytes.length.log2 + 1)) := by
  refine longestBefore_spec (Nat.zero_le _) (by rw [List.take_zero, hnil]) fun h => ?_
  rw [Nat.zero_add] at h
  exact absurd h (Nat.not_le.2 Nat.lt_log2_self)

end Search

/-! ## Places of faults -/

section Place

variable {α : Type} {decode : List UInt8 → Except Fault α} {fault : Fault} {bytes : List UInt8}

/-- A text shows a fault when decoding it ends with this fault. -/
theorem shows_eq_true_iff : shows decode fault bytes = true ↔ decode bytes = .error fault := by
  rw [shows]
  cases decode bytes with
  | ok a => exact iff_of_false Bool.false_ne_true (by rintro ⟨⟩)
  | error e => rw [decide_eq_true_iff, Except.error.injEq]

/-- What is read on of a list or an object stands there. -/
theorem readOn_isPrefix (around : Option Step) (rest : List UInt8) :
    readOn around rest <+: rest := by
  obtain ⟨tail, hrest⟩ := List.takeWhile_prefix (l := rest) isGapOctet
  have htail : rest.drop (rest.takeWhile isGapOctet).length = tail := by
    have h := congrArg (List.drop (rest.takeWhile isGapOctet).length) hrest
    rw [List.drop_left] at h
    exact h.symm
  rw [readOn.eq_def]
  dsimp only
  rw [htail]
  split
  · exact ⟨_, by rw [List.append_assoc]; exact hrest⟩
  · next r =>
      obtain ⟨r', hr⟩ := List.takeWhile_prefix (l := r) isGapOctet
      refine ⟨r', ?_⟩
      rw [List.append_assoc, List.cons_append, hr]
      exact hrest
  · exact ⟨_, by rw [List.append_assoc]; exact hrest⟩
  · exact ⟨tail, hrest⟩

/-- What is read behind a fault stands there. -/
theorem overread_isPrefix (fault : Fault) (rest : List UInt8) : fault.overread rest <+: rest := by
  rw [Fault.overread.eq_def]
  split
  · exact List.takeWhile_prefix _
  · exact List.take_prefix _ _
  · exact List.takeWhile_prefix _
  · exact List.takeWhile_prefix _
  · exact List.takeWhile_prefix _
  · exact readOn_isPrefix _ _
  · exact List.nil_prefix

/-- A fault with which decoding ends shows with an octet: not before it is read, but as soon
    as it is.  The place of the fault is that of this octet, unless the text ends too early. -/
theorem place_of_fault (h : decode bytes = .error fault) (hnil : decode [] ≠ .error fault)
    (hend : fault.isEnd = false) :
    ∃ before octet rest, bytes = before ++ octet :: rest
      ∧ decode before ≠ .error fault ∧ decode (before ++ [octet]) = .error fault
      ∧ fault.overread rest <+: rest
      ∧ fault.place decode bytes
        = if fault.isAhead then .behind before
          else .behind (before ++ octet :: fault.overread rest) := by
  have hturns : Turns (shows decode fault) bytes _ :=
    turns_longestBefore (Bool.eq_false_iff.2 (mt shows_eq_true_iff.1 hnil))
  rw [Fault.place, hend, if_neg (by decide)]
  generalize longestBefore (shows decode fault) bytes 0 (bytes.length.log2 + 1) = k at hturns ⊢
  have hlt : k < bytes.length := by
    refine Nat.lt_of_le_of_ne hturns.le fun hk => ?_
    have hbefore := hturns.before
    rw [hk, List.take_length, shows_eq_true_iff.2 h] at hbefore
    cases hbefore
  have hdrop : bytes.drop k = bytes[k] :: bytes.drop (k + 1) := List.drop_eq_getElem_cons hlt
  have htake : bytes.take (k + 1) = bytes.take k ++ [bytes[k]] := by
    rw [List.take_add_one, List.getElem?_eq_getElem hlt]
    rfl
  refine ⟨bytes.take k, bytes[k], bytes.drop (k + 1), ?_, ?_, ?_, overread_isPrefix _ _, ?_⟩
  · rw [← hdrop, List.take_append_drop]
  · exact fun hshown => Bool.eq_false_iff.1 hturns.before (shows_eq_true_iff.2 hshown)
  · rw [← htake]
    exact shows_eq_true_iff.1 (hturns.after hlt)
  · simp only [htake, List.append_assoc, List.singleton_append]

/-- A value of a wrong kind is refused behind its last octet, in the second line. -/
example : (Fault.refused [.item 1] (.wrongType (.bool true) "a string")).place
    (Decode.body (Decode.list Decode.string)) (Text.Utf8.encode "[\"a\",\n true ]".toList)
      = ⟨2, 5⟩ := by
  decide +kernel

end Place

end HealthWatch.Json
