import HealthWatch.Http.Url
import Mathlib.Data.List.TakeWhile

/-! # Addresses of the web — what stands behind the authority does not change it

    The host and the port of an address are read from its authority, which ends at the
    first slash, question mark or number sign.  So texts that differ only behind it have
    the same host and the same port.

    * `Tail` says what may stand there, and `clean_append` and `scheme?_append` that it
      is left alone by what is read before;
    * `authorityText_append` cuts it off;
    * `parse?_append` puts them together. -/

namespace HealthWatch.Http.Url

open Text

/-- A character that is dropped at the ends of an address. -/
def isPad (c : Char) : Bool := c.toNat ≤ 32

/-- A character that is dropped everywhere in an address. -/
def isLineEnd (c : Char) : Bool := c = '\t' || c = '\n' || c = '\r'

/-- A character between the parts of an address of the web. -/
def isSlash (c : Char) : Bool := c = '/' || c = '\\'

/-- A character of an authority. -/
def inAuthority (c : Char) : Bool := !isSlash c && c ≠ '#' && c ≠ '?'

/-- A text that may stand behind an authority, without anything that is dropped. -/
structure Tail (t : List Char) : Prop where
  start : t = [] ∨ ∃ c r, t = c :: r ∧ isSlash c = true
  solid : ∀ c ∈ t, isPad c = false
  noColon : ':' ∉ t

/-- An address that does not end with something that is dropped. -/
def EndsSolid (s : List Char) : Prop :=
  ∀ c, s.getLast? = some c → isPad c = false

/-! ## Cleaning -/

theorem isLineEnd_of_solid {c : Char} (h : isPad c = false) : isLineEnd c = false := by
  rw [← Bool.not_eq_true, isLineEnd]
  intro hend
  simp only [Bool.or_eq_true, decide_eq_true_eq] at hend
  rcases hend with (rfl | rfl) | rfl <;> cases h

theorem dropWhile_eq_self {p : Char → Bool} {s : List Char}
    (h : ∀ c, s.head? = some c → p c = false) : s.dropWhile p = s := by
  cases s with
  | nil => rfl
  | cons c s => rw [List.dropWhile_cons, h c rfl]; rfl

theorem clean_of_endsSolid {s : List Char} (h : EndsSolid s) :
    clean s = (s.dropWhile isPad).filter fun c => !isLineEnd c := by
  have hlast : ∀ c, (s.dropWhile isPad).reverse.head? = some c → isPad c = false := by
    intro c hc
    rw [List.head?_reverse] at hc
    obtain ⟨front, hfront⟩ := List.dropWhile_suffix (p := isPad) (l := s)
    refine h c ?_
    rw [← hfront, List.getLast?_append, hc]
    rfl
  show ((s.dropWhile isPad).reverse.dropWhile isPad).reverse.filter (fun c => !isLineEnd c) = _
  rw [dropWhile_eq_self hlast, List.reverse_reverse]

/-- The front of an address without what is dropped from it. -/
def cleanFront (base : List Char) : List Char :=
  (base.dropWhile isPad).filter fun c => !isLineEnd c

/-- What is appended stays as it is when the text in front of it is cleaned. -/
theorem clean_append {base t : List Char} (ht : Tail t) (h : EndsSolid (base ++ t)) :
    clean (base ++ t) = cleanFront base ++ t := by
  have hfilter : t.filter (fun c => !isLineEnd c) = t :=
    List.filter_eq_self.2 fun c hc => by rw [isLineEnd_of_solid (ht.solid c hc)]; rfl
  have hdrop : t.dropWhile isPad = t := dropWhile_eq_self fun c hc =>
    ht.solid c (List.mem_of_head? hc)
  have hfront : (base ++ t).dropWhile isPad = base.dropWhile isPad ++ t := by
    rw [List.dropWhile_append, hdrop]
    split
    · next hnil => rw [List.isEmpty_iff.1 hnil, List.nil_append]
    · rfl
  rw [clean_of_endsSolid h, hfront, List.filter_append, hfilter, cleanFront]

/-! ## Schemes -/

/-- A scheme is what stands before the first colon, if all its characters may. -/
theorem scheme?_of_cut {c : Char} {a : List Char} (h : ':' ∉ c :: a) (rest : List Char) :
    scheme? (c :: a ++ ':' :: rest)
      = if c.isAlpha ∧ (c :: a).all isSchemeChar then some ((c :: a).map Char.toLower, rest)
        else none := by
  rw [List.cons_append, scheme?, ← List.cons_append, cutFirst_of_not_mem rest h]
  cases hc : c.isAlpha <;> simp

/-- A tail without a colon is left behind the scheme. -/
theorem scheme?_append {front t scheme rest : List Char} (ht : ':' ∉ t)
    (h : scheme? (front ++ t) = some (scheme, rest)) : ∃ middle, rest = middle ++ t ∧
      ∀ t', scheme? (front ++ t') = some (scheme, middle ++ t') := by
  by_cases hcolon : ':' ∈ front
  · obtain ⟨a, middle, rfl, ha⟩ := List.eq_append_cons_of_mem hcolon
    cases a with
    | nil => cases h
    | cons c a =>
        have hcut : ∀ t', scheme? (c :: a ++ ':' :: middle ++ t')
            = if c.isAlpha ∧ (c :: a).all isSchemeChar
              then some ((c :: a).map Char.toLower, middle ++ t') else none := fun t' => by
          rw [List.append_assoc]
          exact scheme?_of_cut ha (middle ++ t')
        rw [hcut] at h
        split at h
        · next hscheme =>
            cases h
            exact ⟨middle, rfl, fun t' => (hcut t').trans (if_pos hscheme)⟩
        · cases h
  · -- without a colon there is no scheme
    have hnone : cutFirst ':' (front ++ t) = none :=
      cutFirst_eq_none fun hmem => (List.mem_append.1 hmem).elim hcolon ht
    cases hs : front ++ t with
    | nil => rw [hs] at h; cases h
    | cons c r =>
        rw [hs] at h hnone
        rw [scheme?, hnone] at h
        split at h <;> cases h

/-! ## Authorities -/

/-- The authority of an address of the web behind its scheme. -/
def authorityText (rest : List Char) : List Char :=
  (rest.dropWhile isSlash).takeWhile inAuthority

theorem split_fst (c : Char) (s : List Char) : (split c s).1 = s.takeWhile (· != c) := by
  have hkept : ∀ a : List Char, c ∉ a → ∀ x ∈ a, (x != c) = true := fun a ha x hx => by
    simpa using fun he : x = c => ha (he ▸ hx)
  rw [split]
  cases h : cutFirst c s with
  | none => exact (List.takeWhile_eq_self_iff.2 (hkept s (not_mem_of_cutFirst_eq_none h))).symm
  | some p =>
      obtain ⟨a, b⟩ := p
      rw [cutFirst_append h, List.takeWhile_append_of_pos (hkept a (not_mem_of_cutFirst h)),
        List.takeWhile_cons]
      simp

/-- What is kept by one test may be dropped by a narrower one first. -/
theorem dropWhile_takeWhile {p q : Char → Bool} (h : ∀ c, p c = true → q c = true)
    (s : List Char) : (s.takeWhile q).dropWhile p = (s.dropWhile p).takeWhile q := by
  induction s with
  | nil => rfl
  | cons c s ih =>
      cases hp : p c with
      | true => rw [List.takeWhile_cons, h c hp]; simpa [hp] using ih
      | false => cases hq : q c <;> simp [hp, hq]

/-- The authority ends where the query or the fragment starts, if there is no path. -/
theorem authorityText_eq (rest : List Char) :
    ((split '?' (split '#' rest).1).1.dropWhile isSlash).takeWhile (!isSlash ·)
      = authorityText rest := by
  have hslash : ∀ c, isSlash c = true → (c != '#') = true ∧ (c != '?') = true := by
    intro c hc
    simp only [isSlash, Bool.or_eq_true, decide_eq_true_eq] at hc
    rcases hc with rfl | rfl <;> exact ⟨rfl, rfl⟩
  rw [split_fst, split_fst, dropWhile_takeWhile fun c hc => (hslash c hc).2,
    dropWhile_takeWhile fun c hc => (hslash c hc).1, List.takeWhile_takeWhile,
    List.takeWhile_takeWhile, authorityText]
  congr 1
  funext c
  rw [Bool.eq_iff_iff]
  simp [inAuthority, and_right_comm]

/-- A tail is no part of the authority in front of it, if there is one. -/
theorem authorityText_append {middle t : List Char} (ht : Tail t)
    (h : middle.dropWhile isSlash ≠ []) :
    authorityText (middle ++ t) = authorityText middle := by
  have hstop : t.takeWhile inAuthority = [] := by
    rcases ht.start with rfl | ⟨c, r, rfl, hc⟩
    · rfl
    · rw [List.takeWhile_cons, inAuthority, hc]
      rfl
  have hdrop : (middle ++ t).dropWhile isSlash = middle.dropWhile isSlash ++ t := by
    rw [List.dropWhile_append, List.isEmpty_eq_false_iff.2 h]
    rfl
  rw [authorityText, hdrop, List.takeWhile_append, hstop, List.append_nil, authorityText]
  split
  · next hall =>
      exact ((List.takeWhile_prefix inAuthority).eq_of_length hall).symm
  · rfl

/-! ## Whole addresses -/

/-- Scheme, host and port of an address of the web hang on its authority alone. -/
theorem parse?_web {text scheme rest : List Char} {standard : Nat}
    (hscheme : scheme? (clean text) = some (scheme, rest))
    (hstandard : standardPort? scheme = some standard) :
    (parse? text).map (fun u => (u.scheme, u.host, u.port))
      = (authority? (some standard) (authorityText rest)).map fun a => (scheme, some a.1, a.2) := by
  rw [parse?, hscheme, ← authorityText_eq]
  simp only [Option.bind_eq_bind, Option.bind_some, hstandard]
  change Option.map _ (Option.bind (authority? (some standard)
    (((split '?' (split '#' rest).1).1.dropWhile isSlash).takeWhile (!isSlash ·))) _) = _
  cases authority? (some standard)
    (((split '?' (split '#' rest).1).1.dropWhile isSlash).takeWhile (!isSlash ·)) <;> rfl

/-- The scheme of an address is that of its text. -/
theorem scheme?_of_parse? {text : List Char} {u : Url} (h : parse? text = some u) :
    ∃ rest, scheme? (clean text) = some (u.scheme, rest) := by
  rw [parse?] at h
  cases hscheme : scheme? (clean text) with
  | none => rw [hscheme] at h; cases h
  | some p =>
      obtain ⟨scheme, rest⟩ := p
      rw [hscheme] at h
      simp only [Option.bind_eq_bind, Option.bind_some] at h
      refine ⟨rest, ?_⟩
      split at h
      · obtain ⟨a, -, hu⟩ := Option.bind_eq_some_iff.1 h
        cases hu
        rfl
      · split at h
        · obtain ⟨a, -, hu⟩ := Option.bind_eq_some_iff.1 h
          cases hu
          rfl
        · cases h
          rfl

theorem authorityText_of_slashes {rest : List Char} (h : ∀ c ∈ rest, isSlash c = true) :
    authorityText rest = [] := by
  rw [authorityText, List.dropWhile_eq_nil_iff.2 h]
  rfl

/-- What is put in the place of slashes at the end of an address of the web leaves it with its
    scheme, its host and its port. -/
theorem parse?_append {base t t' : List Char} {u : Url} (h : parse? (base ++ t) = some u)
    (hweb : (standardPort? u.scheme).isSome) (ht : Tail t) (hslashes : ∀ c ∈ t, isSlash c = true)
    (hend : EndsSolid (base ++ t)) (ht' : Tail t') (hend' : EndsSolid (base ++ t')) :
    ∃ v, parse? (base ++ t') = some v ∧ v.scheme = u.scheme ∧ v.host = u.host ∧
      v.port = u.port ∧ v.host ≠ none := by
  obtain ⟨standard, hstandard⟩ := Option.isSome_iff_exists.1 hweb
  obtain ⟨rest, hscheme⟩ := scheme?_of_parse? h
  have hread := parse?_web hscheme hstandard
  rw [clean_append ht hend] at hscheme
  obtain ⟨middle, rfl, hfront⟩ := scheme?_append ht.noColon hscheme
  rw [h, Option.map_some] at hread
  -- slashes alone are no authority
  have hne : middle.dropWhile isSlash ≠ [] := by
    intro hnil
    have hall : ∀ c ∈ middle ++ t, isSlash c = true := fun c hc =>
      (List.mem_append.1 hc).elim (List.dropWhile_eq_nil_iff.1 hnil c) (hslashes c)
    rw [authorityText_of_slashes hall] at hread
    cases hread
  have hscheme' : scheme? (clean (base ++ t')) = some (u.scheme, middle ++ t') := by
    rw [clean_append ht' hend', hfront]
  have hread' := parse?_web hscheme' hstandard
  rw [authorityText_append ht' hne, ← authorityText_append ht hne, ← hread] at hread'
  obtain ⟨v, hv, he⟩ := Option.map_eq_some_iff.1 hread'
  obtain ⟨a, -, ha⟩ := Option.map_eq_some_iff.1 hread.symm
  simp only [Prod.mk.injEq] at he ha
  obtain ⟨hscheme', hhost, hport⟩ := he
  refine ⟨v, hv, hscheme', hhost, hport, ?_⟩
  rw [hhost, ← ha.2.1]
  exact Option.some_ne_none _

end HealthWatch.Http.Url
