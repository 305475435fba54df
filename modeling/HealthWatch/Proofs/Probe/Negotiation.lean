import HealthWatch.Probe.Hub
import HealthWatch.Proofs.Json.Octets

/-! # Negotiations — which bodies are the answer of a hub

    The answer of a hub is an object with four members that may be null or missing.  They
    come in any order, each at most once, and others among them are skipped.

    * `members_eq_ok_iff` is the run over the members of an object: what is known of a key
      changes with its member and with no other (`notes_cons_of_mem`);
    * `decode_array_iff` is the same for a list of the four;
    * `Reads` says what an answer is read from, and `decode_eq_ok_iff` that it is. -/

namespace HealthWatch.Hub

open Json Decode

/-! ## Values -/

/-- A value that is a text, or null. -/
inductive NullOrText : Document → Option String → Prop where
  | null : NullOrText .null none
  | text (s : String) : NullOrText (.text (.ok s)) (some s)

/-- An optional text is null or a text. -/
theorem option_string_eq_ok_iff {d : Document} {o : Option String} :
    option string d = .ok o ↔ NullOrText d o := by
  constructor
  · intro h
    cases d with
    | null =>
        cases h
        exact .null
    | text t =>
        cases t with
        | ok s =>
            cases h
            exact .text s
        | error fault => cases h
    | number n => cases n <;> cases h
    | _ => cases h
  · intro h
    cases h <;> rfl

/-! ## The members of an object -/

/-- The keys that count. -/
def keys : List String := ["connectionId", "connectionToken", "url", "error"]

/-- What is known of a key. -/
def Draft.value? (b : Draft) (key : String) : Option (Option String) :=
  match key with
  | "connectionId" => b.connectionId
  | "connectionToken" => b.connectionToken
  | "url" => b.url
  | "error" => b.error
  | _ => none

/-- Notes the value of a key. -/
def Draft.note (b : Draft) (key : String) (value : Option String) : Draft :=
  match key with
  | "connectionId" => { b with connectionId := some value }
  | "connectionToken" => { b with connectionToken := some value }
  | "url" => { b with url := some value }
  | "error" => { b with error := some value }
  | _ => b

/-- What holds of all keys holds of each of the four. -/
theorem forall_mem_keys_iff {p : String → Prop} : (∀ key ∈ keys, p key)
    ↔ p "connectionId" ∧ p "connectionToken" ∧ p "url" ∧ p "error" := by
  simp [keys]

/-- A value is noted under its own key, and the other keys keep theirs. -/
theorem value?_note (b : Draft) {key : String} (h : key ∈ keys) (value : Option String)
    {other : String} (ho : other ∈ keys) :
    (b.note key value).value? other = if other = key then some value else b.value? other := by
  revert key other
  simp only [forall_mem_keys_iff]
  refine ⟨?_, ?_, ?_, ?_⟩ <;> refine ⟨?_, ?_, ?_, ?_⟩ <;> rfl

/-- A draft is all that is known of the keys. -/
theorem draft_ext {b c : Draft} (h : ∀ key ∈ keys, b.value? key = c.value? key) : b = c := by
  obtain ⟨hid, htoken, hurl, herror⟩ := forall_mem_keys_iff.1 h
  obtain ⟨_, _, _, _⟩ := b
  obtain ⟨_, _, _, _⟩ := c
  cases hid
  cases htoken
  cases hurl
  cases herror
  rfl

/-- A member with a key is noted unless one with that key came before. -/
theorem step_of_mem {b b' : Draft} {key : String} (h : key ∈ keys) {d : Document} :
    Draft.step b key d = .ok b'
      ↔ b.value? key = none ∧ ∃ o, NullOrText d o ∧ b' = b.note key o := by
  have hread : ∀ {current : Option (Option String)} {put : Option (Option String) → Draft}
      {key' : String},
      ((once key' (option string) d current >>= fun o => pure (put o))
          : Except Json.Fault Draft) = .ok b'
        ↔ current = none ∧ ∃ o, NullOrText d o ∧ b' = put (some o) := by
    intro current put key'
    simp only [bind_eq_ok_iff, once_eq_ok_iff, option_string_eq_ok_iff]
    constructor
    · rintro ⟨_, ⟨hnone, o, ho, rfl⟩, hb⟩
      exact ⟨hnone, o, ho, (Except.ok.inj hb).symm⟩
    · rintro ⟨hnone, o, ho, rfl⟩
      exact ⟨some o, ⟨hnone, o, ho, rfl⟩, rfl⟩
  revert h
  revert key
  rw [forall_mem_keys_iff]
  exact ⟨hread, hread, hread, hread⟩

/-- A member with another name is skipped, and nothing more. -/
theorem step_of_not_mem {b b' : Draft} {key : String} (h : key ∉ keys) {d : Document} :
    Draft.step b key d = .ok b' ↔ d.skip = .ok () ∧ b' = b := by
  have hstep : Draft.step b key d = (skip key d >>= fun _ => pure b) := by
    rw [Draft.step.eq_def]
    split
    · exact absurd (by decide) h
    · exact absurd (by decide) h
    · exact absurd (by decide) h
    · exact absurd (by decide) h
    · rfl
  rw [hstep, bind_eq_ok_iff]
  simp only [skip_eq_ok_iff]
  constructor
  · rintro ⟨_, hskip, hb⟩
    exact ⟨hskip, (Except.ok.inj hb).symm⟩
  · rintro ⟨hskip, rfl⟩
    exact ⟨(), hskip, rfl⟩

/-- The values under a key, in their order. -/
def valuesOf (key : String) (ms : List (Except SyntaxFault String × Document)) : List Document :=
  ms.filterMap fun m =>
    match m.1 with
    | .ok k => if k = key then some m.2 else none
    | .error _ => none

/-- The first member adds to the values of its own key. -/
theorem valuesOf_cons (key k : String) (d : Document)
    (ms : List (Except SyntaxFault String × Document)) :
    valuesOf key ((.ok k, d) :: ms) = if k = key then d :: valuesOf key ms else valuesOf key ms := by
  rw [valuesOf, List.filterMap_cons]
  by_cases h : k = key
  · simp only [if_pos h]
    rfl
  · simp only [if_neg h]
    rfl

/-- Every member has a key, and a member that does not count can be skipped. -/
def Readable (ms : List (Except SyntaxFault String × Document)) : Prop :=
  ∀ m ∈ ms, ∃ key, m.1 = .ok key ∧ (key ∉ keys → m.2.skip = .ok ())

theorem readable_cons_iff {key : String} {d : Document}
    {ms : List (Except SyntaxFault String × Document)} :
    Readable ((.ok key, d) :: ms) ↔ (key ∉ keys → d.skip = .ok ()) ∧ Readable ms := by
  rw [Readable, List.forall_mem_cons]
  refine and_congr_left fun _ => ⟨?_, fun h => ⟨key, rfl, h⟩⟩
  rintro ⟨_, hk, h⟩
  cases hk
  exact h

/-- What the values under a key make of what was known of it: a value is taken once. -/
inductive Leaves : Option (Option String) → List Document → Option (Option String) → Prop where
  | none (known : Option (Option String)) : Leaves known [] known
  | one {d : Document} {o : Option String} (h : NullOrText d o) : Leaves .none [d] (some o)

theorem leaves_nil_iff {known after : Option (Option String)} :
    Leaves known [] after ↔ known = after := by
  constructor
  · intro h
    cases h
    rfl
  · rintro rfl
    exact .none known

theorem leaves_cons_iff {known after : Option (Option String)} {d : Document}
    {ds : List Document} :
    Leaves known (d :: ds) after ↔ known = none ∧ ∃ o, NullOrText d o ∧ Leaves (some o) ds after := by
  constructor
  · intro h
    cases h with
    | one ho => exact ⟨rfl, _, ho, .none _⟩
  · rintro ⟨rfl, o, ho, h⟩
    cases h with
    | none => exact .one ho

/-- What is known after members, for each key from the values under it alone. -/
def Notes (b : Draft) (ms : List (Except SyntaxFault String × Document)) (b' : Draft) : Prop :=
  ∀ key ∈ keys, Leaves (b.value? key) (valuesOf key ms) (b'.value? key)

theorem notes_nil_iff {b b' : Draft} : Notes b [] b' ↔ b = b' := by
  constructor
  · exact fun h => draft_ext fun key hkey => leaves_nil_iff.1 (h key hkey)
  · rintro rfl key -
    exact leaves_nil_iff.2 rfl

section Cons

variable {b b' : Draft} {key : String} {d : Document}
  {ms : List (Except SyntaxFault String × Document)}

/-- The first member is noted before the rest. -/
theorem notes_cons_of_mem (h : key ∈ keys) : Notes b ((.ok key, d) :: ms) b'
    ↔ b.value? key = none ∧ ∃ o, NullOrText d o ∧ Notes (b.note key o) ms b' := by
  -- the member counts for its own key and for no other
  constructor
  · intro hnotes
    have hown := hnotes key h
    rw [valuesOf_cons, if_pos rfl] at hown
    obtain ⟨hknown, o, ho, hafter⟩ := leaves_cons_iff.1 hown
    refine ⟨hknown, o, ho, fun other hother => ?_⟩
    rw [value?_note b h o hother]
    by_cases he : other = key
    · subst he
      rwa [if_pos rfl]
    · have hrest := hnotes other hother
      rw [valuesOf_cons, if_neg (Ne.symm he)] at hrest
      rwa [if_neg he]
  · rintro ⟨hknown, o, ho, hnotes⟩ other hother
    have hrest := hnotes other hother
    rw [value?_note b h o hother] at hrest
    rw [valuesOf_cons]
    by_cases he : other = key
    · subst he
      rw [if_pos rfl] at hrest ⊢
      exact leaves_cons_iff.2 ⟨hknown, o, ho, hrest⟩
    · rw [if_neg he] at hrest
      rwa [if_neg (Ne.symm he)]

/-- A member with another name is not noted. -/
theorem notes_cons_of_not_mem (h : key ∉ keys) :
    Notes b ((.ok key, d) :: ms) b' ↔ Notes b ms b' := by
  have hvalues : ∀ other ∈ keys, valuesOf other ((.ok key, d) :: ms) = valuesOf other ms := by
    intro other hother
    have hne : key ≠ other := fun he => h (he ▸ hother)
    rw [valuesOf_cons, if_neg hne]
  exact forall₂_congr fun other hother => by rw [hvalues other hother]

end Cons

/-- Going through members is noting the values of their keys, each at most once. -/
theorem members_eq_ok_iff {b b' : Draft} {ms : List (Except SyntaxFault String × Document)}
    {ending : Ending} : members Draft.step ending b ms = .ok b' ↔
      ending = .closed ∧ Readable ms ∧ Notes b ms b' := by
  induction ms generalizing b with
  | nil =>
      rw [members, bind_eq_ok_iff, notes_nil_iff]
      simp only [within_eq_ok_iff, close_eq_ok_iff]
      constructor
      · rintro ⟨_, hclosed, hb⟩
        exact ⟨hclosed, fun m hm => (nomatch hm), Except.ok.inj hb⟩
      · rintro ⟨hclosed, -, rfl⟩
        exact ⟨(), hclosed, rfl⟩
  | cons m ms ih =>
      obtain ⟨k, d⟩ := m
      cases k with
      | error fault =>
          refine iff_of_false (by rintro ⟨⟩) ?_
          rintro ⟨-, hreadable, -⟩
          obtain ⟨key, ⟨⟩, -⟩ := hreadable _ List.mem_cons_self
      | ok key =>
          rw [members, bind_eq_ok_iff, readable_cons_iff]
          by_cases hkey : key ∈ keys
          · simp only [ih, step_of_mem hkey, notes_cons_of_mem hkey]
            constructor
            · rintro ⟨_, ⟨hknown, o, ho, rfl⟩, hclosed, hreadable, hnotes⟩
              exact ⟨hclosed, ⟨fun h => absurd hkey h, hreadable⟩, hknown, o, ho, hnotes⟩
            · rintro ⟨hclosed, ⟨-, hreadable⟩, hknown, o, ho, hnotes⟩
              exact ⟨_, ⟨hknown, o, ho, rfl⟩, hclosed, hreadable, hnotes⟩
          · simp only [ih, step_of_not_mem hkey, notes_cons_of_not_mem hkey]
            constructor
            · rintro ⟨_, ⟨hskip, rfl⟩, hclosed, hreadable, hnotes⟩
              exact ⟨hclosed, ⟨fun _ => hskip, hreadable⟩, hnotes⟩
            · rintro ⟨hclosed, ⟨hskip, hreadable⟩, hnotes⟩
              exact ⟨b, ⟨hskip hkey, rfl⟩, hclosed, hreadable, hnotes⟩

/-! ## Whole answers -/

/-- The value of a member of an object that may be missing, and may not come twice. -/
def Member (key : String) (ms : List (Except SyntaxFault String × Document))
    (value : Option String) : Prop :=
  (valuesOf key ms = [] ∧ value = none) ∨ ∃ d, valuesOf key ms = [d] ∧ NullOrText d value

/-- A member is what its values leave. -/
theorem member_iff {key : String} {ms : List (Except SyntaxFault String × Document)}
    {value : Option String} : Member key ms value
      ↔ ∃ after, Leaves none (valuesOf key ms) after ∧ after.getD none = value := by
  rw [Member]
  constructor
  · rintro (⟨hnone, rfl⟩ | ⟨d, hone, hd⟩)
    · exact ⟨none, hnone ▸ .none _, rfl⟩
    · exact ⟨some value, hone ▸ .one hd, rfl⟩
  · rintro ⟨after, h, rfl⟩
    generalize valuesOf key ms = ds at h
    cases h with
    | none => exact Or.inl ⟨rfl, rfl⟩
    | one hd => exact Or.inr ⟨_, rfl, hd⟩

/-- What the answer of a hub is read from. -/
inductive Reads : Document → Negotiation → Prop where
  | object {ms : List (Except SyntaxFault String × Document)} {n : Negotiation}
      (readable : Readable ms)
      (connectionId : Member "connectionId" ms n.connectionId)
      (connectionToken : Member "connectionToken" ms n.connectionToken)
      (url : Member "url" ms n.url)
      (error : Member "error" ms n.error) : Reads (.object ms .closed) n
  | list {connectionId connectionToken url error : Document} {n : Negotiation}
      (connectionId_reads : NullOrText connectionId n.connectionId)
      (connectionToken_reads : NullOrText connectionToken n.connectionToken)
      (url_reads : NullOrText url n.url)
      (error_reads : NullOrText error n.error) :
      Reads (.array [connectionId, connectionToken, url, error] .closed) n

/-- An object decodes when it is closed, readable, and each of the four keys comes at most once.
    -/
theorem decode_object_iff {ms : List (Except SyntaxFault String × Document)} {ending : Ending}
    {n : Negotiation} : Negotiation.decode (.object ms ending) = .ok n ↔
      ending = .closed ∧ Readable ms ∧ Member "connectionId" ms n.connectionId ∧
        Member "connectionToken" ms n.connectionToken ∧ Member "url" ms n.url ∧
        Member "error" ms n.error := by
  show (members Draft.step ending {} ms >>= _) = _ ↔ _
  rw [bind_eq_ok_iff]
  simp only [members_eq_ok_iff, member_iff, Notes, forall_mem_keys_iff]
  constructor
  · rintro ⟨b, ⟨hclosed, hreadable, hid, htoken, hurl, herror⟩, hn⟩
    cases hn
    exact ⟨hclosed, hreadable, ⟨_, hid, rfl⟩, ⟨_, htoken, rfl⟩, ⟨_, hurl, rfl⟩, ⟨_, herror, rfl⟩⟩
  · obtain ⟨_, _, _, _⟩ := n
    rintro ⟨hclosed, hreadable, ⟨i, hid, rfl⟩, ⟨t, htoken, rfl⟩, ⟨u, hurl, rfl⟩, ⟨e, herror, rfl⟩⟩
    exact ⟨⟨i, t, u, e⟩, ⟨hclosed, hreadable, hid, htoken, hurl, herror⟩, rfl⟩

/-- A list decodes when it has exactly the four values in their order. -/
theorem decode_array_iff {ds : List Document} {ending : Ending} {n : Negotiation} :
    Negotiation.decode (.array ds ending) = .ok n ↔ ending = .closed ∧
      ∃ i t u e, ds = [i, t, u, e] ∧ NullOrText i n.connectionId ∧
        NullOrText t n.connectionToken ∧ NullOrText u n.url ∧ NullOrText e n.error := by
  simp only [Negotiation.decode, record, bind_eq_ok_iff, Prod.exists, next_eq_ok_iff,
    option_string_eq_ok_iff]
  constructor
  · rintro ⟨_, _, ⟨_, _, ⟨i, r₁, h₁, hi, rfl⟩, _, _, ⟨t, r₂, h₂, ht, rfl⟩, _, _,
      ⟨u, r₃, h₃, hu, rfl⟩, _, _, ⟨e, r₄, h₄, he, rfl⟩, hpure⟩, _, hfinish, hn⟩
    cases hpure
    cases hn
    obtain ⟨hrest, hclosed⟩ := (finish_eq_ok_iff rfl).1 hfinish
    have hds : ds = [i, t, u, e] := calc
      ds = i :: r₁ := h₁
      _ = i :: t :: u :: e :: r₄ := by rw [show r₁ = t :: r₂ from h₂,
        show r₂ = u :: r₃ from h₃, show r₃ = e :: r₄ from h₄]
      _ = [i, t, u, e] := by rw [show r₄ = [] from hrest]
    exact ⟨hclosed, i, t, u, e, hds, hi, ht, hu, he⟩
  · rintro ⟨rfl, i, t, u, e, rfl, hi, ht, hu, he⟩
    exact ⟨_, _, ⟨_, _, ⟨i, _, rfl, hi, rfl⟩, _, _, ⟨t, _, rfl, ht, rfl⟩, _, _,
      ⟨u, _, rfl, hu, rfl⟩, _, _, ⟨e, _, rfl, he, rfl⟩, rfl⟩, (),
      (finish_eq_ok_iff rfl).2 ⟨rfl, rfl⟩, rfl⟩

/-- A body is the answer of a hub when its tree is read as one. -/
theorem decode_eq_ok_iff {d : Document} {n : Negotiation} :
    Negotiation.decode d = .ok n ↔ Reads d n := by
  cases d with
  | object ms ending =>
      rw [decode_object_iff]
      constructor
      · rintro ⟨rfl, hreadable, hid, htoken, hurl, herror⟩
        exact .object hreadable hid htoken hurl herror
      · rintro (⟨hreadable, hid, htoken, hurl, herror⟩ | _)
        exact ⟨rfl, hreadable, hid, htoken, hurl, herror⟩
  | array ds ending =>
      rw [decode_array_iff]
      constructor
      · rintro ⟨rfl, i, t, u, e, rfl, hid, htoken, hurl, herror⟩
        exact .list hid htoken hurl herror
      · rintro (_ | ⟨hid, htoken, hurl, herror⟩)
        exact ⟨rfl, _, _, _, _, rfl, hid, htoken, hurl, herror⟩
  | text t => cases t <;> exact iff_of_false (by rintro ⟨⟩) (by rintro ⟨⟩)
  | number v => cases v <;> exact iff_of_false (by rintro ⟨⟩) (by rintro ⟨⟩)
  | _ => exact iff_of_false (by rintro ⟨⟩) (by rintro ⟨⟩)

end HealthWatch.Hub
