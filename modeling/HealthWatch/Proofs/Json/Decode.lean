import HealthWatch.Proofs.Json.RoundTrip

/-! # Decoders — values that are carried through a text

    A decoder carries the values of an encoder when it reads them back from their
    trees, apart from what is cut off, and accepts only values from which nothing more
    is cut off (`Carries`).  Then a value goes through its text (`Carries.whole`).

    Lists and optional values are carried when their items are.  For records there is
    one inversion lemma for each way in which they are written: by members, which keep
    an invariant of the members read so far, and by fields in their order. -/

namespace HealthWatch.Json

open Decode

/-- Two steps succeed when the first one does and then the second. -/
theorem bind_eq_ok {ε α β : Type} {x : Except ε α} {f : α → Except ε β} {b : β}
    (h : x >>= f = .ok b) : ∃ a, x = .ok a ∧ f a = .ok b := by
  cases x with
  | error e => exact nomatch h
  | ok a => exact ⟨a, rfl, h⟩

theorem bind_eq_ok_iff {ε α β : Type} {x : Except ε α} {f : α → Except ε β} {b : β} :
    x >>= f = .ok b ↔ ∃ a, x = .ok a ∧ f a = .ok b := by
  constructor
  · exact bind_eq_ok
  · rintro ⟨a, rfl, h⟩
    exact h

/-- Two steps fail when the first one does, or the second one after it. -/
theorem bind_eq_error_iff {ε α β : Type} {x : Except ε α} {f : α → Except ε β} {e : ε} :
    x >>= f = .error e ↔ x = .error e ∨ ∃ a, x = .ok a ∧ f a = .error e := by
  cases x with
  | ok a =>
      refine ⟨fun h => Or.inr ⟨a, rfl, h⟩, ?_⟩
      rintro (h | ⟨_, ha, h⟩)
      · cases h
      · cases ha
        exact h
  | error e' =>
      refine ⟨fun h => Or.inl (congrArg Except.error (Except.error.inj h)), ?_⟩
      rintro (h | ⟨_, ⟨⟩, _⟩)
      exact congrArg Except.error (Except.error.inj h)

/-- What is decoded from a written value is the value, cut down; and nothing can be cut
    off from a value that is decoded. -/
structure Carries {α : Type} (encode : α → Json) (decode : Document → Except Fault α)
    (cut : α → α) : Prop where
  numberFree : ∀ a, NumberFree (encode a)
  decode_encode : ∀ a, decode (.ofJson (encode a)) = .ok (cut a)
  cut_eq_self : ∀ {d a}, decode d = .ok a → cut a = a

section Carries

variable {α : Type} {encode : α → Json} {decode : Document → Except Fault α} {cut : α → α}

/-- What is written as a text is decoded from it. -/
theorem Carries.whole (h : Carries encode decode cut) (a : α) :
    whole decode (encode a).render.toList = .ok (cut a) := by
  rw [render, String.toList_ofList, Decode.whole, readWhole_write (h.numberFree a)]
  show (decode (.ofJson (encode a)) >>= fun a => if true then pure a else _) = _
  rw [h.decode_encode]
  rfl

/-- From what is decoded of a text nothing more is cut off. -/
theorem Carries.cut_of_whole (h : Carries encode decode cut) {s : List Char} {a : α}
    (ha : Decode.whole decode s = .ok a) : cut a = a := by
  obtain ⟨d, ends, hread⟩ : ∃ d ends, readWhole s = (d, ends) := ⟨_, _, rfl⟩
  rw [Decode.whole, hread] at ha
  obtain ⟨b, hb, hend⟩ := bind_eq_ok ha
  cases ends with
  | true =>
      cases hend
      exact h.cut_eq_self hb
  | false => exact nomatch hend

/-! ## Texts, optional values and lists -/

/-- Texts are carried as they are. -/
theorem carries_string : Carries .text string id where
  numberFree := NumberFree.text
  decode_encode := fun _ => rfl
  cut_eq_self := fun _ => rfl

/-- A value that may be missing is decoded as one that may not. -/
theorem option_eq_ok {d : Document} {a : α} (h : option decode d = .ok (some a)) :
    decode d = .ok a := by
  rw [Decode.option.eq_def] at h
  split at h
  · exact nomatch h
  · cases hd : decode d with
    | error e =>
        rw [hd] at h
        exact nomatch h
    | ok b =>
        rw [hd] at h
        cases h
        rfl

/-- An optional value is carried when null stands for no value. -/
theorem Carries.option (h : Carries encode decode cut) (hnull : ∀ a, encode a ≠ .null) :
    Carries (.ofOption encode) (option decode) (Option.map cut) where
  numberFree := by
    intro o
    cases o with
    | none => exact .null
    | some a => exact h.numberFree a
  decode_encode := by
    intro o
    cases o with
    | none => rfl
    | some a =>
        have hread := h.decode_encode a
        show Decode.option decode (.ofJson (encode a)) = .ok (some (cut a))
        cases he : encode a with
        | null => exact absurd he (hnull a)
        | _ =>
            rw [he] at hread
            exact congrArg (Except.map some) hread
  cut_eq_self := by
    intro d o ho
    cases o with
    | none => rfl
    | some a =>
        rw [Option.map_some, h.cut_eq_self (option_eq_ok ho)]

theorem within_eq_ok {step : Step} {x : Except Fault α} {a : α} (h : within step x = .ok a) :
    x = .ok a := by
  cases x with
  | ok b => exact h
  | error e =>
      cases e with
      | malformed fault => exact nomatch h
      | refused path cause => exact nomatch h

theorem within_eq_ok_iff {step : Step} {x : Except Fault α} {a : α} :
    within step x = .ok a ↔ x = .ok a := by
  constructor
  · exact within_eq_ok
  · rintro rfl
    rfl

/-- The items of a list are decoded one by one. -/
theorem items_ofItems {β : Type} {read : Document → Except Fault β} {f : α → β}
    (h : ∀ a, read (.ofJson (encode a)) = .ok (f a)) (index : Nat) (as : List α) :
    items read .closed index (Document.ofItems (as.map encode)) = .ok (as.map f) := by
  induction as generalizing index with
  | nil => rfl
  | cons a as ih =>
      rw [List.map_cons, Document.ofItems, items, h, ih]
      rfl

theorem cut_of_items (h : ∀ {d a}, decode d = .ok a → cut a = a) {ending : Ending} {index : Nat}
    {ds : List Document} {as : List α} (hd : items decode ending index ds = .ok as) :
    as.map cut = as := by
  induction ds generalizing index as with
  | nil =>
      obtain ⟨-, -, hnil⟩ := bind_eq_ok hd
      cases hnil
      rfl
  | cons d ds ih =>
      obtain ⟨a, ha, hd⟩ := bind_eq_ok hd
      obtain ⟨as, has, hd⟩ := bind_eq_ok hd
      cases hd
      rw [List.map_cons, h (within_eq_ok ha), ih has]

/-- A list is carried when its items are. -/
theorem Carries.list (h : Carries encode decode cut) :
    Carries (fun as => .array (as.map encode)) (list decode) (List.map cut) where
  numberFree := by
    intro as
    refine .array ?_
    intro v hv
    obtain ⟨a, -, rfl⟩ := List.mem_map.1 hv
    exact h.numberFree a
  decode_encode := items_ofItems h.decode_encode 0
  cut_eq_self := by
    intro d as hd
    cases d with
    | array ds ending => exact cut_of_items h.cut_eq_self hd
    | text t => cases t <;> exact nomatch hd
    | number n => cases n <;> exact nomatch hd
    | _ => exact nomatch hd

end Carries

/-! ## Records -/

/-- A member is decoded when it comes for the first time. -/
theorem once_eq_ok {α : Type} {key : String} {f : Document → Except Fault α} {d : Document}
    {current new : Option α} (h : once key f d current = .ok new) : ∃ a, new = some a ∧ f d = .ok a := by
  cases current with
  | some b => exact nomatch h
  | none =>
      cases hd : within (.member key) (f d) with
      | error e =>
          rw [once, hd] at h
          exact nomatch h
      | ok a =>
          rw [once, hd] at h
          cases h
          exact ⟨a, rfl, within_eq_ok hd⟩

/-- A member that may come once is decoded when none of its name came before. -/
theorem once_eq_ok_iff {α : Type} {key : String} {f : Document → Except Fault α}
    {d : Document} {current new : Option α} : once key f d current = .ok new
      ↔ current = none ∧ ∃ a, f d = .ok a ∧ new = some a := by
  cases current with
  | some b => exact iff_of_false (by rintro ⟨⟩) (by rintro ⟨⟨⟩, _⟩)
  | none =>
      constructor
      · intro h
        obtain ⟨a, hnew, ha⟩ := once_eq_ok h
        exact ⟨rfl, a, ha, hnew⟩
      · rintro ⟨-, a, ha, rfl⟩
        rw [once, ha]
        rfl

/-- A member is skipped when its value has no broken leaf. -/
theorem skip_eq_ok_iff {key : String} {d : Document} {u : Unit} :
    skip key d = .ok u ↔ d.skip = .ok () := by
  rw [skip]
  cases d.skip with
  | ok u => exact iff_of_true rfl rfl
  | error fault => exact iff_of_false (by rintro ⟨⟩) (by rintro ⟨⟩)

theorem close_eq_ok_iff {ending : Ending} {u : Unit} :
    close ending = .ok u ↔ ending = .closed := by
  cases ending with
  | closed => exact iff_of_true rfl rfl
  | broken fault => exact iff_of_false (by rintro ⟨⟩) (by rintro ⟨⟩)
  | stray found => exact iff_of_false (by rintro ⟨⟩) (by rintro ⟨⟩)

/-- What each member keeps holds of all of them. -/
theorem members_induct {σ : Type} {step : σ → String → Document → Except Fault σ} {P : σ → Prop}
    (hstep : ∀ {s key d s'}, P s → step s key d = .ok s' → P s') {ending : Ending} {s s' : σ}
    {ms : List (Except SyntaxFault String × Document)} (hs : P s)
    (h : members step ending s ms = .ok s') : P s' := by
  induction ms generalizing s with
  | nil =>
      obtain ⟨-, -, hs'⟩ := bind_eq_ok h
      cases hs'
      exact hs
  | cons m ms ih =>
      obtain ⟨key, d⟩ := m
      cases key with
      | error fault => exact nomatch h
      | ok key =>
          obtain ⟨s₁, hs₁, hrest⟩ := bind_eq_ok h
          exact ih (hstep hs hs₁) hrest

/-- A record is made from its members or from its fields. -/
theorem record_eq_ok {σ α : Type} {name : String} {count : Nat} {medium : Medium} {start : σ}
    {step : σ → String → Document → Except Fault σ} {finish : σ → Except Fault α}
    {fields : Fields → Except Fault (α × Fields)} {d : Document} {a : α}
    (h : record name count medium start step finish fields d = .ok a) :
    (∃ ms ending s, members step ending start ms = .ok s ∧ finish s = .ok a)
      ∨ ∃ fs rest, fields fs = .ok (a, rest) := by
  cases d with
  | object ms ending =>
      obtain ⟨s, hs, ha⟩ := bind_eq_ok h
      exact Or.inl ⟨ms, ending, s, hs, ha⟩
  | array ds ending =>
      obtain ⟨⟨b, rest⟩, hfields, h⟩ := bind_eq_ok h
      obtain ⟨-, -, h⟩ := bind_eq_ok h
      cases h
      exact Or.inr ⟨_, rest, hfields⟩
  | text t => cases t <;> exact nomatch h
  | number n => cases n <;> exact nomatch h
  | _ => exact nomatch h

theorem required_eq_ok {α : Type} {key : String} {o : Option α} {a : α}
    (h : required key o = .ok a) : o = some a := by
  cases o with
  | none => exact nomatch h
  | some b =>
      cases h
      rfl

/-- A member that is as it was cut, or left out, is as it was cut. -/
theorem getD_of_map_eq {α : Type} {cut : α → α} {o : Option α} {default : α}
    (ho : o.map cut = o) (hdefault : cut default = default) :
    cut (o.getD default) = o.getD default := by
  cases o with
  | none => exact hdefault
  | some a => exact Option.some.inj ho

section Fields

variable {α : Type} {f : Document → Except Fault α} {fs rest : Fields}

theorem next?_eq_ok {o : Option α} (h : fs.next? f = .ok (o, rest)) :
    ∀ a, o = some a → ∃ d, f d = .ok a := by
  rw [Fields.next?] at h
  split at h
  · obtain ⟨-, -, h⟩ := bind_eq_ok h
    cases h
    exact fun a ha => nomatch ha
  next d r _ =>
    obtain ⟨b, hb, h⟩ := bind_eq_ok h
    cases h
    intro a ha
    cases ha
    exact ⟨d, within_eq_ok hb⟩

/-- The next field is the next value of the list. -/
theorem next_eq_ok_iff {a : α} : fs.next f = .ok (a, rest) ↔
    ∃ d r, fs.rest = d :: r ∧ f d = .ok a ∧ rest = { fs with taken := fs.taken + 1, rest := r } := by
  rw [Fields.next, Fields.next?]
  cases hrest : fs.rest with
  | nil =>
      refine iff_of_false (fun h => ?_) (by rintro ⟨_, _, ⟨⟩, _⟩)
      obtain ⟨⟨o, fs'⟩, hnext, h⟩ := bind_eq_ok h
      obtain ⟨-, -, hnext⟩ := bind_eq_ok hnext
      cases hnext
      cases h
  | cons d r =>
      constructor
      · intro h
        obtain ⟨⟨o, fs'⟩, hnext, h⟩ := bind_eq_ok h
        obtain ⟨b, hb, hnext⟩ := bind_eq_ok hnext
        cases hnext
        cases h
        exact ⟨d, r, rfl, within_eq_ok hb, rfl⟩
      · rintro ⟨_, _, hsame, ha, rfl⟩
        cases hsame
        show ((within (.item fs.taken) (f d) >>= fun a => pure (some a, _))
          >>= fun x : Option α × Fields => _) = _
        rw [within_eq_ok_iff.2 ha]
        rfl

/-- A list of fields in a text ends when none is left and it is closed. -/
theorem finish_eq_ok_iff (h : fs.medium = .written) {u : Unit} :
    fs.finish = .ok u ↔ fs.rest = [] ∧ fs.ending = .closed := by
  rw [Fields.finish, h]
  cases fs.rest with
  | nil => simp [close_eq_ok_iff]
  | cons d r => exact iff_of_false (by rintro ⟨⟩) (by rintro ⟨⟨⟩, _⟩)

theorem next_eq_ok {a : α} (h : fs.next f = .ok (a, rest)) : ∃ d, f d = .ok a := by
  obtain ⟨d, _, _, ha, _⟩ := next_eq_ok_iff.1 h
  exact ⟨d, ha⟩

theorem nextD_eq_ok {a default : α} (h : fs.nextD f default = .ok (a, rest)) :
    a = default ∨ ∃ d, f d = .ok a := by
  obtain ⟨⟨o, fs'⟩, hnext, h⟩ := bind_eq_ok h
  cases h
  cases o with
  | none => exact Or.inl rfl
  | some b => exact Or.inr (next?_eq_ok hnext b rfl)

end Fields

end HealthWatch.Json
