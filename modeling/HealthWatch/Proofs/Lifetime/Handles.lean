import HealthWatch.Lifetime.Handles
import Mathlib.Data.List.Induction

/-! # Handles — one signal, the same for every handle, and no way back

    What a handle shows is settled by the calls made so far: whether its lifetime was
    stopped through one of the owners, and whether an owner is left.  A lifetime itself
    keeps a flag and a number only.  So the heart is that these two are exact after any
    calls: the flag is set if and only if a stop was among them, and the number is that of
    the owners that are held.

    * `step?_eq_some_iff`: all that one call can do;
    * `Sound.step` and `isStopped_step_iff`: what it does to the number and to the flag;
    * `Shown` says what the handles of a lifetime show, `Onward` what they show from then on;
    * `stop_reaches_every_handle` puts both together, after any calls. -/

namespace HealthWatch.Holdings

variable {s t : Holdings} {calls later : List Call} {c : Call} {h : Handle} {l n : Nat}

/-! ## Handles and lifetimes after a change -/

theorem getElem?_concat {α : Type} (xs : List α) (a : α) (k : Nat) :
    (xs ++ [a])[k]? = if k = xs.length then some a else xs[k]? := by
  by_cases hk : k = xs.length
  · rw [if_pos hk, hk, List.getElem?_concat_length]
  · rw [if_neg hk, List.getElem?_append]
    split
    · rfl
    · rw [List.getElem?_eq_none (by simp only [List.length_singleton]; omega),
        List.getElem?_eq_none (by omega)]

theorem handle?_eq_some_iff : s.handle? n = some h ↔ s.handles[n]? = some (some h) := by
  rw [handle?, Option.join_eq_some_iff]

theorem owned?_eq_some_iff : s.owned? n = some l ↔ s.handle? n = some (.owner l) := by
  rw [owned?]
  split <;> simp_all

theorem watched?_eq_some_iff : s.watched? n = some l ↔ s.handle? n = some (.watcher l) := by
  rw [watched?]
  split <;> simp_all

@[simp] theorem lifetimes_hand (s : Holdings) (h : Handle) :
    (s.hand h).lifetimes = s.lifetimes := rfl

@[simp] theorem lifetimes_letGo (s : Holdings) (n : Nat) :
    (s.letGo n).lifetimes = s.lifetimes := rfl

@[simp] theorem length_lifetimes_change (s : Holdings) (l : Nat) (f : Lifetime → Lifetime) :
    (s.change l f).lifetimes.length = s.lifetimes.length :=
  List.length_modify ..

/-- A change meets one lifetime and no other. -/
theorem lifetimes_change (s : Holdings) (l : Nat) (f : Lifetime → Lifetime) (k : Nat) :
    (s.change l f).lifetimes[k]? = s.lifetimes[k]?.map fun x => if l = k then f x else x := by
  rw [change, List.getElem?_modify]
  rfl

theorem lifetimes_begin (s : Holdings) (k : Nat) :
    s.begin.lifetimes[k]? = if k = s.lifetimes.length then some {} else s.lifetimes[k]? :=
  getElem?_concat ..

/-! ## One call -/

/-- A call can be made on a handle that is held; a stop and a subscription need an owner. -/
def CanMake (s : Holdings) : Call → Prop
  | .create => True
  | .clone n | .drop n => ∃ h, s.handle? n = some h
  | .stop n | .subscribe n => ∃ l, s.handle? n = some (.owner l)

/-- All that one call can do. -/
inductive Step : Holdings → Call → Holdings → Prop where
  | create (s : Holdings) : Step s .create (s.begin.hand (.owner s.lifetimes.length))
  | clone {s : Holdings} {n : Nat} {h : Handle} (hn : s.handle? n = some h) :
      Step s (.clone n) ((s.change h.lifetime h.join).hand h)
  | drop {s : Holdings} {n : Nat} {h : Handle} (hn : s.handle? n = some h) :
      Step s (.drop n) ((s.change h.lifetime h.leave).letGo n)
  | stop {s : Holdings} {n l : Nat} (hn : s.handle? n = some (.owner l)) :
      Step s (.stop n) (s.change l .stop)
  | subscribe {s : Holdings} {n l : Nat} (hn : s.handle? n = some (.owner l)) :
      Step s (.subscribe n) (s.hand (.watcher l))

/-- A call can be made exactly as one of the steps. -/
theorem step?_eq_some_iff : s.step? c = some t ↔ Step s c t := by
  constructor
  · intro hstep
    cases c with
    | create =>
        obtain rfl := Option.some.inj hstep
        exact .create s
    | clone n =>
        obtain ⟨h, hn, rfl⟩ := Option.map_eq_some_iff.1 hstep
        exact .clone hn
    | drop n =>
        obtain ⟨h, hn, rfl⟩ := Option.map_eq_some_iff.1 hstep
        exact .drop hn
    | stop n =>
        obtain ⟨l, hn, rfl⟩ := Option.map_eq_some_iff.1 hstep
        exact .stop (owned?_eq_some_iff.1 hn)
    | subscribe n =>
        obtain ⟨l, hn, rfl⟩ := Option.map_eq_some_iff.1 hstep
        exact .subscribe (owned?_eq_some_iff.1 hn)
  · intro hstep
    cases hstep with
    | create => rfl
    | clone hn | drop hn => exact Option.map_eq_some_iff.2 ⟨_, hn, rfl⟩
    | stop hn | subscribe hn =>
        exact Option.map_eq_some_iff.2 ⟨_, owned?_eq_some_iff.2 hn, rfl⟩

/-- It can be made when the handle it is for is held. -/
theorem exists_step?_iff : (∃ t, s.step? c = some t) ↔ s.CanMake c := by
  constructor
  · rintro ⟨t, ht⟩
    cases step?_eq_some_iff.1 ht with
    | create => trivial
    | clone hn | drop hn | stop hn | subscribe hn => exact ⟨_, hn⟩
  · intro hmake
    cases c with
    | create => exact ⟨_, step?_eq_some_iff.2 (.create s)⟩
    | clone n =>
        obtain ⟨h, hn⟩ := hmake
        exact ⟨_, step?_eq_some_iff.2 (.clone hn)⟩
    | drop n =>
        obtain ⟨h, hn⟩ := hmake
        exact ⟨_, step?_eq_some_iff.2 (.drop hn)⟩
    | stop n =>
        obtain ⟨l, hn⟩ := hmake
        exact ⟨_, step?_eq_some_iff.2 (.stop hn)⟩
    | subscribe n =>
        obtain ⟨l, hn⟩ := hmake
        exact ⟨_, step?_eq_some_iff.2 (.subscribe hn)⟩

/-- More calls are made after the first ones. -/
theorem run?_append (s : Holdings) (calls later : List Call) :
    s.run? (calls ++ later) = (s.run? calls).bind (run? · later) :=
  List.foldlM_append ..

/-- The last call of a run is one step. -/
theorem run?_concat_eq_some_iff :
    s.run? (calls ++ [c]) = some t ↔ ∃ r, s.run? calls = some r ∧ Step r c t := by
  rw [run?_append, Option.bind_eq_some_iff]
  refine exists_congr fun r => and_congr_right fun _ => ?_
  rw [← step?_eq_some_iff, run?, List.foldlM_cons]
  exact iff_of_eq (congrArg (· = some t) (bind_pure (r.step? c)))

/-! ## The number of owners -/

/-- A handle of this kind is held. -/
def Holds (s : Holdings) (h : Handle) : Prop := ∃ n, s.handle? n = some h

theorem holds_iff_mem : s.Holds h ↔ some h ∈ s.handles := by
  rw [Holds, List.mem_iff_getElem?]
  exact exists_congr fun n => handle?_eq_some_iff

/-- No handle is held that was not before, but the one that is handed out. -/
theorem Holds.of_hand {g : Handle} (hh : (s.hand g).Holds h) : s.Holds h ∨ h = g := by
  simpa [holds_iff_mem, hand] using hh

/-- Letting go of a handle brings no other. -/
theorem Holds.of_letGo (hh : (s.letGo n).Holds h) : s.Holds h := by
  rw [holds_iff_mem] at hh ⊢
  exact (List.mem_or_eq_of_mem_set hh).resolve_right (Option.some_ne_none h)

/-- How many owners of a lifetime are held. -/
def ownersHeld (s : Holdings) (l : Nat) : Nat := s.handles.count (some (.owner l))

/-- No owners are held when no handle is one. -/
theorem ownersHeld_eq_zero_iff : s.ownersHeld l = 0 ↔ ¬ s.Holds (.owner l) := by
  rw [ownersHeld, List.count_eq_zero, holds_iff_mem]

/-- Handing out an owner makes one more. -/
theorem ownersHeld_hand (s : Holdings) (h : Handle) (l : Nat) :
    (s.hand h).ownersHeld l = s.ownersHeld l + if h = .owner l then 1 else 0 := by
  rw [ownersHeld, hand, List.count_append, List.count_singleton, ownersHeld]
  simp only [Option.some_beq_some, beq_iff_eq]

/-- Letting go of an owner leaves one less. -/
theorem ownersHeld_letGo (hn : s.handle? n = some h) (l : Nat) :
    (s.letGo n).ownersHeld l = s.ownersHeld l - if h = .owner l then 1 else 0 := by
  obtain ⟨hlt, hget⟩ := List.getElem?_eq_some_iff.1 (handle?_eq_some_iff.1 hn)
  rw [ownersHeld, letGo, List.count_set hlt, hget, ownersHeld]
  simp only [Option.some_beq_some, beq_iff_eq, Option.none_beq_some, Bool.false_eq_true, if_false,
    Nat.add_zero]

theorem owners_join (h : Handle) (l : Nat) (x : Lifetime) :
    (if h.lifetime = l then h.join x else x).owners =
      x.owners + if h = .owner l then 1 else 0 := by
  cases h with
  | owner k =>
      by_cases hk : k = l <;> simp [Handle.lifetime, Handle.join, Lifetime.addOwner, hk]
  | watcher k =>
      simp only [Handle.join, ite_self, reduceCtorEq, if_false, Nat.add_zero]

theorem owners_leave (h : Handle) (l : Nat) (x : Lifetime) :
    (if h.lifetime = l then h.leave x else x).owners =
      x.owners - if h = .owner l then 1 else 0 := by
  cases h with
  | owner k =>
      by_cases hk : k = l <;> simp [Handle.lifetime, Handle.leave, Lifetime.dropOwner, hk]
  | watcher k =>
      simp only [Handle.leave, ite_self, reduceCtorEq, if_false, Nat.sub_zero]

/-- Every handle has its lifetime, and every lifetime counts the owners that are held. -/
structure Sound (s : Holdings) : Prop where
  placed : ∀ h, s.Holds h → h.lifetime < s.lifetimes.length
  counted : ∀ l x, s.lifetimes[l]? = some x → x.owners = s.ownersHeld l

theorem sound_empty : Sound {} where
  placed h hh := by cases holds_iff_mem.1 hh
  counted l x hx := by cases hx

/-- A lifetime is changed, and its owners that are held change as much. -/
theorem Sound.of_change {f : Lifetime → Lifetime} (hs : s.Sound)
    (hlifetimes : t.lifetimes = (s.change n f).lifetimes) (hheld : ∀ h, t.Holds h → s.Holds h)
    (hcounted : ∀ l x, x.owners = s.ownersHeld l →
      (if n = l then f x else x).owners = t.ownersHeld l) : t.Sound where
  placed h hh := by
    rw [hlifetimes, length_lifetimes_change]
    exact hs.placed h (hheld h hh)
  counted l x hx := by
    rw [hlifetimes, lifetimes_change, Option.map_eq_some_iff] at hx
    obtain ⟨y, hy, rfl⟩ := hx
    exact hcounted l y (hs.counted l y hy)

/-- A new lifetime has the one owner that was handed out. -/
theorem Sound.create (hs : s.Sound) : (s.begin.hand (.owner s.lifetimes.length)).Sound where
  placed h hh := by
    rw [lifetimes_hand, begin, List.length_append, List.length_singleton]
    rcases hh.of_hand with hh | rfl
    · exact Nat.lt_succ_of_lt (hs.placed h hh)
    · exact Nat.lt_succ_self _
  counted l x hx := by
    rw [lifetimes_hand, lifetimes_begin] at hx
    rw [ownersHeld_hand]
    by_cases hl : l = s.lifetimes.length
    · rw [if_pos hl] at hx
      -- nobody can have owned a lifetime that did not exist
      have hnone : s.begin.ownersHeld l = 0 :=
        ownersHeld_eq_zero_iff.2 fun hh => Nat.ne_of_lt (hs.placed _ hh) hl
      rw [hnone, if_pos (congrArg Handle.owner hl.symm), ← Option.some.inj hx]
    · rw [if_neg hl] at hx
      rw [if_neg fun h => hl (Handle.owner.inj h).symm]
      exact hs.counted l x hx

/-- What one call does to the number of owners, it does to the owners that are held. -/
theorem Sound.step (hs : s.Sound) (hstep : Step s c t) : t.Sound := by
  cases hstep with
  | create => exact hs.create
  | @clone n h hn =>
      refine hs.of_change rfl (fun g hg => ?_) fun l x hx => ?_
      · rcases hg.of_hand with hg | rfl
        · exact hg
        · exact ⟨n, hn⟩
      · rw [owners_join, ownersHeld_hand, hx]
        rfl
  | @drop n h hn =>
      refine hs.of_change rfl (fun g hg => hg.of_letGo) fun l x hx => ?_
      have hheld := ownersHeld_letGo (s := s.change h.lifetime h.leave) hn l
      rw [owners_leave, hheld, hx]
      rfl
  | @stop n k hn =>
      refine hs.of_change rfl (fun g hg => hg) fun l x hx => ?_
      rw [apply_ite Lifetime.owners, Lifetime.stop, ite_self]
      exact hx
  | @subscribe n k hn =>
      refine ⟨fun g hg => ?_, fun l x hx => ?_⟩
      · rcases hg.of_hand with hg | rfl
        · exact hs.placed g hg
        · exact hs.placed (.owner k) ⟨n, hn⟩
      · rw [ownersHeld_hand, if_neg Handle.noConfusion]
        exact hs.counted l x hx

/-! ## The flag -/

/-- The flag of a lifetime is set. -/
def IsStopped (s : Holdings) (l : Nat) : Prop :=
  ∃ x, s.lifetimes[l]? = some x ∧ x.stopped = true

/-- A change of another lifetime, or one that leaves the flag alone. -/
theorem isStopped_change {k : Nat} {f : Lifetime → Lifetime}
    (hf : k = l → ∀ x, (f x).stopped = x.stopped) :
    (s.change k f).IsStopped l ↔ s.IsStopped l := by
  have hflag (x : Lifetime) : (if k = l then f x else x).stopped = x.stopped := by
    split
    · next hk => exact hf hk x
    · rfl
  simp only [IsStopped, lifetimes_change, Option.map_eq_some_iff, exists_exists_and_eq_and, hflag]

theorem stopped_join (h : Handle) (x : Lifetime) : (h.join x).stopped = x.stopped := by
  cases h <;> rfl

theorem stopped_leave (h : Handle) (x : Lifetime) : (h.leave x).stopped = x.stopped := by
  cases h <;> rfl

/-- The flag of a lifetime is set by a stop through one of its owners and by nothing else,
    and nothing takes it back. -/
theorem isStopped_step_iff (hs : s.Sound) (hstep : Step s c t) :
    t.IsStopped l ↔ s.IsStopped l ∨ ∃ n, c = .stop n ∧ s.handle? n = some (.owner l) := by
  cases hstep with
  | create =>
      rw [or_iff_left fun ⟨_, h, _⟩ => Call.noConfusion h]
      simp only [IsStopped, lifetimes_hand, lifetimes_begin]
      by_cases hl : l = s.lifetimes.length
      · rw [if_pos hl, List.getElem?_eq_none (Nat.le_of_eq hl.symm)]
        exact iff_of_false (fun ⟨x, hx, hflag⟩ => by cases hx; cases hflag)
          fun ⟨x, hx, _⟩ => by cases hx
      · rw [if_neg hl]
  | @clone n h hn =>
      rw [or_iff_left fun ⟨_, h, _⟩ => Call.noConfusion h]
      exact isStopped_change fun _ => stopped_join h
  | @drop n h hn =>
      rw [or_iff_left fun ⟨_, h, _⟩ => Call.noConfusion h]
      exact isStopped_change fun _ => stopped_leave h
  | @stop n k hn =>
      by_cases hk : k = l
      · subst hk
        have hlt : k < s.lifetimes.length := hs.placed (.owner k) ⟨n, hn⟩
        refine iff_of_true ⟨s.lifetimes[k].stop, ?_, rfl⟩ (.inr ⟨n, rfl, hn⟩)
        rw [lifetimes_change, List.getElem?_eq_getElem hlt, Option.map_some, if_pos rfl]
      · rw [isStopped_change fun h => absurd h hk, or_iff_left]
        rintro ⟨m, hm, howner⟩
        obtain rfl := Call.stop.inj hm
        exact hk (Handle.owner.inj (Option.some.inj (hn.symm.trans howner)))
  | @subscribe n k hn =>
      rw [or_iff_left fun ⟨_, h, _⟩ => Call.noConfusion h]
      exact Iff.rfl

/-- A stop was called on a handle that owned this lifetime. -/
def StopCalled (calls : List Call) (l : Nat) : Prop :=
  ∃ before n after s, calls = before ++ .stop n :: after ∧ run? {} before = some s ∧
    s.handle? n = some (.owner l)

/-- A stop is called by a stop on an owner of the lifetime. -/
theorem stopCalled_concat_iff (hrun : run? {} calls = some s) :
    StopCalled (calls ++ [c]) l ↔
      StopCalled calls l ∨ ∃ n, c = .stop n ∧ s.handle? n = some (.owner l) := by
  constructor
  · rintro ⟨before, n, after, r, hcalls, hr, hn⟩
    cases after using List.reverseRecOn with
    | nil =>
        obtain ⟨rfl, hc⟩ := List.append_inj' hcalls rfl
        obtain rfl := Option.some.inj (hr.symm.trans hrun)
        exact .inr ⟨n, List.head_eq_of_cons_eq hc, hn⟩
    | append_singleton after d =>
        rw [← List.cons_append, ← List.append_assoc] at hcalls
        exact .inl ⟨before, n, after, r, (List.append_inj' hcalls rfl).1, hr, hn⟩
  · rintro (⟨before, n, after, r, rfl, hr, hn⟩ | ⟨n, rfl, hn⟩)
    · exact ⟨before, n, after ++ [c], r, by rw [List.append_assoc]; rfl, hr, hn⟩
    · exact ⟨calls, n, [], s, rfl, hrun, hn⟩

/-- After any calls the numbers are right, and a flag is set if and only if a stop was called. -/
theorem sound_of_run (hrun : run? {} calls = some s) :
    s.Sound ∧ ∀ l, s.IsStopped l ↔ StopCalled calls l := by
  induction calls using List.reverseRecOn generalizing s with
  | nil =>
      obtain rfl := Option.some.inj hrun
      refine ⟨sound_empty, fun l => iff_of_false (fun ⟨x, hx, _⟩ => by cases hx) ?_⟩
      rintro ⟨before, n, after, r, hcalls, -, -⟩
      exact List.append_ne_nil_of_right_ne_nil before (List.cons_ne_nil _ after) hcalls.symm
  | append_singleton calls c ih =>
      obtain ⟨r, hr, hstep⟩ := run?_concat_eq_some_iff.1 hrun
      obtain ⟨hsound, hflag⟩ := ih hr
      refine ⟨hsound.step hstep, fun l => ?_⟩
      rw [isStopped_step_iff hsound hstep, hflag, stopCalled_concat_iff hr]

/-- A stop that was called was called for all that comes later. -/
theorem StopCalled.append (hstop : StopCalled calls l) (later : List Call) :
    StopCalled (calls ++ later) l := by
  obtain ⟨before, n, after, r, rfl, hr, hn⟩ := hstop
  exact ⟨before, n, after ++ later, r, by rw [List.append_assoc]; rfl, hr, hn⟩

/-! ## Lifetimes without owners -/

/-- A lifetime that was begun and has no owner any more. -/
structure Unowned (s : Holdings) (l : Nat) : Prop where
  sound : s.Sound
  begun : l < s.lifetimes.length
  unheld : ¬ s.Holds (.owner l)

/-- Nobody becomes the owner of a lifetime but through another owner, and nobody else can
    stop it. -/
theorem Unowned.step (hs : s.Unowned l) (hstep : Step s c t) :
    t.Unowned l ∧ (t.IsStopped l ↔ s.IsStopped l) := by
  refine ⟨⟨hs.sound.step hstep, ?_, ?_⟩, ?_⟩
  · cases hstep with
    | create =>
        rw [lifetimes_hand, begin, List.length_append]
        exact Nat.lt_add_right 1 hs.begun
    | clone | drop | stop | subscribe =>
        simpa only [lifetimes_hand, lifetimes_letGo, length_lifetimes_change] using hs.begun
  · intro hh
    cases hstep with
    | create =>
        rcases hh.of_hand with hh | hh
        · exact hs.unheld hh
        · exact Nat.ne_of_lt hs.begun (Handle.owner.inj hh)
    | @clone n h hn =>
        rcases hh.of_hand with hh | rfl
        · exact hs.unheld hh
        · exact hs.unheld ⟨n, hn⟩
    | drop => exact hs.unheld hh.of_letGo
    | stop => exact hs.unheld hh
    | subscribe =>
        rcases hh.of_hand with hh | hh
        · exact hs.unheld hh
        · exact Handle.noConfusion hh
  · rw [isStopped_step_iff hs.sound hstep, or_iff_left]
    rintro ⟨n, -, hn⟩
    exact hs.unheld ⟨n, hn⟩

/-- Without owners a lifetime stays as it is, whatever is called. -/
theorem Unowned.run (hs : s.Unowned l) (hrun : s.run? later = some t) :
    t.Unowned l ∧ (t.IsStopped l ↔ s.IsStopped l) := by
  induction later using List.reverseRecOn generalizing t with
  | nil =>
      obtain rfl := Option.some.inj hrun
      exact ⟨hs, Iff.rfl⟩
  | append_singleton later c ih =>
      obtain ⟨r, hr, hstep⟩ := run?_concat_eq_some_iff.1 hrun
      obtain ⟨hunowned, hflag⟩ := ih hr
      obtain ⟨hafter, hsame⟩ := hunowned.step hstep
      exact ⟨hafter, hsame.trans hflag⟩

/-! ## What handles show -/

/-- What the handles of a lifetime show after some calls. -/
structure Shown (calls : List Call) (s : Holdings) (l : Nat) : Prop where
  /-- Every handle tells whether a stop was called. -/
  stopping : ∀ n h, s.handle? n = some h → h.lifetime = l →
    ∃ b, s.isStopping? n = some b ∧ (b = true ↔ StopCalled calls l)
  /-- A watcher waits until a stop is called or no owner is left. -/
  waiting : ∀ n, s.handle? n = some (.watcher l) →
    ∃ b, s.waitIsOver? n = some b ∧ (b = true ↔ StopCalled calls l ∨ ¬ s.Holds (.owner l))
  /-- The application is unhealthy if and only if a stop was called, and healthy otherwise. -/
  looking : ∀ n, s.handle? n = some (.watcher l) →
    ∃ r, s.liveness? n = some r ∧ (r.status = .unhealthy ↔ StopCalled calls l) ∧
      (r = .healthy ↔ ¬ StopCalled calls l)

/-- What the handles of a lifetime show in a later state. -/
structure Onward (s t : Holdings) (l : Nat) : Prop where
  /-- Once a handle tells that the lifetime is stopped, all of them do. -/
  stopped : ∀ n h, s.handle? n = some h → h.lifetime = l → s.isStopping? n = some true →
    ∀ m g, t.handle? m = some g → g.lifetime = l → t.isStopping? m = some true
  /-- A lifetime that lost its owners without a stop is never stopped. -/
  unstopped : ∀ n h, s.handle? n = some h → h.lifetime = l → s.isStopping? n = some false →
    ¬ s.Holds (.owner l) →
    ∀ m g, t.handle? m = some g → g.lifetime = l → t.isStopping? m = some false
  /-- Once waiting is over, it is over for all watchers. -/
  ended : ∀ n, s.handle? n = some (.watcher l) → s.waitIsOver? n = some true →
    ∀ m, t.handle? m = some (.watcher l) → t.waitIsOver? m = some true

theorem Sound.exists_lifetime (hs : s.Sound) (hn : s.handle? n = some h) (hl : h.lifetime = l) :
    ∃ x, s.lifetimes[l]? = some x :=
  ⟨_, List.getElem?_eq_getElem (hl ▸ hs.placed h ⟨n, hn⟩)⟩

theorem isStopped_iff {x : Lifetime} (hx : s.lifetimes[l]? = some x) :
    s.IsStopped l ↔ x.stopped = true := by
  rw [IsStopped, hx]
  exact ⟨fun ⟨_, hy, hflag⟩ => Option.some.inj hy ▸ hflag, fun hflag => ⟨x, rfl, hflag⟩⟩

/-- A handle tells the flag of its lifetime. -/
theorem Sound.isStopping? (hs : s.Sound) (hn : s.handle? n = some h) (hl : h.lifetime = l) :
    ∃ b, s.isStopping? n = some b ∧ (b = true ↔ s.IsStopped l) := by
  obtain ⟨x, hx⟩ := hs.exists_lifetime hn hl
  refine ⟨x.stopped, ?_, (isStopped_iff hx).symm⟩
  rw [Holdings.isStopping?, hn, Option.bind_eq_bind, Option.bind_some, hl, hx]
  rfl

/-- A watcher waits for the flag or for the last owner to go. -/
theorem Sound.waitIsOver? (hs : s.Sound) (hn : s.handle? n = some (.watcher l)) :
    ∃ b, s.waitIsOver? n = some b ∧ (b = true ↔ s.IsStopped l ∨ ¬ s.Holds (.owner l)) := by
  obtain ⟨x, hx⟩ := hs.exists_lifetime hn rfl
  refine ⟨x.isOver, ?_, ?_⟩
  · rw [Holdings.waitIsOver?, watched?_eq_some_iff.2 hn, Option.bind_eq_bind, Option.bind_some]
    exact congrArg (Option.bind · _) hx
  · rw [Lifetime.isOver, Bool.or_eq_true, decide_eq_true_iff, hs.counted _ x hx,
      ownersHeld_eq_zero_iff, ← isStopped_iff hx]
    rfl

theorem shown_of_run (hrun : run? {} calls = some s) (l : Nat) : Shown calls s l := by
  obtain ⟨hs, hflag⟩ := sound_of_run hrun
  refine ⟨fun n h hn hl => ?_, fun n hn => ?_, fun n hn => ?_⟩
  · obtain ⟨b, hb, hiff⟩ := hs.isStopping? hn hl
    exact ⟨b, hb, hiff.trans (hflag l)⟩
  · obtain ⟨b, hb, hiff⟩ := hs.waitIsOver? hn
    exact ⟨b, hb, hiff.trans (or_congr_left (hflag l))⟩
  · obtain ⟨b, hb, hiff⟩ := hs.isStopping? hn rfl
    refine ⟨Liveness.check b, ?_, ?_⟩
    · rw [liveness?, watched?_eq_some_iff.2 hn, hb]
      rfl
    · rw [← hiff.trans (hflag l)]
      cases b <;> decide

theorem onward_of_run (hrun : run? {} calls = some s) (hlater : s.run? later = some t) (l : Nat) :
    Onward s t l := by
  obtain ⟨hs, hflag⟩ := sound_of_run hrun
  have hboth : run? {} (calls ++ later) = some t := by
    rw [run?_append, hrun]
    exact hlater
  obtain ⟨ht, hflagAfter⟩ := sound_of_run hboth
  have hstays (hstop : s.IsStopped l) : t.IsStopped l :=
    (hflagAfter l).2 (((hflag l).1 hstop).append later)
  refine ⟨fun n h hn hl hb m g hm hg => ?_, fun n h hn hl hb hnone m g hm hg => ?_,
    fun n hn hb m hm => ?_⟩
  · obtain ⟨b, hb', hiff⟩ := hs.isStopping? hn hl
    obtain ⟨d, hd, hiffAfter⟩ := ht.isStopping? hm hg
    obtain rfl := Option.some.inj (hb'.symm.trans hb)
    rw [hd, hiffAfter.2 (hstays (hiff.1 rfl))]
  · obtain ⟨b, hb', hiff⟩ := hs.isStopping? hn hl
    obtain ⟨d, hd, hiffAfter⟩ := ht.isStopping? hm hg
    obtain rfl := Option.some.inj (hb'.symm.trans hb)
    have hunowned : s.Unowned l := ⟨hs, hl ▸ hs.placed h ⟨n, hn⟩, hnone⟩
    have hnot : ¬ t.IsStopped l := fun hstop =>
      Bool.false_ne_true (hiff.2 ((hunowned.run hlater).2.1 hstop))
    rw [hd, Bool.eq_false_iff.2 (mt hiffAfter.1 hnot)]
  · obtain ⟨b, hb', hiff⟩ := hs.waitIsOver? hn
    obtain ⟨d, hd, hiffAfter⟩ := ht.waitIsOver? hm
    obtain rfl := Option.some.inj (hb'.symm.trans hb)
    rw [hd, hiffAfter.2]
    rcases hiff.1 rfl with hstop | hnone
    · exact .inl (hstays hstop)
    · have hunowned : s.Unowned l := ⟨hs, hs.placed (.watcher l) ⟨n, hn⟩, hnone⟩
      exact .inr (hunowned.run hlater).1.unheld

/-- Whatever calls are made on handles that are held, in whatever order, all handles of a
    lifetime show the same: a stop that was called through any of its owners, now and ever
    after, and nothing of it as long as none was called; waiting is over with a stop or with
    the last owner, and the application is unhealthy with a stop only. -/
theorem stop_reaches_every_handle (hrun : run? {} calls = some s) :
    (∀ c, (∃ t, s.step? c = some t) ↔ s.CanMake c) ∧ (∀ l, Shown calls s l) ∧
      ∀ later t, s.run? later = some t → ∀ l, Onward s t l :=
  ⟨fun _ => exists_step?_iff, shown_of_run hrun, fun _ _ hlater => onward_of_run hrun hlater⟩

/-- Lifetime 0 is stopped through a clone after its first owner is gone, and lifetime 1 loses
    its owner without a stop.  A watcher that is shared only after that shows the stop too. -/
theorem stop_by_a_clone_and_an_owner_lost :
    ∃ s t, run? {} [.create, .subscribe 0, .clone 0, .drop 0, .stop 2, .drop 2, .create,
        .subscribe 3, .drop 3] = some s ∧ s.run? [.clone 1] = some t ∧
      s.isStopping? 1 = some true ∧ t.isStopping? 5 = some true ∧
      s.isStopping? 4 = some false ∧ s.waitIsOver? 4 = some true ∧
      s.liveness? 4 = some .healthy ∧
      (∀ l, Shown [.create, .subscribe 0, .clone 0, .drop 0, .stop 2, .drop 2, .create,
        .subscribe 3, .drop 3] s l) ∧ ∀ l, Onward s t l := by
  have hrun : run? {} [.create, .subscribe 0, .clone 0, .drop 0, .stop 2, .drop 2, .create,
      .subscribe 3, .drop 3] = some {
        lifetimes := [{ stopped := true, owners := 0 }, { stopped := false, owners := 0 }]
        handles := [none, some (.watcher 0), none, none, some (.watcher 1)] } := rfl
  obtain ⟨-, hshown, honward⟩ := stop_reaches_every_handle hrun
  exact ⟨_, _, hrun, rfl, rfl, rfl, rfl, rfl, rfl, hshown, honward [.clone 1] _ rfl⟩

end HealthWatch.Holdings
