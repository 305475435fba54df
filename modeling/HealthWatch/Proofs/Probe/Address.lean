import HealthWatch.Probe.Transfer.Address
import HealthWatch.Proofs.Text.Decimal

/-! # Addresses of file servers — which texts are read, and as what

    What is read of an address is its authority: what stands behind the scheme and the user
    and before the path.  The authority is a host, perhaps with a port, and the host stands in
    brackets when it holds a colon.

    * `Frame` is what stands around an authority, `Documented` says which authorities there
      are and which host and port they name;
    * `documented_addresses_are_read`: these addresses are read, and a host never holds what
      delimits a user or a path;
    * `accepted_iff` says what else is read.  The host without brackets ends at the last colon,
      not at the first one, so a host with colons in no brackets is read as well, and loses
      what stands behind its last colon when this is a port (`Clipped`). -/

namespace HealthWatch.Transfer.Address

open Text

/-! ## Parts of an authority -/

/-- A port: a numeral of sixteen bits. -/
structure Port extends Numeral where
  value_lt : toNumeral.value < portBound

/-- A port behind its colon, or nothing. -/
def portText : Option Port → List Char
  | some p => ':' :: p.text
  | none => []

/-- The number of a port, that of the service when none is written. -/
def portNumber : Option Port → Nat
  | some p => p.value
  | none => standardPort

/-- A host: some characters, none of which delimits a user or a path. -/
structure HostText where
  chars : List Char
  ne_nil : chars ≠ []
  slash_notMem : '/' ∉ chars
  at_notMem : '@' ∉ chars

/-- The documented authorities with the host and the port that they name. -/
inductive Documented : List Char → Address → Prop where
  | plain (host : HostText) (port : Option Port) (hcolon : ':' ∉ host.chars)
      (hopen : host.chars.head? ≠ some '[') :
      Documented (host.chars ++ portText port) ⟨String.ofList host.chars, portNumber port⟩
  | bracketed (host : HostText) (port : Option Port) (hclose : ']' ∉ host.chars) :
      Documented ('[' :: (host.chars ++ ']' :: portText port))
        ⟨String.ofList host.chars, portNumber port⟩

/-- A host with colons in no brackets, which is cut off at its last colon. -/
inductive Clipped : List Char → Address → Prop where
  | plain (host : HostText) (port : Port) (hcolon : ':' ∈ host.chars)
      (hopen : host.chars.head? ≠ some '[') :
      Clipped (host.chars ++ ':' :: port.text) ⟨String.ofList host.chars, port.value⟩

/-- A port is read from the texts of a port. -/
theorem port?_eq_some_iff {s : List Char} {n : Nat} :
    port? s = some n ↔ ∃ p : Port, s = p.text ∧ p.value = n := by
  rw [port?, unsigned?_eq_some_iff]
  constructor
  · rintro ⟨m, rfl, rfl, hlt⟩
    exact ⟨⟨m, hlt⟩, rfl, rfl⟩
  · rintro ⟨p, rfl, rfl⟩
    exact ⟨p.toNumeral, rfl, rfl, p.value_lt⟩

/-- A port holds no character but digits and a plus sign. -/
theorem notMem_portText {c : Char} (hc : isDigit c = false) (hplus : c ≠ '+') (hcolon : c ≠ ':')
    (port : Option Port) : c ∉ portText port := by
  cases port with
  | none => exact List.not_mem_nil
  | some p => exact fun h => (List.mem_cons.1 h).elim hcolon (p.notMem_text hc hplus)

/-- What is read behind an opening bracket. -/
theorem bracketed?_eq_some_iff {s : List Char} {a : Address} :
    bracketed? s = some a
      ↔ ∃ (host : List Char) (port : Option Port), host ≠ [] ∧ ']' ∉ host
        ∧ s = host ++ ']' :: portText port ∧ a = ⟨String.ofList host, portNumber port⟩ := by
  constructor
  · intro h
    unfold bracketed? at h
    split at h
    · cases h
    · cases h
    · next host hne hcut =>
        cases h
        exact ⟨host, none, hne, not_mem_of_cutFirst hcut, cutFirst_append hcut, rfl⟩
    · next host p hne hcut =>
        obtain ⟨n, hn, rfl⟩ := Option.map_eq_some_iff.1 h
        obtain ⟨port, rfl, rfl⟩ := port?_eq_some_iff.1 hn
        exact ⟨host, some port, hne, not_mem_of_cutFirst hcut, cutFirst_append hcut, rfl⟩
    · cases h
  · rintro ⟨host, port, hne, hclose, rfl, rfl⟩
    obtain ⟨c, r, rfl⟩ := List.exists_cons_of_ne_nil hne
    rw [bracketed?, cutFirst_of_not_mem _ hclose]
    cases port with
    | none => rfl
    | some port =>
        show (port? port.text).map _ = _
        rw [port?_eq_some_iff.2 ⟨port, rfl, rfl⟩]
        rfl

/-- What is read when no bracket opens. -/
theorem plain?_eq_some_iff {s : List Char} {a : Address} :
    plain? s = some a
      ↔ ':' ∉ s ∧ a = ⟨String.ofList s, standardPort⟩
        ∨ ∃ (host : List Char) (port : Port), host ≠ [] ∧ s = host ++ ':' :: port.text
          ∧ a = ⟨String.ofList host, port.value⟩ := by
  constructor
  · intro h
    unfold plain? at h
    split at h
    · next hcut =>
        cases h
        exact Or.inl ⟨cutLast_eq_none_iff.1 hcut, rfl⟩
    · cases h
    · next host p hne hcut =>
        obtain ⟨n, hn, rfl⟩ := Option.map_eq_some_iff.1 h
        obtain ⟨port, rfl, rfl⟩ := port?_eq_some_iff.1 hn
        exact Or.inr ⟨host, port, hne, cutLast_append hcut, rfl⟩
  · rintro (⟨hcolon, rfl⟩ | ⟨host, port, hne, rfl, rfl⟩)
    · rw [plain?, cutLast_eq_none_iff.2 hcolon]
    · obtain ⟨c, r, rfl⟩ := List.exists_cons_of_ne_nil hne
      rw [plain?, cutLast_of_not_mem _ (port.notMem_text (by decide) (by decide))]
      show (port? port.text).map _ = _
      rw [port?_eq_some_iff.2 ⟨port, rfl, rfl⟩]
      rfl

/-! ## What stands around an authority -/

/-- A scheme or none. -/
def schemeText : Bool → List Char
  | true => "ftp://".toList
  | false => []

/-- A user, perhaps with a password, before its delimiter, or nothing. -/
def userText : Option (List Char) → List Char
  | some u => u ++ ['@']
  | none => []

/-- A path behind its delimiter, or nothing. -/
def pathText : Option (List Char) → List Char
  | some p => '/' :: p
  | none => []

/-- What stands around an authority: a scheme, a user and a path, as far as they are written. -/
structure Frame where
  schemed : Bool
  user : Option (List Char)
  path : Option (List Char)
  slash_notMem : ∀ u ∈ user, '/' ∉ u

/-- The address with this authority. -/
def Frame.around (f : Frame) (authority : List Char) : String :=
  String.ofList (schemeText f.schemed ++ (userText f.user ++ authority ++ pathText f.path))

/-- There is no slash in the text of a user. -/
theorem Frame.slash_notMem_userText (f : Frame) : '/' ∉ userText f.user := by
  have huser := f.slash_notMem
  cases hu : f.user with
  | none => exact List.not_mem_nil
  | some u => simpa [userText] using huser u hu

/-- A text without a slash and the path behind it are cut apart. -/
theorem cutFirst_pathText {s : List Char} (h : '/' ∉ s) (path : Option (List Char)) :
    cutFirst '/' (s ++ pathText path) = path.map fun p => (s, p) := by
  cases path with
  | none => exact cutFirst_eq_none (by rwa [pathText, List.append_nil])
  | some p => exact cutFirst_of_not_mem p h

/-- A user and the authority behind it are cut apart. -/
theorem cutLast_userText {s : List Char} (h : '@' ∉ s) (user : Option (List Char)) :
    cutLast '@' (userText user ++ s) = user.map fun u => (u, s) := by
  cases user with
  | none => exact cutLast_eq_none_iff.2 h
  | some u =>
      rw [userText, List.append_assoc]
      exact cutLast_of_not_mem u h

/-- What is written without the scheme does not begin with it, unless the authority looks like
    one. -/
theorem dropStart?_unschemed {f : Frame} {authority : List Char} (hslash : '/' ∉ authority)
    (hscheme : authority ≠ "ftp:".toList) :
    dropStart? "ftp://".toList (userText f.user ++ authority ++ pathText f.path) = none := by
  rw [Option.eq_none_iff_forall_ne_some]
  intro rest hdrop
  have hbegins := dropStart?_eq_some_iff.1 hdrop
  have hfront : '/' ∉ userText f.user ++ authority :=
    fun h => (List.mem_append.1 h).elim f.slash_notMem_userText hslash
  -- both the text and the scheme are cut at the first slash
  have hcut : cutFirst '/' (userText f.user ++ authority ++ pathText f.path)
      = some ("ftp:".toList, '/' :: rest) := by
    rw [hbegins]
    rfl
  rw [cutFirst_pathText hfront, Option.map_eq_some_iff] at hcut
  obtain ⟨_, -, heq⟩ := hcut
  have htext : userText f.user ++ authority = "ftp:".toList := congrArg Prod.fst heq
  cases hu : f.user with
  | none =>
      rw [hu] at htext
      exact hscheme htext
  | some u =>
      have hat : '@' ∈ "ftp:".toList := by
        rw [← htext, hu]
        simp [userText]
      exact absurd hat (by decide)

/-- The authority is what is left when the scheme, the path and the user have been cut off. -/
theorem authority_eq {s a : List Char} {user path : Option (List Char)}
    (hbehind : (dropStart? "ftp://".toList s).getD s = userText user ++ a ++ pathText path)
    (hslash : '/' ∉ userText user ++ a) (hat : '@' ∉ a) : authority s = a := by
  rw [authority]
  simp only [hbehind, cutFirst_pathText hslash]
  cases path <;>
    simp only [Option.map_none, Option.map_some, pathText, List.append_nil,
      cutLast_userText hat] <;>
    cases user <;> rfl

/-- Every text has an authority between a user and a path. -/
theorem exists_cut (s : List Char) :
    ∃ (user path : Option (List Char)) (a : List Char), s = userText user ++ a ++ pathText path
      ∧ '/' ∉ userText user ++ a ∧ '@' ∉ a := by
  obtain ⟨front, path, rfl, hslash⟩ : ∃ (front : List Char) (path : Option (List Char)),
      s = front ++ pathText path ∧ '/' ∉ front := by
    cases hcut : cutFirst '/' s with
    | none => exact ⟨s, none, (List.append_nil s).symm, not_mem_of_cutFirst_eq_none hcut⟩
    | some p => exact ⟨p.1, some p.2, cutFirst_append hcut, not_mem_of_cutFirst hcut⟩
  obtain ⟨user, a, rfl, hat⟩ : ∃ (user : Option (List Char)) (a : List Char),
      front = userText user ++ a ∧ '@' ∉ a := by
    cases hcut : cutLast '@' front with
    | none => exact ⟨none, front, rfl, cutLast_eq_none_iff.1 hcut⟩
    | some p =>
        refine ⟨some p.1, p.2, ?_, not_mem_of_cutLast hcut⟩
        rw [cutLast_append hcut, userText, List.append_assoc]
        rfl
  exact ⟨user, path, a, rfl, hslash, hat⟩

/-- The authority is found in its frame. -/
theorem authority_around {f : Frame} {a : List Char} (hslash : '/' ∉ a) (hat : '@' ∉ a)
    (hscheme : a ≠ "ftp:".toList) : authority (f.around a).toList = a := by
  have hbehind : ∀ s, s = schemeText f.schemed ++ (userText f.user ++ a ++ pathText f.path) →
      (dropStart? "ftp://".toList s).getD s = userText f.user ++ a ++ pathText f.path := by
    rintro _ rfl
    cases f.schemed with
    | true => exact congrArg (Option.getD · _) (dropStart?_eq_some_iff.2 rfl)
    | false => exact congrArg (Option.getD · _) (dropStart?_unschemed hslash hscheme)
  exact authority_eq (hbehind _ String.toList_ofList)
    (fun h => (List.mem_append.1 h).elim f.slash_notMem_userText hslash) hat

/-- Every text has an authority in some frame, which begins with the scheme when the text does. -/
theorem exists_frame (s : String) :
    (∃ f : Frame, s = f.around (authority s.toList)
        ∧ (f.schemed = true ↔ "ftp://".toList <+: s.toList))
      ∧ '/' ∉ authority s.toList ∧ '@' ∉ authority s.toList := by
  obtain ⟨schemed, hs, hschemed⟩ : ∃ schemed, s.toList
        = schemeText schemed ++ (dropStart? "ftp://".toList s.toList).getD s.toList
      ∧ (schemed = true ↔ "ftp://".toList <+: s.toList) := by
    cases hdrop : dropStart? "ftp://".toList s.toList with
    | none =>
        refine ⟨false, rfl, iff_of_false Bool.false_ne_true ?_⟩
        rintro ⟨rest, hrest⟩
        exact nomatch (dropStart?_eq_some_iff.2 hrest.symm).symm.trans hdrop
    | some rest =>
        have hrest := dropStart?_eq_some_iff.1 hdrop
        exact ⟨true, hrest, iff_of_true rfl ⟨rest, hrest.symm⟩⟩
  obtain ⟨user, path, a, hcut, hslash, hat⟩ :=
    exists_cut ((dropStart? "ftp://".toList s.toList).getD s.toList)
  have huser : ∀ u ∈ user, '/' ∉ u := by
    rintro u rfl hu
    exact hslash (by simp [userText, hu])
  rw [authority_eq hcut hslash hat]
  refine ⟨⟨⟨schemed, user, path, huser⟩, ?_, hschemed⟩,
    fun h => hslash (List.mem_append_right _ h), hat⟩
  rw [Frame.around, ← hcut, ← hs, String.ofList_toList]

/-! ## Addresses -/

theorem HostText.head?_append (host : HostText) (t : List Char) :
    (host.chars ++ t).head? = host.chars.head? := by
  obtain ⟨c, r, hc⟩ := List.exists_cons_of_ne_nil host.ne_nil
  rw [hc]
  rfl

theorem Documented.ne_nil {t : List Char} {a : Address} (h : Documented t a) : t ≠ [] := by
  cases h with
  | plain host port hcolon hopen => exact List.append_ne_nil_of_left_ne_nil host.ne_nil _
  | bracketed host port hclose => exact List.cons_ne_nil _ _

theorem Clipped.ne_nil {t : List Char} {a : Address} (h : Clipped t a) : t ≠ [] := by
  cases h with
  | plain host port hcolon hopen => exact List.append_ne_nil_of_left_ne_nil host.ne_nil _

/-- The host of a documented authority is the text of a host. -/
theorem Documented.exists_host {t : List Char} {a : Address} (h : Documented t a) :
    ∃ host : HostText, a.host = String.ofList host.chars := by
  cases h with
  | plain host port hcolon hopen => exact ⟨host, rfl⟩
  | bracketed host port hclose => exact ⟨host, rfl⟩

/-- So is what is taken as host of a literal without brackets. -/
theorem Clipped.exists_host {t : List Char} {a : Address} (h : Clipped t a) :
    ∃ host : HostText, a.host = String.ofList host.chars := by
  cases h with
  | plain host port hcolon hopen => exact ⟨host, rfl⟩

/-- What delimits a user or a path stands in no documented authority. -/
theorem Documented.notMem {t : List Char} {a : Address} (h : Documented t a) {c : Char}
    (hc : c = '/' ∨ c = '@') : c ∉ t := by
  have hhost : ∀ host : HostText, c ∉ host.chars := by
    intro host
    rcases hc with rfl | rfl
    · exact host.slash_notMem
    · exact host.at_notMem
  have hport : ∀ port : Option Port, c ∉ portText port := by
    rcases hc with rfl | rfl <;> exact notMem_portText (by decide) (by decide) (by decide)
  have hbracket : c ≠ '[' ∧ c ≠ ']' := by
    rcases hc with rfl | rfl <;> decide
  cases h with
  | plain host port hcolon hopen => simp [hhost, hport]
  | bracketed host port hclose => simp [hhost, hport, hbracket]

theorem Clipped.head?_ne {t : List Char} {a : Address} (h : Clipped t a) : t.head? ≠ some '[' := by
  cases h with
  | plain host port hcolon hopen => rwa [host.head?_append]

/-- The host that is cut off in front of the last colon has a colon left in it. -/
theorem Clipped.colon_mem {t : List Char} {a : Address} (h : Clipped t a) : ':' ∈ a.host.toList := by
  cases h with
  | plain host port hcolon hopen => rwa [String.toList_ofList]

/-- A host with a colon stands in brackets. -/
theorem Documented.head?_eq_or {t : List Char} {a : Address} (h : Documented t a) :
    t.head? = some '[' ∨ ':' ∉ a.host.toList := by
  cases h with
  | plain host port hcolon hopen => exact Or.inr (by rwa [String.toList_ofList])
  | bracketed host port hclose => exact Or.inl rfl

/-- What is read behind an opening bracket are the documented hosts in brackets. -/
theorem bracketed?_iff {r : List Char} (hslash : '/' ∉ r) (hat : '@' ∉ r) {a : Address} :
    bracketed? r = some a ↔ Documented ('[' :: r) a := by
  rw [bracketed?_eq_some_iff]
  constructor
  · rintro ⟨host, port, hne, hclose, rfl, rfl⟩
    exact .bracketed ⟨host, hne, fun h => hslash (List.mem_append_left _ h),
      fun h => hat (List.mem_append_left _ h)⟩ port hclose
  · intro h
    generalize ht : '[' :: r = t at h
    cases h with
    | plain host port hcolon hopen =>
        rw [← host.head?_append (portText port), ← ht] at hopen
        exact absurd rfl hopen
    | bracketed host port hclose =>
        exact ⟨host.chars, port, host.ne_nil, hclose, (List.cons.inj ht).2, rfl⟩

/-- What is read without a bracket are the documented hosts, and those that are cut. -/
theorem plain?_iff {t : List Char} (hne : t ≠ []) (hopen : t.head? ≠ some '[')
    (hslash : '/' ∉ t) (hat : '@' ∉ t) {a : Address} :
    plain? t = some a ↔ Documented t a ∨ Clipped t a := by
  rw [plain?_eq_some_iff]
  constructor
  · rintro (⟨hcolon, rfl⟩ | ⟨host, port, hhost, rfl, rfl⟩)
    · have := Documented.plain ⟨t, hne, hslash, hat⟩ none hcolon hopen
      rw [portText, List.append_nil] at this
      exact Or.inl this
    · let h : HostText := ⟨host, hhost, fun h => hslash (List.mem_append_left _ h),
        fun h => hat (List.mem_append_left _ h)⟩
      have hopen' : h.chars.head? ≠ some '[' := by
        rwa [← h.head?_append (':' :: port.text)]
      by_cases hcolon : ':' ∈ host
      · exact Or.inr (.plain h port hcolon hopen')
      · exact Or.inl (.plain h (some port) hcolon hopen')
  · rintro (h | h)
    · cases h with
      | plain host port hcolon hopen' =>
          cases port with
          | none => exact Or.inl ⟨by rwa [portText, List.append_nil],
              by rw [portText, List.append_nil]; rfl⟩
          | some port => exact Or.inr ⟨host.chars, port, host.ne_nil, rfl, rfl⟩
      | bracketed host port hclose => exact absurd rfl hopen
    · cases h with
      | plain host port hcolon hopen' =>
          exact Or.inr ⟨host.chars, port, host.ne_nil, rfl, rfl⟩

/-- No documented authority looks like a scheme, for a port is not empty. -/
theorem Documented.ne_scheme {t : List Char} {a : Address} (h : Documented t a) :
    t ≠ "ftp:".toList := by
  rintro rfl
  have hread := (plain?_iff (by decide) (by decide) (by decide) (by decide)).2 (Or.inl h)
  exact absurd (hread.symm.trans (by decide : plain? "ftp:".toList = none)) (by simp)

/-- An authority is read as the address that it names, or that it is cut to. -/
theorem parse?_eq_some_iff {s : String} {a : Address} :
    parse? s = some a ↔ Documented (authority s.toList) a ∨ Clipped (authority s.toList) a := by
  obtain ⟨-, hslash, hat⟩ := exists_frame s
  rw [parse?]
  split
  · next hnil =>
      rw [hnil]
      exact iff_of_false (fun h => nomatch h) fun h => h.elim
        (fun h => h.ne_nil rfl) fun h => h.ne_nil rfl
  · next r hr =>
      rw [hr] at hslash hat ⊢
      rw [bracketed?_iff (List.not_mem_of_not_mem_cons hslash) (List.not_mem_of_not_mem_cons hat)]
      exact (or_iff_left fun h => h.head?_ne rfl).symm
  · next hne hopen =>
      refine plain?_iff hne (fun h => ?_) hslash hat
      obtain ⟨r, hr⟩ := List.head?_eq_some_iff.1 h
      exact hopen r hr

/-- Addresses of the documented form are read as their host and port, wherever a scheme, a user
    and a path stand around them.  A host that is read is never empty and holds neither a slash
    nor an at sign. -/
theorem documented_addresses_are_read :
    (∀ (f : Frame) (authority : List Char) (a : Address), Documented authority a →
        parse? (f.around authority) = some a)
      ∧ ∀ (s : String) (a : Address), parse? s = some a →
          a.host ≠ "" ∧ '/' ∉ a.host.toList ∧ '@' ∉ a.host.toList := by
  constructor
  · intro f authority a h
    rw [parse?_eq_some_iff, authority_around (h.notMem (Or.inl rfl)) (h.notMem (Or.inr rfl))
      h.ne_scheme]
    exact Or.inl h
  · intro s a h
    obtain ⟨host, hhost⟩ : ∃ host : HostText, a.host = String.ofList host.chars := by
      rcases parse?_eq_some_iff.1 h with h | h
      · exact h.exists_host
      · exact h.exists_host
    rw [hhost, String.toList_ofList]
    exact ⟨fun hempty => host.ne_nil (String.ofList_eq_empty_iff.1 hempty),
      host.slash_notMem, host.at_notMem⟩

/-- A host in brackets behind a user with a password that holds a colon and an at sign. -/
theorem host_in_brackets_is_read :
    Documented "[fe80::1]:2121".toList ⟨"fe80::1", 2121⟩
      ∧ parse? "ftp://ann:a:b@c@[fe80::1]:2121/pub" = some ⟨"fe80::1", 2121⟩
      ∧ "fe80::1" ≠ "" ∧ '/' ∉ "fe80::1".toList ∧ '@' ∉ "fe80::1".toList := by
  let frame : Frame := ⟨true, some "ann:a:b@c".toList, some "pub".toList, by decide⟩
  have h : Documented "[fe80::1]:2121".toList ⟨"fe80::1", 2121⟩ :=
    .bracketed ⟨"fe80::1".toList, by decide, by decide, by decide⟩
      (some ⟨⟨false, "2121".toList, by decide, List.all_eq_true.1 (by decide)⟩, by decide⟩) (by decide)
  have hread := documented_addresses_are_read.1 frame _ _ h
  exact ⟨h, hread, documented_addresses_are_read.2 _ _ hread⟩

/-- What is read are the documented addresses and, besides, hosts with colons in no brackets
    that are cut at the last one.  So the authority of an address that is read has the
    documented form exactly when a bracket opens it or no colon is in the host that is read. -/
theorem accepted_iff (s : String) :
    (∃ f : Frame, s = f.around (authority s.toList)
        ∧ (f.schemed = true ↔ "ftp://".toList <+: s.toList)
        ∧ '/' ∉ authority s.toList ∧ '@' ∉ authority s.toList)
      ∧ ∀ a : Address,
          (parse? s = some a ↔ Documented (authority s.toList) a ∨ Clipped (authority s.toList) a)
            ∧ (parse? s = some a →
              ((∃ b, Documented (authority s.toList) b)
                ↔ (authority s.toList).head? = some '[' ∨ ':' ∉ a.host.toList)) := by
  obtain ⟨⟨f, hs, hschemed⟩, hslash, hat⟩ := exists_frame s
  refine ⟨⟨f, hs, hschemed, hslash, hat⟩, fun a => ⟨parse?_eq_some_iff, fun hread => ?_⟩⟩
  constructor
  · rintro ⟨b, hb⟩
    cases hread.symm.trans (parse?_eq_some_iff.2 (Or.inl hb))
    exact hb.head?_eq_or
  · intro h
    rcases parse?_eq_some_iff.1 hread with hdocumented | hclipped
    · exact ⟨a, hdocumented⟩
    · rcases h with h | h
      · exact absurd h hclipped.head?_ne
      · exact absurd hclipped.colon_mem h

/-- A literal has its documented form in brackets, and none without them. -/
theorem form_of_literal_needs_brackets :
    (parse? "[::1]" = some ⟨"::1", 21⟩ ∧ ∃ b, Documented (authority "[::1]".toList) b)
      ∧ parse? "::1" = some ⟨":", 1⟩ ∧ ¬∃ b, Documented (authority "::1".toList) b := by
  have hbrackets : parse? "[::1]" = some ⟨"::1", 21⟩ := by decide
  have hnone : parse? "::1" = some ⟨":", 1⟩ := by decide
  refine ⟨⟨hbrackets, (((accepted_iff _).2 _).2 hbrackets).2 (by decide)⟩, hnone, fun hform => ?_⟩
  exact absurd ((((accepted_iff _).2 _).2 hnone).1 hform) (by decide)

/-- A literal without brackets is read, and cut. -/
theorem literal_without_brackets_is_cut :
    parse? "fe80::1" = some ⟨"fe80:", 1⟩ ∧ ∀ b, ¬Documented (authority "fe80::1".toList) b := by
  have hread : parse? "fe80::1" = some ⟨"fe80:", 1⟩ := by decide
  refine ⟨hread, fun b hb => ?_⟩
  cases hread.symm.trans (parse?_eq_some_iff.2 (Or.inl hb))
  exact absurd hb.head?_eq_or (by decide)

end HealthWatch.Transfer.Address
