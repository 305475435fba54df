import HealthWatch.Probe.Mail
import HealthWatch.Proofs.Probe.Stream
import HealthWatch.Proofs.Text.Decimal
import Mathlib.Data.List.Infix

/-! # Mail servers — which greetings are taken for ready ones

    A greeting is ready when the ready code stands anywhere in its line.  A server that
    refuses starts its line with another code, and is told of unless the digits of the
    ready code turn up behind that: in the name of a host, in a number, or in what follows
    a code.

    * `check_of_firstLine` says what a line that can be read comes to, trimmed or not;
    * `check_eq_healthy_iff` says which servers come out healthy;
    * `refusal_told_iff` says which refusals are told. -/

namespace HealthWatch.Mail

open Text

/-! ## Looking for the code -/

/-- The search finds a part wherever it stands. -/
theorem hasInfix_iff {part s : List Char} : hasInfix part s = true ↔ part <:+: s := by
  induction s with
  | nil =>
      show part.isEmpty = true ↔ part <:+: []
      rw [List.isEmpty_iff, List.infix_nil]
  | cons c r ih =>
      show ((dropStart? part (c :: r)).isSome || hasInfix part r) = true ↔ part <:+: c :: r
      rw [Bool.or_eq_true, isSome_dropStart?_iff, ih, List.infix_cons_iff]

theorem isDigit_of_mem_readyCode : ∀ c ∈ readyCode, isDigit c = true :=
  List.all_eq_true.1 rfl

/-! ## Servers -/

/-- The first line that a server sends, when it can be read. -/
def FirstLine (server : Connection) (text : List Char) : Prop :=
  ∃ c line, server = .opened c ∧ c.stream.head? = some line ∧ Stream.lineText line = .ok text

/-- A server has at most one first line. -/
theorem FirstLine.unique {server : Connection} {s t : List Char} (hs : FirstLine server s)
    (ht : FirstLine server t) : s = t := by
  obtain ⟨c, line, rfl, hline, hs⟩ := hs
  obtain ⟨c', line', hc, hline', ht⟩ := ht
  cases hc
  cases hline.symm.trans hline'
  exact Except.ok.inj (hs.symm.trans ht)

section Check

variable {server : Connection} {text : List Char} (ctx : ProbeContext)

/-- A first line that can be read is taken for a ready one when the ready code is in it. -/
theorem check_of_firstLine (h : FirstLine server text) :
    check ctx server = if readyCode <:+: text then .healthy
      else .described ctx.failureStatus "Server-Response not expected" := by
  obtain ⟨c, line, rfl, hhead, htext⟩ := h
  obtain ⟨rest, hstream⟩ := List.head?_eq_some_iff.1 hhead
  have hgreeting : greeting c.stream = .ok (trimEnd text) := by
    rw [hstream, greeting, htext]
    rfl
  have hfound : hasInfix readyCode (trimEnd text) = true ↔ readyCode <:+: text :=
    hasInfix_iff.trans
      (infix_trimEnd_iff fun c hc => isBlank_of_isDigit (isDigit_of_mem_readyCode c hc))
  simp only [check, Connection.channel, Except.bind, hgreeting, hfound]

/-- Without one, the error that stands in its place is told. -/
theorem exists_check_eq_failed (h : ∀ text, ¬ FirstLine server text) :
    ∃ e, check ctx server = .failed ctx.failureStatus e := by
  cases server with
  | refused reason => exact ⟨_, rfl⟩
  | silent => exact ⟨_, rfl⟩
  | opened c =>
      have hgreeting : ∃ e, greeting c.stream = .error e := by
        cases hstream : c.stream with
        | nil => exact ⟨_, rfl⟩
        | cons line rest =>
            cases htext : Stream.lineText line with
            | error e => exact ⟨e, by rw [greeting, htext]; rfl⟩
            | ok text => exact absurd ⟨c, line, rfl, by rw [hstream]; rfl, htext⟩ (h text)
      obtain ⟨e, he⟩ := hgreeting
      exact ⟨e, by simp only [check, Connection.channel, Except.bind, he]⟩

/-- Trouble is told under its status, with words or with an error. -/
def Told (ctx : ProbeContext) (r : ProbeResult) : Prop :=
  r.status = ctx.failureStatus ∧ (r.description ≠ none ∨ r.error ≠ none)

/-- A healthy result tells of no failure. -/
theorem not_told_healthy : ¬ Told ctx .healthy := by
  rintro ⟨-, hwords | herror⟩
  · exact hwords rfl
  · exact herror rfl

/-- A server comes out healthy with the ready code in its first line, and otherwise trouble is
    told of it. -/
theorem check_cases (server : Connection) :
    ((∃ text, FirstLine server text ∧ readyCode <:+: text) ∧ check ctx server = .healthy)
      ∨ (¬ ∃ text, FirstLine server text ∧ readyCode <:+: text) ∧ Told ctx (check ctx server) := by
  by_cases h : ∃ text, FirstLine server text
  · obtain ⟨text, htext⟩ := h
    rw [check_of_firstLine ctx htext]
    by_cases hready : readyCode <:+: text
    · exact Or.inl ⟨⟨text, htext, hready⟩, if_pos hready⟩
    · rw [if_neg hready]
      refine Or.inr ⟨?_, rfl, Or.inl fun hnone => nomatch hnone⟩
      rintro ⟨text', htext', hready'⟩
      exact hready (htext.unique htext' ▸ hready')
  · obtain ⟨e, he⟩ := exists_check_eq_failed ctx fun text htext => h ⟨text, htext⟩
    rw [he]
    refine Or.inr ⟨?_, rfl, Or.inr fun hnone => nomatch hnone⟩
    rintro ⟨text, htext, -⟩
    exact h ⟨text, htext⟩

/-- A server is healthy when the code for ready stands somewhere in its first line. -/
theorem check_eq_healthy_iff (server : Connection) :
    check ctx server = .healthy ↔ ∃ text, FirstLine server text ∧ readyCode <:+: text := by
  rcases check_cases ctx server with ⟨hready, heq⟩ | ⟨hready, htold⟩
  · exact iff_of_true heq hready
  · exact iff_of_false (fun heq => not_told_healthy ctx (heq ▸ htold)) hready

/-- In every other case a failure is told. -/
theorem told_iff (server : Connection) :
    Told ctx (check ctx server) ↔ ¬ ∃ text, FirstLine server text ∧ readyCode <:+: text := by
  rcases check_cases ctx server with ⟨hready, heq⟩ | ⟨hready, htold⟩
  · refine iff_of_false ?_ (not_not_intro hready)
    rw [heq]
    exact not_told_healthy ctx
  · exact iff_of_true htold hready

end Check

/-! ## Refusals -/

/-- The first line of a server starts with a reply code, whatever octets follow it. -/
def Greets (code : Nat) (c : Channel) : Prop :=
  ∃ octets, c.stream.head? = some (.ok (Utf8.encode (padded 3 code) ++ octets))

/-- A code has no line end in it, so what starts with one starts a line with it. -/
theorem greets_ofBytes (code : Nat) (following : List UInt8) :
    Greets code { stream := Stream.ofBytes (Utf8.encode (padded 3 code) ++ following) } := by
  have hdigits : '\n' ∉ padded 3 code := fun h => nomatch isDigit_of_mem_padded h
  have hfeed : (10 : UInt8) ∉ Utf8.encode (padded 3 code) := Utf8.lineFeed_notMem_encode hdigits
  by_cases hmem : (10 : UInt8) ∈ following
  · obtain ⟨front, rest, rfl, hfront⟩ := List.eq_append_cons_of_mem hmem
    refine ⟨front ++ [10], ?_⟩
    rw [← List.append_assoc, Stream.ofBytes, Stream.cut_append (by simp [hfeed, hfront]),
      List.append_assoc]
    rfl
  · refine ⟨following, ?_⟩
    have hne : Utf8.encode (padded 3 code) ++ following ≠ [] :=
      List.append_ne_nil_of_left_ne_nil (Utf8.encode_ne_nil (padded_ne_nil 3 code)) following
    rw [Stream.ofBytes, Stream.cut_of_notMem hne (by simp [hfeed, hmem])]
    rfl

/-- In a line that starts with another code the ready code can only stand behind the first
    character. -/
theorem infix_iff_infix_tail {code : Nat} (hcode : code < 1000) (hrefused : code ≠ 220)
    {text : List Char} (h : padded 3 code <+: text) :
    readyCode <:+: text ↔ readyCode <:+: text.tail := by
  cases text with
  | nil => rfl
  | cons c r =>
      rw [List.infix_cons_iff, List.tail_cons]
      refine or_iff_right fun hready => hrefused ?_
      have hcode220 : padded 3 220 = readyCode :=
        padded_valueOf (by decide) isDigit_of_mem_readyCode
      rw [← hcode220] at hready
      have hlength : (padded 3 220).length = (padded 3 code).length := by
        rw [length_padded (by decide) (by decide), length_padded (by decide) hcode]
      have heads := List.prefix_of_prefix_length_le hready h (Nat.le_of_eq hlength)
      exact padded_injective (List.IsPrefix.eq_of_length heads hlength).symm

/-- A server comes out healthy exactly when its first line has the ready code anywhere in it.
    So a refusal, whose first line starts with another code, is told exactly when this line is
    no text or does not hold the ready code behind its first character. -/
theorem refusal_told_iff {code : Nat} (hcode : code < 1000) (hrefused : code ≠ 220) {c : Channel}
    (h : Greets code c) (ctx : ProbeContext) :
    (Told ctx (check ctx (.opened c))
        ↔ ¬ ∃ text, FirstLine (.opened c) text ∧ readyCode <:+: text.tail)
      ∧ ∀ server, check ctx server = .healthy
          ↔ ∃ text, FirstLine server text ∧ readyCode <:+: text := by
  refine ⟨?_, check_eq_healthy_iff ctx⟩
  obtain ⟨octets, hhead⟩ := h
  have hstart : ∀ {text}, FirstLine (.opened c) text → padded 3 code <+: text := by
    rintro text ⟨c', line, hc, hline, htext⟩
    cases hc
    cases hhead.symm.trans hline
    exact Utf8.prefix_of_decode (Stream.decode_of_lineText htext)
  rw [told_iff]
  refine not_congr (exists_congr fun text => and_congr_right fun htext => ?_)
  exact infix_iff_infix_tail hcode hrefused (hstart htext)

/-- The connection to a server that sends one line. -/
def sends (line : String) : Channel where
  stream := Stream.ofBytes (Stream.written [line.toList])

/-- The first line of such a server. -/
theorem firstLine_sends {line : String} (h : '\n' ∉ line.toList) :
    FirstLine (.opened (sends line)) (line.toList ++ Stream.lineEnd) := by
  have hstream : (sends line).stream = [Stream.lineOf line.toList] := by
    show Stream.ofBytes (Stream.written [line.toList]) = _
    rw [← List.append_nil (Stream.written _),
      Stream.ofBytes_written_append (List.forall_mem_singleton.2 h)]
    rfl
  exact ⟨sends line, _, rfl, by rw [hstream]; rfl, Stream.lineText_lineOf _⟩

/-- A refusal without the ready code is told. -/
theorem plain_refusal_is_told :
    Greets 554 (sends "554 no service")
      ∧ Told { failureStatus := .degraded }
          (check { failureStatus := .degraded } (.opened (sends "554 no service"))) := by
  have hoctets : Stream.written ["554 no service".toList]
      = Utf8.encode (padded 3 554) ++ Utf8.encode " no service\r\n".toList := by
    decide +kernel
  have hgreets : Greets 554 (sends "554 no service") := by
    rw [sends, hoctets]
    exact greets_ofBytes 554 _
  refine ⟨hgreets, (refusal_told_iff (by decide) (by decide) hgreets _).1.2 ?_⟩
  rintro ⟨text, htext, hready⟩
  rw [htext.unique (firstLine_sends (by decide +kernel))] at hready
  exact absurd hready (by decide +kernel)

/-- A refusal of a server that has the ready code in its name is taken for a ready greeting. -/
theorem refusal_with_ready_code_in_name :
    Greets 554 (sends "554 mx220.example.com no service")
      ∧ check { failureStatus := .degraded } (.opened (sends "554 mx220.example.com no service"))
        = .healthy
      ∧ ¬ Told { failureStatus := .degraded } (check { failureStatus := .degraded }
          (.opened (sends "554 mx220.example.com no service"))) := by
  have hoctets : Stream.written ["554 mx220.example.com no service".toList]
      = Utf8.encode (padded 3 554) ++ Utf8.encode " mx220.example.com no service\r\n".toList := by
    decide +kernel
  have hgreets : Greets 554 (sends "554 mx220.example.com no service") := by
    rw [sends, hoctets]
    exact greets_ofBytes 554 _
  have hhealthy : check { failureStatus := .degraded }
      (.opened (sends "554 mx220.example.com no service")) = .healthy :=
    (check_eq_healthy_iff _ _).2 ⟨_, firstLine_sends (by decide +kernel), by decide +kernel⟩
  refine ⟨hgreets, hhealthy, ?_⟩
  rw [hhealthy]
  exact not_told_healthy _

end HealthWatch.Mail
