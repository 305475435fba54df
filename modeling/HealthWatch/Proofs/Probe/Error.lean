import HealthWatch.Probe.Hub
import HealthWatch.Probe.Mail
import HealthWatch.Probe.Transfer.Basic

/-! # Errors of probes — none of them is that of a cut

    The error of a cut belongs to the bounds of a run.  What a probe comes to by itself
    ends with an error of connecting, of reading, of a server that does not keep to its
    protocol, or of an address.

    * `Uncut` says of a computation that it does not end with the error of a cut;
    * it is shown of reading, of each step of a dialogue, and of what is asked of servers. -/

namespace HealthWatch

open Text

/-- The computation does not end with the error of a cut. -/
def Uncut {α : Type} (x : Except ProbeError α) : Prop :=
  x ≠ .error .cancelled

theorem uncut_ok {α : Type} (a : α) : Uncut (Except.ok a : Except ProbeError α) := by
  rintro ⟨⟩

/-- What fails but is not cut off fails with another error. -/
theorem Uncut.ne {α : Type} {x : Except ProbeError α} (hx : Uncut x) {e : ProbeError}
    (h : x = .error e) : e ≠ .cancelled := by
  rintro rfl
  exact hx h

/-- Steps that are not cut off are not cut off together. -/
theorem Uncut.bind {α β : Type} {x : Except ProbeError α} {f : α → Except ProbeError β}
    (hx : Uncut x) (hf : ∀ a, Uncut (f a)) : Uncut (x.bind f) := by
  cases x with
  | error e => exact fun h => hx (by cases h; rfl)
  | ok a => exact hf a

/-! ## Connecting and reading -/

theorem uncut_lineText (line : Stream.Line) : Uncut (Stream.lineText line) := by
  cases line with
  | error reason => rintro ⟨⟩
  | ok octets =>
      rw [Stream.lineText]
      split <;> rintro ⟨⟩

theorem uncut_channel (ctx : ProbeContext) (c : Connection) : Uncut (c.channel ctx) := by
  cases c <;> rintro ⟨⟩

theorem Mail.uncut_greeting (stream : List Stream.Line) : Uncut (greeting stream) := by
  cases stream with
  | nil => rintro ⟨⟩
  | cons line rest =>
      show Uncut (trimEnd <$> Stream.lineText line)
      have hline := uncut_lineText line
      cases h : Stream.lineText line with
      | error e => exact fun he => hline.ne h (by cases he; rfl)
      | ok s => exact uncut_ok _

namespace Transfer

theorem Reply.uncut_readRest (reply : Reply) (lines : List Stream.Line) :
    Uncut (readRest reply lines) := by
  induction lines with
  | nil => rintro ⟨⟩
  | cons line rest ih =>
      rw [readRest]
      refine (uncut_lineText line).bind fun s => ?_
      dsimp only
      split
      · rintro ⟨⟩
      · split
        · exact uncut_ok _
        · exact ih
      · exact ih

/-- Reading a reply is never cut off. -/
theorem Reply.uncut_read (lines : List Stream.Line) : Uncut (read lines) := by
  cases lines with
  | nil => rintro ⟨⟩
  | cons line rest =>
      rw [read]
      refine (uncut_lineText line).bind fun s => ?_
      dsimp only
      split
      · exact uncut_ok _
      · exact uncut_readRest _ _
      · rintro ⟨⟩

/-! ## Dialogues -/

namespace Dialogue

theorem uncut_send {command : String} {c : Channel} {next : Channel → Dialogue}
    (h : ∀ c, Uncut (next c).outcome) : Uncut (send command c next).outcome := by
  rw [send]
  split
  · exact h _
  · rintro ⟨⟩
  · exact h _

theorem uncut_expect {c : Channel} {next : Reply → Channel → Dialogue}
    (h : ∀ reply c, Uncut (next reply c).outcome) : Uncut (expect c next).outcome := by
  rw [expect]
  split
  · next e he =>
      rintro ⟨⟩
      exact Reply.uncut_read _ he
  · exact h _ _

theorem uncut_rejected (step : String) (reply : Reply) :
    Uncut (ended (rejected step reply)).outcome := by
  rintro ⟨⟩

theorem uncut_askDirectory (c : Channel) : Uncut (askDirectory c).outcome :=
  uncut_send fun _ => uncut_expect fun _ _ => uncut_send fun _ => uncut_ok _

theorem uncut_logIn (password : String) (c : Channel) : Uncut (logIn password c).outcome := by
  refine uncut_send fun c => uncut_expect fun reply c => ?_
  split
  · exact uncut_askDirectory c
  · exact uncut_rejected _ _

/-- Neither is a whole dialogue. -/
theorem uncut_run (user password : String) (c : Channel) :
    Uncut (run user password c).outcome := by
  refine uncut_expect fun greeting c => ?_
  split
  · exact uncut_rejected _ _
  · refine uncut_send fun c => uncut_expect fun reply c => ?_
    split
    · exact uncut_logIn _ _
    · split
      · exact uncut_askDirectory c
      · exact uncut_rejected _ _

end Dialogue

/-- Nor is connecting and talking to a server. -/
theorem uncut_talk (network : Network) (ctx : ProbeContext) (h : Host) :
    Uncut (talk network ctx h).outcome := by
  rw [talk]
  split
  · rintro ⟨⟩
  · split
    · next e he =>
        rintro ⟨⟩
        exact uncut_channel ctx _ he
    · exact Dialogue.uncut_run _ _ _

end Transfer

/-- Judging the answer of a hub is never cut off. -/
theorem Hub.uncut_negotiation (hub : String) (outcome : Except Http.CallFault Http.Response) :
    Uncut (negotiation hub outcome) := by
  cases outcome with
  | error e => rintro ⟨⟩
  | ok response =>
      rw [negotiation]
      split
      · rintro ⟨⟩
      · cases response.decode Negotiation.decode <;> rintro ⟨⟩

end HealthWatch
