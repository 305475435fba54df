import HealthWatch.Probe.Stream
import HealthWatch.Text.DecimalDigit

/-! # Replies of file servers

    A reply is a line of three digits, a blank and a text.  With a hyphen instead
    of the blank more lines follow, up to one with the same digits and a blank;
    the text of the first line counts.

    * `Reply.read` reads one reply from the front of a stream;
    * `Reply.readAll` reads replies until one fails. -/

namespace HealthWatch.Transfer

open Text

/-- A code and a text. -/
structure Reply where
  code : Nat
  text : List Char
deriving DecidableEq, Repr

/-- What a line of a reply can be. -/
inductive ReplyLine where
  /-- A code, whether it is the last line with it, and a text. -/
  | coded (code : Nat) (last : Bool) (text : List Char)
  /-- Digits of other scripts stand where a code should. -/
  | foreign
  | other
deriving DecidableEq, Repr

/-- What a line is, without the blanks it ends with. -/
def ReplyLine.ofText (s : List Char) : ReplyLine :=
  match s with
  | a :: b :: c :: mark :: text =>
      if (mark = ' ' || mark = '-') && [a, b, c].all isDecimalDigit then
        if [a, b, c].all isDigit then .coded (valueOf [a, b, c]) (mark = ' ') text
        else .foreign
      else .other
  | _ => .other

namespace Reply

/-- The stream ended. -/
def closed : ProbeError := .protocol "connection closed"

/-- A line is no reply. -/
def malformed (line : List Char) : ProbeError :=
  .protocol ("malformed reply: " ++ String.ofList line)

/-- Reads up to the last line of a reply that goes on. -/
def readRest (reply : Reply) : List Stream.Line → Except ProbeError (Reply × List Stream.Line)
  | [] => .error closed
  | line :: rest => do
      let text := trimEnd (← Stream.lineText line)
      match ReplyLine.ofText text with
      | .foreign => .error (malformed text)
      | .coded code true _ =>
          if code = reply.code then .ok (reply, rest) else readRest reply rest
      | _ => readRest reply rest

/-- Reads one reply from the front of a stream. -/
def read : List Stream.Line → Except ProbeError (Reply × List Stream.Line)
  | [] => .error closed
  | line :: rest => do
      let text := trimEnd (← Stream.lineText line)
      match ReplyLine.ofText text with
      | .coded code true words => .ok (⟨code, words⟩, rest)
      | .coded code false words => readRest ⟨code, words⟩ rest
      | _ => .error (malformed text)

/-- What remains after the lines of a reply that goes on is shorter. -/
theorem length_readRest {reply r : Reply} {lines rest : List Stream.Line}
    (h : readRest reply lines = .ok (r, rest)) : rest.length < lines.length := by
  induction lines with
  | nil => exact nomatch h
  | cons line tail ih =>
      rw [readRest] at h
      cases hl : Stream.lineText line with
      | error e => rw [hl] at h; exact nomatch h
      | ok text =>
          rw [hl] at h
          simp only [bind, Except.bind] at h
          split at h
          · exact nomatch h
          · split at h
            · cases h; simp
            · exact Nat.lt_succ_of_lt (ih h)
          · exact Nat.lt_succ_of_lt (ih h)

/-- What remains after a reply is shorter. -/
theorem length_read {r : Reply} {lines rest : List Stream.Line}
    (h : read lines = .ok (r, rest)) : rest.length < lines.length := by
  cases lines with
  | nil => exact nomatch h
  | cons line tail =>
      rw [read] at h
      cases hl : Stream.lineText line with
      | error e => rw [hl] at h; exact nomatch h
      | ok text =>
          rw [hl] at h
          simp only [bind, Except.bind] at h
          split at h
          · cases h; simp
          · exact Nat.lt_succ_of_lt (length_readRest h)
          · exact nomatch h

/-- Reads replies until one fails; gives them and the failure. -/
def readAll (lines : List Stream.Line) : List Reply × ProbeError :=
  match h : read lines with
  | .error e => ([], e)
  | .ok (reply, rest) =>
      have := length_read h
      let (replies, e) := readAll rest
      (reply :: replies, e)
termination_by lines.length

end Reply

end HealthWatch.Transfer
