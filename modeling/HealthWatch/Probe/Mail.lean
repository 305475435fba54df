import HealthWatch.Probe.Stream

/-! # Mail servers — connect and expect a greeting

    A mail server greets with a line that has the reply code 220 in it. -/

namespace HealthWatch.Mail

open Text

/-- The words of a greeting that the probe looks for. -/
def readyCode : List Char := ['2', '2', '0']

/-- The first line that a server sends, without the blanks it ends with. -/
def greeting (stream : List Stream.Line) : Except ProbeError (List Char) :=
  match stream with
  | [] => .error (.protocol "connection closed before greeting")
  | line :: _ => trimEnd <$> Stream.lineText line

/-- Whether a list has another one inside it. -/
def hasInfix (part : List Char) : List Char → Bool
  | [] => part.isEmpty
  | c :: r => (dropStart? part (c :: r)).isSome || hasInfix part r

/-- Checks a mail server. -/
def check (ctx : ProbeContext) (server : Connection) : ProbeResult :=
  match (server.channel ctx).bind fun c => greeting c.stream with
  | .ok line =>
      if hasInfix readyCode line then .healthy
      else .described ctx.failureStatus "Server-Response not expected"
  | .error e => .failed ctx.failureStatus e

end HealthWatch.Mail
