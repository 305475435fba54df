import HealthWatch.Probe.Basic
import HealthWatch.Text.Blank
import HealthWatch.Text.Split
import HealthWatch.Text.Utf8

/-! # Streams — the octets of a peer as lines

    A line ends behind a line feed or at the end of the stream.  A stream is the
    list of its lines: reading takes lines from its front.  Where the connection
    breaks, the reason stands in the place of a line.

    * `cut` cuts octets into lines, and nothing of them is lost;
    * `lineText` reads a line as text;
    * `Channel` is a connection with the stream of its server, and `Connection.channel`
      what comes of connecting. -/

namespace HealthWatch

namespace Stream

open Text

/-- One line with its line feed, or why it cannot be read. -/
abbrev Line := Except String (List UInt8)

/-- Cuts octets into lines with their line feeds. -/
def cut : List UInt8 → List (List UInt8)
  | [] => []
  | b :: r =>
      if b = 10 then [b] :: cut r
      else
        match cut r with
        | [] => [[b]]
        | line :: lines => (b :: line) :: lines

/-- The lines of a stream that ends behind these octets. -/
def ofBytes (bytes : List UInt8) : List Line :=
  (cut bytes).map .ok

/-- The text of a line. -/
def lineText : Line → Except ProbeError (List Char)
  | .error reason => .error (.io reason)
  | .ok octets =>
      match Utf8.decode octets with
      | .ok s => .ok s
      | .error e => .error (.io e.message)

end Stream

/-- A connection to a server: the stream there is to read, and what can be sent. -/
structure Channel where
  stream : List Stream.Line
  /-- How many commands can still be sent, and why no more of them. -/
  sendable : Option (Nat × String) := none

/-- What comes of connecting to a server. -/
inductive Connection where
  | opened (channel : Channel)
  | refused (reason : String)
  /-- Nothing is heard of the server before the time of the probe is over. -/
  | silent

/-- The connection to a server, or why there is none. -/
def Connection.channel (ctx : ProbeContext) : Connection → Except ProbeError Channel
  | opened channel => .ok channel
  | refused reason => .error (.io reason)
  | silent => .error (.timeout ctx.timeout)

end HealthWatch
