import HealthWatch.Probe.Transfer.Reply

/-! # Dialogues with file servers — log in and ask for the directory

    The client waits for the greeting, names the user, gives the password when it
    is asked for one, asks for the working directory and takes its leave.  A
    reply other than expected ends the dialogue, and so does a command that cannot be
    sent.

    * `Dialogue.run` gives the commands sent and the reply about the directory,
      or what ended the dialogue. -/

namespace HealthWatch.Transfer

open Text

/-- The commands a client sent, and what it came to. -/
structure Dialogue where
  sent : List String
  outcome : Except ProbeError Reply

namespace Dialogue

/-- A dialogue that ends without a further command. -/
def ended (e : ProbeError) : Dialogue := ⟨[], .error e⟩

/-- A dialogue that starts with a command. -/
def after (command : String) (d : Dialogue) : Dialogue :=
  { d with sent := (command ++ "\r\n") :: d.sent }

/-- A reply that is not the expected one. -/
def rejected (step : String) (reply : Reply) : ProbeError :=
  .protocol (step ++ " rejected with " ++ natText reply.code ++ " " ++ String.ofList reply.text)

/-- Sends a command and goes on, if it can be sent. -/
def send (command : String) (c : Channel) (next : Channel → Dialogue) : Dialogue :=
  match c.sendable with
  | none => after command (next c)
  | some (0, reason) => ended (.io reason)
  | some (n + 1, reason) => after command (next { c with sendable := some (n, reason) })

/-- Reads a reply and goes on with it. -/
def expect (c : Channel) (next : Reply → Channel → Dialogue) : Dialogue :=
  match Reply.read c.stream with
  | .error e => ended e
  | .ok (reply, rest) => next reply { c with stream := rest }

/-- Takes leave; the answer to it does not matter. -/
def leave (directory : Reply) (c : Channel) : Dialogue :=
  send "QUIT" c fun _ => ⟨[], .ok directory⟩

/-- Asks for the working directory. -/
def askDirectory (c : Channel) : Dialogue :=
  send "PWD" c fun c => expect c leave

/-- Gives the password. -/
def logIn (password : String) (c : Channel) : Dialogue :=
  send ("PASS " ++ password) c fun c =>
    expect c fun reply c =>
      if reply.code = 230 || reply.code = 202 then askDirectory c
      else ended (rejected "login" reply)

/-- The whole dialogue of a client with a server. -/
def run (user password : String) (c : Channel) : Dialogue :=
  expect c fun greeting c =>
    if greeting.code ≠ 220 then ended (rejected "connection" greeting)
    else
      send ("USER " ++ user) c fun c =>
        expect c fun reply c =>
          if reply.code = 331 then logIn password c
          else if reply.code = 230 then askDirectory c
          else ended (rejected "login" reply)

end Dialogue

end HealthWatch.Transfer
