import HealthWatch.Probe.Transfer.Dialogue
import HealthWatch.Proofs.Probe.Framing

/-! # Dialogues — what a client sends is decided by the replies it reads

    A server that takes every command is known by the results of successive reads on its
    stream.  They decide which commands are sent and what the dialogue comes to; user and
    password only stand in the commands that carry them.  So no server learns a password
    that it did not ask for, and what a probe reports tells nothing about its credentials.

    * `Reply.result` gives the result of each read;
    * `Dialogue.run_eq` gives the whole dialogue by these results;
    * `Dialogue.decided_by_replies` compares two dialogues as well. -/

namespace HealthWatch.Transfer

/-! ## Successive reads -/

namespace Reply

/-- The result of the read behind `n` others: a reply, or the failure that ended reading. -/
def result (stream : List Stream.Line) (n : Nat) : Except ProbeError Reply :=
  match (readAll stream).1[n]? with
  | some reply => .ok reply
  | none => .error (readAll stream).2

variable {stream rest : List Stream.Line} {reply : Reply}

/-- After an error every reply is this error. -/
theorem result_of_error {e : ProbeError} (h : read stream = .error e) (n : Nat) :
    result stream n = .error e := by
  rw [result, readAll_of_error h]
  rfl

theorem result_zero_of_ok (h : read stream = .ok (reply, rest)) :
    result stream 0 = .ok reply := by
  rw [result, readAll_of_ok h]
  rfl

theorem result_succ_of_ok (h : read stream = .ok (reply, rest)) (n : Nat) :
    result stream (n + 1) = result rest n := by
  rw [result, readAll_of_ok h]
  rfl

end Reply

namespace Dialogue

/-! ## What replies decide -/

/-- A reply with one of these codes. -/
def hasCode (codes : List Nat) : Except ProbeError Reply → Bool
  | .ok reply => codes.contains reply.code
  | .error _ => false

section Results

variable (results : Nat → Except ProbeError Reply)

/-- The client is let in. -/
def greeted : Bool := hasCode [220] (results 0)

/-- The server asks for the password. -/
def asked : Bool := greeted results && hasCode [331] (results 1)

/-- The login is accepted: with the user alone, or with the password when it was asked for. -/
def accepted : Bool :=
  greeted results
    && (hasCode [230] (results 1) || asked results && hasCode [230, 202] (results 2))

/-- The reply about the working directory. -/
def directory : Except ProbeError Reply :=
  if asked results then results 3 else results 2

/-- The reply about the working directory has been read. -/
def answered : Bool := accepted results && (directory results).isOk

/-- A command with its line end, if it is sent. -/
def sentIf (condition : Bool) (command : String) : List String :=
  if condition then [command ++ "\r\n"] else []

/-- All that is sent. -/
def transcript (user password : String) : List String :=
  sentIf (greeted results) ("USER " ++ user) ++ sentIf (asked results) ("PASS " ++ password)
    ++ sentIf (accepted results) "PWD" ++ sentIf (answered results) "QUIT"

/-- The end of a dialogue at a reply that is not the expected one, or at none. -/
def refused (step : String) : Except ProbeError Reply → Except ProbeError Reply
  | .ok reply => .error (rejected step reply)
  | .error e => .error e

/-- What a dialogue comes to. -/
def verdict : Except ProbeError Reply :=
  if accepted results then directory results
  else if asked results then refused "login" (results 2)
  else if greeted results then refused "login" (results 1)
  else refused "connection" (results 0)

/-- The dialogue that replies decide. -/
def decided (user password : String) : Dialogue :=
  ⟨transcript results user password, verdict results⟩

end Results

theorem hasCode_singleton (code : Nat) (reply : Reply) :
    hasCode [code] (.ok reply) = decide (reply.code = code) := by
  rw [hasCode, List.contains_cons, List.contains_nil, Bool.or_false]
  rfl

theorem refused_ne_ok (step : String) (x : Except ProbeError Reply) (reply : Reply) :
    refused step x ≠ .ok reply := by
  cases x with
  | ok _ => rintro ⟨⟩
  | error _ => rintro ⟨⟩

/-- A dialogue succeeds when the user is let in, and then with the reply that has the directory.
    -/
theorem verdict_eq_ok_iff {results : Nat → Except ProbeError Reply} {reply : Reply} :
    verdict results = .ok reply ↔ accepted results = true ∧ directory results = .ok reply := by
  unfold verdict
  split
  · next h => exact ⟨fun he => ⟨h, he⟩, fun he => he.2⟩
  · next h =>
      refine iff_of_false ?_ fun he => h he.1
      split
      · exact refused_ne_ok _ _ _
      · split
        · exact refused_ne_ok _ _ _
        · exact refused_ne_ok _ _ _

/-! ## The four courses of a dialogue -/

section Courses

variable {results : Nat → Except ProbeError Reply} {user password : String}

/-- A client that is not let in sends nothing. -/
theorem decided_of_not_greeted (h0 : hasCode [220] (results 0) = false) :
    decided results user password = ⟨[], refused "connection" (results 0)⟩ := by
  have hgreeted : greeted results = false := h0
  have hasked : asked results = false := by rw [asked, hgreeted, Bool.false_and]
  have haccepted : accepted results = false := by rw [accepted, hgreeted, Bool.false_and]
  have hanswered : answered results = false := by rw [answered, haccepted, Bool.false_and]
  simp [decided, transcript, verdict, hgreeted, hasked, haccepted, hanswered, sentIf]

/-- A client whose user is neither accepted nor asked for a password sends no more. -/
theorem decided_of_turned_away (h0 : hasCode [220] (results 0) = true)
    (h1 : hasCode [331] (results 1) = false) (hin : hasCode [230] (results 1) = false) :
    decided results user password
      = ⟨sentIf true ("USER " ++ user), refused "login" (results 1)⟩ := by
  have hgreeted : greeted results = true := h0
  have hasked : asked results = false := by rw [asked, h1, Bool.and_false]
  have haccepted : accepted results = false := by
    rw [accepted, hin, hasked, Bool.false_and, Bool.or_false, Bool.and_false]
  have hanswered : answered results = false := by rw [answered, haccepted, Bool.false_and]
  simp [decided, transcript, verdict, hgreeted, hasked, haccepted, hanswered, sentIf]

/-- A client whose user is accepted asks for the directory at once. -/
theorem decided_of_entered (h0 : hasCode [220] (results 0) = true)
    (h1 : hasCode [331] (results 1) = false) (hin : hasCode [230] (results 1) = true) :
    decided results user password
      = ⟨sentIf true ("USER " ++ user) ++ (sentIf true "PWD" ++ sentIf (results 2).isOk "QUIT"),
          results 2⟩ := by
  have hgreeted : greeted results = true := h0
  have hasked : asked results = false := by rw [asked, h1, Bool.and_false]
  have haccepted : accepted results = true := by
    rw [accepted, hgreeted, hin, Bool.true_or, Bool.and_true]
  have hdirectory : directory results = results 2 := by
    rw [directory, hasked]
    rfl
  simp [decided, transcript, verdict, answered, hgreeted, hasked, haccepted, hdirectory, sentIf]

/-- A client that is asked for the password sends it, and asks for the directory when it is
    accepted. -/
theorem decided_of_asked (h0 : hasCode [220] (results 0) = true)
    (h1 : hasCode [331] (results 1) = true) (hin : hasCode [230] (results 1) = false) :
    decided results user password
      = ⟨sentIf true ("USER " ++ user) ++ (sentIf true ("PASS " ++ password)
            ++ sentIf (hasCode [230, 202] (results 2)) "PWD"
            ++ sentIf (hasCode [230, 202] (results 2) && (results 3).isOk) "QUIT"),
          if hasCode [230, 202] (results 2) then results 3 else refused "login" (results 2)⟩ := by
  have hgreeted : greeted results = true := h0
  have hasked : asked results = true := by rw [asked, hgreeted, h1, Bool.and_true]
  have haccepted : accepted results = hasCode [230, 202] (results 2) := by
    rw [accepted, hgreeted, hin, hasked, Bool.false_or, Bool.true_and, Bool.true_and]
  have hdirectory : directory results = results 3 := by
    rw [directory, hasked]
    rfl
  simp [decided, transcript, verdict, answered, hgreeted, hasked, haccepted, hdirectory, sentIf]

end Courses

/-! ## One step -/

section Steps

variable {stream rest : List Stream.Line}

theorem send_eq (command : String) (next : Channel → Dialogue) :
    send command { stream } next = after command (next { stream }) := rfl

theorem expect_of_error {e : ProbeError} (h : Reply.read stream = .error e)
    (next : Reply → Channel → Dialogue) : expect { stream } next = ended e := by
  rw [expect, h]

theorem expect_of_ok {reply : Reply} (h : Reply.read stream = .ok (reply, rest))
    (next : Reply → Channel → Dialogue) :
    expect { stream } next = next reply { stream := rest } := by
  rw [expect, h]

end Steps

/-! ## Whole dialogues -/

/-- Asking for the directory sends a command, and a farewell when it was answered. -/
theorem askDirectory_eq (stream : List Stream.Line) :
    askDirectory { stream }
      = ⟨sentIf true "PWD" ++ sentIf (Reply.result stream 0).isOk "QUIT",
          Reply.result stream 0⟩ := by
  rw [askDirectory, send_eq]
  cases h : Reply.read stream with
  | error e =>
      rw [expect_of_error h, Reply.result_of_error h]
      rfl
  | ok x =>
      obtain ⟨reply, rest⟩ := x
      rw [expect_of_ok h, Reply.result_zero_of_ok h]
      rfl

/-- A password is sent, and only a user who is let in asks for the directory. -/
theorem logIn_eq (password : String) (stream : List Stream.Line) :
    logIn password { stream }
      = ⟨sentIf true ("PASS " ++ password)
            ++ sentIf (hasCode [230, 202] (Reply.result stream 0)) "PWD"
            ++ sentIf (hasCode [230, 202] (Reply.result stream 0)
              && (Reply.result stream 1).isOk) "QUIT",
          if hasCode [230, 202] (Reply.result stream 0) then Reply.result stream 1
          else refused "login" (Reply.result stream 0)⟩ := by
  rw [logIn, send_eq]
  cases h : Reply.read stream with
  | error e =>
      rw [expect_of_error h, Reply.result_of_error h]
      rfl
  | ok x =>
      obtain ⟨reply, rest⟩ := x
      rw [expect_of_ok h, Reply.result_zero_of_ok h, Reply.result_succ_of_ok h]
      have hcode : hasCode [230, 202] (.ok reply) = (reply.code = 230 || reply.code = 202) := by
        simp [hasCode]
      rw [hcode]
      split
      · next hin =>
          rw [hin, askDirectory_eq]
          rfl
      · next hout =>
          rw [Bool.not_eq_true] at hout
          rw [hout]
          rfl

/-- A dialogue with a server that takes every command is the one that its replies decide. -/
theorem run_eq (user password : String) (stream : List Stream.Line) :
    run user password { stream } = decided (Reply.result stream) user password := by
  rw [run]
  cases h : Reply.read stream with
  | error e =>
      have h0 : Reply.result stream 0 = .error e := Reply.result_of_error h 0
      rw [expect_of_error h, decided_of_not_greeted (by rw [h0]; rfl), h0]
      rfl
  | ok x =>
      obtain ⟨greeting, rest⟩ := x
      have h0 := Reply.result_zero_of_ok h
      have hsucc := Reply.result_succ_of_ok h
      rw [expect_of_ok h]
      by_cases hgreeted : greeting.code = 220
      · -- the user is named, and the next reply decides how the login goes on
        have hlet : hasCode [220] (Reply.result stream 0) = true := by
          rw [h0, hasCode_singleton, decide_eq_true hgreeted]
        rw [if_neg (Decidable.not_not.2 hgreeted), send_eq]
        cases h' : Reply.read rest with
        | error e =>
            have h1 : Reply.result stream 1 = .error e :=
              (hsucc 0).trans (Reply.result_of_error h' 0)
            rw [expect_of_error h',
              decided_of_turned_away hlet (by rw [h1]; rfl) (by rw [h1]; rfl), h1]
            rfl
        | ok x =>
            obtain ⟨reply, rest'⟩ := x
            have h1 : Reply.result stream 1 = .ok reply :=
              (hsucc 0).trans (Reply.result_zero_of_ok h')
            have hsucc' : ∀ n, Reply.result stream (n + 2) = Reply.result rest' n :=
              fun n => (hsucc (n + 1)).trans (Reply.result_succ_of_ok h' n)
            have hcode : ∀ code, hasCode [code] (Reply.result stream 1)
                = decide (reply.code = code) := by
              intro code
              rw [h1, hasCode_singleton]
            rw [expect_of_ok h']
            by_cases hasked : reply.code = 331
            · rw [if_pos hasked, logIn_eq, ← hsucc' 0, ← hsucc' 1,
                decided_of_asked hlet (by rw [hcode, hasked]; rfl) (by rw [hcode, hasked]; rfl)]
              rfl
            · have hnot : hasCode [331] (Reply.result stream 1) = false :=
                (hcode 331).trans (decide_eq_false hasked)
              rw [if_neg hasked]
              by_cases hin : reply.code = 230
              · rw [if_pos hin, askDirectory_eq, ← hsucc' 0,
                  decided_of_entered hlet hnot ((hcode 230).trans (decide_eq_true hin))]
                rfl
              · rw [if_neg hin,
                  decided_of_turned_away hlet hnot ((hcode 230).trans (decide_eq_false hin)), h1]
                rfl
      · have hnot : hasCode [220] (Reply.result stream 0) = false := by
          rw [h0, hasCode_singleton, decide_eq_false hgreeted]
        rw [if_pos hgreeted, decided_of_not_greeted hnot, h0]
        rfl

/-- What a client sends, and whether it gets a reply about the directory and which, is decided
    by the replies of the server.  Two dialogues with one server come to the same whatever their
    users and passwords are, and a password that the server does not ask for makes no difference
    to what is sent. -/
theorem decided_by_replies (stream : List Stream.Line) (user password : String) :
    (run user password { stream }).sent = transcript (Reply.result stream) user password
      ∧ (∀ reply, (run user password { stream }).outcome = .ok reply
          ↔ accepted (Reply.result stream) = true ∧ directory (Reply.result stream) = .ok reply)
      ∧ (∀ user' password', (run user' password' { stream }).outcome
          = (run user password { stream }).outcome)
      ∧ (hasCode [331] (Reply.result stream 1) = false →
          ∀ password', (run user password' { stream }).sent
            = (run user password { stream }).sent) := by
  refine ⟨?_, ?_, ?_, ?_⟩
  · rw [run_eq]
    rfl
  · intro reply
    rw [run_eq]
    exact verdict_eq_ok_iff
  · intro user' password'
    rw [run_eq, run_eq]
    rfl
  · intro hcode password'
    have hasked : asked (Reply.result stream) = false := by rw [asked, hcode, Bool.and_false]
    rw [run_eq, run_eq, decided, decided, transcript, transcript, hasked]
    rfl

end Dialogue

end HealthWatch.Transfer
