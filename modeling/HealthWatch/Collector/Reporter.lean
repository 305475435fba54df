import HealthWatch.Http.Client
import HealthWatch.Wire.Entry

/-! # Reporting — calls to the storage interface

    A reporter has the address of a storage interface, which has to be one of the
    web.  A call that is not answered with success fails with the code and the
    text of the answer.

    * `Reporter.to?` takes an address;
    * `Reporter.register` and `Reporter.submit` send definitions and results. -/

namespace HealthWatch

open Http Text

/-- Why reporting fails. -/
inductive ReportFault where
  | transport (fault : CallFault)
  | status (code : Nat) (body : String)
  | address (base : String)
deriving DecidableEq, Repr

/-- The words of a message for a fault. -/
def ReportFault.message : ReportFault → String
  | transport fault => "request failed: " ++ fault.message
  | status code body => "storage api returned " ++ statusText code ++ ": " ++ body
  | address base => "invalid storage api url: " ++ base

/-- The address of a storage interface, without slashes at its end. -/
structure Reporter where
  base : String
deriving DecidableEq, Repr

namespace Reporter

/-- Takes the address of a storage interface. -/
def to? (address : String) : Except ReportFault Reporter :=
  let base := (address.toList.reverse.dropWhile (· == '/')).reverse
  if ["http://", "https://"].any fun start => (dropStart? start.toList base).isSome then
    .ok ⟨String.ofList base⟩
  else .error (.address (String.ofList base))

/-- The address of an action. -/
def endpoint (r : Reporter) (action : String) : String :=
  r.base ++ "/api/HealthMonitor/" ++ action

/-- The call that sends a value to an action. -/
def call (r : Reporter) (action : String) (v : Json) : Except CallFault Call :=
  Call.to? "POST" (r.endpoint action) [("content-type", "application/json")] (jsonBody v)

/-- Sends a call; only success counts as an answer. -/
def send (network : Network) (call : Except CallFault Call) : Except ReportFault Response := do
  let response ← (call.bind (Call.send network)).mapError .transport
  if isSuccess response.status then return response
  else .error (.status response.status (String.ofList (Utf8.decodeLossy response.body)))

/-- The call that registers a definition. -/
def registerCall (r : Reporter) (c : Check) : Except CallFault Call :=
  r.call "RegisterHealthCheck" (Wire.encodeCheck c)

/-- The call that submits a result. -/
def submitCall (r : Reporter) (e : Entry) : Except CallFault Call :=
  r.call "AddHealthCheck" (Wire.encodeEntry e)

/-- Registers a definition and gives the stored one. -/
def register (r : Reporter) (network : Network) (c : Check) : Except ReportFault Check := do
  let response ← send network (r.registerCall c)
  (response.decode (Wire.decodeCheck .written)).mapError .transport

/-- Submits a result. -/
def submit (r : Reporter) (network : Network) (e : Entry) : Except ReportFault Unit := do
  let _ ← send network (r.submitCall e)
  return ()

end Reporter

end HealthWatch
