import HealthWatch.Api.Problem
import HealthWatch.Proofs.Json.Octets

/-! # Bodies — what the interface takes from a request

    Values that are carried through a body are taken from a request that says that it is
    JSON and is not too long (`bodyOf_of_carries`). -/

namespace HealthWatch.Api

open Http

/-- A request that brings a value: it says that it is JSON, and its body is that of the
    value and not too long. -/
structure Brings (r : Request) (v : Json) : Prop where
  saysJson : saysJson r = true
  body : r.body = jsonBody v
  length : (jsonBody v).length ≤ bodyLimit

/-- The value that a request brings is decoded from it. -/
theorem bodyOf_of_carries {α : Type} {encode : α → Json}
    {decode : Json.Document → Except Json.Fault α} {cut : α → α}
    (h : Json.Carries encode decode cut) {r : Request} {a : α} (hr : Brings r (encode a)) :
    bodyOf decode r = .ok (cut a) := by
  rw [bodyOf, hr.saysJson, if_neg (by decide), hr.body, if_neg (Nat.not_lt.2 hr.length),
    h.body a]
  rfl

end HealthWatch.Api
