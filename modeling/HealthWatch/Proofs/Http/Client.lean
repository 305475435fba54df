import HealthWatch.Http.Client

/-! # Calls — which address they go to

    A call is made when its address is one that requests can go to (`Call.to?_eq_ok_iff`), and
    what becomes of it is the answer of the network (`Call.toOption_send`). -/

namespace HealthWatch.Http

/-- A call goes to an address with a host and a scheme of requests. -/
theorem Call.to?_eq_ok_iff {method address : String} {headers : Headers} {body : List UInt8}
    {c : Call} : Call.to? method address headers body = .ok c
      ↔ Url.parse? address.toList = some c.url ∧ c.url.IsWeb ∧
        c.request = { method, target := c.url.target, headers, body } := by
  rw [Call.to?]
  constructor
  · intro h
    cases hparse : Url.parse? address.toList with
    | none =>
        rw [hparse] at h
        cases h
    | some u =>
        rw [hparse] at h
        dsimp only at h
        split at h
        · next hweb =>
            cases h
            exact ⟨rfl, hweb, rfl⟩
        · cases h
  · rintro ⟨hparse, hweb, hrequest⟩
    obtain ⟨u, request⟩ := c
    dsimp only at hparse hweb hrequest
    rw [hparse, hrequest]
    exact if_pos hweb

/-- What is heard of a call is what the network answers. -/
theorem Call.toOption_send (network : Network) (c : Call) :
    (c.send network).toOption = network c := by
  rw [Call.send]
  cases network c <;> rfl

/-- A body is decoded, or it is not and nothing more is said about it. -/
theorem Response.decode_cases {α : Type} (f : Json.Document → Except Json.Fault α) (r : Response) :
    (∃ a, Json.Decode.body f r.body = .ok a ∧ r.decode f = .ok a) ∨
      ((∀ a, Json.Decode.body f r.body ≠ .ok a) ∧ r.decode f = .error .undecodable) := by
  rw [Response.decode]
  cases Json.Decode.body f r.body with
  | ok a => exact Or.inl ⟨a, rfl, rfl⟩
  | error e => exact Or.inr ⟨fun a => by rintro ⟨⟩, rfl⟩

end HealthWatch.Http
