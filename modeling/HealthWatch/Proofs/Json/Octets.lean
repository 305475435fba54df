import HealthWatch.Http.Message
import HealthWatch.Json.Octets
import HealthWatch.Proofs.Json.Decode
import HealthWatch.Proofs.Text.Utf8

/-! # JSON in octets — what is written into a body is read from it

    The octets of a text are read back as the text, so a decoder that carries the values
    of an encoder carries them through a body (`Carries.body`).  What a decoder makes of a
    body hangs on the tree of the body alone (`body_eq_ok_iff`). -/

namespace HealthWatch.Json

open Text

/-- The tree of a body that is one JSON text from its start to its end. -/
def treeOf? (bytes : List UInt8) : Option Document :=
  match readWhole (charsOfOctets false [] bytes) with
  | (d, true) => some d
  | (_, false) => none

/-- A body is decoded when it is a JSON text whose tree is. -/
theorem body_eq_ok_iff {α : Type} {f : Document → Except Fault α} {bytes : List UInt8} {a : α} :
    Decode.body f bytes = .ok a ↔ ∃ d, treeOf? bytes = some d ∧ f d = .ok a := by
  rw [Decode.body, Decode.whole, treeOf?]
  obtain ⟨d, ends⟩ := readWhole (charsOfOctets false [] bytes)
  dsimp only
  constructor
  · intro h
    obtain ⟨b, hb, hend⟩ := bind_eq_ok h
    cases ends with
    | true =>
        cases hend
        exact ⟨d, rfl, hb⟩
    | false => cases hend
  · rintro ⟨e, he, ha⟩
    cases ends with
    | true =>
        cases he
        rw [ha]
        rfl
    | false => cases he

/-- Octets that are a text are read as that text. -/
theorem charsOfOctets_encode (escaped : Bool) (chars s : List Char) :
    charsOfOctets escaped chars (Utf8.encode s) = chars.reverse ++ s := by
  induction s generalizing escaped chars with
  | nil =>
      rw [Utf8.encode, List.flatMap_nil, charsOfOctets, List.append_nil]
  | cons c s ih =>
      obtain ⟨a, r, hoctets, hread⟩ := Utf8.readChar_encodeChar c (Utf8.encode s)
      rw [Utf8.encode, List.flatMap_cons, ← Utf8.encode, hoctets, charsOfOctets]
      split
      · next herror => cases hread.symm.trans herror
      · next d rest hok =>
          cases hread.symm.trans hok
          rw [ih, List.reverse_cons, List.append_assoc]
          rfl

/-- A value without numbers goes through a body. -/
theorem treeOf?_jsonBody {v : Json} (h : NumberFree v) :
    treeOf? (Http.jsonBody v) = some (.ofJson v) := by
  rw [treeOf?, Http.jsonBody, charsOfOctets_encode, List.reverse_nil, List.nil_append,
    readWhole_write h]

/-- What is written as a body is decoded from it. -/
theorem Carries.body {α : Type} {encode : α → Json} {decode : Document → Except Fault α}
    {cut : α → α} (h : Carries encode decode cut) (a : α) :
    Decode.body decode (Http.jsonBody (encode a)) = .ok (cut a) :=
  body_eq_ok_iff.2 ⟨_, treeOf?_jsonBody (h.numberFree a), h.decode_encode a⟩

end HealthWatch.Json
