import HealthWatch.Text.Decimal

/-! # UTF-8 — characters as octets

    * `encode` writes each character as one to four octets;
    * `decode` reads octets, or says where and how they stop being UTF-8;
    * `decodeLossy` puts a replacement character where they do. -/

namespace HealthWatch.Text.Utf8

/-- Where octets stop being UTF-8.  A sequence that the end cuts off has no
    length. -/
structure Fault where
  index : Nat
  length : Option Nat
deriving DecidableEq, Repr

/-- The words of a message for a fault. -/
def Fault.message (e : Fault) : String :=
  match e.length with
  | some n =>
      "invalid utf-8 sequence of " ++ natText n ++ " bytes from index " ++ natText e.index
  | none => "incomplete utf-8 byte sequence from index " ++ natText e.index

/-- The octet of a number. -/
def octet (n : Nat) : UInt8 := UInt8.ofNat n

/-- The octets of a character. -/
def encodeChar (c : Char) : List UInt8 :=
  let n := c.toNat
  if n < 0x80 then [octet n]
  else if n < 0x800 then [octet (0xC0 + n / 64), octet (0x80 + n % 64)]
  else if n < 0x10000 then
    [octet (0xE0 + n / 4096), octet (0x80 + n / 64 % 64), octet (0x80 + n % 64)]
  else
    [octet (0xF0 + n / 262144), octet (0x80 + n / 4096 % 64), octet (0x80 + n / 64 % 64),
     octet (0x80 + n % 64)]

/-- The octets of a text. -/
def encode (s : List Char) : List UInt8 :=
  s.flatMap encodeChar

/-- An octet that continues a character. -/
def isContinuation (b : UInt8) : Bool :=
  0x80 ≤ b && b ≤ 0xBF

/-- The range of the second octet after a first one. -/
def secondRange (a : UInt8) : UInt8 × UInt8 :=
  if a = 0xE0 then (0xA0, 0xBF)
  else if a = 0xED then (0x80, 0x9F)
  else if a = 0xF0 then (0x90, 0xBF)
  else if a = 0xF4 then (0x80, 0x8F)
  else (0x80, 0xBF)

/-- The number of octets of a character by its first one, none when no character
    starts with it. -/
def width? (a : UInt8) : Option Nat :=
  if a < 0x80 then some 1
  else if a < 0xC2 then none
  else if a < 0xE0 then some 2
  else if a < 0xF0 then some 3
  else if a < 0xF5 then some 4
  else none

/-- Whether an octet may be the second one after `a`. -/
def isSecond (a b : UInt8) : Bool :=
  let (lo, hi) := secondRange a
  lo ≤ b && b ≤ hi

/-- Reads the character that starts with `a` from the octets behind it, and gives
    the others.  A fault is the number of octets that belong together. -/
def readChar (a : UInt8) (r : List UInt8) : Except (Option Nat) (Char × List UInt8) :=
  match width? a with
  | none => .error (some 1)
  | some 1 => .ok (Char.ofNat a.toNat, r)
  | some w =>
      match r with
      | [] => .error none
      | b :: r =>
          if !isSecond a b then .error (some 1)
          else if w = 2 then .ok (Char.ofNat (a.toNat % 32 * 64 + b.toNat % 64), r)
          else
            match r with
            | [] => .error none
            | c :: r =>
                if !isContinuation c then .error (some 2)
                else if w = 3 then
                  .ok (Char.ofNat (a.toNat % 16 * 4096 + b.toNat % 64 * 64 + c.toNat % 64), r)
                else
                  match r with
                  | [] => .error none
                  | d :: r =>
                      if !isContinuation d then .error (some 3)
                      else
                        .ok (Char.ofNat (a.toNat % 8 * 262144 + b.toNat % 64 * 4096
                          + c.toNat % 64 * 64 + d.toNat % 64), r)

/-- What remains behind a character is not longer than what stood behind its first
    octet. -/
theorem length_readChar {a : UInt8} {r rest : List UInt8} {c : Char}
    (h : readChar a r = .ok (c, rest)) : rest.length ≤ r.length := by
  unfold readChar at h
  split at h
  · exact nomatch h
  · cases h; exact Nat.le_refl _
  · split at h
    · exact nomatch h
    · split at h
      · exact nomatch h
      · split at h
        · cases h; simp
        · split at h
          · exact nomatch h
          · split at h
            · exact nomatch h
            · split at h
              · cases h; simp; omega
              · split at h
                · exact nomatch h
                · split at h
                  · exact nomatch h
                  · cases h; simp; omega

/-- Reads octets from the place `index` on. -/
def decodeFrom (index : Nat) (bytes : List UInt8) : Except Fault (List Char) :=
  match bytes with
  | [] => .ok []
  | a :: r =>
      match h : readChar a r with
      | .error length => .error ⟨index, length⟩
      | .ok (c, rest) =>
          have := length_readChar h
          (c :: ·) <$> decodeFrom (index + c.utf8Size) rest
termination_by bytes.length

/-- Reads octets as a text. -/
def decode (bytes : List UInt8) : Except Fault (List Char) :=
  decodeFrom 0 bytes

/-- Reads octets as a text; what is no UTF-8 becomes a replacement character. -/
def decodeLossy (bytes : List UInt8) : List Char :=
  match bytes with
  | [] => []
  | a :: r =>
      match h : readChar a r with
      | .error none => ['\ufffd']
      | .error (some length) => '\ufffd' :: decodeLossy (r.drop (length - 1))
      | .ok (c, rest) =>
          have := length_readChar h
          c :: decodeLossy rest
termination_by bytes.length
decreasing_by all_goals (simp only [List.length_cons, List.length_drop]; omega)

end HealthWatch.Text.Utf8
