/-! # JSON values

    A number is an integer of at most sixty-four bits, with or without sign, or
    a real number, held by the bits of its double-precision form so that values
    can be told apart exactly.  The members of an object keep their order. -/

namespace HealthWatch

namespace Json

/-- A JSON number. -/
inductive Number where
  | integer (value : Int)
  | real (bits : UInt64)
deriving DecidableEq, Repr, Inhabited

end Json

/-- A JSON value. -/
inductive Json where
  | null
  | bool (value : Bool)
  | number (value : Json.Number)
  | text (value : String)
  | array (items : List Json)
  | object (members : List (String × Json))
deriving Repr, Inhabited, BEq

namespace Json

/-- The number of a natural number. -/
def ofNat (n : Nat) : Json := number (.integer n)

/-- The number of an integer. -/
def ofInt (i : Int) : Json := number (.integer i)

/-- A text from its characters. -/
def ofChars (s : List Char) : Json := text (String.ofList s)

/-- An optional value; an absent one is null. -/
def ofOption {α : Type} (f : α → Json) : Option α → Json
  | some a => f a
  | none => null

/-- A member that is left out when there is no value. -/
def member? {α : Type} (key : String) (f : α → Json) : Option α → List (String × Json)
  | some a => [(key, f a)]
  | none => []

/-- The value of the first member with this key. -/
def lookup (key : String) : List (String × Json) → Option Json
  | [] => none
  | (k, v) :: r => if k = key then some v else lookup key r

/-- The member of an object; null and an absent member are both none. -/
def field? (key : String) : Json → Option Json
  | object ms =>
      match lookup key ms with
      | some null => none
      | v => v
  | _ => none

/-- Puts a member in its place by ascending key; an equal key is replaced. -/
def insertMember (key : String) (value : Json) :
    List (String × Json) → List (String × Json)
  | [] => [(key, value)]
  | (k, v) :: r =>
      if key < k then (key, value) :: (k, v) :: r
      else if key = k then (key, value) :: r
      else (k, v) :: insertMember key value r

/-- Members by ascending key; of equal keys the last one counts. -/
def sortMembers (ms : List (String × Json)) : List (String × Json) :=
  ms.foldl (fun acc (k, v) => insertMember k v acc) []

mutual

/-- A value with the members of all its objects by ascending key; of equal keys
    the last one counts. -/
def normalize : Json → Json
  | array items => array (normalizeItems items)
  | object ms => object (sortMembers (normalizeMembers ms))
  | v => v

/-- The normal forms of several values. -/
def normalizeItems : List Json → List Json
  | [] => []
  | v :: r => normalize v :: normalizeItems r

/-- Members with their values in normal form. -/
def normalizeMembers : List (String × Json) → List (String × Json)
  | [] => []
  | (k, v) :: r => (k, normalize v) :: normalizeMembers r

end

end Json

end HealthWatch
