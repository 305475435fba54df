import HealthWatch.Json.Document

/-! # Decoding — values of the domain from JSON trees

    A decoder walks a tree in the order of its text.  It ends with a value, with
    a fault of the text, or with a refusal: a value that the domain has no use
    for, the way to it and the cause.

    A record is an object whose members are taken in any order, or a list of its
    fields in their order.  Unknown members are skipped, a member may not come
    twice, and a missing one has a default or is refused. -/

namespace HealthWatch.Json

open Text

/-- Whether a tree was read from a text or made from a value.  A list that goes
    on behind the last field is a fault of a text, and is refused in a value. -/
inductive Medium where
  | written
  | ready
deriving DecidableEq, Repr

/-- One step of the way to a value. -/
inductive Step where
  | member (key : String)
  /-- A member whose key could not be read. -/
  | unnamed
  | item (index : Nat)
deriving DecidableEq, Repr

/-- Why a value is refused: while it is read, or when it was read and is rejected. -/
inductive Cause where
  | wrongType (found : Shape) (expected : String)
  | wrongValue (found : Shape) (expected : String)
  | wrongLength (found : Nat) (expected : String)
  | unknownVariant (found : String) (known : List String)
  | missingMember (key : String)
  | repeatedMember (key : String)
  | unfit (reason : String)
  | rejected (reason : String)
deriving DecidableEq, Repr

/-- Names in backticks with commas between them. -/
def listNames (names : List String) : String :=
  ", ".intercalate (names.map fun n => "`" ++ n ++ "`")

/-- The words of a message for a cause. -/
def Cause.message : Cause → String
  | wrongType s e => "invalid type: " ++ s.describe ++ ", expected " ++ e
  | wrongValue s e => "invalid value: " ++ s.describe ++ ", expected " ++ e
  | wrongLength n e => "invalid length " ++ natText n ++ ", expected " ++ e
  | unknownVariant n known =>
      "unknown variant `" ++ n ++ "`, expected one of " ++ listNames known
  | missingMember k => "missing field `" ++ k ++ "`"
  | repeatedMember k => "duplicate field `" ++ k ++ "`"
  | unfit reason => reason
  | rejected reason => reason

/-- What decoding fails with, and the way to the value in which it shows. -/
inductive Fault where
  | malformed (path : List Step) (fault : SyntaxFault)
  | refused (path : List Step) (cause : Cause)
deriving DecidableEq, Repr

/-- The way to the value in which a fault shows. -/
def Fault.path : Fault → List Step
  | malformed path _ => path
  | refused path _ => path

/-- The words of a message for a fault. -/
def Fault.reason : Fault → String
  | malformed _ fault => fault.message
  | refused _ cause => cause.message

/-- The words of a message for a step. -/
def Step.text : Step → String
  | member key => key
  | unnamed => "?"
  | item index => "[" ++ natText index ++ "]"

/-- The words of a message for a way: member names with points before them, apart
    from the first step, and item numbers in brackets. -/
def pathText : List Step → String
  | [] => ""
  | step :: r => step.text ++ following r
where
  /-- The words for the steps after the first. -/
  following : List Step → String
    | [] => ""
    | .item i :: r => (Step.item i).text ++ following r
    | step :: r => "." ++ step.text ++ following r

namespace Decode

/-- A refusal at the value itself. -/
def refuse {α : Type} (cause : Cause) : Except Fault α :=
  .error (.refused [] cause)

/-- Refuses a value of a wrong kind; a faulty one is a fault of the text. -/
def wrongType {α : Type} (d : Document) (expected : String) : Except Fault α :=
  match d.shape with
  | .ok s => refuse (.wrongType s expected)
  | .error fault => .error (.malformed [] fault)

/-- Puts a step before the way to a fault. -/
def within {α : Type} (step : Step) : Except Fault α → Except Fault α
  | .error (.refused path cause) => .error (.refused (step :: path) cause)
  | .error (.malformed path fault) => .error (.malformed (step :: path) fault)
  | .ok a => .ok a

/-- A text. -/
def string (d : Document) : Except Fault String :=
  match d with
  | .text (.ok s) => .ok s
  | _ => wrongType d "a string"

/-- A truth value. -/
def boolean (d : Document) : Except Fault Bool :=
  match d with
  | .bool b => .ok b
  | _ => wrongType d "a boolean"

/-- A number of no sign with so many bits. -/
def unsigned (bits : Nat) (d : Document) : Except Fault Nat :=
  let expected := "u" ++ natText bits
  match d with
  | .number (some (.integer i)) =>
      if 0 ≤ i && i.toNat < Nat.pow 2 bits then .ok i.toNat
      else refuse (.wrongValue (.number (.integer i)) expected)
  | _ => wrongType d expected

/-- A value, or null for none. -/
def option {α : Type} (f : Document → Except Fault α) (d : Document) :
    Except Fault (Option α) :=
  match d with
  | .null => .ok none
  | _ => some <$> f d

/-- A list that has to be closed where the items end. -/
def close (ending : Ending) : Except Fault Unit :=
  (Document.close ending).mapError (.malformed [])

/-- The items of a list from the `index`th on.  Where one item more was looked for, a list
    that is not closed is at fault. -/
def items {α : Type} (f : Document → Except Fault α) (ending : Ending) :
    Nat → List Document → Except Fault (List α)
  | index, [] => do
      within (.item index) (close ending)
      return []
  | index, d :: r => do
      let a ← within (.item index) (f d)
      let as ← items f ending (index + 1) r
      return a :: as

/-- A list. -/
def list {α : Type} (f : Document → Except Fault α) (d : Document) :
    Except Fault (List α) :=
  match d with
  | .array ds ending => items f ending 0 ds
  | _ => wrongType d "a sequence"

/-- Skips the value of a member. -/
def skip (key : String) (d : Document) : Except Fault Unit :=
  within (.member key) (d.skip.mapError (.malformed []))

/-- Reads a member that may come once. -/
def once {α : Type} (key : String) (f : Document → Except Fault α) (d : Document)
    (current : Option α) : Except Fault (Option α) :=
  match current with
  | some _ => refuse (.repeatedMember key)
  | none => some <$> within (.member key) (f d)

/-- The value of a member that has to be there. -/
def required {α : Type} (key : String) : Option α → Except Fault α
  | some a => .ok a
  | none => refuse (.missingMember key)

/-- Takes the members of an object one after the other. -/
def members {σ : Type} (step : σ → String → Document → Except Fault σ) (ending : Ending) :
    σ → List (Except SyntaxFault String × Document) → Except Fault σ
  | s, [] => do
      within .unnamed (close ending)
      return s
  | s, (.ok key, d) :: r => do
      let s ← step s key d
      members step ending s r
  | _, (.error fault, _) :: _ => .error (.malformed [.unnamed] fault)

/-- What is left of a list of fields, and how many fields were taken. -/
structure Fields where
  medium : Medium
  expected : String
  total : Nat
  taken : Nat
  rest : List Document
  ending : Ending

/-- The fields of a record that is written as a list. -/
def Fields.ofList (medium : Medium) (expected : String) (ds : List Document)
    (ending : Ending) : Fields where
  medium := medium
  expected := expected
  total := ds.length
  taken := 0
  rest := ds
  ending := ending

/-- Takes the next field, none at the end of the list. -/
def Fields.next? {α : Type} (f : Document → Except Fault α) (fs : Fields) :
    Except Fault (Option α × Fields) :=
  match fs.rest with
  | [] => do
      within (.item fs.taken) (close fs.ending)
      return (none, { fs with taken := fs.taken + 1 })
  | d :: r => do
      let a ← within (.item fs.taken) (f d)
      return (some a, { fs with taken := fs.taken + 1, rest := r })

/-- Takes a field that has to be there. -/
def Fields.next {α : Type} (f : Document → Except Fault α) (fs : Fields) :
    Except Fault (α × Fields) := do
  match ← fs.next? f with
  | (some a, fs) => return (a, fs)
  | (none, _) => refuse (.wrongLength fs.taken fs.expected)

/-- Takes a field that has a default. -/
def Fields.nextD {α : Type} (f : Document → Except Fault α) (default : α) (fs : Fields) :
    Except Fault (α × Fields) := do
  let (a, fs) ← fs.next? f
  return (a.getD default, fs)

/-- Ends a list of fields; nothing may follow the last one. -/
def Fields.finish (fs : Fields) : Except Fault Unit :=
  match fs.rest, fs.medium with
  | [], _ => close fs.ending
  | _ :: _, .written => .error (.malformed [] .moreItems)
  | _ :: _, .ready => refuse (.wrongLength fs.total "fewer elements in array")

/-- A record of the type `name`: its members, or its `count` fields in a list. -/
def record {σ α : Type} (name : String) (count : Nat) (medium : Medium) (start : σ)
    (step : σ → String → Document → Except Fault σ) (finish : σ → Except Fault α)
    (fields : Fields → Except Fault (α × Fields)) (d : Document) : Except Fault α :=
  match d with
  | .object ms ending => do
      let s ← members step ending start ms
      finish s
  | .array ds ending => do
      let expected := "struct " ++ name ++ " with " ++ natText count
        ++ (if count = 1 then " element" else " elements")
      let (a, fs) ← fields (.ofList medium expected ds ending)
      fs.finish
      return a
  | _ => wrongType d ("struct " ++ name)

/-- The only member of an object that stands for a variant with its content. -/
def variantMember (medium : Medium) (ms : List (Except SyntaxFault String × Document))
    (ending : Ending) (f : String → Document → Except Fault α) : Except Fault α :=
  match medium, ms, ending with
  | .written, [], .stray (.ok s) => refuse (.wrongType s "variant identifier")
  | .written, [], .stray (.error fault) => .error (.malformed [] fault)
  | .written, (.ok key, d) :: r, ending => do
      let a ← f key d
      match r, ending with
      | [], ending => do
          close ending
          return a
      | _ :: _, _ => .error (.malformed [] .noValue)
  | .written, (.error fault, _) :: _, _ => .error (.malformed [] fault)
  | .written, [], .broken fault => .error (.malformed [] fault)
  | .written, [], .closed => .error (.malformed [] .noValue)
  | .ready, [(.ok key, d)], _ => f key d
  | .ready, _, _ => refuse (.wrongValue .map "map with a single key")

/-- What is wrong with a value that starts neither as a text nor as an object. -/
def startFault : Document → SyntaxFault
  | .broken fault => if fault = .endOfValue || fault.isInText then fault else .noValue
  | .text (.error fault) => fault
  | _ => .noValue

/-- The absence of content. -/
def unit (d : Document) : Except Fault Unit :=
  match d with
  | .null => .ok ()
  | _ => wrongType d "unit"

/-- The content of a variant that has none; what shows before its content does so in
    the value itself. -/
def noContent (name : String) : Document → Except Fault Unit
  | .broken .noColon => .error (.malformed [] .noColon)
  | .broken .endOfObject => .error (.malformed [] .endOfObject)
  | content => within (.member name) (unit content)

/-- A name out of a fixed list: a text, or an object of one member without
    content. -/
def variant {α : Type} (known : List String) (ofName? : String → Option α)
    (medium : Medium) (d : Document) : Except Fault α :=
  let named (s : String) : Except Fault α :=
    match ofName? s with
    | some a => .ok a
    | none => refuse (.unknownVariant s known)
  match d with
  | .text (.ok s) => named s
  | .object ms ending =>
      variantMember medium ms ending fun key content => do
        let a ← named key
        noContent key content
        return a
  | _ =>
      match medium with
      | .written => .error (.malformed [] (startFault d))
      | .ready => wrongType d "string or map"

/-- Decodes a whole text; only gaps may follow the value. -/
def whole {α : Type} (f : Document → Except Fault α) (s : List Char) : Except Fault α := do
  let (d, ends) := readWhole s
  let a ← f d
  if ends then return a else .error (.malformed [] .moreBehind)

end Decode

end HealthWatch.Json
