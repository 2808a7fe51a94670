import PipelineOperator.Json.Basic

/-!
Decoding of records: the named parts of a document, each required, defaulted or optional. A record
is an object whose known members are single, or an array that gives the leading members in their
order; members of other names are ignored. Where a name may be written twice, every value is decoded
and the last one counts.
-/

set_option autoImplicit false
set_option relaxedAutoImplicit false

namespace PipelineOperator

namespace Json

/-- The members from which a record is decoded. -/
abbrev Members := List (String × Json)

/-- How often a name occurs. -/
def occurrences (name : String) (members : Members) : Nat :=
  (members.filter (fun m ↦ m.1 == name)).length

/-- An object none of whose known members is written twice. -/
def objectRecord? (names : List String) : Json → Option Members
  | object members =>
    if names.all (fun name ↦ occurrences name members ≤ 1) then some members else none
  | _ => none

/-- A record as an object or as the array of its leading members. -/
def record? (names : List String) (document : Json) : Option Members :=
  match document with
  | array items => if items.length ≤ names.length then some (names.zip items) else none
  | other => objectRecord? names other

namespace Members

variable {α : Type}

/-- A member that has to be there. -/
def required (members : Members) (name : String) (decode : Json → Option α) : Option α :=
  (lookup name members).bind decode

/-- A member that stands for a fixed value when it is absent. -/
def defaulted (members : Members) (name : String) (fallback : α) (decode : Json → Option α) :
    Option α :=
  match lookup name members with
  | none => some fallback
  | some value => decode value

/-- A value or null. -/
def nullable (decode : Json → Option α) : Json → Option (Option α)
  | null => some none
  | value => (decode value).map some

/-- A member that may be absent or null. -/
def optional (members : Members) (name : String) (decode : Json → Option α) : Option (Option α) :=
  let values := members.filter (fun m ↦ m.1 == name)
  (values.mapM (fun m ↦ nullable decode m.2)).map (fun found ↦ found.getLast?.join)

/-- A member for which null and absence both stand for a fixed value. -/
def lenient (members : Members) (name : String) (fallback : α) (decode : Json → Option α) :
    Option α :=
  (members.optional name decode).map (·.getD fallback)

end Members

def list? {α : Type} (decode : Json → Option α) (document : Json) : Option (List α) :=
  document.array?.bind (fun items ↦ items.mapM decode)

def strings? (document : Json) : Option (List String) := document.list? string?

/-- An integer between two bounds. -/
def integerIn? (low high : Int) (document : Json) : Option Int :=
  document.integer?.bind (fun n ↦ if low ≤ n ∧ n ≤ high then some n else none)

def uint32? (document : Json) : Option UInt32 :=
  (document.integerIn? 0 (UInt32.size - 1)).map (fun n ↦ UInt32.ofNat n.toNat)

def int32? (document : Json) : Option Int32 :=
  (document.integerIn? Int32.minValue.toInt Int32.maxValue.toInt).map Int32.ofInt

def int64? (document : Json) : Option Int64 :=
  (document.integerIn? Int64.minValue.toInt Int64.maxValue.toInt).map Int64.ofInt

/-- The name of a case without content: the bare name, or an object with that one name. -/
def case? : Json → Option String
  | string name => some name
  | object [(name, null)] => some name
  | _ => none

def strings (texts : List String) : Json := array (texts.map string)

/-- A member that is written only when it has a value. -/
def member? {α : Type} (name : String) (encode : α → Json) : Option α → List (String × Json)
  | none => []
  | some value => [(name, encode value)]

end Json

end PipelineOperator
