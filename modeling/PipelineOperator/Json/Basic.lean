import PipelineOperator.Decimal.Basic

/-!
JSON documents. Objects keep their members in the order in which they were written; a document
whose members are sorted and whose names are single is `canonical`. Numbers are exact integers or
decimals, so nothing is lost between reading and writing. A part that is written well but stands for
no value, such as half a character, is `illegible`: a reader that never looks at it need not mind.
-/

set_option autoImplicit false
set_option relaxedAutoImplicit false

namespace PipelineOperator

inductive Json where
  | null
  | bool (value : Bool)
  | integer (value : Int)
  | real (value : Decimal)
  | string (text : String)
  | array (items : List Json)
  | object (members : List (String × Json))
  | illegible

namespace Json

instance : Inhabited Json := ⟨null⟩

/-- The members of an object. -/
def members? : Json → Option (List (String × Json))
  | object members => some members
  | _ => none

def string? : Json → Option String
  | string text => some text
  | _ => none

def bool? : Json → Option Bool
  | bool value => some value
  | _ => none

def integer? : Json → Option Int
  | integer value => some value
  | _ => none

def array? : Json → Option (List Json)
  | array items => some items
  | _ => none

def isNull : Json → Bool
  | null => true
  | _ => false

/-- The value of the last member of that name. -/
def lookup (name : String) : List (String × Json) → Option Json
  | [] => none
  | (n, v) :: rest =>
    match lookup name rest with
    | some w => some w
    | none => if n = name then some v else none

/-- The member of that name, of an object. -/
def field? (document : Json) (name : String) : Option Json :=
  document.members?.bind (lookup name)

/-- Places a member before the first larger name, over one of the same name. -/
def insertMember (name : String) (value : Json) : List (String × Json) → List (String × Json)
  | [] => [(name, value)]
  | (n, v) :: rest =>
    if name < n then (name, value) :: (n, v) :: rest
    else if name = n then (name, value) :: rest
    else (n, v) :: insertMember name value rest

mutual

/-- Sorts the members of every object by code point; of members with one name the last stays. -/
def canonical : Json → Json
  | array items => array (canonicalItems items)
  | object members => object (canonicalMembers members [])
  | other => other

def canonicalItems : List Json → List Json
  | [] => []
  | item :: rest => canonical item :: canonicalItems rest

def canonicalMembers : List (String × Json) → List (String × Json) → List (String × Json)
  | [], sorted => sorted
  | (name, value) :: rest, sorted =>
    canonicalMembers rest (insertMember name (canonical value) sorted)

end

mutual

/-- Every part of the document stands for a value. -/
def isLegible : Json → Bool
  | illegible => false
  | array items => isLegibleItems items
  | object members => isLegibleMembers members
  | _ => true

def isLegibleItems : List Json → Bool
  | [] => true
  | item :: rest => isLegible item && isLegibleItems rest

def isLegibleMembers : List (String × Json) → Bool
  | [] => true
  | (_, value) :: rest => isLegible value && isLegibleMembers rest

end

mutual

/-- How many arrays and objects are nested at most. -/
def depth : Json → Nat
  | array items => depthItems items + 1
  | object members => depthMembers members + 1
  | _ => 0

def depthItems : List Json → Nat
  | [] => 0
  | item :: rest => max (depth item) (depthItems rest)

def depthMembers : List (String × Json) → Nat
  | [] => 0
  | (_, value) :: rest => max (depth value) (depthMembers rest)

end

end Json

end PipelineOperator
