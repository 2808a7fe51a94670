import PipelineOperator.Json.Reader

/-!
Parts of a document that are kept as they are. Such a part must be legible throughout and not nested
too deeply. In it an object may be sealed: it stands for another document, whose text it holds, and
which takes its place when the part is kept (`Json.kept?`).
-/

set_option autoImplicit false
set_option relaxedAutoImplicit false

namespace PipelineOperator

namespace Json

/-- The most arrays and objects within each other. -/
def maxDepth : Nat := 127

/-- The part can be kept where so many arrays and objects are already around it. -/
def isKeepable (outer : Nat) (part : Json) : Bool := part.isLegible && outer + part.depth ≤ maxDepth

/-- The name under which a sealed object holds its text. -/
def sealName : String := "$serde_json::private::RawValue"

/-- The first member tells that an object is sealed. -/
def isSealed (members : List (String × Json)) : Bool := members.head?.any (·.1 == sealName)

/-- The text of a sealed object, which holds nothing else. -/
def sealedText? : List (String × Json) → Option String
  | [(_, string text)] => some text
  | _ => none

mutual

/-- Puts the documents that are read from their texts in the place of sealed objects. -/
def opened (read : String → Option Json) : Json → Option Json
  | array items => (openedItems read items).map array
  | object members =>
    if isSealed members then (sealedText? members).bind read
    else (openedMembers read members).map object
  | other => some other

def openedItems (read : String → Option Json) : List Json → Option (List Json)
  | [] => some []
  | item :: rest => do return (← opened read item) :: (← openedItems read rest)

def openedMembers (read : String → Option Json) :
    List (String × Json) → Option (List (String × Json))
  | [] => some []
  | (name, value) :: rest => do
    return (name, ← opened read value) :: (← openedMembers read rest)

end

def keptWith (read : String → Option Json) (outer : Nat) (part : Json) : Option Json :=
  if isKeepable outer part then opened read part else none

/-- Reads a text with so many texts within each other. -/
def ofNestedText? : Nat → String → Option Json
  | 0, _ => none
  | levels + 1, text => (ofLooseText? text).bind (keptWith (ofNestedText? levels) 0)

/-- Reads a whole text as a document that is kept. A text within it is shorter than it, so there are
never more of them within each other than it has characters. -/
def ofKeptText? (text : String) : Option Json := ofNestedText? (text.length + 1) text

/-- The part as it is kept within so many arrays and objects. -/
def kept? (outer : Nat) (part : Json) : Option Json := keptWith ofKeptText? outer part

theorem isKeepable_of_kept? {outer : Nat} {part document : Json}
    (h : kept? outer part = some document) : isKeepable outer part = true := by
  unfold kept? keptWith at h
  split at h
  · assumption
  · contradiction

end Json

end PipelineOperator
