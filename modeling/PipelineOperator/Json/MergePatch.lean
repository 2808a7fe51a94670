import PipelineOperator.Json.Basic

/-!
Merge patches: a patch that is an object is merged member by member, null removes a member, and any
other patch takes the place of the document.
-/

set_option autoImplicit false
set_option relaxedAutoImplicit false

namespace PipelineOperator

namespace Json

def eraseMember (name : String) (members : List (String × Json)) : List (String × Json) :=
  members.filter (fun m ↦ m.1 != name)

/-- Replaces the value of a member in its place, or adds the member at the end. -/
def setMember (name : String) (value : Json) : List (String × Json) → List (String × Json)
  | [] => [(name, value)]
  | (n, v) :: rest =>
    if n = name then (name, value) :: rest else (n, v) :: setMember name value rest

mutual

/-- Applies a patch to a document. -/
def mergePatch (document : Json) : Json → Json
  | object changes => object (mergeMembers (document.members?.getD []) changes)
  | other => other

def mergeMembers (members : List (String × Json)) : List (String × Json) → List (String × Json)
  | [] => members
  | (name, change) :: rest =>
    let merged := if change.isNull then eraseMember name members
      else setMember name (mergePatch ((lookup name members).getD null) change) members
    mergeMembers merged rest

end

end Json

end PipelineOperator
