import PipelineOperator.Json.Record

/-!
Access rights: roles, which allow verbs on resources, and bindings, which grant a role to service
accounts and groups.
-/

set_option autoImplicit false
set_option relaxedAutoImplicit false

namespace PipelineOperator

open Json

structure PolicyRule where
  apiGroups : Option (List String) := none
  nonResourceUrls : Option (List String) := none
  resourceNames : Option (List String) := none
  resources : Option (List String) := none
  verbs : List String := []
deriving DecidableEq

namespace PolicyRule

def encode (r : PolicyRule) : Json :=
  .object (member? "apiGroups" strings r.apiGroups ++
    member? "nonResourceURLs" strings r.nonResourceUrls ++
    member? "resourceNames" strings r.resourceNames ++ member? "resources" strings r.resources ++
    [("verbs", strings r.verbs)])

def decode (document : Json) : Option PolicyRule := do
  let r ← document.members?
  return {
    apiGroups := ← Members.optional r "apiGroups" strings?
    nonResourceUrls := ← Members.optional r "nonResourceURLs" strings?
    resourceNames := ← Members.optional r "resourceNames" strings?
    resources := ← Members.optional r "resources" strings?
    verbs := ← Members.lenient r "verbs" [] strings? }

end PolicyRule

structure RoleContent where
  rules : Option (List PolicyRule) := none
deriving DecidableEq

namespace RoleContent

def members (c : RoleContent) : List (String × Json) :=
  member? "rules" (fun rs ↦ .array (rs.map PolicyRule.encode)) c.rules

def ofMembers? (r : Members) : Option RoleContent := do
  return { rules := ← Members.optional r "rules" (list? PolicyRule.decode) }

end RoleContent

/-- The role that a binding grants. -/
structure RoleReference where
  apiGroup : String := ""
  kind : String := ""
  name : String := ""
deriving DecidableEq

namespace RoleReference

def encode (r : RoleReference) : Json :=
  .object [("apiGroup", .string r.apiGroup), ("kind", .string r.kind), ("name", .string r.name)]

def decode (document : Json) : Option RoleReference := do
  let r ← document.members?
  return {
    apiGroup := ← Members.lenient r "apiGroup" "" string?
    kind := ← Members.lenient r "kind" "" string?
    name := ← Members.lenient r "name" "" string? }

end RoleReference

/-- One to whom a role is granted. -/
structure Subject where
  apiGroup : Option String := none
  kind : String
  name : String
  ns : Option String := none
deriving DecidableEq

namespace Subject

def encode (s : Subject) : Json :=
  .object (member? "apiGroup" .string s.apiGroup ++
    [("kind", .string s.kind), ("name", .string s.name)] ++ member? "namespace" .string s.ns)

def decode (document : Json) : Option Subject := do
  let r ← document.members?
  return {
    apiGroup := ← Members.optional r "apiGroup" string?
    kind := ← Members.lenient r "kind" "" string?
    name := ← Members.lenient r "name" "" string?
    ns := ← Members.optional r "namespace" string? }

end Subject

structure BindingContent where
  role : RoleReference := {}
  subjects : Option (List Subject) := none
deriving DecidableEq

namespace BindingContent

def members (c : BindingContent) : List (String × Json) :=
  ("roleRef", c.role.encode) ::
    member? "subjects" (fun ss ↦ .array (ss.map Subject.encode)) c.subjects

def ofMembers? (r : Members) : Option BindingContent := do
  return {
    role := ← Members.lenient r "roleRef" {} RoleReference.decode
    subjects := ← Members.optional r "subjects" (list? Subject.decode) }

end BindingContent

end PipelineOperator
