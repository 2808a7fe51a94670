import PipelineOperator.Json.Record
import PipelineOperator.Object.Metadata

/-!
The two places into which a stage can deploy: a namespace of its own, or the space of a tenant,
which belongs to an account and stands for a namespace of the same name.
-/

set_option autoImplicit false
set_option relaxedAutoImplicit false

namespace PipelineOperator

open Json

structure NamespaceSpec where
  finalizers : Option (List String) := none
deriving DecidableEq

namespace NamespaceSpec

def encode (s : NamespaceSpec) : Json := .object (member? "finalizers" strings s.finalizers)

def decode (document : Json) : Option NamespaceSpec := do
  let r ← document.members?
  return { finalizers := ← Members.optional r "finalizers" strings? }

end NamespaceSpec

structure NamespaceCondition where
  lastTransition : Option Instant := none
  message : Option String := none
  reason : Option String := none
  status : String := ""
  type : String := ""
deriving DecidableEq

namespace NamespaceCondition

def encode (c : NamespaceCondition) : Json :=
  .object (member? "lastTransitionTime" (fun t ↦ .string t.toSecond) c.lastTransition ++
    member? "message" .string c.message ++ member? "reason" .string c.reason ++
    [("status", .string c.status), ("type", .string c.type)])

def decode (document : Json) : Option NamespaceCondition := do
  let r ← document.members?
  return {
    lastTransition := ← Members.optional r "lastTransitionTime" Instant.decode
    message := ← Members.optional r "message" string?
    reason := ← Members.optional r "reason" string?
    status := ← Members.lenient r "status" "" string?
    type := ← Members.lenient r "type" "" string? }

end NamespaceCondition

structure NamespaceStatus where
  conditions : Option (List NamespaceCondition) := none
  phase : Option String := none
deriving DecidableEq

namespace NamespaceStatus

def encode (s : NamespaceStatus) : Json :=
  .object (
    member? "conditions" (fun cs ↦ .array (cs.map NamespaceCondition.encode)) s.conditions ++
    member? "phase" .string s.phase)

def decode (document : Json) : Option NamespaceStatus := do
  let r ← document.members?
  return {
    conditions := ← Members.optional r "conditions" (list? NamespaceCondition.decode)
    phase := ← Members.optional r "phase" string? }

end NamespaceStatus

structure SpaceSpec where
  account : String
deriving DecidableEq

namespace SpaceSpec

def encode (s : SpaceSpec) : Json := .object [("account", .string s.account)]

def decode (document : Json) : Option SpaceSpec := do
  let r ← document.record? ["account"]
  return { account := ← r.required "account" string? }

end SpaceSpec

end PipelineOperator
