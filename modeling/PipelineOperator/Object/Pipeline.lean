import PipelineOperator.Json.Record

/-!
Pipelines: applications that are promoted together through an ordered set of stages, and the image
streams that feed the first of these. A status records the generation of the specification that
was last worked off.
-/

set_option autoImplicit false
set_option relaxedAutoImplicit false

namespace PipelineOperator

open Json

structure PipelineSpec where
  name : String
  deploymentType : String := "container"
  inputStreams : List String := []
  applications : List String := []
  applicationsToPromote : Option (List String) := none
deriving DecidableEq

namespace PipelineSpec

/-- The artifacts of the codebase are promoted from stage to stage. -/
def promotes (s : PipelineSpec) (codebase : String) : Bool :=
  codebase ∈ s.applicationsToPromote.getD []

def encode (s : PipelineSpec) : Json :=
  .object ([
    ("name", .string s.name), ("deploymentType", .string s.deploymentType),
    ("inputDockerStreams", strings s.inputStreams), ("applications", strings s.applications)] ++
    member? "applicationsToPromote" strings s.applicationsToPromote)

def decode (document : Json) : Option PipelineSpec := do
  let r ← document.record?
    ["name", "deploymentType", "inputDockerStreams", "applications", "applicationsToPromote"]
  return {
    name := ← r.required "name" string?
    deploymentType := ← r.defaulted "deploymentType" "container" string?
    inputStreams := ← r.defaulted "inputDockerStreams" [] strings?
    applications := ← r.defaulted "applications" [] strings?
    applicationsToPromote := ← r.optional "applicationsToPromote" strings? }

end PipelineSpec

/-- How the operator last left a pipeline. -/
structure PipelineStatus where
  available : Bool := false
  lastTimeUpdated : Option String := none
  status : String := ""
  username : String := ""
  action : String := ""
  result : String := ""
  detailedMessage : Option String := none
  value : String := ""
  observedGeneration : Option Int64 := none
deriving DecidableEq

namespace PipelineStatus

def encode (s : PipelineStatus) : Json :=
  .object ([("available", .bool s.available)] ++
    member? "last_time_updated" .string s.lastTimeUpdated ++
    [("status", .string s.status), ("username", .string s.username), ("action", .string s.action),
      ("result", .string s.result)] ++
    member? "detailed_message" .string s.detailedMessage ++ [("value", .string s.value)] ++
    member? "observed_generation" (fun g ↦ .integer g.toInt) s.observedGeneration)

def decode (document : Json) : Option PipelineStatus := do
  let r ← document.record? ["available", "last_time_updated", "status", "username", "action",
    "result", "detailed_message", "value", "observed_generation"]
  return {
    available := ← r.defaulted "available" false bool?
    lastTimeUpdated := ← r.optional "last_time_updated" string?
    status := ← r.defaulted "status" "" string?
    username := ← r.defaulted "username" "" string?
    action := ← r.defaulted "action" "" string?
    result := ← r.defaulted "result" "" string?
    detailedMessage := ← r.optional "detailed_message" string?
    value := ← r.defaulted "value" "" string?
    observedGeneration := ← r.optional "observed_generation" int64? }

end PipelineStatus

end PipelineOperator
