import PipelineOperator.Json.Record

/-!
The side of Jenkins: the job that deploys to a stage, the folder that gathers the jobs of a
pipeline, and the instance whose presence tells that folders are wanted.
-/

set_option autoImplicit false
set_option relaxedAutoImplicit false

namespace PipelineOperator

open Json

/-- The definition of a job; the configuration is the text of its parameter map. -/
structure JobDefinition where
  name : String
  config : String
  autoTriggerPeriod : Int32 := 0
deriving DecidableEq

namespace JobDefinition

def encode (j : JobDefinition) : Json :=
  .object [("name", .string j.name), ("config", .string j.config),
    ("autoTriggerPeriod", .integer j.autoTriggerPeriod.toInt)]

def decode (document : Json) : Option JobDefinition := do
  let r ← document.record? ["name", "config", "autoTriggerPeriod"]
  return {
    name := ← r.required "name" string?
    config := ← r.required "config" string?
    autoTriggerPeriod := ← r.defaulted "autoTriggerPeriod" 0 int32? }

end JobDefinition

structure JenkinsJobSpec where
  ownerName : Option String := none
  stageName : String
  folder : String
  job : JobDefinition
deriving DecidableEq

namespace JenkinsJobSpec

def encode (s : JenkinsJobSpec) : Json :=
  .object (member? "ownerName" .string s.ownerName ++
    [("stageName", .string s.stageName), ("jenkinsFolder", .string s.folder),
      ("job", s.job.encode)])

def decode (document : Json) : Option JenkinsJobSpec := do
  let r ← document.record? ["ownerName", "stageName", "jenkinsFolder", "job"]
  return {
    ownerName := ← r.optional "ownerName" string?
    stageName := ← r.required "stageName" string?
    folder := ← r.required "jenkinsFolder" string?
    job := ← r.required "job" JobDefinition.decode }

end JenkinsJobSpec

structure JenkinsJobStatus where
  action : String := ""
  result : String := ""
  status : String := ""
  username : String := ""
  value : String := ""
  lastTimeUpdated : Option String := none
deriving DecidableEq

namespace JenkinsJobStatus

def encode (s : JenkinsJobStatus) : Json :=
  .object ([("action", .string s.action), ("result", .string s.result),
    ("status", .string s.status), ("username", .string s.username), ("value", .string s.value)] ++
    member? "lastTimeUpdated" .string s.lastTimeUpdated)

def decode (document : Json) : Option JenkinsJobStatus := do
  let r ← document.record?
    ["action", "result", "status", "username", "value", "lastTimeUpdated"]
  return {
    action := ← r.defaulted "action" "" string?
    result := ← r.defaulted "result" "" string?
    status := ← r.defaulted "status" "" string?
    username := ← r.defaulted "username" "" string?
    value := ← r.defaulted "value" "" string?
    lastTimeUpdated := ← r.optional "lastTimeUpdated" string? }

end JenkinsJobStatus

structure JenkinsFolderSpec where
  ownerName : Option String := none
  codebaseName : Option String := none
deriving DecidableEq

namespace JenkinsFolderSpec

def encode (s : JenkinsFolderSpec) : Json :=
  .object (member? "ownerName" .string s.ownerName ++
    member? "codebaseName" .string s.codebaseName)

def decode (document : Json) : Option JenkinsFolderSpec := do
  let r ← document.record? ["ownerName", "codebaseName"]
  return {
    ownerName := ← r.optional "ownerName" string?
    codebaseName := ← r.optional "codebaseName" string? }

end JenkinsFolderSpec

structure JenkinsSpec where
  basePath : Option String := none
deriving DecidableEq

namespace JenkinsSpec

def encode (s : JenkinsSpec) : Json := .object (member? "basePath" .string s.basePath)

def decode (document : Json) : Option JenkinsSpec := do
  let r ← document.record? ["basePath"]
  return { basePath := ← r.optional "basePath" string? }

end JenkinsSpec

end PipelineOperator
