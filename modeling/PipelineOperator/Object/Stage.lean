import PipelineOperator.Json.Record

/-!
Stages: the environments of a pipeline in the order in which artifacts are promoted through them.
A specification tells what the stage is to be, a status how the operator last left it. Both have a
JSON form; `decode` takes a missing member that has a default for that default.
-/

set_option autoImplicit false
set_option relaxedAutoImplicit false

namespace PipelineOperator

open Json

/-- Whether an artifact is deployed as soon as it reaches the stage or on request. -/
inductive Trigger where
  | auto
  | manual
deriving DecidableEq

namespace Trigger

def text : Trigger → String
  | auto => "Auto"
  | manual => "Manual"

def ofText? : String → Option Trigger
  | "Auto" => some auto
  | "Manual" => some manual
  | _ => none

def encode (t : Trigger) : Json := .string t.text

def decode (document : Json) : Option Trigger := document.case?.bind ofText?

end Trigger

inductive GateKind where
  | autotests
  | manual
deriving DecidableEq

namespace GateKind

def text : GateKind → String
  | autotests => "autotests"
  | manual => "manual"

def ofText? : String → Option GateKind
  | "autotests" => some autotests
  | "manual" => some manual
  | _ => none

def encode (k : GateKind) : Json := .string k.text

def decode (document : Json) : Option GateKind := document.case?.bind ofText?

end GateKind

/-- A check that an artifact has to pass in a stage. -/
structure QualityGate where
  kind : GateKind
  stepName : String
  autotestName : Option String := none
  branchName : Option String := none
deriving DecidableEq

namespace QualityGate

def encode (g : QualityGate) : Json :=
  .object ([("qualityGateType", g.kind.encode), ("stepName", .string g.stepName)] ++
    member? "autotestName" .string g.autotestName ++ member? "branchName" .string g.branchName)

def decode (document : Json) : Option QualityGate := do
  let r ← document.record? ["qualityGateType", "stepName", "autotestName", "branchName"]
  return {
    kind := ← r.required "qualityGateType" GateKind.decode
    stepName := ← r.required "stepName" string?
    autotestName := ← r.optional "autotestName" string?
    branchName := ← r.optional "branchName" string? }

end QualityGate

/-- Where the definition of the deployment job comes from. -/
inductive SourceKind where
  | default
  | library
deriving DecidableEq

namespace SourceKind

def text : SourceKind → String
  | .default => "default"
  | .library => "library"

def ofText? : String → Option SourceKind
  | "default" => some .default
  | "library" => some .library
  | _ => none

def encode (k : SourceKind) : Json := .string k.text

def decode (document : Json) : Option SourceKind := document.case?.bind ofText?

end SourceKind

/-- A codebase that holds job definitions. -/
structure Library where
  name : String
  branch : String := ""
deriving DecidableEq

namespace Library

def encode (l : Library) : Json :=
  .object [("name", .string l.name), ("branch", .string l.branch)]

def decode (document : Json) : Option Library := do
  let r ← document.record? ["name", "branch"]
  return {
    name := ← r.required "name" string?
    branch := ← r.defaulted "branch" "" string? }

end Library

structure Source where
  kind : SourceKind := .default
  library : Option Library := none
deriving DecidableEq

namespace Source

def encode (s : Source) : Json :=
  .object (("type", s.kind.encode) :: member? "library" Library.encode s.library)

def decode (document : Json) : Option Source := do
  let r ← document.record? ["type", "library"]
  return {
    kind := ← r.defaulted "type" .default SourceKind.decode
    library := ← r.optional "library" Library.decode }

end Source

structure StageSpec where
  name : String
  pipeline : String
  description : String := ""
  trigger : Trigger := .manual
  order : UInt32 := 0
  qualityGates : List QualityGate := []
  source : Source := {}
  jobProvisioning : String := ""
deriving DecidableEq

namespace StageSpec

def encode (s : StageSpec) : Json :=
  .object [
    ("name", .string s.name), ("cdPipeline", .string s.pipeline),
    ("description", .string s.description), ("triggerType", s.trigger.encode),
    ("order", .integer s.order.toNat), ("qualityGates", .array (s.qualityGates.map (·.encode))),
    ("source", s.source.encode), ("jobProvisioning", .string s.jobProvisioning)]

def decode (document : Json) : Option StageSpec := do
  let r ← document.record? ["name", "cdPipeline", "description", "triggerType", "order",
    "qualityGates", "source", "jobProvisioning"]
  return {
    name := ← r.required "name" string?
    pipeline := ← r.required "cdPipeline" string?
    description := ← r.defaulted "description" "" string?
    trigger := ← r.defaulted "triggerType" .manual Trigger.decode
    order := ← r.defaulted "order" 0 uint32?
    qualityGates := ← r.defaulted "qualityGates" [] (list? QualityGate.decode)
    source := ← r.defaulted "source" {} Source.decode
    jobProvisioning := ← r.defaulted "jobProvisioning" "" string? }

end StageSpec

/-- How the operator last left a stage. -/
structure StageStatus where
  available : Bool := false
  lastTimeUpdated : Option String := none
  status : String := ""
  username : String := ""
  action : String := ""
  result : String := ""
  detailedMessage : Option String := none
  value : String := ""
deriving DecidableEq

namespace StageStatus

def encode (s : StageStatus) : Json :=
  .object ([("available", .bool s.available)] ++
    member? "last_time_updated" .string s.lastTimeUpdated ++
    [("status", .string s.status), ("username", .string s.username), ("action", .string s.action),
      ("result", .string s.result)] ++
    member? "detailed_message" .string s.detailedMessage ++ [("value", .string s.value)])

def decode (document : Json) : Option StageStatus := do
  let r ← document.record? ["available", "last_time_updated", "status", "username", "action",
    "result", "detailed_message", "value"]
  return {
    available := ← r.defaulted "available" false bool?
    lastTimeUpdated := ← r.optional "last_time_updated" string?
    status := ← r.defaulted "status" "" string?
    username := ← r.defaulted "username" "" string?
    action := ← r.defaulted "action" "" string?
    result := ← r.defaulted "result" "" string?
    detailedMessage := ← r.optional "detailed_message" string?
    value := ← r.defaulted "value" "" string? }

end StageStatus

end PipelineOperator
