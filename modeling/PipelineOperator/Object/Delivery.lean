import PipelineOperator.Json.Record

/-!
What artifacts are made from and where they are kept: codebases and the git servers that host them,
the streams of their images, and the components of the platform, the image registry among them.
-/

set_option autoImplicit false
set_option relaxedAutoImplicit false

namespace PipelineOperator

open Json

structure ImageTag where
  name : String
  created : String := ""
deriving DecidableEq

namespace ImageTag

def encode (t : ImageTag) : Json :=
  .object [("name", .string t.name), ("created", .string t.created)]

def decode (document : Json) : Option ImageTag := do
  let r ← document.record? ["name", "created"]
  return {
    name := ← r.required "name" string?
    created := ← r.defaulted "created" "" string? }

end ImageTag

/-- The images of one codebase. -/
structure ImageStreamSpec where
  codebase : String
  imageName : String
  tags : Option (List ImageTag) := none
deriving DecidableEq

namespace ImageStreamSpec

def encode (s : ImageStreamSpec) : Json :=
  .object ([("codebase", .string s.codebase), ("imageName", .string s.imageName)] ++
    member? "tags" (fun ts ↦ .array (ts.map ImageTag.encode)) s.tags)

def decode (document : Json) : Option ImageStreamSpec := do
  let r ← document.record? ["codebase", "imageName", "tags"]
  return {
    codebase := ← r.required "codebase" string?
    imageName := ← r.required "imageName" string?
    tags := ← r.optional "tags" (list? ImageTag.decode) }

end ImageStreamSpec

/-- A component of the platform and where it is reached. -/
structure ComponentSpec where
  type : String := ""
  url : String
  icon : String := ""
  visible : Bool := false
deriving DecidableEq

namespace ComponentSpec

def encode (s : ComponentSpec) : Json :=
  .object [("type", .string s.type), ("url", .string s.url), ("icon", .string s.icon),
    ("visible", .bool s.visible)]

def decode (document : Json) : Option ComponentSpec := do
  let r ← document.record? ["type", "url", "icon", "visible"]
  return {
    type := ← r.defaulted "type" "" string?
    url := ← r.required "url" string?
    icon := ← r.defaulted "icon" "" string?
    visible := ← r.defaulted "visible" false bool? }

end ComponentSpec

structure CodebaseSpec where
  gitServer : String
  gitUrlPath : Option String := none
  strategy : String := ""
deriving DecidableEq

namespace CodebaseSpec

/-- An imported codebase has a path of its own on the git server. -/
def isImported (s : CodebaseSpec) : Bool := s.strategy == "import"

def encode (s : CodebaseSpec) : Json :=
  .object ([("gitServer", .string s.gitServer)] ++ member? "gitUrlPath" .string s.gitUrlPath ++
    [("strategy", .string s.strategy)])

def decode (document : Json) : Option CodebaseSpec := do
  let r ← document.record? ["gitServer", "gitUrlPath", "strategy"]
  return {
    gitServer := ← r.required "gitServer" string?
    gitUrlPath := ← r.optional "gitUrlPath" string?
    strategy := ← r.defaulted "strategy" "" string? }

end CodebaseSpec

structure GitServerSpec where
  host : String
  user : String
  sshPort : Int32
  sshKeySecret : String
deriving DecidableEq

namespace GitServerSpec

def encode (s : GitServerSpec) : Json :=
  .object [("gitHost", .string s.host), ("gitUser", .string s.user),
    ("sshPort", .integer s.sshPort.toInt), ("nameSshKeySecret", .string s.sshKeySecret)]

def decode (document : Json) : Option GitServerSpec := do
  let r ← document.record? ["gitHost", "gitUser", "sshPort", "nameSshKeySecret"]
  return {
    host := ← r.required "gitHost" string?
    user := ← r.required "gitUser" string?
    sshPort := ← r.required "sshPort" int32?
    sshKeySecret := ← r.required "nameSshKeySecret" string? }

end GitServerSpec

end PipelineOperator
