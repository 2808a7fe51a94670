import PipelineOperator.Object.Access
import PipelineOperator.Object.Delivery
import PipelineOperator.Object.Jenkins
import PipelineOperator.Object.Metadata
import PipelineOperator.Object.Pipeline
import PipelineOperator.Object.Stage
import PipelineOperator.Object.Tenancy

/-!
The kinds of objects that the operator reads and writes. A kind fixes what its objects hold
(`Kind.Content`, `Kind.Status`), how they are named in the interface of the cluster, and their JSON
form; everything else is said once for the objects of all kinds.
-/

set_option autoImplicit false
set_option relaxedAutoImplicit false

namespace PipelineOperator

inductive Kind where
  | stage
  | pipeline
  | imageStream
  | component
  | codebase
  | gitServer
  | jenkinsJob
  | jenkinsFolder
  | jenkins
  | space
  | ns
  | role
  | roleBinding
deriving DecidableEq

namespace Kind

def all : List Kind :=
  [stage, pipeline, imageStream, component, codebase, gitServer, jenkinsJob, jenkinsFolder,
    jenkins, space, ns, role, roleBinding]

theorem mem_all (k : Kind) : k ∈ all := by cases k <;> decide

def name : Kind → String
  | stage => "Stage"
  | pipeline => "CDPipeline"
  | imageStream => "CodebaseImageStream"
  | component => "EDPComponent"
  | codebase => "Codebase"
  | gitServer => "GitServer"
  | jenkinsJob => "JenkinsJob"
  | jenkinsFolder => "JenkinsFolder"
  | jenkins => "Jenkins"
  | space => "Space"
  | ns => "Namespace"
  | role => "Role"
  | roleBinding => "RoleBinding"

def ofName? (name : String) : Option Kind := all.find? (fun k ↦ k.name == name)

theorem ofName?_name (k : Kind) : ofName? k.name = some k := by
  cases k <;> rfl

theorem name_injective {k k' : Kind} (h : k.name = k'.name) : k = k' := by
  refine Option.some.inj ?_
  rw [← ofName?_name, ← ofName?_name, h]

def group : Kind → String
  | component => "v1.edp.epam.com"
  | space => "tenancy.kiosk.sh"
  | ns => ""
  | role => "rbac.authorization.k8s.io"
  | roleBinding => "rbac.authorization.k8s.io"
  | _ => "v2.edp.epam.com"

def version : Kind → String
  | component => "v1alpha1"
  | space => "v1alpha1"
  | _ => "v1"

/-- Group and version; the core group is left out. -/
def apiVersion (k : Kind) : String :=
  if k.group = "" then k.version else k.group ++ "/" ++ k.version

/-- The name of a collection of objects in the interface of the cluster. -/
def plural : Kind → String
  | stage => "stages"
  | pipeline => "cdpipelines"
  | imageStream => "codebaseimagestreams"
  | component => "edpcomponents"
  | codebase => "codebases"
  | gitServer => "gitservers"
  | jenkinsJob => "jenkinsjobs"
  | jenkinsFolder => "jenkinsfolders"
  | jenkins => "jenkinses"
  | space => "spaces"
  | ns => "namespaces"
  | role => "roles"
  | roleBinding => "rolebindings"

/-- Objects of the kind live outside of namespaces. -/
def isClusterScoped : Kind → Bool
  | space => true
  | ns => true
  | _ => false

/-- Kinds that the cluster itself defines. -/
def isStandard : Kind → Bool
  | ns => true
  | role => true
  | roleBinding => true
  | _ => false

/-- Objects of the kind have a status. -/
def hasStatus : Kind → Bool
  | stage => true
  | pipeline => true
  | jenkinsJob => true
  | ns => true
  | _ => false

/-- What an object of the kind holds beside metadata and status. -/
@[reducible] def Content : Kind → Type
  | stage => StageSpec
  | pipeline => PipelineSpec
  | imageStream => ImageStreamSpec
  | component => ComponentSpec
  | codebase => CodebaseSpec
  | gitServer => GitServerSpec
  | jenkinsJob => JenkinsJobSpec
  | jenkinsFolder => JenkinsFolderSpec
  | jenkins => JenkinsSpec
  | space => SpaceSpec
  | ns => Option NamespaceSpec
  | role => RoleContent
  | roleBinding => BindingContent

/-- The status of an object of the kind; most kinds have none. -/
@[reducible] def Status : Kind → Type
  | stage => StageStatus
  | pipeline => PipelineStatus
  | jenkinsJob => JenkinsJobStatus
  | ns => NamespaceStatus
  | _ => Empty

instance decEqContent : (k : Kind) → DecidableEq k.Content
  | stage => inferInstanceAs (DecidableEq StageSpec)
  | pipeline => inferInstanceAs (DecidableEq PipelineSpec)
  | imageStream => inferInstanceAs (DecidableEq ImageStreamSpec)
  | component => inferInstanceAs (DecidableEq ComponentSpec)
  | codebase => inferInstanceAs (DecidableEq CodebaseSpec)
  | gitServer => inferInstanceAs (DecidableEq GitServerSpec)
  | jenkinsJob => inferInstanceAs (DecidableEq JenkinsJobSpec)
  | jenkinsFolder => inferInstanceAs (DecidableEq JenkinsFolderSpec)
  | jenkins => inferInstanceAs (DecidableEq JenkinsSpec)
  | space => inferInstanceAs (DecidableEq SpaceSpec)
  | ns => inferInstanceAs (DecidableEq (Option NamespaceSpec))
  | role => inferInstanceAs (DecidableEq RoleContent)
  | roleBinding => inferInstanceAs (DecidableEq BindingContent)

instance decEqStatus : (k : Kind) → DecidableEq k.Status
  | stage => inferInstanceAs (DecidableEq StageStatus)
  | pipeline => inferInstanceAs (DecidableEq PipelineStatus)
  | jenkinsJob => inferInstanceAs (DecidableEq JenkinsJobStatus)
  | ns => inferInstanceAs (DecidableEq NamespaceStatus)
  | imageStream => inferInstanceAs (DecidableEq Empty)
  | component => inferInstanceAs (DecidableEq Empty)
  | codebase => inferInstanceAs (DecidableEq Empty)
  | gitServer => inferInstanceAs (DecidableEq Empty)
  | jenkinsFolder => inferInstanceAs (DecidableEq Empty)
  | jenkins => inferInstanceAs (DecidableEq Empty)
  | space => inferInstanceAs (DecidableEq Empty)
  | role => inferInstanceAs (DecidableEq Empty)
  | roleBinding => inferInstanceAs (DecidableEq Empty)

end Kind

/-- An object of the cluster. -/
structure Object (k : Kind) where
  metadata : Metadata
  spec : k.Content
  status : Option k.Status := none
deriving DecidableEq

abbrev Stage := Object .stage
abbrev Pipeline := Object .pipeline
abbrev ImageStream := Object .imageStream
abbrev Component := Object .component
abbrev Codebase := Object .codebase
abbrev GitServer := Object .gitServer
abbrev JenkinsJob := Object .jenkinsJob
abbrev JenkinsFolder := Object .jenkinsFolder
abbrev Jenkins := Object .jenkins
abbrev Space := Object .space
abbrev Namespace := Object .ns
abbrev Role := Object .role
abbrev RoleBinding := Object .roleBinding

namespace Kind

/-- Refers to an object of the kind as the one that controls another; only an object with a name
and an identity can. -/
def controllerReference (k : Kind) (m : Metadata) : Option OwnerReference := do
  return {
    apiVersion := k.apiVersion
    controller := some true
    kind := k.name
    name := ← m.name
    uid := ← m.uid }

open Json

/-- The members that hold the content. -/
def encodeContent : (k : Kind) → k.Content → List (String × Json)
  | stage, c => [("spec", StageSpec.encode c)]
  | pipeline, c => [("spec", PipelineSpec.encode c)]
  | imageStream, c => [("spec", ImageStreamSpec.encode c)]
  | component, c => [("spec", ComponentSpec.encode c)]
  | codebase, c => [("spec", CodebaseSpec.encode c)]
  | gitServer, c => [("spec", GitServerSpec.encode c)]
  | jenkinsJob, c => [("spec", JenkinsJobSpec.encode c)]
  | jenkinsFolder, c => [("spec", JenkinsFolderSpec.encode c)]
  | jenkins, c => [("spec", JenkinsSpec.encode c)]
  | space, c => [("spec", SpaceSpec.encode c)]
  | ns, c => member? "spec" NamespaceSpec.encode c
  | role, c => RoleContent.members c
  | roleBinding, c => BindingContent.members c

/-- Reads the content from the members of an object. -/
def decodeContent (k : Kind) (r : Members) : Option k.Content :=
  let spec {α : Type} (decode : Json → Option α) : Option α := r.required "spec" decode
  match k with
  | stage => spec StageSpec.decode
  | pipeline => spec PipelineSpec.decode
  | imageStream => spec ImageStreamSpec.decode
  | component => spec ComponentSpec.decode
  | codebase => spec CodebaseSpec.decode
  | gitServer => spec GitServerSpec.decode
  | jenkinsJob => spec JenkinsJobSpec.decode
  | jenkinsFolder => spec JenkinsFolderSpec.decode
  | jenkins => spec JenkinsSpec.decode
  | space => spec SpaceSpec.decode
  | ns => r.optional "spec" NamespaceSpec.decode
  | role => RoleContent.ofMembers? r
  | roleBinding => BindingContent.ofMembers? r

def encodeStatus : (k : Kind) → k.Status → Json
  | stage, s => StageStatus.encode s
  | pipeline, s => PipelineStatus.encode s
  | jenkinsJob, s => JenkinsJobStatus.encode s
  | ns, s => NamespaceStatus.encode s
  | _, _ => .null

/-- Reads the status from the members of an object. Kinds without a status ignore one. -/
def decodeStatus (k : Kind) (r : Members) : Option (Option k.Status) :=
  let status {α : Type} (decode : Json → Option α) : Option (Option α) := r.optional "status" decode
  match k with
  | stage => status StageStatus.decode
  | pipeline => status PipelineStatus.decode
  | jenkinsJob => status JenkinsJobStatus.decode
  | ns => status NamespaceStatus.decode
  | imageStream => some none
  | component => some none
  | codebase => some none
  | gitServer => some none
  | jenkinsFolder => some none
  | jenkins => some none
  | space => some none
  | role => some none
  | roleBinding => some none

end Kind

namespace Object

open Json

variable {k : Kind}

/-- Where the object is stored. -/
def key (o : Object k) : Key :=
  ⟨if k.isClusterScoped then "" else o.metadata.namespaceOrEmpty, o.metadata.anyName⟩

def isDeleting (o : Object k) : Bool := o.metadata.isDeleting

def encode (o : Object k) : Json :=
  .object ([("apiVersion", .string k.apiVersion), ("kind", .string k.name),
      ("metadata", o.metadata.encode)] ++
    k.encodeContent o.spec ++ member? "status" k.encodeStatus o.status)

/-- The kinds of the cluster itself insist on their name and version wherever these are given. -/
def headerFits (k : Kind) (members : Members) : Bool :=
  !k.isStandard || members.all (fun (name, value) ↦
    if name == "apiVersion" then value.string? == some k.apiVersion
    else if name == "kind" then value.string? == some k.name
    else true)

/-- The members of the record that an object is. Objects of the kinds that the cluster itself
defines are written by names alone. As an array an object has all of its parts. -/
def record? (k : Kind) (document : Json) : Option Members :=
  let names := ["metadata", "spec"] ++ if k.hasStatus then ["status"] else []
  if k.isStandard then document.members?
  else match document with
    | .array items => if items.length = names.length then some (names.zip items) else none
    | other => other.objectRecord? names

/-- Only the kinds of the cluster itself may lack metadata. -/
def decodeMetadata (k : Kind) (members : Members) : Option Metadata :=
  if k.isStandard then members.lenient "metadata" {} Metadata.decode
  else members.required "metadata" Metadata.decode

def decode (k : Kind) (document : Json) : Option (Object k) := do
  let r ← record? k document
  if !headerFits k r then none
  else return {
    metadata := ← decodeMetadata k r
    spec := ← k.decodeContent r
    status := ← k.decodeStatus r }

/-- Brings the object under finalizers, and tells whether it lacked any. -/
def ensureFinalizers (o : Object k) (finalizers : List String) : Bool × Object k :=
  let (changed, metadata) := o.metadata.ensureFinalizers finalizers
  (changed, { o with metadata })

/-- Takes a finalizer off the object, and tells whether it was there. -/
def removeFinalizer (o : Object k) (finalizer : String) : Bool × Object k :=
  let (changed, metadata) := o.metadata.removeFinalizer finalizer
  (changed, { o with metadata })

end Object

namespace Stage

/-- The first stage of a pipeline has order zero. -/
def isFirst (s : Stage) : Bool := s.spec.order == 0

def isAutomatic (s : Stage) : Bool := s.spec.trigger == .auto

/-- The stage before this one, as recorded on the stage; an empty record is none. -/
def previousName? (s : Stage) : Option String :=
  (s.metadata.annotation? Naming.previousStageAnnotation).filter (· ≠ "")

/-- Namespace or space into which the stage deploys. -/
def target (s : Stage) : String :=
  Naming.targetNamespace s.metadata.namespaceOrEmpty s.spec.name

/-- Label of the image streams from which the stage deploys. -/
def label (s : Stage) : String := Naming.environmentLabel s.spec.pipeline s.spec.name

/-- A pipeline owns the stage. -/
def hasPipelineOwner (s : Stage) : Bool :=
  s.metadata.ownerList.any (fun o ↦ o.kind == Kind.pipeline.name)

end Stage

end PipelineOperator
