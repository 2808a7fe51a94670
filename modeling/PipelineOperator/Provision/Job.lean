import PipelineOperator.Provision.GateText
import PipelineOperator.Provision.JobParameters
import PipelineOperator.Provision.Relatives

/-!
The job that deploys to a stage. It carries the parameters as its configuration and is brought up to
date when these change. A library that cannot be resolved does not hold the stage up: the job then
uses the default definition.
-/

set_option autoImplicit false
set_option relaxedAutoImplicit false

namespace PipelineOperator

namespace StageJob

/-- The repository path of a library: its own one if it was imported, else its name. -/
def libraryPath? (library : Library) (codebase : CodebaseSpec) : Option String :=
  if codebase.isImported then codebase.gitUrlPath else some ("/" ++ library.name)

/-- Where a path on a git server is cloned from. -/
def cloneUrl (server : GitServerSpec) (path : String) : String :=
  "ssh://" ++ server.user ++ "@" ++ server.host ++ ":" ++
    String.ofList (Decimal.intChars server.sshPort.toInt) ++ path

/-- Resolves a library through its codebase and the git server of that. -/
def libraryParameters (ns : String) (library : Library) : Operation LibraryParameters := do
  let codebase ← Operation.require .codebase ⟨ns, library.name⟩
    (.absent .codebase (Key.text ⟨ns, library.name⟩))
  let serverKey : Key := ⟨ns, codebase.spec.gitServer⟩
  let server ← Operation.require .gitServer serverKey (.absent .gitServer serverKey.text)
  match libraryPath? library codebase.spec with
  | none => Operation.fail (.gitUrlPathMissing library.name)
  | some path =>
    return {
      url := cloneUrl server.spec path
      branch := library.branch
      credentials := server.spec.sshKeySecret
      gitServer := server.metadata.anyName }

/-- The library of the stage, if it wants one and that can be resolved. -/
def resolveLibrary (stage : Stage) : Operation (Option LibraryParameters) :=
  match stage.spec.source.kind, stage.spec.source.library with
  | .library, some library =>
    tryCatch (some <$> libraryParameters stage.metadata.namespaceOrEmpty library)
      (fun _ ↦ pure none)
  | _, _ => pure none

def parameters (stage : Stage) (pipeline : Pipeline) (library : Option LibraryParameters) :
    JobParameters where
  pipeline := stage.spec.pipeline
  stage := stage.spec.name
  gates := gateText stage.spec.qualityGates
  autodeploy := stage.isAutomatic
  deploymentType := pipeline.spec.deploymentType
  library := library

/-- The configuration of the stage's job. -/
def config (stage : Stage) (pipeline : Pipeline) : Operation String := do
  let library ← resolveLibrary stage
  return (parameters stage pipeline library).text

/-- The job as it is first created. -/
def build (stage : Stage) (config : String) : JenkinsJob where
  metadata := {
    name := some stage.metadata.anyName
    ns := stage.metadata.ns
    owners := (Kind.stage.controllerReference stage.metadata).map (fun owner ↦ [owner]) }
  spec := {
    stageName := stage.metadata.anyName
    folder := stage.spec.pipeline
    job := {
      name := Naming.provisioningJob stage.spec.jobProvisioning
      config := config
      autoTriggerPeriod := 60 } }
  status := some { action := "accept_jenkins_job" }

/-- Creates the job, or gives an existing one the present configuration. -/
def serve (stage : Stage) : Operation Unit := do
  let key := stage.key
  let pipeline ← stage.parent
  let config ← config stage pipeline
  match ← Operation.get .jenkinsJob key with
  | some existing =>
    if existing.spec.job.config = config then pure () else Operation.setJobConfig key config
  | none => do
    let _ ← Operation.create (build stage config)

end StageJob

end PipelineOperator
