/-!
The names under which the operator finds and leaves things: the objects it derives from a stage or
a pipeline, the labels, annotations and finalizers it sets. Other tools and clusters provisioned
earlier rely on them, so they are fixed.
-/

set_option autoImplicit false
set_option relaxedAutoImplicit false

namespace PipelineOperator

namespace Naming

/-- Namespace or space into which a stage deploys. -/
def targetNamespace (source stage : String) : String := source ++ "-" ++ stage

/-- Image stream of the artifacts of a codebase that passed a stage. -/
def verifiedStream (pipeline stage codebase : String) : String :=
  pipeline ++ "-" ++ stage ++ "-" ++ codebase ++ "-verified"

/-- Repository of the images in verified streams. -/
def verifiedImage (registry source : String) : String := registry ++ "/" ++ source

/-- Label that says which stage deploys from an image stream. -/
def environmentLabel (pipeline stage : String) : String := pipeline ++ "/" ++ stage

/-- Folder of a pipeline's jobs. -/
def jobFolder (pipeline : String) : String := pipeline ++ "-cd-pipeline"

/-- Job that provisions the jobs of a profile. -/
def provisioningJob (profile : String) : String := "job-provisions/job/cd/job/" ++ profile

/-- Binding of the viewers' group. -/
def viewBinding (source : String) : String := source ++ "-view"

/-- Group of those who may view the environments of a namespace. -/
def viewGroup (source : String) : String := source ++ "-edp-view"

/-- Groups of those who administer the environments of a namespace. -/
def adminGroups (source : String) : List String :=
  [source ++ "-edp-super-admin", source ++ "-edp-admin"]

def operator : String := "edp-cd-pipeline-operator"

def managedByLabel : String := "app.kubernetes.io/managed-by"

/-- Label of a stage and of its verified streams that names the pipeline. -/
def pipelineLabel : String := "app.edp.epam.com/pipeline-name"

/-- Label of a target that names the namespace it was provisioned from. -/
def tenantLabel : String := "app.edp.epam.com/tenant"

/-- Annotation of a stage that names the stage before it. -/
def previousStageAnnotation : String := "deploy.edp.epam.com/previous-stage-name"

/-- Held by the garbage collector until the dependents of an object are gone. -/
def foregroundDeletion : String := "foregroundDeletion"

/-- Holds a stage until its environment labels are removed. -/
def labelCleanup : String := "envLabelCleanup"

/-- Holds a pipeline until its stages are gone. -/
def ownedStages : String := "ownedStages"

/-- Component that tells where images are pushed. -/
def registryComponent : String := "docker-registry"

def deploymentsViewRole : String := "admin-console-view-deployments"

def deploymentsViewerBinding : String := "ac-deployments-viewer"

def consoleAccount : String := "edp-admin-console"

def jenkinsAdminBinding : String := "jenkins-admin"

def jenkinsAccount : String := "jenkins"

def adminClusterRole : String := "admin"

def viewClusterRole : String := "view"

/-- Lease that the leading replica holds. -/
def leaderLease : String := "edp-cd-pipeline-operator-lock"

end Naming

end PipelineOperator
