import PipelineOperator.Manifest.Schema
import PipelineOperator.Object.Kind

/-!
The schemas of the kinds that the operator works with, apart from those that the cluster defines
itself. Of the kinds that other operators own only the fields that matter here are described.
-/

set_option autoImplicit false
set_option relaxedAutoImplicit false

namespace PipelineOperator

namespace Catalogue

open Schema

def lastUpdated : Schema :=
  described "RFC3339 timestamp of the last status write." (nullable text)

def pipelineSpec : Schema :=
  described "`CDPipeline` groups a set of applications that share a promotion path.\n\nThe pipeline's `inputDockerStreams` name the per-application image streams\nthat feed the first stage. Stages reference the pipeline by name through\n`spec.cdPipeline`."
    (record [
      ("name", described "Logical pipeline name." text),
      ("deploymentType",
        described "Deployment kind handed to the CI job (for example `container`)."
          (defaulted (.string "container") text)),
      ("inputDockerStreams",
        described "Ordered names of the input `CodebaseImageStream` resources." (emptyList text)),
      ("applications",
        described "Names of the applications (codebases) delivered by this pipeline."
          (emptyList text)),
      ("applicationsToPromote",
        described "Subset of `applications` whose artifacts are promoted stage to stage."
          (nullable (list text)))])

def pipelineStatus : Schema :=
  described "Observed state of a `CDPipeline`."
    (record [
      ("available", defaulted (.bool false) flag),
      ("last_time_updated", lastUpdated),
      ("status", blankText),
      ("username", blankText),
      ("action", blankText),
      ("result", blankText),
      ("detailed_message", nullable text),
      ("value", blankText),
      ("observed_generation",
        described "Last `metadata.generation` fully processed by the pipeline reconciler."
          (nullable (integer "int64")))])

def qualityGate : Schema :=
  described "A checkpoint the CI job enforces before the stage is considered passed."
    (record [
      ("qualityGateType",
        described "Kind of a quality gate." (choice ["autotests", "manual"])),
      ("stepName", text),
      ("autotestName",
        described "Autotest codebase name (autotests gates only)." (nullable text)),
      ("branchName", described "Autotest branch (autotests gates only)." (nullable text))])

def source : Schema :=
  record [
    ("type",
      described "Source of the deployment pipeline library."
        (defaulted (.string "default") (choice ["default", "library"]))),
    ("library",
      described "Library codebase reference used when `source.type` is `library`."
        (nullable (record [("name", text), ("branch", blankText)])))]

def stageSpec : Schema :=
  described "`Stage` represents one environment in a pipeline's promotion path.\n\nStages of a pipeline are densely ordered starting at `0`. A stage with\n`order > 0` promotes the verified artifacts of the stage right before it."
    (record [
      ("name", described "Logical stage name, unique within the pipeline." text),
      ("cdPipeline",
        described "Name of the parent `CDPipeline` in the same namespace." text),
      ("description", blankText),
      ("triggerType",
        described "How a stage is triggered once its predecessor succeeds."
          (defaulted (.string "Manual") (choice ["Auto", "Manual"]))),
      ("order",
        described "Position in the promotion path; `0` is the first stage."
          (defaulted (.integer 0) (integer "uint32"))),
      ("qualityGates", emptyList qualityGate),
      ("source", defaulted (.object [("type", .string "default")]) source),
      ("jobProvisioning", described "Name of the CI job-provisioning profile." blankText)])

def stageStatus : Schema :=
  described "Observed state of a `Stage`."
    (record [
      ("available", defaulted (.bool false) flag),
      ("last_time_updated", lastUpdated),
      ("status",
        described "One of `initialized`, `in-progress`, `created`, `failed`." blankText),
      ("username", blankText),
      ("action", blankText),
      ("result", described "`success` or `error`." blankText),
      ("detailed_message", nullable text),
      ("value", blankText)])

def imageStreamSpec : Schema :=
  described "Image stream of a single codebase.\n\nEnvironment labels of the form `\x7bpipeline\x7d/\x7bstage\x7d` are added to these\nresources to record which environments an artifact has reached."
    (record [
      ("codebase", described "Name of the codebase the stream belongs to." text),
      ("imageName", described "Image repository URL." text),
      ("tags",
        nullable (list (described "A tag pushed to a `CodebaseImageStream`."
          (record [("name", text), ("created", blankText)]))))])

def componentSpec : Schema :=
  described "Platform component registry entry (docker registry, CI console, ...)."
    (record [
      ("type", blankText),
      ("url", text),
      ("icon", blankText),
      ("visible", defaulted (.bool false) flag)])

def codebaseSpec : Schema :=
  record [
    ("gitServer", described "Name of the `GitServer` hosting the repository." text),
    ("gitUrlPath",
      described "Repository path on the git server, set for imported codebases."
        (nullable text)),
    ("strategy",
      described "Onboarding strategy: `create`, `clone` or `import`." blankText)]

def gitServerSpec : Schema :=
  record [
    ("gitHost", text),
    ("gitUser", text),
    ("sshPort", integer "int32"),
    ("nameSshKeySecret",
      described "Secret holding the SSH key; doubles as the CI credentials id." text)]

def jenkinsJobSpec : Schema :=
  record [
    ("ownerName", nullable text),
    ("stageName", text),
    ("jenkinsFolder", text),
    ("job",
      described "Job definition embedded in a `JenkinsJob`."
        (record [
          ("name", text),
          ("config", described "Rendered JSON parameter map." text),
          ("autoTriggerPeriod", defaulted (.integer 0) (integer "int32"))]))]

def jenkinsJobStatus : Schema :=
  record [
    ("action", blankText),
    ("result", blankText),
    ("status", blankText),
    ("username", blankText),
    ("value", blankText),
    ("lastTimeUpdated", nullable text)]

def jenkinsFolderSpec : Schema :=
  record [("ownerName", nullable text), ("codebaseName", nullable text)]

def jenkinsSpec : Schema :=
  described "Jenkins instance; only its presence in a namespace is inspected."
    (record [("basePath", nullable text)])

def spaceSpec : Schema :=
  described "Kiosk tenant space. Cluster-scoped; backs a namespace of the same name."
    (record [("account", described "Kiosk account owning the space." text)])

end Catalogue

namespace Kind

open Catalogue

/-- The schema of what an object of the kind holds. -/
def specSchema? : Kind → Option Schema
  | stage => some stageSpec
  | pipeline => some pipelineSpec
  | imageStream => some imageStreamSpec
  | component => some componentSpec
  | codebase => some codebaseSpec
  | gitServer => some gitServerSpec
  | jenkinsJob => some jenkinsJobSpec
  | jenkinsFolder => some jenkinsFolderSpec
  | jenkins => some jenkinsSpec
  | space => some spaceSpec
  | _ => none

def statusSchema? : Kind → Option Schema
  | stage => some stageStatus
  | pipeline => some pipelineStatus
  | jenkinsJob => some jenkinsJobStatus
  | _ => none

/-- The kinds with a schema are those that the cluster does not define itself. -/
theorem specSchema?_eq_none_iff (k : Kind) : k.specSchema? = none ↔ k.isStandard = true := by
  cases k <;> simp [specSchema?, isStandard]

end Kind

end PipelineOperator
