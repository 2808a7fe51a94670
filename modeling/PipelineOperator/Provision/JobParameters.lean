import PipelineOperator.Json.Text
import PipelineOperator.Object.Stage

/-!
The parameters of the job that deploys to a stage, and their text. The parameters of a library are
there exactly when the job definition comes from one.
-/

set_option autoImplicit false
set_option relaxedAutoImplicit false

namespace PipelineOperator

/-- Where the job definitions of a library are cloned from. -/
structure LibraryParameters where
  url : String
  branch : String
  credentials : String
  gitServer : String
deriving DecidableEq

namespace LibraryParameters

def members (p : LibraryParameters) : List (String × Json) :=
  [("LIBRARY_URL", .string p.url), ("LIBRARY_BRANCH", .string p.branch),
    ("GIT_CREDENTIALS_ID", .string p.credentials), ("GIT_SERVER_CR_NAME", .string p.gitServer)]

end LibraryParameters

structure JobParameters where
  pipeline : String
  stage : String
  gates : String
  autodeploy : Bool
  deploymentType : String
  library : Option LibraryParameters
deriving DecidableEq

namespace JobParameters

def sourceKind (p : JobParameters) : SourceKind :=
  if p.library.isSome then .library else .default

def encode (p : JobParameters) : Json :=
  .object (
    [("PIPELINE_NAME", .string p.pipeline), ("STAGE_NAME", .string p.stage),
      ("QG_STAGES", .string p.gates), ("GIT_SERVER_CR_VERSION", .string "v2"),
      ("SOURCE_TYPE", .string p.sourceKind.text),
      ("AUTODEPLOY", .string (if p.autodeploy then "true" else "false")),
      ("DEPLOYMENT_TYPE", .string p.deploymentType)] ++
    (p.library.map (·.members)).getD [])

def text (p : JobParameters) : String := p.encode.htmlSafe

end JobParameters

end PipelineOperator
