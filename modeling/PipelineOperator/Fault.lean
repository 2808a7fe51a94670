import PipelineOperator.Object.Kind

/-!
Why a piece of work failed: a cause, and around it the work that it kept from being done, outermost
first. Some causes are preconditions, which are expected to come about without the operator and are
tried again soon; the others wait longer.
-/

set_option autoImplicit false
set_option relaxedAutoImplicit false

namespace PipelineOperator

inductive Cause where
  | pipelineNotFound (ns name : String)
  | verifiedStreamNotFound (ns name : String)
  | previousStageNotFound (stage pipeline : String) (order : UInt32)
  | emptyInputStreams (pipeline : String)
  | registryNotFound (ns name : String)
  | inputStreamNotFound (ns name : String)
  /-- The cluster refused a request with this code. -/
  | refused (code : Nat)
  /-- A request could not be made or its reply not be understood. -/
  | brokenExchange
  /-- A request about an object that is not there. -/
  | absent (kind : Kind) (at_ : String)
  | gitUrlPathMissing (codebase : String)
  | unnamed
  /-- A cause that is known by its text only. -/
  | other (text : String)
deriving DecidableEq

namespace Cause

def message : Cause → String
  | pipelineNotFound ns name => "CDPipeline '" ++ name ++ "' not found in namespace " ++ ns
  | verifiedStreamNotFound ns name =>
    "verified CodebaseImageStream '" ++ name ++ "' not found in namespace " ++ ns
  | previousStageNotFound stage pipeline order =>
    "previous stage of '" ++ stage ++ "' (order " ++ toString order.toNat ++
      ") not found for pipeline " ++ pipeline
  | emptyInputStreams pipeline => "CDPipeline '" ++ pipeline ++ "' has no input docker streams"
  | registryNotFound ns name => "EDPComponent '" ++ name ++ "' not found in namespace " ++ ns
  | inputStreamNotFound ns name =>
    "CodebaseImageStream '" ++ name ++ "' not found in namespace " ++ ns
  | refused code => "api error " ++ toString code
  | brokenExchange => "client error"
  | absent kind place => kind.name ++ " " ++ place ++ " not found"
  | gitUrlPathMissing codebase => "imported Codebase " ++ codebase ++ " has no gitUrlPath"
  | unnamed => "Resource must have a name"
  | other text => text

/-- The category under which a failure is counted. -/
def label : Cause → String
  | pipelineNotFound .. => "pipeline_not_found"
  | verifiedStreamNotFound .. => "verified_stream_not_found"
  | previousStageNotFound .. => "previous_stage_not_found"
  | emptyInputStreams .. => "empty_input_streams"
  | registryNotFound .. => "docker_registry_not_found"
  | inputStreamNotFound .. => "input_stream_not_found"
  | refused code => if code = 409 then "conflict" else "api_error"
  | brokenExchange => "client_error"
  | _ => "other"

/-- The cause is expected to go away on its own: the pipeline, the stream or the stage that is
missing is someone's work in progress. -/
def isPrecondition : Cause → Bool
  | pipelineNotFound .. => true
  | verifiedStreamNotFound .. => true
  | previousStageNotFound .. => true
  | _ => false

end Cause

/-- What was being done when a cause arose. -/
inductive Attempt where
  | getting (kind : Kind) (name : String)
  | creating (kind : Kind) (name : String)
  | deleting (kind : Kind) (name : String)
  /-- Providing the namespace or space into which a stage deploys. -/
  | providing (kind : Kind) (target : String)
  | other (text : String)
deriving DecidableEq

namespace Attempt

def message : Attempt → String
  | getting kind name => "failed to get " ++ kind.name ++ " " ++ name
  | creating kind name => "failed to create " ++ kind.name ++ " " ++ name
  | deleting kind name => "failed to delete " ++ kind.name ++ " " ++ name
  | providing .space target => "failed to create space " ++ target
  | providing _ target => "failed to create namespace " ++ target
  | other text => text

end Attempt

structure Fault where
  attempts : List Attempt := []
  cause : Cause
deriving DecidableEq

namespace Fault

def ofCause (cause : Cause) : Fault := ⟨[], cause⟩

/-- The failure as it looks from outside of an attempt. -/
def during (f : Fault) (attempt : Attempt) : Fault := { f with attempts := attempt :: f.attempts }

/-- A failure of which only the texts are known, outermost first. -/
def ofTexts : List String → Fault
  | [] => ofCause (.other "")
  | [cause] => ofCause (.other cause)
  | attempt :: rest => (ofTexts rest).during (.other attempt)

/-- The outermost attempt, or the cause itself. -/
def headline (f : Fault) : String := (f.attempts.map (·.message) ++ [f.cause.message]).headD ""

/-- All attempts and the cause, outermost first. -/
def message (f : Fault) : String :=
  String.intercalate ": " (f.attempts.map (·.message) ++ [f.cause.message])

def label (f : Fault) : String := f.cause.label

def isPrecondition (f : Fault) : Bool := f.cause.isPrecondition

/-- Seconds until failed work is tried again. -/
def retryDelay (f : Fault) : Nat := if f.isPrecondition then 5 else 30

@[simp] theorem label_during (f : Fault) (a : Attempt) : (f.during a).label = f.label := rfl

@[simp] theorem isPrecondition_during (f : Fault) (a : Attempt) :
    (f.during a).isPrecondition = f.isPrecondition := rfl

@[simp] theorem retryDelay_during (f : Fault) (a : Attempt) :
    (f.during a).retryDelay = f.retryDelay := rfl

end Fault

end PipelineOperator
