import PipelineOperator.Reconcile.Fanout
import PipelineOperator.Reconcile.Pipeline
import PipelineOperator.Reconcile.Stage

/-!
Controllers. A controller is responsible for the objects of one kind: it is told of their changes
and reconciles each one that changed, and some objects of other kinds make it look at its own again.
`Controller.attend` is one reconciliation with all that is counted about it; its result is when to
look at the object again unless it changes before.
-/

set_option autoImplicit false
set_option relaxedAutoImplicit false

namespace PipelineOperator

structure Controller where
  kind : Kind
  reconcile : Context → Key → Operation Outcome
  /-- The objects, among those known, that an object of any kind makes one look at. -/
  related : (k : Kind) → Object k → List (Object kind) → List (Object kind)

namespace Controller

/-- Stages follow their pipeline. -/
def stages : Controller where
  kind := .stage
  reconcile := reconcileStage
  related
    | .pipeline, pipeline, known => Pipeline.stagesToEnqueue pipeline known
    | _, _, _ => []

def pipelines : Controller where
  kind := .pipeline
  reconcile := reconcilePipeline
  related _ _ _ := []

/-- Why an object is looked at again. -/
def reason (f : Fault) : String := if f.isPrecondition then "precondition" else "error"

/-- The seconds after which an outcome asks for another look. -/
def delay? : Outcome → Option Nat
  | .awaitChange => none
  | .requeue seconds => some seconds

/-- Reconciles an object, and tells after how many seconds to do so again. Failures are tried again
after a delay that depends on their cause. -/
def attend (c : Controller) (context : Context) (key : Key) : Program (Option Nat) := do
  match ← (c.reconcile context key).run with
  | .ok outcome => .observe (.succeeded c.kind.name 0) (.done (delay? outcome))
  | .error fault =>
    .observe (.failed c.kind.name fault.label 0)
      (.observe (.requeued c.kind.name (reason fault)) (.done (some fault.retryDelay)))

end Controller

end PipelineOperator
