import PipelineOperator.Provision.Report
import PipelineOperator.Reconcile.Outcome
import PipelineOperator.Settings.Platform

/-!
Reconciling a pipeline. A live pipeline is put under the operator's finalizers, gets the folder of
its jobs where there is a Jenkins instance, and a status that records the generation worked off. A
deleting one is held until no stage carries its name.
-/

set_option autoImplicit false
set_option relaxedAutoImplicit false

namespace PipelineOperator

namespace Pipeline

/-- The finalizers under which a live pipeline is kept. -/
def finalizers : List String := [Naming.foregroundDeletion, Naming.ownedStages]

/-- The folder of the pipeline's jobs. -/
def jobFolder (p : Pipeline) : JenkinsFolder where
  metadata := {
    name := some (Naming.jobFolder p.metadata.anyName)
    ns := p.metadata.ns
    owners := (Kind.pipeline.controllerReference p.metadata).map (fun owner ↦ [owner]) }
  spec := {}

/-- Seconds until a pipeline that waits for its stages is looked at again. -/
def ownedStagesDelay : Nat := 10

/-- Reconciles a pipeline that is being deleted. -/
def release (p : Pipeline) : Operation Outcome := do
  let stages ← Operation.listStages p.metadata.namespaceOrEmpty (some p.metadata.anyName)
  if !stages.isEmpty then
    Operation.observe (.requeued Kind.pipeline.name "owned_stages")
    return .requeue ownedStagesDelay
  else
    let (held, released) := p.removeFinalizer Naming.ownedStages
    if held then
      let _ ← Operation.replace released
    return .awaitChange

/-- Works off the present generation. -/
def setUp (context : Context) (ns : String) (p : Pipeline) : Operation Unit := do
  if ← Operation.jenkinsEnabled ns then
    let _ ← Operation.create p.jobFolder
  let _ ← report p (PipelineStatus.ready p.metadata.generation context.now)

/-- Reconciles a pipeline that is to exist. -/
def maintain (context : Context) (ns : String) (p : Pipeline) : Operation Outcome := do
  let (changed, held) := p.ensureFinalizers finalizers
  let p ← if changed then Operation.replace held else pure p
  if Pipeline.isAhead p then setUp context ns p
  return .awaitChange

end Pipeline

/-- Brings the cluster in line with a pipeline. One that is gone needs nothing. -/
def reconcilePipeline (context : Context) (key : Key) : Operation Outcome := do
  match ← Operation.get .pipeline key with
  | none => return .awaitChange
  | some pipeline =>
    if pipeline.isDeleting then Pipeline.release pipeline
    else Pipeline.maintain context key.ns pipeline

end PipelineOperator
