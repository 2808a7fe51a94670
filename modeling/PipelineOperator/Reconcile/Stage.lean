import PipelineOperator.Provision.Chain
import PipelineOperator.Reconcile.Outcome

/-!
Reconciling a stage. A live stage is wired to its pipeline, put under the operator's finalizers and
provisioned; a deleting one is taken down and released. Wiring and finalizers are stored before
anything else is done, so that nothing is provisioned for a stage that could vanish unnoticed.
-/

set_option autoImplicit false
set_option relaxedAutoImplicit false

namespace PipelineOperator

namespace Stage

/-- The finalizers under which a live stage is kept. -/
def finalizers : List String := [Naming.foregroundDeletion, Naming.labelCleanup]

/-- Makes the pipeline the controlling owner of a stage that no pipeline owns. -/
def wireOwner (s : Stage) : Operation (Bool × Stage) :=
  if s.hasPipelineOwner then pure (false, s)
  else do
    let pipeline ← s.parent
    match Kind.pipeline.controllerReference pipeline.metadata with
    | none => return (false, s)
    | some owner => return (true, { s with metadata := s.metadata.addOwner owner })

/-- Labels a stage with the name of its pipeline. -/
def wireLabel (s : Stage) : Bool × Stage :=
  if s.metadata.label? Naming.pipelineLabel = some s.spec.pipeline then (false, s)
  else (true, { s with metadata := s.metadata.setLabel Naming.pipelineLabel s.spec.pipeline })

/-- Records the stage before, for a later stage that has no record of one. -/
def wirePrevious (s : Stage) : Operation (Bool × Stage) :=
  if s.isFirst || s.previousName?.isSome then pure (false, s)
  else do
    match ← s.findPrevious with
    | none => return (false, s)
    | some previous =>
      return (true, { s with
        metadata := s.metadata.setAnnotation Naming.previousStageAnnotation previous.spec.name })

/-- Wires a stage to its pipeline and to the stage before it, and tells whether that changed it. A
stage before it that does not exist yet is left for later. -/
def wire (s : Stage) : Operation (Bool × Stage) := do
  let (owned, s) ← s.wireOwner
  let (labelled, s) := wireLabel s
  let (recorded, s) ← wirePrevious s
  return (owned || labelled || recorded, s)

/-- A stage after the first needs to know the one before it. -/
def requirePrevious (s : Stage) : Operation Unit :=
  if s.isFirst then pure ()
  else do
    let _ ← s.previousName

/-- Reconciles a stage that is being deleted. -/
def release (context : Context) (s : Stage) : Operation Outcome := do
  if s.metadata.hasFinalizer Naming.labelCleanup then
    (Chain.teardown context).serve s
    let (_, released) := s.removeFinalizer Naming.labelCleanup
    let _ ← Operation.replace released
  return .awaitChange

/-- Wires a stage and puts it under the finalizers; it is stored if that changed it. -/
def adopt (s : Stage) : Operation Stage := do
  let (wired, s) ← s.wire
  let (held, s) := s.ensureFinalizers finalizers
  if wired || held then Operation.replace s else pure s

/-- Reconciles a stage that is to exist. -/
def provision (context : Context) (s : Stage) : Operation Outcome := do
  let trigger := s.spec.trigger
  let s ← adopt s
  requirePrevious s
  (Chain.creation context trigger).serve s
  if !s.isRegistered then
    let _ ← report s (StageStatus.registered context.now)
  return .awaitChange

end Stage

/-- Brings the cluster in line with a stage. One that is gone needs nothing. -/
def reconcileStage (context : Context) (key : Key) : Operation Outcome := do
  match ← Operation.get .stage key with
  | none => return .awaitChange
  | some stage =>
    if stage.isDeleting then Stage.release context stage else Stage.provision context stage

end PipelineOperator
