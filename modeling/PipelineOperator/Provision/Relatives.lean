import PipelineOperator.Cluster.Program

/-!
The relatives of a stage: the pipeline it belongs to and the stage right before it. Siblings are
told by the pipeline they name and not by label, which a new stage does not carry yet.
-/

set_option autoImplicit false
set_option relaxedAutoImplicit false

namespace PipelineOperator

namespace Stage

def pipelineKey (s : Stage) : Key := ⟨s.metadata.namespaceOrEmpty, s.spec.pipeline⟩

/-- The pipeline of the stage, which has to exist. -/
def parent (s : Stage) : Operation Pipeline :=
  Operation.require .pipeline s.pipelineKey
    (.pipelineNotFound s.metadata.namespaceOrEmpty s.spec.pipeline)

/-- The name of the stage before, which has to be recorded. -/
def previousName (s : Stage) : Operation String :=
  match s.previousName? with
  | some name => pure name
  | none => Operation.fail (.previousStageNotFound s.spec.name s.spec.pipeline s.spec.order)

/-- The other stage belongs to the same pipeline, one place before. -/
def follows (s previous : Stage) : Bool :=
  s.spec.order != 0 && previous.spec.pipeline == s.spec.pipeline &&
    previous.spec.order == s.spec.order - 1

/-- The stage before, searched for among the stages of the namespace. -/
def findPrevious (s : Stage) : Operation (Option Stage) :=
  if s.isFirst then pure none
  else do
    let siblings ← Operation.listStages s.metadata.namespaceOrEmpty none
    return siblings.find? s.follows

end Stage

end PipelineOperator
