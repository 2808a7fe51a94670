import PipelineOperator.Provision.VerifiedStreams

/-!
Environment labels tell which stages deploy from an image stream. A first stage, and every stage of
a codebase that is not promoted, deploys from the input stream; other stages deploy from the
verified stream of the stage before.
-/

set_option autoImplicit false
set_option relaxedAutoImplicit false

namespace PipelineOperator

namespace EnvironmentLabel

/-- The verified stream of a codebase at the stage before, which has to exist. -/
def previousStream (stage : Stage) (codebase : String) : Operation ImageStream := do
  let ns := stage.metadata.namespaceOrEmpty
  let previous ← stage.previousName
  let name := Naming.verifiedStream stage.spec.pipeline previous codebase
  Operation.require .imageStream ⟨ns, name⟩ (.verifiedStreamNotFound ns name)

/-- Sets a label unless the stream carries it. -/
def set (label : String) (stream : ImageStream) : Operation Unit :=
  if stream.metadata.labelMap.contains label then pure ()
  else do
    let _ ← Operation.replace { stream with metadata := stream.metadata.setLabel label "" }

/-- Removes a label if the stream carries it. -/
def remove (label : String) (stream : ImageStream) : Operation Unit :=
  if stream.metadata.labelMap.contains label then do
    let _ ← Operation.replace { stream with metadata := stream.metadata.eraseLabel label }
  else pure ()

/-- Labels the stream from which the stage deploys the codebase of an input stream. -/
def placeOn (stage : Stage) (pipeline : Pipeline) (inputName : String) : Operation Unit := do
  let input ← VerifiedStreams.input stage.metadata.namespaceOrEmpty inputName
  if stage.isFirst || !pipeline.spec.promotes input.spec.codebase then set stage.label input
  else do
    let verified ← previousStream stage input.spec.codebase
    set stage.label verified

def serve (stage : Stage) : Operation Unit := do
  let pipeline ← stage.parent
  pipeline.spec.inputStreams.forM (placeOn stage pipeline)

/-- Removes the label from every stream that can carry it on account of an input stream. -/
def clean (stage : Stage) (pipeline : Pipeline) (input : ImageStream) : Operation Unit :=
  if stage.isFirst then remove stage.label input
  else do
    let verified ← previousStream stage input.spec.codebase
    remove stage.label verified
    if pipeline.spec.promotes input.spec.codebase then pure () else remove stage.label input

/-- An input stream that is gone has no label to remove. -/
def cleanFrom (stage : Stage) (pipeline : Pipeline) (inputName : String) : Operation Unit := do
  match ← Operation.get .imageStream ⟨stage.metadata.namespaceOrEmpty, inputName⟩ with
  | none => pure ()
  | some input => clean stage pipeline input

/-- Without the pipeline it is not known which streams were labelled, and nothing is done. -/
def withdraw (stage : Stage) : Operation Unit := do
  match ← Operation.get .pipeline stage.pipelineKey with
  | none => pure ()
  | some pipeline => pipeline.spec.inputStreams.forM (cleanFrom stage pipeline)

end EnvironmentLabel

end PipelineOperator
