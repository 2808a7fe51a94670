import PipelineOperator.Provision.Relatives

/-!
Verified streams: for every input stream of its pipeline a stage has an image stream that holds what
passed the stage. The stage does not own them, since later stages deploy from them after it is gone.
-/

set_option autoImplicit false
set_option relaxedAutoImplicit false

namespace PipelineOperator

namespace VerifiedStreams

/-- The verified stream of a codebase at a stage. -/
def build (stage : Stage) (name codebase image : String) : ImageStream where
  metadata := {
    name := some name
    ns := stage.metadata.ns
    labels := some (SortedMap.ofList
      [(Naming.pipelineLabel, stage.spec.pipeline), (Naming.managedByLabel, Naming.operator)]) }
  spec := { codebase := codebase, imageName := image }

def name (stage : Stage) (codebase : String) : String :=
  Naming.verifiedStream stage.spec.pipeline stage.spec.name codebase

/-- Where images are pushed. -/
def registry (ns : String) : Operation String := do
  let component ← Operation.require .component ⟨ns, Naming.registryComponent⟩
    (.registryNotFound ns Naming.registryComponent)
  return component.spec.url

/-- The input stream of a pipeline, which has to exist. -/
def input (ns streamName : String) : Operation ImageStream :=
  Operation.require .imageStream ⟨ns, streamName⟩ (.inputStreamNotFound ns streamName)

/-- Creates the verified stream that belongs to an input stream unless it is there. -/
def provide (stage : Stage) (image inputName : String) : Operation Unit := do
  let ns := stage.metadata.namespaceOrEmpty
  let input ← input ns inputName
  let name := name stage input.spec.codebase
  let _ ← Operation.ensure ⟨ns, name⟩ (build stage name input.spec.codebase image)

/-- Provides the verified streams for all input streams of the pipeline. -/
def serve (stage : Stage) : Operation Unit := do
  let ns := stage.metadata.namespaceOrEmpty
  let pipeline ← stage.parent
  if pipeline.spec.inputStreams.isEmpty then
    Operation.fail (.emptyInputStreams pipeline.metadata.anyName)
  else
    let image := Naming.verifiedImage (← registry ns) ns
    pipeline.spec.inputStreams.forM (provide stage image)

end VerifiedStreams

end PipelineOperator
