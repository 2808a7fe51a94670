import PipelineOperator.Cluster.Bench

/-!
Plain objects with which a bench is set up, and the setting in which most trials start: a pipeline
with one application, whose image stream and registry are there.
-/

set_option autoImplicit false
set_option relaxedAutoImplicit false

namespace PipelineOperator

namespace Fixture

def pipeline (name ns : String) (streams applications promoted : List String) : Pipeline where
  metadata := {
    name := some name
    ns := some ns
    uid := some ("uid-pipeline-" ++ name)
    generation := some 1 }
  spec := {
    name := name
    deploymentType := "container"
    inputStreams := streams
    applications := applications
    applicationsToPromote := some promoted }

/-- An automatic stage behind one manual gate. -/
def stage (name ns pipeline : String) (order : UInt32) : Stage where
  metadata := {
    name := some name
    ns := some ns
    uid := some ("uid-stage-" ++ name)
    generation := some 1 }
  spec := {
    name := name
    pipeline := pipeline
    trigger := .auto
    order := order
    qualityGates := [{ kind := .manual, stepName := "m1" }]
    jobProvisioning := "default" }

/-- A stage that knows the one before it. -/
def promotionStage (name ns pipeline : String) (order : UInt32) (previous : String) : Stage :=
  let plain := stage name ns pipeline order
  { plain with
    metadata := plain.metadata.setAnnotation Naming.previousStageAnnotation previous }

def imageStream (name ns codebase : String) : ImageStream where
  metadata := { name := some name, ns := some ns }
  spec := { codebase := codebase, imageName := "registry/" ++ codebase }

def registry (ns url : String) : Component where
  metadata := { name := some Naming.registryComponent, ns := some ns }
  spec := { type := "registry", url := url, visible := true }

def codebase (name ns strategy : String) (path : Option String) : Codebase where
  metadata := { name := some name, ns := some ns }
  spec := { gitServer := "gerrit", gitUrlPath := path, strategy := strategy }

def gitServer (ns : String) : GitServer where
  metadata := { name := some "gerrit", ns := some ns }
  spec := {
    host := "gerrit.example.com"
    user := "edp-ci"
    sshPort := 29418
    sshKeySecret := "gerrit-ciuser-sshkey" }

def jenkins (ns : String) : Jenkins where
  metadata := { name := some "jenkins", ns := some ns }
  spec := {}

def namespaceOf (name : String) : Namespace where
  metadata := { name := some name }
  spec := none

end Fixture

namespace Bench

/-- A pipeline of one application, with its input stream and the registry. -/
def seedPipeline (b : Bench) (promoted : List String) : Bench :=
  ((b.put (Fixture.pipeline "p" "ci" ["img-a"] ["cb-a"] promoted)).put
    (Fixture.imageStream "img-a" "ci" "cb-a")).put (Fixture.registry "ci" "reg/ns")

end Bench

end PipelineOperator
