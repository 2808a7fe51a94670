import PipelineOperator.Provision.Report
import PipelineOperator.Settings.Platform

/-!
The place into which a stage deploys: a namespace, or the space of a tenant whose account is the
namespace of the stage. What is there already is taken as it is. A failure to provide the place is
reported on the stage.
-/

set_option autoImplicit false
set_option relaxedAutoImplicit false

namespace PipelineOperator

namespace Target

/-- The namespace, labelled with the one it serves. -/
def buildNamespace (name source : String) : Namespace where
  metadata := {
    name := some name
    labels := some (SortedMap.ofList
      [(Naming.tenantLabel, source), (Naming.managedByLabel, Naming.operator)]) }
  spec := none

def buildSpace (name account : String) : Space where
  metadata := {
    name := some name
    labels := some (SortedMap.ofList [(Naming.tenantLabel, account)]) }
  spec := { account := account }

def ensureNamespace (name source : String) : Operation Creation :=
  Operation.ensure ⟨"", name⟩ (buildNamespace name source)

def ensureSpace (name account : String) : Operation Creation :=
  Operation.ensure ⟨"", name⟩ (buildSpace name account)

/-- Provides a place, and reports on the stage when that fails. -/
def provide (now : Instant) (stage : Stage) (kind : Kind) (action : String)
    (ensure : Operation Creation) : Operation Unit :=
  tryCatch (do let _ ← ensure; pure ()) (fun fault ↦ do
    reportFailure now stage action fault
    throw (fault.during (.providing kind stage.target)))

def serveNamespace (now : Instant) (stage : Stage) : Operation Unit :=
  provide now stage .ns "create_namespace"
    (ensureNamespace stage.target stage.metadata.namespaceOrEmpty)

def serveSpace (now : Instant) (stage : Stage) : Operation Unit :=
  provide now stage .space "create_space"
    (ensureSpace stage.target stage.metadata.namespaceOrEmpty)

def removeNamespace (stage : Stage) : Operation Unit :=
  Operation.delete .ns ⟨"", stage.target⟩

def removeSpace (stage : Stage) : Operation Unit :=
  Operation.delete .space ⟨"", stage.target⟩

end Target

end PipelineOperator
