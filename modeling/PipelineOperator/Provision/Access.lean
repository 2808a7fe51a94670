import PipelineOperator.Cluster.Program
import PipelineOperator.Settings.Platform

/-!
Access to the environment of a stage. The console may look at deployments, the job runner may do
everything; on OpenShift the groups of the platform are bound as well. Objects that are there are
left alone, so that adjustments by hand survive.
-/

set_option autoImplicit false
set_option relaxedAutoImplicit false

namespace PipelineOperator

namespace Access

def apiGroup : String := "rbac.authorization.k8s.io"

def metadata (name ns : String) : Metadata where
  name := some name
  ns := some ns
  labels := some (SortedMap.ofList [(Naming.managedByLabel, Naming.operator)])

/-- The role that may look at deployments. -/
def viewRole (ns : String) : Role where
  metadata := metadata Naming.deploymentsViewRole ns
  spec := {
    rules := some [{
      apiGroups := some ["apps"]
      resources := some ["deployments"]
      verbs := ["get", "list"] }] }

/-- A role of the binding's own namespace. -/
def localRole (name : String) : RoleReference := ⟨apiGroup, "Role", name⟩

def clusterRole (name : String) : RoleReference := ⟨apiGroup, "ClusterRole", name⟩

def serviceAccount (name ns : String) : Subject where
  kind := "ServiceAccount"
  name := name
  ns := some ns

def groupSubject (name : String) : Subject where
  apiGroup := some apiGroup
  kind := "Group"
  name := name

def binding (name ns : String) (role : RoleReference) (subjects : List Subject) : RoleBinding where
  metadata := metadata name ns
  spec := { role := role, subjects := some subjects }

/-- The bindings that an environment has on a platform. -/
def desiredBindings (source target : String) (platform : Platform) : List RoleBinding :=
  let groups := if platform.isOpenShift then (Naming.adminGroups source).map groupSubject else []
  [binding Naming.deploymentsViewerBinding target (localRole Naming.deploymentsViewRole)
      [serviceAccount Naming.consoleAccount source],
    binding Naming.jenkinsAdminBinding target (clusterRole Naming.adminClusterRole)
      (serviceAccount Naming.jenkinsAccount source :: groups)] ++
  if platform.isOpenShift then
    [binding (Naming.viewBinding source) target (clusterRole Naming.viewClusterRole)
      [groupSubject (Naming.viewGroup source)]]
  else []

/-- The key under the proper name only: an object that is still to be named is not looked for under
its stem. -/
def properKey (m : Metadata) : Key := ⟨m.namespaceOrEmpty, m.name.getD ""⟩

def ensureRole (role : Role) : Operation Creation :=
  Operation.ensure (properKey role.metadata) role

def ensureBinding (binding : RoleBinding) : Operation Creation :=
  Operation.ensure (properKey binding.metadata) binding

/-- Provides the role and the bindings in the target of the stage. -/
def serve (platform : Platform) (stage : Stage) : Operation Unit := do
  let _ ← ensureRole (viewRole stage.target)
  (desiredBindings stage.metadata.namespaceOrEmpty stage.target platform).forM
    (fun b ↦ do let _ ← ensureBinding b; pure ())

end Access

end PipelineOperator
