import PipelineOperator.Cluster.Program

/-!
What the operator reports on the status of stages and pipelines: that an object is in place, or that
an action on it failed and why. A cluster may not know the status as a part to be written on its
own; then the whole object is written.
-/

set_option autoImplicit false
set_option relaxedAutoImplicit false

namespace PipelineOperator

namespace StageStatus

/-- The stage is provisioned. -/
def registered (now : Instant) : StageStatus where
  available := true
  lastTimeUpdated := some now.withOffset
  status := "created"
  username := "system"
  action := "accept_cd_stage_registration"
  result := "success"
  value := "active"

/-- An action on the stage failed. -/
def failed (action message : String) (now : Instant) : StageStatus where
  available := false
  lastTimeUpdated := some now.withOffset
  status := "failed"
  username := "system"
  action := action
  result := "error"
  detailedMessage := some message
  value := "failed"

/-- The status says that the stage is provisioned, whenever that was written. -/
def isRegistered (s : StageStatus) : Bool :=
  s.available && s.status == "created" && s.result == "success" &&
    s.action == "accept_cd_stage_registration"

theorem isRegistered_registered (now : Instant) : (registered now).isRegistered = true := rfl

theorem isRegistered_failed (action message : String) (now : Instant) :
    (failed action message now).isRegistered = false := rfl

end StageStatus

namespace PipelineStatus

/-- The generation of the pipeline is worked off. -/
def ready (generation : Option Int64) (now : Instant) : PipelineStatus where
  available := true
  lastTimeUpdated := some now.withOffset
  status := "created"
  username := "system"
  action := "setup_initial_structure"
  result := "success"
  value := "active"
  observedGeneration := generation

end PipelineStatus

/-- A stage without a status is not provisioned. -/
def Stage.isRegistered (s : Stage) : Bool := s.status.any StageStatus.isRegistered

/-- Writes a status, with the whole object if it cannot be written on its own. -/
def report {kind : Kind} (object : Object kind) (status : kind.Status) :
    Operation (Object kind) :=
  let updated := { object with status := some status }
  tryCatch (Operation.writeStatus updated) (fun _ ↦ Operation.replace updated)

/-- Records on the stage that an action failed. The record is an extra: that it cannot be made is
passed over. -/
def reportFailure (now : Instant) (stage : Stage) (action : String) (fault : Fault) :
    Operation Unit :=
  Operation.bestEffort (report stage (StageStatus.failed action fault.message now))

end PipelineOperator
