import PipelineOperator.Proofs.Reconcile.Furnishing
import PipelineOperator.Proofs.Reconcile.Pipeline
import PipelineOperator.Proofs.Reconcile.Release

/-!
The requests that a reconciliation consists of, whatever the cluster replies to them. What is put to
the cluster for an adopted stage is `Request.Furnishes`, for a stage on its way out
`Request.Dismantles`, and for a pipeline `Request.Maintains`; a property that each of these requests
has is one of every call in every trial.
-/

set_option autoImplicit false
set_option relaxedAutoImplicit false

namespace PipelineOperator

open Operation

namespace Request

/-- The requests by which an adopted stage is provisioned, and a status written on it. -/
inductive Furnishes (stage : Stage) : Request → Prop where
  | read {request : Request} (hread : request.isRead = true) : Furnishes stage request
  | buildStream (o : ImageStream) : Furnishes stage (.create .imageStream o)
  | labelStream (o : ImageStream) : Furnishes stage (.replace .imageStream o)
  | buildNamespace (source : String) :
      Furnishes stage (.create .ns (Target.buildNamespace stage.target source))
  | buildSpace (account : String) :
      Furnishes stage (.create .space (Target.buildSpace stage.target account))
  | buildRole (o : Role) : Furnishes stage (.create .role o)
  | buildBinding (o : RoleBinding) : Furnishes stage (.create .roleBinding o)
  | buildJob (o : JenkinsJob) : Furnishes stage (.create .jenkinsJob o)
  | configureJob (key : Key) (config : String) : Furnishes stage (.setJobConfig key config)
  | reportStatus (status : StageStatus) :
      Furnishes stage (.writeStatus .stage { stage with status := some status })
  | reportStage (status : StageStatus) :
      Furnishes stage (.replace .stage { stage with status := some status })

/-- The requests by which a stage is taken down and let go. -/
inductive Dismantles (context : Context) (stage : Stage) : Request → Prop where
  | read {request : Request} (hread : request.isRead = true) : Dismantles context stage request
  | labelStream (o : ImageStream) : Dismantles context stage (.replace .imageStream o)
  | removeTarget : Dismantles context stage (.delete context.targetKind ⟨"", stage.target⟩)
  | release : Dismantles context stage (.replace .stage stage.released)

/-- The requests by which a pipeline is kept up and let go. -/
inductive Maintains : Request → Prop where
  | read {request : Request} (hread : request.isRead = true) : Maintains request
  | update (o : Pipeline) : Maintains (.replace .pipeline o)
  | reportStatus (o : Pipeline) : Maintains (.writeStatus .pipeline o)
  | buildFolder (o : JenkinsFolder) : Maintains (.create .jenkinsFolder o)

end Request

/-- Providing a place asks for it and, when that fails, for a status on the stage. -/
theorem Target.asks_provide {stage : Stage} {k : Kind} (now : Instant) (action : String)
    {o : Object k} (hcreate : Request.Furnishes stage (.create k o)) :
    (Target.provide now stage k action (ensure o.key o)).Asks (Request.Furnishes stage) := by
  have hensure : (ensure o.key o).Asks (Request.Furnishes stage) :=
    asks_ensure (.read rfl) hcreate
  refine (hensure.bind fun _ ↦ asks_pure _).tryCatch fun fault ↦ Asks.bind ?_ fun _ ↦ asks_throw _
  have hreport : (report stage (StageStatus.failed action fault.message now)).Asks
      (Request.Furnishes stage) := asks_report _ (.reportStatus _) (.reportStage _)
  exact (hreport.bind fun _ ↦ asks_pure _).tryCatch fun _ ↦ asks_pure _

namespace Chain

theorem asks_creation (context : Context) (trigger : Trigger) (stage : Stage) :
    ∀ handler ∈ (creation context trigger).handlers,
      (handler.serve stage).Asks (Request.Furnishes stage) := by
  intro handler hhandler
  rcases mem_handlers_creation.mp hhandler with rfl | rfl | rfl | rfl | ⟨-, rfl⟩
  · exact VerifiedStreams.asks_serve (fun _ ↦ .read rfl) (fun _ ↦ .read rfl) (fun _ ↦ .read rfl)
      .buildStream
  · unfold Handler.target
    split
    · exact Target.asks_provide (o := Target.buildSpace ..) _ _ (.buildSpace _)
    · exact Target.asks_provide (o := Target.buildNamespace ..) _ _ (.buildNamespace _)
  · exact Access.asks_serve (fun _ ↦ .read rfl) (fun _ ↦ .read rfl) .buildRole .buildBinding
  · exact StageJob.asks_serve (fun _ ↦ .read rfl) (fun _ ↦ .read rfl) (fun _ ↦ .read rfl)
      (fun _ ↦ .read rfl) .buildJob .configureJob
  · exact EnvironmentLabel.asks_serve (fun _ ↦ .read rfl) (fun _ ↦ .read rfl) .labelStream

theorem asks_teardown (context : Context) (stage : Stage) :
    ∀ handler ∈ (teardown context).handlers,
      (handler.serve stage).Asks (Request.Dismantles context stage) := by
  intro handler hhandler
  rcases mem_handlers_teardown.mp hhandler with rfl | rfl
  · exact EnvironmentLabel.asks_withdraw (fun _ ↦ .read rfl) (fun _ ↦ .read rfl) .labelStream
  · rw [Handler.serve_removeTarget]
    exact asks_ask .removeTarget

end Chain

namespace Stage

theorem asks_furnish (context : Context) (stage : Stage) :
    (furnish context stage).Asks (Request.Furnishes stage) := by
  have hchain := Chain.asks_serve (Chain.asks_creation context stage.spec.trigger stage)
  unfold furnish
  rcases requirePrevious_eq stage with hprevious | hprevious
  · rw [hprevious]
    exact (asks_pure ()).bind fun _ ↦ hchain
  · rw [hprevious]
    exact (asks_fail _).bind fun _ ↦ hchain

theorem asks_confirm (context : Context) (stage : Stage) :
    (confirm context stage).Asks (Request.Furnishes stage) := by
  unfold confirm
  split
  · exact (asks_report (o := stage) _ (.reportStatus _) (.reportStage _)).bind fun _ ↦ asks_pure _
  · exact asks_pure _

/-- What follows adoption. -/
theorem asks_furnish_confirm (context : Context) (stage : Stage) :
    (furnish context stage >>= fun _ ↦ confirm context stage).Asks (Request.Furnishes stage) :=
  (asks_furnish context stage).bind fun _ ↦ asks_confirm context stage

theorem asks_release (context : Context) (stage : Stage) :
    (release context stage).Asks (Request.Dismantles context stage) := by
  cases hheld : stage.metadata.hasFinalizer Naming.labelCleanup with
  | false =>
    rw [release_of_free hheld]
    exact asks_pure _
  | true =>
    rw [release_of_held hheld]
    refine (Chain.asks_serve (Chain.asks_teardown context stage)).bind fun _ ↦ ?_
    exact (asks_ask .release).bind fun _ ↦ asks_pure _

end Stage

namespace Pipeline

theorem asks_setUp (context : Context) (ns : String) (p : Pipeline) :
    (setUp context ns p).Asks Request.Maintains := by
  have hreport (p : Pipeline) (status : PipelineStatus) :
      (report p status >>= fun _ ↦ pure ()).Asks Request.Maintains :=
    (asks_report (o := p) status (.reportStatus _) (.update _)).bind fun _ ↦ asks_pure _
  refine (asks_ask (.read rfl)).bind fun enabled ↦ ?_
  cases enabled with
  | false => exact hreport p _
  | true => exact (asks_ask (.buildFolder _)).bind fun _ ↦ hreport p _

theorem asks_maintain (context : Context) (ns : String) (p : Pipeline) :
    (maintain context ns p).Asks Request.Maintains := by
  have hrest (p : Pipeline) : Operation.Asks Request.Maintains (do
      if isAhead p then setUp context ns p
      return Outcome.awaitChange) := by
    cases isAhead p with
    | false => exact asks_pure _
    | true => exact (asks_setUp context ns p).bind fun _ ↦ asks_pure _
  obtain ⟨changed, hensure, -⟩ := Object.ensureFinalizers_eq p finalizers
  unfold maintain
  simp only [hensure]
  cases changed with
  | false => exact hrest _
  | true => exact (asks_ask (.update _)).bind fun held ↦ hrest held

theorem asks_release (p : Pipeline) : (release p).Asks Request.Maintains := by
  refine (asks_ask (.read rfl)).bind fun stages ↦ ?_
  cases stages with
  | cons first rest => trivial
  | nil =>
    cases hheld : p.metadata.hasFinalizer Naming.ownedStages with
    | false =>
      rw [Object.removeFinalizer_of_lacks hheld]
      exact asks_pure _
    | true =>
      rw [Object.removeFinalizer_of_has hheld]
      exact (asks_ask (.update _)).bind fun _ ↦ asks_pure _

end Pipeline

theorem asks_reconcilePipeline (context : Context) (key : Key) :
    (reconcilePipeline context key).Asks Request.Maintains := by
  refine (asks_ask (.read rfl)).bind fun found ↦ ?_
  cases found with
  | none => exact asks_pure _
  | some p =>
    show (if Object.isDeleting p then Pipeline.release p
      else Pipeline.maintain context key.ns p : Operation Outcome).Asks _
    split
    · exact Pipeline.asks_release p
    · exact Pipeline.asks_maintain context key.ns p

end PipelineOperator
