import PipelineOperator.Proofs.Provision.Streams
import PipelineOperator.Proofs.Reconcile.Footprint

/-!
Image streams and pipelines across a reconciliation without failing calls. Pipelines are only read,
and streams stay (`streamsLast_reconcileStage`). Where the provisioning of a stage succeeds, it
leaves the verified streams of the stage, and a stage that is provisioned automatically has found
the streams from which it deploys (`Stage.streams_of_on_provision`).
-/

set_option autoImplicit false
set_option relaxedAutoImplicit false

namespace PipelineOperator

open Operation

variable {S T : Store} {context : Context} {stage : Stage} {key : Key} {outcome : Outcome}

/-- A reconciliation writes no pipeline. -/
theorem samePipelines_reconcileStage (context : Context) (key : Key) (hkeyed : S.KeyedAt .stage) :
    S.SamePipelines ((reconcileStage context key).on S).2 :=
  keeps_reconcileStage S.dependsOn_pipelines nofun hkeyed
    (fun stage _ _ _ ↦ Chain.keeps_serve (Chain.keeps_samePipelines S context
      (stage.withWiring (stage.wiringIn S))))
    (fun stage _ _ _ ↦ ⟨(EnvironmentLabel.keeps_samePipelines S stage).2,
      Handler.keeps_removeTarget S.dependsOn_pipelines nofun nofun⟩)
    fun _ ↦ rfl

/-- Whatever comes of a reconciliation, the streams stay and are held. -/
theorem streamsLast_reconcileStage (context : Context) (key : Key) (hkeyed : S.KeyedAt .stage)
    (hstreams : S.SoundAt .imageStream) :
    ((reconcileStage context key).on S).2.SoundAt .imageStream ∧
      S.StreamsLast ((reconcileStage context key).on S).2 :=
  keeps_reconcileStage S.dependsOn_streams nofun hkeyed
    (fun stage _ _ _ ↦ Chain.keeps_serve fun handler hhandler ↦ keepsStreams_iff.mp
      (Chain.keepsStreams_creation context (stage.withWiring (stage.wiringIn S)) handler hhandler)
        S)
    (fun _ _ _ _ ↦ ⟨keepsStreams_iff.mp EnvironmentLabel.keepsStreams_withdraw S,
      Handler.keeps_removeTarget S.dependsOn_streams nofun nofun⟩)
    ⟨hstreams, .refl S⟩

namespace Stage

/-! ### What success means -/

/-- A provisioning that succeeds has adopted the stage, which is ready, and run its whole chain. -/
theorem chain_of_on_provision (hkeyed : S.KeyedAt .stage)
    (hfound : S.find? .stage stage.key = some stage) (hlive : stage.isDeleting = false)
    (hok : (provision context stage).on S = (.ok outcome, T)) :
    (stage.withWiring (stage.wiringIn S)).IsReady ∧ ∃ U status,
      ((Chain.creation context stage.spec.trigger).serve (stage.withWiring (stage.wiringIn S))).on
        (S.put (stage.withWiring (stage.wiringIn S))) = (.ok (), U) ∧
      T = U.put { stage.withWiring (stage.wiringIn S) with status := status } := by
  rcases on_provision_cases context hkeyed hfound hlive with
    ⟨e, hon⟩ | ⟨U, -, ⟨e, hon⟩ | ⟨hfurnish, outcome', status, hon⟩⟩
  · exact nomatch congrArg Prod.fst (hon.symm.trans hok)
  · exact nomatch congrArg Prod.fst (hon.symm.trans hok)
  · unfold furnish at hfurnish
    by_cases hready : (stage.withWiring (stage.wiringIn S)).IsReady
    · rw [requirePrevious_of_isReady hready] at hfurnish
      exact ⟨hready, U, status, hfurnish, (congrArg Prod.snd (hon.symm.trans hok)).symm⟩
    · rw [requirePrevious_of_not_isReady hready] at hfurnish
      exact nomatch congrArg Prod.fst hfurnish

/-- What there is of streams where a provisioning succeeded. -/
theorem streams_of_on_provision (hkeyed : S.KeyedAt .stage) (hstreams : S.SoundAt .imageStream)
    (hfound : S.find? .stage stage.key = some stage) (hlive : stage.isDeleting = false)
    (hok : (provision context stage).on S = (.ok outcome, T)) :
    ∃ pipeline, S.find? .pipeline stage.pipelineKey = some pipeline ∧
      ∀ name ∈ pipeline.spec.inputStreams, VerifiedStreams.HasStreams stage name T ∧
        (stage.spec.trigger = .auto → ∃ stream, EnvironmentLabel.Places
          (stage.withWiring (stage.wiringIn S)) pipeline name T stream) := by
  obtain ⟨-, U, status, hchain, rfl⟩ := chain_of_on_provision hkeyed hfound hlive hok
  have hadopted : (S.put (stage.withWiring (stage.wiringIn S))).SoundAt .imageStream :=
    hstreams.put_of_ne (by decide) _
  have hpipelines (key : Key) : (S.put (stage.withWiring (stage.wiringIn S))).find? .pipeline key =
      S.find? .pipeline key := Store.find?_put_of_kind_ne S _ (by decide) key
  have hreported (s : Store) : s.StreamsLast (s.put
      { stage.withWiring (stage.wiringIn S) with status := status }) :=
    Store.streamsLast_put_of_ne (by decide) _
  obtain ⟨hU, pipeline, hpipeline, hverified⟩ := Chain.outlasts_of_on_creation
    (stage.withWiring (stage.wiringIn S)) hadopted hchain
    (Chain.mem_handlers_creation.mpr (.inl rfl))
    (fun u v _ hon ↦ (VerifiedStreams.found_of_on_serve hon).2)
    (fun _ _ _ _ hs hlast ↦ VerifiedStreams.HasStreams.last hs hlast)
  have hpipeline' : S.find? .pipeline stage.pipelineKey = some pipeline := by
    rw [← hpipelines]
    exact hpipeline
  refine ⟨pipeline, hpipeline', fun name hname ↦
    ⟨(hverified name hname).last hU (hreported U), fun hauto ↦ ?_⟩⟩
  obtain ⟨-, pipeline', hsame, hplaces⟩ := Chain.outlasts_of_on_creation
    (stage.withWiring (stage.wiringIn S)) hadopted hchain
    (Chain.mem_handlers_creation.mpr (.inr (.inr (.inr (.inr ⟨hauto, rfl⟩)))))
    (fun u v hu hon ↦ EnvironmentLabel.places_of_on_serve hu hon)
    (fun _ _ _ _ hs hlast ↦ EnvironmentLabel.Places.last hs hlast)
  obtain rfl := Option.some.inj (hpipeline.symm.trans hsame)
  exact EnvironmentLabel.Places.last hU (hreported U) (hplaces name hname)

end Stage

end PipelineOperator
