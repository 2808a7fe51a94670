import PipelineOperator.Proofs.Reconcile.Effect
import PipelineOperator.Proofs.Reconcile.Streams

/-!
From where the input streams of a stage come. While a stage is provisioned, the input streams of its
pipeline may be among the verified streams that are built for it. These are of codebases that it
took before, so that in the end it takes no codebase that it did not take in the beginning
(`Store.DrawsFrom`, `drawsFrom_reconcileStage`).
-/

set_option autoImplicit false
set_option relaxedAutoImplicit false

namespace PipelineOperator

open Operation

variable {S s t : Store} {context : Context} {stage : Stage} {pipeline other : Pipeline}
  {inputName image : String}

namespace Store

/-- Every codebase that the stage takes in the second store it takes in the first one, maybe by
another name. -/
structure DrawsFrom (S : Store) (stage : Stage) (pipeline : Pipeline) (t : Store) : Prop where
  streams : t.SoundAt .imageStream
  pipelines : S.SamePipelines t
  takes : ∀ name codebase, stage.Takes pipeline t name codebase →
    ∃ name', stage.Takes pipeline S name' codebase

theorem drawsFrom_self (hstreams : S.SoundAt .imageStream) : S.DrawsFrom stage pipeline S :=
  ⟨hstreams, fun _ ↦ rfl, fun name _ htakes ↦ ⟨name, htakes⟩⟩

theorem dependsOn_drawsFrom (S : Store) (stage : Stage) (pipeline : Pipeline) :
    DependsOn (fun k ↦ k = .imageStream ∨ k = .pipeline) (S.DrawsFrom stage pipeline) := by
  intro t u htables h
  refine ⟨(t.dependsOn_streams t u (fun k hk ↦ htables k (.inl hk)) ⟨h.streams, .refl t⟩).1,
    S.dependsOn_pipelines t u (fun k hk ↦ htables k (.inr hk)) h.pipelines, ?_⟩
  rintro name codebase ⟨hname, input, hinput, hcodebase⟩
  rw [find?, htables _ (.inl rfl)] at hinput
  exact h.takes name codebase ⟨hname, input, hinput, hcodebase⟩

end Store

/-- A step that keeps streams and pipelines adds no codebase if every stream that it leaves is of a
codebase that the stage took before, or was there with this specification. -/
theorem Operation.KeepsStreams.keeps_drawsFrom {α : Type} {op : Operation α}
    (hop : op.KeepsStreams) (hpipelines : op.Keeps S.SamePipelines)
    (hstreams : ∀ s, S.DrawsFrom stage pipeline s → ∀ key, ∀ stream' : ImageStream,
      (op.on s).2.find? .imageStream key = some stream' →
        (∃ name, stage.Takes pipeline s name stream'.spec.codebase) ∨
          ∃ stream : ImageStream, s.find? .imageStream key = some stream ∧
            stream'.spec = stream.spec) :
    op.Keeps (S.DrawsFrom stage pipeline) := by
  intro s h
  refine ⟨(hop s h.streams).1, hpipelines s h.pipelines, ?_⟩
  rintro name _ ⟨hname, input', hinput', rfl⟩
  rcases hstreams s h _ input' hinput' with ⟨name', htakes⟩ | ⟨input, hinput, hspec⟩
  · exact h.takes name' _ htakes
  · exact h.takes name _ ⟨hname, input, hinput, hspec ▸ rfl⟩

/-! ### The handlers -/

namespace VerifiedStreams

/-- What is built for an input stream is of the codebase of that. -/
theorem keeps_provide_drawsFrom (hname : inputName ∈ pipeline.spec.inputStreams) :
    (provide stage image inputName).Keeps (S.DrawsFrom stage pipeline) := by
  refine keepsStreams_provide.keeps_drawsFrom ((asks_provide (fun _ _ ↦ rfl)
    fun _ ↦ nofun).keeps_of_reads S.dependsOn_pipelines) fun s _ key stream' hfound ↦ ?_
  rcases found_or_built_of_on_provide hfound with hthere | ⟨input, hinput, rfl⟩
  · exact .inr ⟨stream', hthere, rfl⟩
  · exact .inl ⟨inputName, hname, input, hinput, rfl⟩

theorem keeps_serve_drawsFrom
    (hpipeline : S.find? .pipeline stage.pipelineKey = some pipeline) :
    (serve stage).Keeps (S.DrawsFrom stage pipeline) := by
  refine keeps_require_bind fun s found h hfound ↦ ?_
  obtain rfl : pipeline = found :=
    Option.some.inj (hpipeline.symm.trans ((h.pipelines _).symm.trans hfound))
  split
  · exact h
  · refine Keeps.bind ?_ (fun url ↦ keeps_forM fun name hname ↦ keeps_provide_drawsFrom hname) s h
    have hregistry : (registry stage.metadata.namespaceOrEmpty).Asks
        (fun request ↦ (request.kind = .imageStream ∨ request.kind = .pipeline) →
          request.isRead = true) :=
      (asks_require fun _ ↦ rfl).bind fun _ ↦ asks_pure _
    exact hregistry.keeps_of_reads (S.dependsOn_drawsFrom stage pipeline)

end VerifiedStreams

namespace EnvironmentLabel

/-- Labels have no bearing on codebases. -/
theorem keeps_placeOn_drawsFrom :
    (placeOn stage other inputName).Keeps (S.DrawsFrom stage pipeline) := by
  refine keepsStreams_placeOn.keeps_drawsFrom ((asks_placeOn (fun _ _ ↦ rfl)
    fun _ ↦ nofun).keeps_of_reads S.dependsOn_pipelines) fun s h key stream' hfound ↦ .inr ?_
  rcases found_or_labelled_of_on_placeOn h.streams hfound with hthere | ⟨stream, -, hstream, rfl⟩
  · exact ⟨stream', hthere, rfl⟩
  · exact ⟨stream, hstream, Object.spec_withLabel⟩

theorem keeps_serve_drawsFrom : (serve stage).Keeps (S.DrawsFrom stage pipeline) :=
  keeps_require_bind fun s _ h _ ↦ keeps_forM (fun _ _ ↦ keeps_placeOn_drawsFrom) s h

end EnvironmentLabel

/-- However the reconciliation of a live stage ends, the stage as adopted takes no codebase in the
end that it did not take in the beginning. -/
theorem drawsFrom_reconcileStage (context : Context) (hsound : S.Sound)
    (hfound : S.find? .stage stage.key = some stage) (hlive : stage.isDeleting = false)
    (hpipeline : S.find? .pipeline stage.pipelineKey = some pipeline) :
    S.DrawsFrom (stage.withWiring (stage.wiringIn S)) pipeline
      ((reconcileStage context stage.key).on S).2 := by
  have hI := S.dependsOn_drawsFrom (stage.withWiring (stage.wiringIn S)) pipeline
  rw [on_reconcileStage_of_live context hfound hlive]
  refine Stage.keeps_provision hI (by decide) hfound hlive (fun _ ↦ ?_)
    (Store.drawsFrom_self (hsound.soundAt _))
  exact Chain.keeps_serve (Chain.keeps_creation hI
    (fun k hk ↦ hk.elim .inl fun hk ↦ .inr (.inl hk))
    (VerifiedStreams.keeps_serve_drawsFrom hpipeline)
    (Handler.keeps_target hI (by decide) (by decide))
    fun _ ↦ EnvironmentLabel.keeps_serve_drawsFrom)

end PipelineOperator
