import PipelineOperator.Proofs.Reconcile.Streams

/-!
Where the label of a stage can be. A pipeline confines the label if each stream that carries it is
one that the stage reaches through the pipeline (`Store.Confines`), so that a teardown under that
pipeline would clean it. Reconciling the stage keeps the label confined, though the pipeline may be
another at the time, as long as what is reached then is still reached under the confining one
(`confines_reconcileStage`).
-/

set_option autoImplicit false
set_option relaxedAutoImplicit false

namespace PipelineOperator

open Operation

variable {S s t : Store} {context : Context} {stage after : Stage} {pipeline confining : Pipeline}
  {key : Key} {inputName image : String}

namespace Stage

/-- What a stage reaches it reaches whatever becomes of it. -/
theorem Reaches.becomes (hbecomes : stage.Becomes after) (hreaches : stage.Reaches pipeline s key) :
    after.Reaches pipeline s key := by
  obtain ⟨name, hname, input, hinput, hwhy⟩ := hreaches
  refine ⟨name, hname, input, hbecomes.namespaceOrEmpty ▸ hinput, ?_⟩
  rw [hbecomes.namespaceOrEmpty, hbecomes.isFirst, hbecomes.spec]
  refine hwhy.imp_right ?_
  rintro ⟨hlater, previous, hprevious, hkey⟩
  exact ⟨hlater, previous, hbecomes.previous previous hprevious, hkey⟩

/-- What is reached is reached as long as the streams stay. -/
theorem Reaches.last (hstreams : s.SoundAt .imageStream) (hlast : s.StreamsLast t)
    (hreaches : stage.Reaches pipeline s key) : stage.Reaches pipeline t key := by
  obtain ⟨name, hname, input, hinput, hwhy⟩ := hreaches
  obtain ⟨input', hinput', hspec⟩ := hlast.found hstreams hinput
  exact ⟨name, hname, input', hinput', hspec ▸ hwhy⟩

/-- What the stage is labelled through under the second specification of its pipeline it reaches
under the first: the first lists the input streams of the second, and for a later stage it promotes
no codebase that the second does not. -/
def Covers (stage : Stage) (spec earlier : PipelineSpec) : Prop :=
  (∀ name ∈ earlier.inputStreams, name ∈ spec.inputStreams) ∧
    (stage.isFirst = false → ∀ codebase, spec.promotes codebase = true →
      earlier.promotes codebase = true)

theorem reaches_of_places (hstreams : s.SoundAt .imageStream)
    (hcovers : stage.Covers confining.spec pipeline.spec)
    (hname : inputName ∈ pipeline.spec.inputStreams) {stream : ImageStream}
    (hplaces : EnvironmentLabel.Places stage pipeline inputName s stream) :
    stage.Reaches confining s stream.key := by
  obtain ⟨input, key, hinput, hsource, hstream⟩ := hplaces
  rw [hstreams.keyed hstream]
  refine ⟨inputName, hcovers.1 inputName hname, input, hinput, ?_⟩
  unfold EnvironmentLabel.source? at hsource
  cases hfirst : stage.isFirst with
  | true =>
    rw [hfirst, Bool.true_or, if_pos rfl, Option.some.injEq] at hsource
    exact .inl ⟨.inl rfl, hsource.symm⟩
  | false =>
    simp only [hfirst, Bool.false_or] at hsource
    split at hsource
    · next hunpromoted =>
      refine .inl ⟨.inr ?_, (Option.some.inj hsource).symm⟩
      rw [Bool.not_eq_true'] at hunpromoted
      refine Bool.eq_false_iff.mpr fun hpromotes ↦ ?_
      exact nomatch hunpromoted.symm.trans (hcovers.2 hfirst _ hpromotes)
    · obtain ⟨previous, hprevious, hkey⟩ := Option.map_eq_some_iff.mp hsource
      exact .inr ⟨rfl, previous, hprevious, hkey.symm⟩

end Stage

namespace Store

/-- Streams that carry the label of the stage are reached through the pipeline. -/
def Confines (s : Store) (stage : Stage) (pipeline : Pipeline) : Prop :=
  ∀ ⦃key : Key⦄ ⦃stream : ImageStream⦄, s.find? .imageStream key = some stream →
    stream.hasLabel stage.label = true → stage.Reaches pipeline s key

theorem Confines.becomes (hbecomes : stage.Becomes after) (hconfines : s.Confines stage pipeline) :
    s.Confines after pipeline := by
  intro key stream hfound hlabel
  rw [hbecomes.label] at hlabel
  exact (hconfines hfound hlabel).becomes hbecomes

/-- A label stays confined where the streams stay, and those that carry it did before or are
reached. -/
theorem Confines.last (hstreams : s.SoundAt .imageStream) (hlast : s.StreamsLast t)
    (hconfines : s.Confines stage pipeline)
    (hlabels : ∀ key, ∀ stream' : ImageStream, t.find? .imageStream key = some stream' →
      stream'.hasLabel stage.label = true → stage.Reaches pipeline s key ∨
        ∃ stream : ImageStream, s.find? .imageStream key = some stream ∧
          stream.hasLabel stage.label = true) : t.Confines stage pipeline := by
  intro key stream' hfound' hlabel'
  rcases hlabels key stream' hfound' hlabel' with hreaches | ⟨stream, hfound, hlabel⟩
  · exact hreaches.last hstreams hlast
  · exact (hconfines hfound hlabel).last hstreams hlast

/-- Where the label of the stage can be while it is reconciled, under the pipelines of a store. -/
structure ConfinesFrom (S : Store) (stage : Stage) (pipeline : Pipeline) (t : Store) : Prop where
  streams : t.SoundAt .imageStream
  pipelines : S.SamePipelines t
  confines : t.Confines stage pipeline

theorem dependsOn_confinesFrom (S : Store) (stage : Stage) (pipeline : Pipeline) :
    DependsOn (fun k ↦ k = .imageStream ∨ k = .pipeline) (S.ConfinesFrom stage pipeline) := by
  intro t u htables h
  have hlast := t.dependsOn_streams t u (fun k hk ↦ htables k (.inl hk)) ⟨h.streams, .refl t⟩
  refine ⟨hlast.1, S.dependsOn_pipelines t u (fun k hk ↦ htables k (.inr hk)) h.pipelines,
    h.confines.last h.streams hlast.2 fun key stream hfound hlabel ↦ .inr ⟨stream, ?_, hlabel⟩⟩
  rw [← hfound, find?, find?, htables _ (.inl rfl)]

end Store

/-! ### The handlers -/

/-- A step that keeps streams and pipelines keeps the label confined if it puts it on reached
streams only. -/
theorem Operation.KeepsStreams.keeps_confinesFrom {α : Type} {op : Operation α}
    (hop : op.KeepsStreams) (hpipelines : op.Keeps S.SamePipelines)
    (hlabels : ∀ s, S.ConfinesFrom stage confining s → ∀ key, ∀ stream' : ImageStream,
      (op.on s).2.find? .imageStream key = some stream' → stream'.hasLabel stage.label = true →
        stage.Reaches confining s key ∨ ∃ stream : ImageStream,
          s.find? .imageStream key = some stream ∧ stream.hasLabel stage.label = true) :
    op.Keeps (S.ConfinesFrom stage confining) := by
  intro s h
  obtain ⟨hstreams, hlast⟩ := hop s h.streams
  exact ⟨hstreams, hpipelines s h.pipelines, h.confines.last h.streams hlast (hlabels s h)⟩

namespace VerifiedStreams

/-- The labels that a verified stream is built with. -/
def IsReserved (label : String) : Prop :=
  label = Naming.pipelineLabel ∨ label = Naming.managedByLabel

theorem lacks_build {label : String} (hfree : ¬ IsReserved label) (name codebase image : String) :
    (build stage name codebase image).hasLabel label = false := by
  rw [IsReserved, not_or] at hfree
  show (SortedMap.get? (SortedMap.insert (SortedMap.insert SortedMap.empty Naming.pipelineLabel _)
    Naming.managedByLabel _) label).isSome = false
  rw [SortedMap.get?_insert_of_ne _ hfree.2, SortedMap.get?_insert_of_ne _ hfree.1]
  rfl

theorem keeps_provide_confinesFrom (hfree : ¬ IsReserved stage.label) :
    (provide stage image inputName).Keeps (S.ConfinesFrom stage confining) := by
  refine keepsStreams_provide.keeps_confinesFrom ((asks_provide (fun _ _ ↦ rfl)
    fun _ ↦ nofun).keeps_of_reads S.dependsOn_pipelines) fun s _ key stream hfound hlabel ↦ .inr ?_
  rcases found_or_built_of_on_provide hfound with hthere | ⟨input, -, rfl⟩
  · exact ⟨stream, hthere, hlabel⟩
  · exact nomatch hlabel.symm.trans (lacks_build hfree ..)

end VerifiedStreams

namespace EnvironmentLabel

theorem keeps_placeOn_confinesFrom (hcovers : stage.Covers confining.spec pipeline.spec)
    (hname : inputName ∈ pipeline.spec.inputStreams) :
    (placeOn stage pipeline inputName).Keeps (S.ConfinesFrom stage confining) := by
  refine keepsStreams_placeOn.keeps_confinesFrom ((asks_placeOn (fun _ _ ↦ rfl)
    fun _ ↦ nofun).keeps_of_reads S.dependsOn_pipelines) fun s h key stream' hfound hlabel ↦ ?_
  rcases found_or_labelled_of_on_placeOn h.streams hfound with
    hthere | ⟨stream, hplaces, hstream, -⟩
  · exact .inr ⟨stream', hthere, hlabel⟩
  · have hkey : stream.key = key := h.streams.keyed hstream
    exact .inl (hkey ▸ Stage.reaches_of_places h.streams hcovers hname hplaces)

theorem keeps_cleanFrom_confinesFrom :
    (cleanFrom stage pipeline inputName).Keeps (S.ConfinesFrom stage confining) := by
  refine keepsStreams_cleanFrom.keeps_confinesFrom ((asks_cleanFrom (fun _ _ ↦ rfl)
    fun _ ↦ nofun).keeps_of_reads S.dependsOn_pipelines) fun s h key stream' hfound hlabel ↦ .inr ?_
  by_cases hcleans : ∃ keys, Cleans stage pipeline inputName s keys
  · obtain ⟨keys, hcleans⟩ := hcleans
    rw [on_cleanFrom h.streams hcleans, Store.find?_unlabelAll h.streams] at hfound
    split at hfound
    · obtain ⟨stream, -, rfl⟩ := Option.map_eq_some_iff.mp hfound
      exact nomatch hlabel.symm.trans Object.hasLabel_withoutLabel
    · exact ⟨stream', hfound, hlabel⟩
  · obtain ⟨cause, -, hrests⟩ := rests_cleanFrom_of_not_cleans fun keys h ↦ hcleans ⟨keys, h⟩
    rw [hrests.on] at hfound
    exact ⟨stream', hfound, hlabel⟩

/-- Labelling keeps to what is reached if the pipeline is covered. -/
theorem keeps_serve_confinesFrom
    (hcovers : ∀ pipeline, S.find? .pipeline stage.pipelineKey = some pipeline →
      stage.Covers confining.spec pipeline.spec) :
    (serve stage).Keeps (S.ConfinesFrom stage confining) := by
  refine keeps_require_bind fun s pipeline h hfound ↦ keeps_forM (fun name hname ↦ ?_) s h
  exact keeps_placeOn_confinesFrom (hcovers pipeline (by rw [← h.pipelines, hfound])) hname

theorem keeps_withdraw_confinesFrom :
    (withdraw stage).Keeps (S.ConfinesFrom stage confining) := by
  refine keeps_get_bind fun s h ↦ ?_
  split
  · exact h
  · exact keeps_forM (fun _ _ ↦ keeps_cleanFrom_confinesFrom) s h

end EnvironmentLabel

theorem Chain.keeps_creation_confinesFrom (context : Context)
    (hfree : ¬ VerifiedStreams.IsReserved stage.label)
    (hcovers : stage.spec.trigger = .auto → ∀ pipeline,
      S.find? .pipeline stage.pipelineKey = some pipeline →
        stage.Covers confining.spec pipeline.spec) :
    ((creation context stage.spec.trigger).serve stage).Keeps (S.ConfinesFrom stage confining) := by
  have hI := S.dependsOn_confinesFrom stage confining
  have hkinds (k : Kind) (hk : k = .imageStream ∨ k = .pipeline) : k.IsFollowed :=
    hk.elim .inl fun hk ↦ .inr (.inl hk)
  exact keeps_serve (keeps_creation hI hkinds
    (VerifiedStreams.keeps_serve hI fun _ _ _ _ _ _ _ ↦
      VerifiedStreams.keeps_provide_confinesFrom hfree)
    (Handler.keeps_target hI (by decide) (by decide))
    fun hauto ↦ EnvironmentLabel.keeps_serve_confinesFrom (hcovers hauto))

/-! ### The reconciliation -/

/-- However a stage is reconciled, its label stays confined. -/
theorem confines_reconcileStage (hkeyed : S.KeyedAt .stage) (hstreams : S.SoundAt .imageStream)
    (hconfines : ∀ stage : Stage, S.find? .stage key = some stage → S.Confines stage confining)
    (hfree : ∀ stage : Stage, S.find? .stage key = some stage →
      ¬ VerifiedStreams.IsReserved stage.label)
    (hcovers : ∀ stage : Stage, S.find? .stage key = some stage → stage.isDeleting = false →
      stage.spec.trigger = .auto → ∀ pipeline, S.find? .pipeline stage.pipelineKey = some pipeline →
        stage.Covers confining.spec pipeline.spec) :
    ∀ after : Stage, ((reconcileStage context key).on S).2.find? .stage key = some after →
      ((reconcileStage context key).on S).2.Confines after confining := by
  have hI (stage : Stage) := S.dependsOn_confinesFrom stage confining
  intro after hafter
  rcases on_reconcileStage_cases context key hkeyed with
    ⟨habsent, hon⟩ | ⟨stage, rfl, hfound, ⟨hmarked, hon⟩ | ⟨-, hon⟩⟩
  · rw [hon] at hafter
    exact nomatch habsent.symm.trans hafter
  · rw [hon] at hafter ⊢
    rcases Stage.find?_stage_provision hkeyed hfound hmarked with hsame | ⟨status, hput⟩
    · rw [hsame] at hafter ⊢
      exact hconfines after hafter
    have hkept := Stage.keeps_provision (hI _) (by decide) hfound hmarked
      (fun _ ↦ Chain.keeps_creation_confinesFrom context (hfree stage hfound)
        (hcovers stage hfound hmarked))
      ⟨hstreams, fun _ ↦ rfl,
        (hconfines stage hfound).becomes (Stage.becomes_withWiring S stage)⟩
    rw [hput, Store.find?_put, if_pos (by rfl)] at hafter
    obtain rfl := Option.some.inj hafter
    exact hkept.confines.becomes ⟨rfl, rfl, fun _ h ↦ h, fun h ↦ h⟩
  · have hlast := stagesLast_reconcileStage context stage.key hkeyed
    obtain ⟨before, hbefore', hbecomes⟩ := hlast hafter
    obtain rfl := Option.some.inj (hfound.symm.trans hbefore')
    have hrelease : (Stage.release context stage).Keeps (S.ConfinesFrom stage confining) :=
      Stage.keeps_release (hI stage) (by decide) fun _ ↦
        ⟨EnvironmentLabel.keeps_withdraw_confinesFrom,
          Handler.keeps_removeTarget (hI stage) (by decide) (by decide)⟩
    rw [hon]
    exact (hrelease S ⟨hstreams, fun _ ↦ rfl, hconfines stage hfound⟩).confines.becomes hbecomes

end PipelineOperator
