import PipelineOperator.Proofs.Course.Basic
import PipelineOperator.Proofs.Reconcile.Labels

/-!
What becomes of the label of a stage in a course in which its pipeline is given new specifications.
Which streams are cleaned is told by the pipeline as it is when the stage is released. So no stream
carries the label afterwards if that pipeline covers every specification under which the stage was
labelled (`withdrawn_in_course`); where an input stream was taken off the pipeline, or a codebase is
promoted that was not, the label outlives its stage (`withdrawn_in_course_of_edited`).
-/

set_option autoImplicit false
set_option relaxedAutoImplicit false

namespace PipelineOperator

open Operation

/-- No image stream carries the label. -/
def Store.IsUnlabelled (s : Store) (label : String) : Prop :=
  ∀ key, ∀ stream : ImageStream, s.find? .imageStream key = some stream →
    stream.hasLabel label = false

/-- The label of a stage is confined by the pipeline, whatever has become of the stage. -/
structure Store.ConfinesAt (s : Store) (stage : Stage) (pipeline : Pipeline) : Prop where
  keyed : s.Keyed
  streams : s.SoundAt .imageStream
  confines : ∀ stored : Stage, s.find? .stage stage.key = some stored →
    stored.spec = stage.spec ∧ s.Confines stored pipeline

/-- In the course a live stage was reconciled that is provisioned automatically, while its pipeline
had the specification. -/
def Bench.LabelsUnder (b : Bench) (course : List Happening) (key : Key) (spec : PipelineSpec) :
    Prop :=
  b.Reconciles course key fun _ now ↦ ∃ stage : Stage, now.store.find? .stage key = some stage ∧
    stage.isDeleting = false ∧ stage.spec.trigger = .auto ∧
    ∃ pipeline, now.store.find? .pipeline stage.pipelineKey = some pipeline ∧ pipeline.spec = spec

section Course

variable {b last : Bench} {s : Store} {course : List Happening} {context : Context} {key : Key}
  {stage : Stage} {pipeline : Pipeline} {outcome : Outcome}

/-- Whatever happens, a confined label stays so, if only its own stage is reconciled, and that under
specifications that the pipeline covers. -/
theorem Store.ConfinesAt.on (hconfines : s.ConfinesAt stage pipeline) {happening : Happening}
    (hfree : ¬ VerifiedStreams.IsReserved stage.label)
    (hown : ∀ context key, happening = .reconciled context key → key = stage.key)
    (hcovers : ∀ context, happening = .reconciled context stage.key → ∀ stored : Stage,
      s.find? .stage stage.key = some stored → stored.isDeleting = false →
        stored.spec.trigger = .auto → ∀ earlier,
          s.find? .pipeline stored.pipelineKey = some earlier →
            stage.Covers pipeline.spec earlier.spec) :
    (happening.on s).ConfinesAt stage pipeline := by
  obtain ⟨hstreams, hlast⟩ := streamsLast_on happening hconfines.keyed hconfines.streams
  refine ⟨keyed_on happening hconfines.keyed, hstreams, fun after hafter ↦ ?_⟩
  obtain ⟨before, hbefore, hbecomes⟩ := stagesLast_on happening hconfines.keyed hafter
  obtain ⟨hspec, hwithin⟩ := hconfines.confines before hbefore
  refine ⟨hbecomes.spec.trans hspec, ?_⟩
  have hothers (hsame : ∀ key, (happening.on s).find? .imageStream key =
      s.find? .imageStream key) : (happening.on s).Confines after pipeline :=
    (hwithin.last hconfines.streams hlast fun key stream hfound hcarries ↦
      .inr ⟨stream, (hsame key).symm.trans hfound, hcarries⟩).becomes hbecomes
  cases happening with
  | reconciled context key =>
    obtain rfl := hown context key rfl
    refine confines_reconcileStage (hconfines.keyed _) hconfines.streams
      (fun stored hstored ↦ (hconfines.confines stored hstored).2) (fun stored hstored ↦ ?_)
      (fun stored hstored hlive hauto earlier hearlier ↦ ?_) after hafter
    · unfold Stage.label
      rw [(hconfines.confines stored hstored).1]
      exact hfree
    · have hcovered := hcovers context rfl stored hstored hlive hauto earlier hearlier
      unfold Stage.Covers Stage.isFirst
      rw [(hconfines.confines stored hstored).1]
      exact hcovered
  | marked key => exact hothers (find?_markDeleted_of_ne (by decide) key)
  | respecified key spec =>
    exact hothers fun key' ↦ find?_respecify_of_ne (by decide) key key' spec

theorem Bench.confinesAt_after (hserving : b.IsServing)
    (hconfines : b.store.ConfinesAt stage pipeline)
    (hfree : ¬ VerifiedStreams.IsReserved stage.label)
    (hown : ∀ context key, .reconciled context key ∈ course → key = stage.key)
    (hcovers : ∀ spec, b.LabelsUnder course stage.key spec → stage.Covers pipeline.spec spec) :
    (b.after course).store.ConfinesAt stage pipeline := by
  induction course generalizing b with
  | nil => exact hconfines
  | cons happening course ih =>
    obtain ⟨hstore, hserving'⟩ := happening.onBench_store hserving
    refine ih hserving' ?_ (fun context key hin ↦ hown context key (List.mem_cons_of_mem _ hin))
      fun spec hlabels ↦ hcovers spec (Bench.reconciles_cons.mpr (.inr hlabels))
    rw [hstore]
    refine hconfines.on hfree
      (fun context key hsame ↦ hown context key (hsame ▸ List.mem_cons_self ..)) ?_
    rintro context rfl stored hstored hlive hauto earlier hearlier
    exact hcovers _ (Bench.reconciles_cons.mpr
      (.inl ⟨context, rfl, stored, hstored, hlive, hauto, earlier, hearlier, rfl⟩))

/-- What is left of the label of a stage when it is released, after a course in which it was
reconciled while its pipeline was given new specifications: nothing, if the specification at the end
covers those under which the stage was labelled. -/
theorem withdrawn_in_course (hserving : b.IsServing) (hkeyed : b.store.Keyed)
    (hstreams : b.store.SoundAt .imageStream)
    (hunlabelled : b.store.IsUnlabelled stage.label)
    (hfree : ¬ VerifiedStreams.IsReserved stage.label)
    (hown : ∀ context key, .reconciled context key ∈ course → key = stage.key)
    (hfound : (b.after course).store.find? .stage stage.key = some stage)
    (hdeleting : stage.isDeleting = true)
    (hheld : stage.metadata.hasFinalizer Naming.labelCleanup = true)
    (hpipeline : (b.after course).store.find? .pipeline stage.pipelineKey = some pipeline)
    (hcovers : ∀ spec, b.LabelsUnder course stage.key spec → stage.Covers pipeline.spec spec)
    (hok : (reconcileStage context stage.key).onBench (b.after course) = (.ok outcome, last)) :
    last.store.IsUnlabelled stage.label := by
  obtain ⟨hstore, hserving'⟩ := b.after_store hserving course
  have hbefore : b.store.ConfinesAt stage pipeline := by
    refine ⟨hkeyed, hstreams, fun stored hstored ↦ ?_⟩
    rw [hstore] at hfound
    obtain ⟨origin, horigin, hbecomes⟩ := hkeyed.stagesLast_after course hfound
    obtain rfl := Option.some.inj (hstored.symm.trans horigin)
    refine ⟨hbecomes.spec.symm, fun key stream hstream hlabel ↦ ?_⟩
    rw [← hbecomes.label] at hlabel
    exact nomatch hlabel.symm.trans (hunlabelled key stream hstream)
  have hafter := b.confinesAt_after hserving hbefore hfree hown hcovers
  have hconfines := (hafter.confines stage hfound).2
  obtain ⟨hresult, hlast, -⟩ := onBench_eq (reconcileStage context stage.key) hserving'
  rw [hok, on_reconcileStage_of_deleting context hfound hdeleting] at hresult hlast
  have htakesDown := Stage.takesDown_of_on_release hafter.streams hfound hdeleting hheld
    (Prod.ext hresult.symm hlast.symm)
  intro key stream hstream
  by_cases hreaches : stage.Reaches pipeline (b.after course).store key
  · obtain ⟨_, stream', -, hstream', hloses⟩ := htakesDown.cleaned pipeline hpipeline key hreaches
    obtain rfl := Option.some.inj (hstream.symm.trans hstream')
    exact congrArg Option.isSome hloses.lacks
  · have huntouched := htakesDown.untouched key fun pipeline' hpipeline' ↦
      Option.some.inj (hpipeline.symm.trans hpipeline') ▸ hreaches
    cases hlabel : stream.hasLabel stage.label with
    | false => rfl
    | true => exact absurd (hconfines (huntouched ▸ hstream) hlabel) hreaches

end Course

/-! ### Edits -/

/-- The specification of a pipeline of one application, with its input streams. -/
def Fixture.pipelineSpec (streams promoted : List String) : PipelineSpec :=
  (Fixture.pipeline "p" "ci" streams ["cb-a"] promoted).spec

/-- A stage is provisioned, its pipeline edited, and the stage marked for deletion. -/
def Happening.ofEdit (key : Key) (spec : PipelineSpec) : List Happening :=
  [.reconciled { now := ⟨0, 0⟩ } key, .respecified ⟨"ci", "p"⟩ spec, .marked key]

/-- What a course of an edit comes to: the stage and the edited pipeline are there, and reconciling
the stage again releases it. -/
structure Bench.EditEndsIn (b : Bench) (key : Key) (spec : PipelineSpec) (stage : Stage)
    (last : Bench) : Prop where
  found : (b.after (Happening.ofEdit key spec)).store.find? .stage key = some stage
  deleting : stage.isDeleting = true
  held : stage.metadata.hasFinalizer Naming.labelCleanup = true
  pipeline : ∃ pipeline, (b.after (Happening.ofEdit key spec)).store.find? .pipeline
    stage.pipelineKey = some pipeline ∧ pipeline.spec = spec
  ok : (reconcileStage { now := ⟨0, 0⟩ } key).onBench (b.after (Happening.ofEdit key spec)) =
    (.ok .awaitChange, last)
  released : ∀ after : Stage, last.store.find? .stage key = some after →
    after.metadata.hasFinalizer Naming.labelCleanup = false

theorem Bench.find?_stream_seeded {promoted : List String} {stage : Stage} {key : Key}
    {stream : ImageStream}
    (hfound : ((Bench.seedPipeline {} promoted).put stage).store.find? .imageStream key =
      some stream) : stream = Fixture.imageStream "img-a" "ci" "cb-a" := by
  unfold seedPipeline put at hfound
  rw [Store.find?_put_of_kind_ne _ _ (by decide), Store.find?_put_of_kind_ne _ _ (by decide),
    Store.find?_put] at hfound
  split at hfound
  · exact (Option.some.inj hfound).symm
  · exact nomatch hfound

theorem Bench.editEndsIn_withStage : ∃ (stage : Stage) (last : Bench),
    Bench.withStage.EditEndsIn ⟨"ci", "dev"⟩ (Fixture.pipelineSpec ["img-a", "img-b"] ["cb-a"])
      stage last ∧ stage.spec = (Fixture.stage "dev" "ci" "p" 0).spec :=
  ⟨_, _, ⟨rfl, rfl, rfl, ⟨_, rfl, rfl⟩, Prod.ext rfl rfl, fun after hafter ↦ by
    obtain rfl := Option.some.inj hafter
    rfl⟩, rfl⟩

/-- The pipeline of a first stage gets another input stream, and the label is withdrawn. -/
theorem withdrawn_in_course_withStage : ∃ (stage : Stage) (last : Bench),
    Bench.withStage.EditEndsIn stage.key (Fixture.pipelineSpec ["img-a", "img-b"] ["cb-a"])
      stage last ∧ last.store.IsUnlabelled stage.label := by
  obtain ⟨stage, last, hends, hspec⟩ := Bench.editEndsIn_withStage
  have hlabel : stage.label = "p/dev" := by
    unfold Stage.label
    rw [hspec]
    rfl
  have hkey : stage.key = ⟨"ci", "dev"⟩ := by
    have hfound := hends.found
    rw [(Bench.after_store Bench.isServing_withStage _).1] at hfound
    exact Bench.sound_withStage.toKeyed.after _ _ hfound
  rw [← hkey] at hends
  obtain ⟨pipeline, hpipeline, hpipelineSpec⟩ := hends.pipeline
  refine ⟨stage, last, hends, withdrawn_in_course Bench.isServing_withStage
    Bench.sound_withStage.toKeyed (Bench.sound_withStage.soundAt _) (fun key stream hstream ↦ ?_)
    ?_ (fun context key hin ↦ ?_) hends.found hends.deleting hends.held hpipeline
    (fun spec hlabels ↦ ?_) hends.ok⟩
  · rw [Bench.find?_stream_seeded hstream, hlabel]
    rfl
  · rw [hlabel, VerifiedStreams.IsReserved]
    decide
  · simp only [Happening.ofEdit, List.mem_cons, Happening.reconciled.injEq, reduceCtorEq,
      List.not_mem_nil, or_false] at hin
    exact hin.2
  · simp only [Happening.ofEdit, Bench.reconciles_cons, Bench.LabelsUnder, reduceCtorEq, false_and,
      exists_false, Bench.not_reconciles_nil, or_false] at hlabels
    obtain ⟨context, -, stored, hstored, -, -, earlier, hearlier, rfl⟩ := hlabels
    obtain rfl := Bench.find?_withStage hstored
    obtain rfl : _ = earlier := Option.some.inj hearlier
    rw [hpipelineSpec]
    refine ⟨by decide, fun hlater ↦ ?_⟩
    unfold Stage.isFirst at hlater
    rw [hspec] at hlater
    exact absurd hlater (by decide)

/-- A later stage, of a pipeline that promotes nothing, and a verified stream of the stage before.
-/
def Bench.withVerified : Bench :=
  ((Bench.seedPipeline {} []).put (Fixture.promotionStage "qa" "ci" "p" 1 "dev")).put
    (Fixture.imageStream "p-dev-cb-a-verified" "ci" "cb-a")

theorem Bench.sound_withVerified : Bench.withVerified.store.Sound :=
  sound_put (sound_put (sound_seeded _) rfl) rfl

theorem Bench.isUnlabelled_withVerified : Bench.withVerified.store.IsUnlabelled "p/qa" := by
  intro key stream hfound
  unfold withVerified put at hfound
  rw [Store.find?_put] at hfound
  split at hfound
  · rw [← Option.some.inj hfound]
    rfl
  · rw [Bench.find?_stream_seeded hfound]
    rfl

/-- Two edits after which a stage is released and its label stays. In the first the input stream is
taken off the pipeline of a first stage; in the second a codebase is promoted that was not, when the
stage had been labelled on the input stream. -/
theorem withdrawn_in_course_of_edited :
    (Bench.withStage.store.Sound ∧ Bench.withStage.store.IsUnlabelled "p/dev" ∧
      ∃ (stage : Stage) (last : Bench),
        Bench.withStage.EditEndsIn ⟨"ci", "dev"⟩ (Fixture.pipelineSpec [] ["cb-a"]) stage last ∧
        stage.label = "p/dev" ∧ ∃ stream : ImageStream,
          last.store.find? .imageStream ⟨"ci", "img-a"⟩ = some stream ∧
          stream.hasLabel "p/dev" = true) ∧
    (Bench.withVerified.store.Sound ∧ Bench.withVerified.store.IsUnlabelled "p/qa" ∧
      ∃ (stage : Stage) (last : Bench),
        Bench.withVerified.EditEndsIn ⟨"ci", "qa"⟩ (Fixture.pipelineSpec ["img-a"] ["cb-a"]) stage
          last ∧
        stage.label = "p/qa" ∧ ∃ stream : ImageStream,
          last.store.find? .imageStream ⟨"ci", "img-a"⟩ = some stream ∧
          stream.hasLabel "p/qa" = true) := by
  refine ⟨⟨Bench.sound_withStage, fun key stream hfound ↦ ?_, _, _,
      ⟨rfl, rfl, rfl, ⟨_, rfl, rfl⟩, Prod.ext rfl rfl, fun after hafter ↦ ?_⟩, rfl, _, rfl, rfl⟩,
    Bench.sound_withVerified, Bench.isUnlabelled_withVerified, _, _,
      ⟨rfl, rfl, rfl, ⟨_, rfl, rfl⟩, Prod.ext rfl rfl, fun after hafter ↦ ?_⟩, rfl, _, rfl, rfl⟩
  · rw [Bench.find?_stream_seeded hfound]
    rfl
  · obtain rfl := Option.some.inj hafter
    rfl
  · obtain rfl := Option.some.inj hafter
    rfl

end PipelineOperator
