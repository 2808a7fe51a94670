import PipelineOperator.Proofs.Course.Basic
import PipelineOperator.Proofs.Reconcile.Releasable

/-!
What the operator holds after a course, and whether it can release it. A stage that was marked for
deletion is released by its next reconciliation if its labels can be withdrawn, and otherwise stays
held (`release_in_course`). They can be withdrawn wherever the verified streams of the stage before
were provided in the course, or the stage itself was labelled through them. What its own
provisioning needed is not enough: it needs no verified stream for a codebase that is not promoted,
and none if it fails before the chain (`release_in_course_of_unprovided`).
-/

set_option autoImplicit false
set_option relaxedAutoImplicit false

namespace PipelineOperator

open Operation

/-- In the course the stage, live at that time, was reconciled with success. -/
def Bench.Provisions (b : Bench) (course : List Happening) (stage : Stage) : Prop :=
  b.Reconciles course stage.key fun context now ↦
    now.store.find? .stage stage.key = some stage ∧ stage.isDeleting = false ∧
    ∃ outcome, ((reconcileStage context stage.key).onBench now).1 = .ok outcome

/-- The course saw to the verified stream of the codebase at the stage before, if it is needed: the
stage is the first, or the stage before was provisioned, or the stage itself was, automatically and
with that codebase promoted. -/
def Bench.Secures (b : Bench) (course : List Happening) (stage : Stage) (pipeline : Pipeline)
    (codebase : String) : Prop :=
  stage.isFirst = true ∨
  (∃ maker, b.Provisions course maker ∧ maker.key.ns = stage.key.ns ∧
    maker.spec.pipeline = stage.spec.pipeline ∧ stage.previousName? = some maker.spec.name) ∨
  ∃ maker, b.Provisions course maker ∧ maker.key = stage.key ∧ stage.spec.trigger = .auto ∧
    pipeline.spec.promotes codebase = true

section Course

variable {b : Bench} {course : List Happening} {context : Context} {stage maker : Stage}
  {pipeline : Pipeline}

/-- The success on the store at that time, and the rest of the course on what it left. -/
theorem Bench.Provisions.exists_on_provision (hserving : b.IsServing)
    (hprovisions : b.Provisions course maker) : ∃ before rest context outcome T,
      course = before ++ .reconciled context maker.key :: rest ∧
      (b.store.after before).find? .stage maker.key = some maker ∧ maker.isDeleting = false ∧
      (Stage.provision context maker).on (b.store.after before) = (.ok outcome, T) ∧
      ((reconcileStage context maker.key).on (b.store.after before)).2 = T ∧
      (b.after course).store = T.after rest := by
  obtain ⟨before, context, rest, rfl, hfound, hlive, outcome, hok⟩ := hprovisions
  obtain ⟨hbefore, hserving'⟩ := b.after_store hserving before
  obtain ⟨hresult, -, -⟩ := onBench_eq (reconcileStage context maker.key) hserving'
  rw [hbefore] at hfound hresult
  have hon := on_reconcileStage_of_live context hfound hlive
  refine ⟨before, rest, context, outcome, _, rfl, hfound, hlive, ?_, rfl, ?_⟩
  · rw [← hon]
    exact Prod.ext (hresult.symm.trans hok) rfl
  · rw [(b.after_store hserving _).1, Store.after_append]
    rfl

/-- After a success in the course there are the streams that it left, and the stage as it was
adopted became what is there of it. -/
theorem Bench.Provisions.streams (hserving : b.IsServing) (hkeyed : b.store.Keyed)
    (hstreams : b.store.SoundAt .imageStream) (hprovisions : b.Provisions course maker)
    (hnever : ∀ spec, .respecified maker.pipelineKey spec ∉ course)
    (hpipeline : (b.after course).store.find? .pipeline maker.pipelineKey = some pipeline) :
    ∃ adopted : Stage, (∀ stage : Stage,
        (b.after course).store.find? .stage maker.key = some stage → adopted.Becomes stage) ∧
      ∀ name ∈ pipeline.spec.inputStreams,
        VerifiedStreams.HasStreams maker name (b.after course).store ∧
        (maker.spec.trigger = .auto → ∃ stream,
          EnvironmentLabel.Places adopted pipeline name (b.after course).store stream) := by
  obtain ⟨before, rest, context, outcome, T, rfl, hfound, hlive, hok, hleft, hafter⟩ :=
    hprovisions.exists_on_provision hserving
  have hkeyed' := hkeyed.after before
  have hstreams' := (hkeyed.streamsLast_after hstreams before).1
  obtain ⟨-, U, status, -, hT⟩ := Stage.chain_of_on_provision (hkeyed' _) hfound hlive hok
  obtain ⟨pipeline', hpipeline', hnames⟩ :=
    Stage.streams_of_on_provision (hkeyed' _) hstreams' hfound hlive hok
  have hkeyedT : T.Keyed := hleft ▸ keeps_keyed (reconcileStage context maker.key) _ hkeyed'
  have hstreamsT : T.SoundAt .imageStream :=
    hleft ▸ (streamsLast_reconcileStage context maker.key (hkeyed' _) hstreams').1
  have hlast := (hkeyedT.streamsLast_after hstreamsT rest).2
  have hsame : pipeline' = pipeline := by
    rw [hkeyed.find?_pipeline_after fun spec hin ↦
      hnever spec (List.mem_append_left _ hin)] at hpipeline'
    rw [(b.after_store hserving _).1, hkeyed.find?_pipeline_after hnever] at hpipeline
    exact Option.some.inj (hpipeline'.symm.trans hpipeline)
  subst hsame
  rw [hafter]
  refine ⟨maker.withWiring (maker.wiringIn (b.store.after before)), fun stage hstage ↦ ?_,
    fun name hname ↦ ⟨(hnames name hname).1.last hstreamsT hlast, fun hauto ↦
      EnvironmentLabel.Places.last hstreamsT hlast ((hnames name hname).2 hauto)⟩⟩
  obtain ⟨origin, horigin, hbecomes⟩ := hkeyedT.stagesLast_after rest hstage
  rw [hT, Store.find?_put, if_pos (by rfl)] at horigin
  obtain rfl := Option.some.inj horigin
  exact ⟨hbecomes.ns, hbecomes.spec, hbecomes.previous, hbecomes.deleting⟩

/-- A stage that was reconciled became what is there of it. -/
theorem Bench.Provisions.becomes (hserving : b.IsServing) (hkeyed : b.store.Keyed)
    (hprovisions : b.Provisions course maker)
    (hfound : (b.after course).store.find? .stage maker.key = some stage) :
    maker.Becomes stage := by
  obtain ⟨before, rest, context, outcome, T, rfl, hmaker, -, -, -, -⟩ :=
    hprovisions.exists_on_provision hserving
  rw [(b.after_store hserving _).1, Store.after_append] at hfound
  obtain ⟨origin, horigin, hbecomes⟩ := (hkeyed.after before).stagesLast_after _ hfound
  obtain rfl := Option.some.inj (hmaker.symm.trans horigin)
  exact hbecomes

/-- Stages of a namespace that name the same pipeline mean the same one. -/
theorem Stage.pipelineKey_congr (hns : stage.key.ns = maker.key.ns)
    (hpipeline : stage.spec.pipeline = maker.spec.pipeline) :
    stage.pipelineKey = maker.pipelineKey := by
  show Key.mk stage.key.ns _ = Key.mk maker.key.ns _
  rw [hns, hpipeline]

/-- What the course saw to lets the labels of a stage be withdrawn at its end. -/
theorem Bench.isReleasable_of_secures (hserving : b.IsServing) (hkeyed : b.store.Keyed)
    (hstreams : b.store.SoundAt .imageStream)
    (hfound : (b.after course).store.find? .stage stage.key = some stage)
    (hnever : ∀ spec, .respecified stage.pipelineKey spec ∉ course)
    (hsecures : ∀ pipeline, (b.after course).store.find? .pipeline stage.pipelineKey =
      some pipeline → ∀ name ∈ pipeline.spec.inputStreams, ∀ input : ImageStream,
        (b.after course).store.find? .imageStream ⟨stage.metadata.namespaceOrEmpty, name⟩ =
          some input → b.Secures course stage pipeline input.spec.codebase) :
    stage.IsReleasable (b.after course).store := by
  have hstreams' : (b.after course).store.SoundAt .imageStream := by
    rw [(b.after_store hserving course).1]
    exact (hkeyed.streamsLast_after hstreams course).1
  intro pipeline hpipeline name hname input hinput
  rcases hsecures pipeline hpipeline name hname input hinput with
    hfirst | ⟨maker, hprovisions, hns, hsame, hprevious⟩ |
      ⟨maker, hprovisions, hkey, hauto, hpromoted⟩
  · exact .inl hfirst
  · have hpipelineKey := Stage.pipelineKey_congr hns.symm hsame.symm
    obtain ⟨_, -, hnames⟩ := hprovisions.streams hserving hkeyed hstreams
      (hpipelineKey ▸ hnever) (hpipelineKey ▸ hpipeline)
    have hhas := (hnames name hname).1
    exact Stage.canClean_of_hasStreams hstreams' hns hsame hprevious hhas input hinput
  · have hstage : (b.after course).store.find? .stage maker.key = some stage := hkey ▸ hfound
    have hspec := (hprovisions.becomes hserving hkeyed hstage).spec
    have hpipelineKey := Stage.pipelineKey_congr (congrArg Key.ns hkey.symm)
      (congrArg StageSpec.pipeline hspec)
    obtain ⟨adopted, hadopted, hnames⟩ := hprovisions.streams hserving hkeyed hstreams
      (hpipelineKey ▸ hnever) (hpipelineKey ▸ hpipeline)
    obtain ⟨stream, hplaces⟩ := (hnames name hname).2 (hspec ▸ hauto)
    have hbecomes := hadopted stage hstage
    rw [hbecomes.namespaceOrEmpty] at hinput
    rw [hbecomes.isFirst]
    cases hfirst : adopted.isFirst with
    | true => exact .inl rfl
    | false =>
      have hhas := Stage.hasVerified_of_places hstreams' hfirst hinput hpromoted hplaces
      exact .inr (hhas.becomes hbecomes)

/-- What comes of reconciling, after a course in which the stages of the cluster were reconciled,
with whatever results, a stage that is then marked for deletion and held by the operator. If its
labels can be withdrawn the stage is let go. If not, because a verified stream of the stage before
is missing or that stage is not on record, it stays held. And the labels can be withdrawn if the
course saw to the verified streams, and nobody gave the pipeline a new specification. -/
theorem release_in_course (context : Context) (hserving : b.IsServing) (hkeyed : b.store.Keyed)
    (hfound : (b.after course).store.find? .stage stage.key = some stage)
    (hdeleting : stage.isDeleting = true)
    (hheld : stage.metadata.hasFinalizer Naming.labelCleanup = true) :
    (stage.IsReleasable (b.after course).store → ∃ last,
      (reconcileStage context stage.key).onBench (b.after course) = (.ok .awaitChange, last) ∧
      ∀ after : Stage, last.store.find? .stage stage.key = some after →
        after.metadata.hasFinalizer Naming.labelCleanup = false) ∧
    (b.store.SoundAt .imageStream →
      (¬ stage.IsReleasable (b.after course).store → ∃ cause last,
        EnvironmentLabel.IsUnknown stage cause ∧
        (reconcileStage context stage.key).onBench (b.after course) =
          (.error (.ofCause cause), last) ∧
        last.store.find? .stage stage.key = some stage) ∧
      ((∀ spec, .respecified stage.pipelineKey spec ∉ course) →
        (∀ pipeline, (b.after course).store.find? .pipeline stage.pipelineKey = some pipeline →
          ∀ name ∈ pipeline.spec.inputStreams, ∀ input : ImageStream,
            (b.after course).store.find? .imageStream ⟨stage.metadata.namespaceOrEmpty, name⟩ =
              some input → b.Secures course stage pipeline input.spec.codebase) →
        stage.IsReleasable (b.after course).store)) := by
  obtain ⟨hstore, hserving'⟩ := b.after_store hserving course
  obtain ⟨hresult, hlast, -⟩ := onBench_eq (reconcileStage context stage.key) hserving'
  rw [on_reconcileStage_of_deleting context hfound hdeleting] at hresult hlast
  have hkeyed' : (b.after course).store.Keyed := hstore ▸ hkeyed.after course
  refine ⟨fun hreleasable ↦ ?_, fun hstreams ↦ ⟨fun hstuck ↦ ?_, fun hnever hsecures ↦
    b.isReleasable_of_secures hserving hkeyed hstreams hfound hnever hsecures⟩⟩
  · obtain ⟨T, hrelease, hgone⟩ :=
      Stage.on_release_of_releasable context hkeyed' hfound hheld hreleasable
    rw [hrelease] at hresult hlast
    exact ⟨_, Prod.ext hresult rfl, hlast ▸ hgone⟩
  · have hstreams' : (b.after course).store.SoundAt .imageStream :=
      hstore ▸ (hkeyed.streamsLast_after hstreams course).1
    obtain ⟨cause, T, hunknown, hrelease, hkept⟩ :=
      Stage.on_release_of_not_releasable context hstreams' hfound hheld hstuck
    rw [hrelease] at hresult hlast
    exact ⟨cause, _, hunknown, Prod.ext hresult rfl, hlast ▸ hkept⟩

end Course

/-- Two stages, the second after the first. -/
def Bench.withTwoStages : Bench :=
  Bench.withStage.put (Fixture.promotionStage "qa" "ci" "p" 1 "dev")

/-- Both stages are provisioned, and then the second is marked for deletion. -/
def Happening.ofTwoStages : List Happening :=
  [.reconciled { now := ⟨0, 0⟩ } ⟨"ci", "dev"⟩, .reconciled { now := ⟨0, 0⟩ } ⟨"ci", "qa"⟩,
    .marked ⟨"ci", "qa"⟩]

theorem Bench.found_withTwoStages : ∃ stage : Stage,
    (Bench.withTwoStages.after Happening.ofTwoStages).store.find? .stage ⟨"ci", "qa"⟩ =
      some stage ∧ stage.isDeleting = true ∧
      stage.metadata.hasFinalizer Naming.labelCleanup = true ∧ stage.spec.pipeline = "p" ∧
      stage.previousName? = some "dev" := ⟨_, rfl, rfl, rfl, rfl, rfl⟩

/-- Once the first stage is provisioned, the second can be released. -/
theorem release_in_course_withTwoStages : ∃ (stage : Stage) (last : Bench),
    (Bench.withTwoStages.after Happening.ofTwoStages).store.find? .stage stage.key =
      some stage ∧
    stage.IsReleasable (Bench.withTwoStages.after Happening.ofTwoStages).store ∧
    (reconcileStage { now := ⟨0, 0⟩ } stage.key).onBench
      (Bench.withTwoStages.after Happening.ofTwoStages) = (.ok .awaitChange, last) ∧
    ∀ after : Stage, last.store.find? .stage stage.key = some after →
      after.metadata.hasFinalizer Naming.labelCleanup = false := by
  have hsound : Bench.withTwoStages.store.Sound := Bench.sound_put Bench.sound_withStage rfl
  have hserving : Bench.withTwoStages.IsServing := ⟨rfl, rfl, rfl⟩
  have hdev : Bench.withTwoStages.Provisions Happening.ofTwoStages
      (Fixture.stage "dev" "ci" "p" 0) :=
    Bench.reconciles_cons.mpr (.inl ⟨_, rfl, rfl, rfl, _, rfl⟩)
  obtain ⟨stage, hfound, hdeleting, hheld, hpipeline, hprevious⟩ := Bench.found_withTwoStages
  have hkey : stage.key = ⟨"ci", "qa"⟩ := by
    rw [(Bench.after_store hserving _).1] at hfound
    exact hsound.toKeyed.after Happening.ofTwoStages _ hfound
  rw [← hkey] at hfound
  obtain ⟨hrelease, hrest⟩ := release_in_course { now := ⟨0, 0⟩ } hserving
    hsound.toKeyed hfound hdeleting hheld
  have hreleasable := (hrest (hsound.soundAt _)).2
    (fun _ hin ↦ by simp [Happening.ofTwoStages] at hin)
    fun _ _ _ _ _ _ ↦ .inr (.inl ⟨_, hdev, by rw [hkey]; rfl, hpipeline.symm, hprevious⟩)
  obtain ⟨last, hok, hgone⟩ := hrelease hreleasable
  exact ⟨stage, last, hfound, hreleasable, hok, hgone⟩

/-! ### What is not provided -/

/-- A later stage, of a pipeline that promotes nothing. -/
def Bench.withUnpromoted : Bench :=
  (Bench.seedPipeline {} []).put (Fixture.promotionStage "qa" "ci" "p" 1 "dev")

/-- A later stage, with no stage before it. -/
def Bench.withoutPrevious : Bench := (Bench.seedPipeline {} []).put (Fixture.stage "qa" "ci" "p" 1)

/-- Two new stages that are reconciled, marked for deletion, and then cannot be released. The first
was provisioned with success, without the verified stream that it needs now; the second failed for
want of the stage before, but was held by then. -/
theorem release_in_course_of_unprovided :
    let qa : Key := ⟨"ci", "qa"⟩
    let course := [.reconciled { now := ⟨0, 0⟩ } qa, .marked qa]
    (Bench.withUnpromoted.store.Sound ∧ Bench.withUnpromoted.store.IsFresh ∧
      ((reconcileStage { now := ⟨0, 0⟩ } qa).onBench Bench.withUnpromoted).1 = .ok .awaitChange ∧
      ((reconcileStage { now := ⟨0, 0⟩ } qa).onBench (Bench.withUnpromoted.after course)).1 =
        .error (.ofCause (.verifiedStreamNotFound "ci" "p-dev-cb-a-verified")) ∧
      ∃ stage : Stage, (Bench.withUnpromoted.after
          (course ++ [.reconciled { now := ⟨0, 0⟩ } qa])).store.find? .stage qa = some stage ∧
        stage.isDeleting = true ∧ stage.metadata.hasFinalizer Naming.labelCleanup = true) ∧
    (Bench.withoutPrevious.store.Sound ∧ Bench.withoutPrevious.store.IsFresh ∧
      ((reconcileStage { now := ⟨0, 0⟩ } qa).onBench Bench.withoutPrevious).1 =
        .error (.ofCause (.previousStageNotFound "qa" "p" 1)) ∧
      ((reconcileStage { now := ⟨0, 0⟩ } qa).onBench (Bench.withoutPrevious.after course)).1 =
        .error (.ofCause (.previousStageNotFound "qa" "p" 1)) ∧
      ∃ stage : Stage, (Bench.withoutPrevious.after
          (course ++ [.reconciled { now := ⟨0, 0⟩ } qa])).store.find? .stage qa = some stage ∧
        stage.isDeleting = true ∧ stage.metadata.hasFinalizer Naming.labelCleanup = true) := by
  have hsound (stage : Stage) (hheld : stage.metadata.isReleased = false) :
      ((Bench.seedPipeline {} []).put stage).store.Sound :=
    Bench.sound_put (Bench.sound_seeded _) hheld
  refine ⟨⟨hsound _ rfl, fun stage hstage ↦ ?_, rfl, rfl, _, rfl, rfl, rfl⟩,
    hsound _ rfl, fun stage hstage ↦ ?_, rfl, rfl, _, rfl, rfl, rfl⟩
  · obtain rfl := Bench.find?_stage_seeded hstage
    decide
  · obtain rfl := Bench.find?_stage_seeded hstage
    decide

end PipelineOperator
