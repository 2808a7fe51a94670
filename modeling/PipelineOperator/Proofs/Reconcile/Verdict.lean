import PipelineOperator.Proofs.Operation.OnBench
import PipelineOperator.Proofs.Provision.Requirements
import PipelineOperator.Proofs.Reconcile.Footprint

/-!
What comes of the reconciliation of a live stage as long as no call fails. `Stage.requirements` is
what it needs, read off the store before anything is done: the pipeline, the stage before, and what
the chain needs. The reconciliation fails with the first of these that is missing, and succeeds if
none is (`reconcileStage_verdict`). Streams that are let go of when they are labelled, because they
are being deleted and nothing holds them, are the one thing that the requirements do not account
for (`reconcileStage_verdict_of_released`).
-/

set_option autoImplicit false
set_option relaxedAutoImplicit false

namespace PipelineOperator

open Operation

variable {context : Context} {stage : Stage} {S T : Store}

namespace Stage

/-- The name of the stage before: the one on record, or else that of the first stage that is found
to come before. An empty name is none. -/
def previousIn (S : Store) (stage : Stage) : Option String :=
  stage.previousName? <|> ((stage.predecessor? S).map fun previous ↦ previous.spec.name).filter
    (· ≠ "")

/-- A pipeline owns the stage, or the one that should is there. -/
def parentRequirement (S : Store) (stage : Stage) : Requirement where
  isMet := stage.hasPipelineOwner || (S.find? .pipeline stage.pipelineKey).isSome
  cause := .pipelineNotFound stage.metadata.namespaceOrEmpty stage.spec.pipeline

/-- The stage is the first, or the one before it is known. -/
def previousRequirement (previous? : Option String) (stage : Stage) : Requirement where
  isMet := stage.isFirst || previous?.isSome
  cause := .previousStageNotFound stage.spec.name stage.spec.pipeline stage.spec.order

/-- What the provisioning of the stage needs, in the order in which it comes upon it. -/
def requirements (S : Store) (stage : Stage) : List Requirement :=
  [stage.parentRequirement S, stage.previousRequirement (stage.previousIn S)] ++
    Chain.requirements stage ((stage.previousIn S).getD "") S

/-- No stage comes before the first. -/
theorem predecessor?_of_isFirst (hfirst : stage.isFirst = true) : stage.predecessor? S = none := by
  have horder : (stage.spec.order != 0) = false := by simpa [isFirst] using hfirst
  refine List.find?_eq_none.mpr fun previous _ ↦ ?_
  simp [follows, horder]

/-- Adoption records the stage before. -/
theorem previousName?_withWiring (S : Store) (stage : Stage) :
    (stage.withWiring (stage.wiringIn S)).previousName? = stage.previousIn S := by
  show ((Metadata.annotationMap { stage.metadata with
    annotations := stage.annotationsIn S }).get? Naming.previousStageAnnotation).filter _ = _
  unfold annotationsIn previousIn
  cases hname : stage.previousName? with
  | some name =>
    rw [Option.isSome_some, Bool.or_true]
    exact hname
  | none =>
    cases hfirst : stage.isFirst with
    | true =>
      rw [predecessor?_of_isFirst hfirst]
      exact hname
    | false =>
      cases stage.predecessor? S with
      | none => exact hname
      | some previous =>
        exact congrArg (Option.filter _) (SortedMap.get?_insert_self stage.metadata.annotationMap
          Naming.previousStageAnnotation previous.spec.name)

/-! ### What the steps need -/

theorem needs_adopt (hfound : S.find? .stage stage.key = some stage)
    (hlive : stage.isDeleting = false) :
    (adopt stage).Needs S [stage.parentRequirement S] (fun adopted T ↦
      adopted = stage.withWiring (stage.wiringIn S) ∧ T = S.put adopted) := by
  refine .of_met (fun hmet ↦ ?_) fun hunmet ↦ ?_
  · have hparent : ¬ stage.IsOrphan S := by
      rintro ⟨howner, habsent⟩
      simp [parentRequirement, howner, habsent] at hmet
    exact needs_of_on (on_adopt_of_not_orphan hfound hlive hparent).1 ⟨rfl, rfl⟩
  · have horphan : stage.IsOrphan S := by simpa [IsOrphan, parentRequirement] using hunmet
    exact ⟨S, (rests_adopt_of_orphan horphan).on⟩

theorem needs_requirePrevious (stage : Stage) (S : Store) :
    stage.requirePrevious.Needs S [stage.previousRequirement stage.previousName?]
      (fun _ T ↦ T = S ∧ stage.IsReady) := by
  refine .of_met (fun hmet ↦ ?_) fun hunmet ↦ ?_
  · have hready : stage.IsReady := by simpa [IsReady, previousRequirement] using hmet
    rw [requirePrevious_of_isReady hready]
    exact needs_of_on rfl ⟨rfl, hready⟩
  · have hunready : ¬ stage.IsReady := by simpa [IsReady, previousRequirement] using hunmet
    rw [requirePrevious_of_not_isReady hunready]
    exact ⟨S, rfl⟩

/-- An adopted stage stays stored as it is when it is furnished. -/
theorem needs_furnish (context : Context) (hkeyed : S.Keyed)
    (hstored : S.find? .stage stage.key = some stage)
    (hstreams : stage.spec.trigger = .auto → S.SoundAt .imageStream) :
    (furnish context stage).Needs S
      ([stage.previousRequirement stage.previousName?] ++
        Chain.requirements stage (stage.previousName?.getD "") S)
      (fun _ T ↦ T.KeyedAt .stage ∧ T.find? .stage stage.key = some stage) := by
  have hkept : (furnish context stage).Keeps fun T ↦ T.Keyed ∧
      T.find? .stage stage.key = some stage :=
    fun T hT ↦ ⟨keeps_keyed _ T hT.1, ((spares_furnish context stage).find? T _).trans hT.2⟩
  refine (Needs.keeps (Q := fun _ _ ↦ True) ?_ hkept ⟨hkeyed, hstored⟩).mono
    fun _ T hT ↦ ⟨hT.2.1 .stage, hT.2.2⟩
  refine (needs_requirePrevious stage S).bind fun _ T hT ↦ ?_
  obtain ⟨rfl, hready⟩ := hT
  refine Chain.needs_creation context hkeyed (fun hlater ↦ ?_) hstreams
  obtain ⟨previous, hprevious⟩ := Option.isSome_iff_exists.mp
    (hready.resolve_left (by simp [hlater]))
  rw [hprevious, Option.getD_some]

theorem inputRequirements_withWiring (stage : Stage) (w : Wiring) (image : String)
    (names : List String) (S : Store) :
    VerifiedStreams.inputRequirements (stage.withWiring w) image S names =
      VerifiedStreams.inputRequirements stage image S names := by
  induction names generalizing S with
  | nil => rfl
  | cons inputName rest ih =>
    rw [VerifiedStreams.inputRequirements, VerifiedStreams.inputRequirements, ih]
    rfl

/-- Adoption does not change what the chain needs. -/
theorem requirements_withWiring (S : Store) (stage : Stage) (w : Wiring) (previous : String) :
    Chain.requirements (stage.withWiring w) previous (S.put (stage.withWiring w)) =
      Chain.requirements stage previous S := by
  have hsources : S.SameSources (S.put (stage.withWiring w)) := ⟨rfl, rfl⟩
  obtain ⟨hverified, hsupplied⟩ :=
    VerifiedStreams.requirements_congr (stage.withWiring w) hsources fun _ ↦ rfl
  have hsame : VerifiedStreams.requirements (stage.withWiring w) S =
      VerifiedStreams.requirements stage S := by
    unfold VerifiedStreams.requirements
    rw [inputRequirements_withWiring]
    rfl
  unfold Chain.requirements
  rw [hverified, hsame, EnvironmentLabel.requirements_congr hsupplied]
  rfl

theorem needs_provision (context : Context) (hkeyed : S.Keyed)
    (hfound : S.find? .stage stage.key = some stage) (hlive : stage.isDeleting = false)
    (hstreams : stage.spec.trigger = .auto → S.SoundAt .imageStream) :
    (provision context stage).Needs S (stage.requirements S)
      (fun outcome _ ↦ outcome = .awaitChange) := by
  rw [provision_eq]
  refine (needs_adopt hfound hlive).bind fun adopted T hT ↦ ?_
  obtain ⟨rfl, rfl⟩ := hT
  have hstored := Store.find?_put_self S (stage.withWiring (stage.wiringIn S))
  have hfurnished := needs_furnish context (fun k ↦ (hkeyed k).put _) hstored
    fun hauto ↦ (hstreams hauto).put_of_ne (by decide) _
  rw [previousName?_withWiring, requirements_withWiring] at hfurnished
  exact hfurnished.bind_needless fun _ U hU ↦ needs_of_on (on_confirm context hU.1 hU.2) rfl

end Stage

/-- A new stage of a pipeline whose registry and input stream are missing. -/
def Bench.withoutRegistry : Bench :=
  (({} : Bench).put (Fixture.pipeline "p" "ci" ["img-a"] ["cb-a"] ["cb-a"])).put
    (Fixture.stage "dev" "ci" "p" 0)

theorem Bench.sound_withoutRegistry : Bench.withoutRegistry.store.Sound :=
  sound_put (sound_put Store.sound_empty rfl) rfl

/-- As long as no call fails, the reconciliation of a live stage fails with the first of its
requirements that is not met, and succeeds if all are. Nothing is written if the first is not met:
that no pipeline owns the stage, and its pipeline does not exist. -/
theorem reconcileStage_verdict (context : Context) {b : Bench} (hserving : b.IsServing)
    (hkeyed : b.store.Keyed) {key : Key} {stage : Stage}
    (hfound : b.store.find? .stage key = some stage) (hlive : stage.isDeleting = false)
    (hstreams : stage.spec.trigger = .auto → b.store.SoundAt .imageStream) :
    (((reconcileStage context key).onBench b).1 = .ok .awaitChange ↔
      ∀ requirement ∈ stage.requirements b.store, requirement.isMet = true) ∧
    (∀ fault, ((reconcileStage context key).onBench b).1 = .error fault ↔
      Requirement.FailWith (stage.requirements b.store) fault) ∧
    (stage.IsOrphan b.store → ((reconcileStage context key).onBench b).2.store = b.store ∧
      ((reconcileStage context key).onBench b).2.journal = b.journal) := by
  obtain rfl : stage.key = key := hkeyed .stage hfound
  have hneeds := Stage.needs_provision context hkeyed hfound hlive hstreams
  have hresult : ((reconcileStage context stage.key).onBench b).1 =
      ((Stage.provision context stage).on b.store).1 := by
    rw [(onBench_eq _ hserving).1, on_reconcileStage_of_live context hfound hlive]
  rw [hresult]
  refine ⟨hneeds.ok_iff, fun fault ↦ hneeds.error_iff, fun horphan ↦ ?_⟩
  have hrests := (rests_reconcileStage_of_live context hfound hlive).mpr
    (Stage.rests_provision_of_error (Stage.rests_adopt_of_orphan horphan))
  exact (hrests.onBench hserving).2

/-- The stage of a seeded pipeline has all it needs; the stage of a pipeline that has no registry
fails for want of that, though its input stream is missing as well. -/
theorem reconcileStage_verdict_withStage :
    ((reconcileStage { now := ⟨0, 0⟩ } ⟨"ci", "dev"⟩).onBench Bench.withStage).1 =
      .ok .awaitChange ∧
    ((reconcileStage { now := ⟨0, 0⟩ } ⟨"ci", "dev"⟩).onBench Bench.withoutRegistry).1 =
      .error (.ofCause (.registryNotFound "ci" "docker-registry")) := by
  have hstored {b : Bench} : (b.put (Fixture.stage "dev" "ci" "p" 0)).store.find? .stage
      ⟨"ci", "dev"⟩ = some (Fixture.stage "dev" "ci" "p" 0) :=
    Store.find?_put_self b.store (Fixture.stage "dev" "ci" "p" 0)
  constructor
  · exact (reconcileStage_verdict _ Bench.isServing_withStage Bench.sound_withStage.toKeyed hstored
      rfl fun _ ↦ Bench.sound_withStage.soundAt _).1.mpr (by decide)
  · refine ((reconcileStage_verdict _ ⟨rfl, rfl, rfl⟩ Bench.sound_withoutRegistry.toKeyed hstored
      rfl fun _ ↦ Bench.sound_withoutRegistry.soundAt _).2.1 _).mpr
      (Requirement.verdict_eq_error.mp rfl)

/-- A pipeline that names its input stream twice, where that stream is being deleted and nothing
holds it, and a new stage. -/
def Bench.withVanishingStream : Bench :=
  let stream := Fixture.imageStream "img-a" "ci" "cb-a"
  let vanishing : ImageStream :=
    { stream with metadata := { stream.metadata with deletedAt := some Store.deletionTime } }
  ((((({} : Bench).put
    (Fixture.pipeline "p" "ci" ["img-a", "img-a"] ["cb-a"] ["cb-a"])).put vanishing).put
      (Fixture.registry "ci" "reg/ns")).put (Fixture.stage "dev" "ci" "p" 0))

theorem Bench.keyed_withVanishingStream : Bench.withVanishingStream.store.Keyed :=
  keyed_put (keyed_put (keyed_put (keyed_put Store.sound_empty.toKeyed)))

/-- The stream is gone once it is labelled, so that it is missing when its name comes again. -/
theorem reconcileStage_verdict_of_released :
    Bench.withVanishingStream.IsServing ∧ Bench.withVanishingStream.store.Keyed ∧
    (Fixture.stage "dev" "ci" "p" 0).isDeleting = false ∧
    Bench.withVanishingStream.store.find? .stage ⟨"ci", "dev"⟩ =
      some (Fixture.stage "dev" "ci" "p" 0) ∧
    (∀ requirement ∈ (Fixture.stage "dev" "ci" "p" 0).requirements Bench.withVanishingStream.store,
      requirement.isMet = true) ∧
    ((reconcileStage { now := ⟨0, 0⟩ } ⟨"ci", "dev"⟩).onBench Bench.withVanishingStream).1 =
      .error (.ofCause (.inputStreamNotFound "ci" "img-a")) :=
  ⟨⟨rfl, rfl, rfl⟩, Bench.keyed_withVanishingStream, rfl, rfl, by decide, rfl⟩

end PipelineOperator
