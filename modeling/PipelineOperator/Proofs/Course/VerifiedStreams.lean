import Mathlib.Data.List.Induction
import PipelineOperator.Proofs.Course.Labels
import PipelineOperator.Proofs.Course.Releasing
import PipelineOperator.Proofs.Course.Targets
import PipelineOperator.Proofs.Reconcile.Supply

/-!
Whose a verified stream is. Its name joins a pipeline, a stage and a codebase with dashes that each
of them may hold, and a stream of the name that is there is taken as it is. So where the cluster had
no such streams at the start, a verified stream is that of a live stage that was reconciled in the
course and of a codebase which that was fed with (`Bench.built_after`). After a reconciliation that
succeeds there is one for every input stream; it is of the codebase, and labelled with the pipeline,
unless another stage and codebase have the same name for theirs, or the label was withdrawn
(`verified_in_course`). All three exceptions happen (`verified_in_course_of_joined`).
-/

set_option autoImplicit false
set_option relaxedAutoImplicit false

namespace PipelineOperator

open Operation

namespace VerifiedStreams

/-- The name under the key is like that of a verified stream. -/
def IsVerified (key : Key) : Prop := "-verified".toList <:+ key.name.toList

theorem isVerified_key (stage : Stage) (codebase : String) : IsVerified (key stage codebase) := by
  show "-verified".toList <:+ (Naming.verifiedStream ..).toList
  unfold Naming.verifiedStream
  rw [String.toList_append]
  exact List.suffix_append _ _

end VerifiedStreams

open VerifiedStreams (IsVerified)

/-- No image stream has a name like that of a verified stream. -/
def Store.IsUnverified (s : Store) : Prop :=
  ∀ key stream, s.find? .imageStream key = some stream → ¬ IsVerified key

/-- In the course the stage was reconciled while live and fed with the codebase. -/
def Bench.Verifies (b : Bench) (course : List Happening) (stage : Stage) (codebase : String) :
    Prop :=
  b.Reconciles course stage.key fun _ now ↦
    now.store.find? .stage stage.key = some stage ∧ stage.isDeleting = false ∧
      now.store.Feeds stage codebase

/-- In the course a deleting stage was reconciled of which this is the label. -/
def Bench.Withdraws (b : Bench) (course : List Happening) (label : String) : Prop :=
  ∃ key, b.Reconciles course key fun _ now ↦ now.store.Frees key label

/-- The stream is the one that was built in the course for the stage and the codebase. It is held
and has the label of its pipeline, unless such a label was withdrawn. -/
structure Bench.Built (b : Bench) (course : List Happening) (stage : Stage) (codebase : String)
    (stream : ImageStream) : Prop where
  verifies : b.Verifies course stage codebase
  key : stream.key = VerifiedStreams.key stage codebase
  codebase : stream.spec.codebase = codebase
  held : stream.metadata.isReleased = false
  label : ¬ b.Withdraws course Naming.pipelineLabel →
    stream.metadata.label? Naming.pipelineLabel = some stage.spec.pipeline

/-- No other pipeline, and no other codebase, has the name of this verified stream in the course. -/
def Bench.IsUnshared (b : Bench) (course : List Happening) (stage : Stage) (codebase : String) :
    Prop :=
  ∀ other codebase', b.Verifies course other codebase' →
    VerifiedStreams.key other codebase' = VerifiedStreams.key stage codebase →
      other.spec.pipeline = stage.spec.pipeline ∧ codebase' = codebase

section Course

variable {b last : Bench} {course : List Happening} {context : Context} {key : Key}
  {stage : Stage} {codebase : String} {stream : ImageStream} {outcome : Outcome}

theorem Bench.Reconciles.append {P : Context → Bench → Prop}
    (hreconciles : b.Reconciles course key P) (more : List Happening) :
    b.Reconciles (course ++ more) key P := by
  obtain ⟨before, context, rest, rfl, hthen⟩ := hreconciles
  exact ⟨before, context, rest ++ more, List.append_assoc .., hthen⟩

theorem Bench.reconciles_last {P : Context → Bench → Prop} (hthen : P context (b.after course)) :
    b.Reconciles (course ++ [.reconciled context key]) key P :=
  ⟨course, context, [], rfl, hthen⟩

/-- What was built stays so, as long as only labels change on it. -/
theorem Bench.Built.retained {stream' : ImageStream} {free : String → Prop}
    (hbuilt : b.Built course stage codebase stream) (hretains : stream.Retains free stream')
    (more : List Happening)
    (hfree : free Naming.pipelineLabel → b.Withdraws (course ++ more) Naming.pipelineLabel) :
    b.Built (course ++ more) stage codebase stream' where
  verifies := hbuilt.verifies.append more
  key := hretains.key.trans hbuilt.key
  codebase := by rw [hretains.spec, hbuilt.codebase]
  held := hretains.isReleased.trans hbuilt.held
  label hnever := by
    refine hretains.labels _ (fun h ↦ hnever (hfree h)) _ (hbuilt.label ?_)
    rintro ⟨key, hwithdraws⟩
    exact hnever ⟨key, hwithdraws.append more⟩

/-- Where there was no verified stream at the start, each was built in the course. -/
theorem Bench.built_after (hserving : b.IsServing) (hkeyed : b.store.Keyed)
    (hnone : b.store.IsUnverified)
    (hfound : (b.after course).store.find? .imageStream key = some stream)
    (hverified : IsVerified key) : ∃ stage codebase, b.Built course stage codebase stream := by
  induction course using List.reverseRecOn generalizing key stream with
  | nil => exact absurd hverified (hnone key stream hfound)
  | append_singleton course happening ih =>
    obtain ⟨hstore, hserving'⟩ := b.after_store hserving course
    have hkeyed' : (b.after course).store.Keyed := hstore ▸ hkeyed.after course
    have hlast : (b.after (course ++ [happening])).store = happening.on (b.after course).store := by
      rw [Bench.after_append]
      exact (happening.onBench_store hserving').1
    rw [hlast] at hfound
    have hsame (h : (happening.on (b.after course).store).find? .imageStream key =
        (b.after course).store.find? .imageStream key) :
        ∃ stage codebase, b.Built (course ++ [happening]) stage codebase stream := by
      obtain ⟨stage, codebase, hbuilt⟩ := ih (h ▸ hfound) hverified
      have hretains : stream.Retains (fun _ ↦ False) stream := .refl stream
      exact ⟨stage, codebase, hbuilt.retained hretains _ False.elim⟩
    cases happening with
    | marked key' => exact hsame (Store.find?_markDeleted_of_ne (by decide) ..)
    | respecified key' spec => exact hsame (Store.find?_respecify_of_ne (by decide) ..)
    | reconciled context key' =>
      obtain ⟨rfl, ⟨before, hbefore, hretains⟩ |
          ⟨stage, codebase, image, hstage, hlive, hfeeds, hretains⟩⟩ :=
        supplied_by_reconcileStage context (hkeyed' _) (hkeyed' _) hfound
      · obtain ⟨stage, codebase, hbuilt⟩ := ih hbefore hverified
        exact ⟨stage, codebase, hbuilt.retained hretains _ fun hfrees ↦
          ⟨key', Bench.reconciles_last hfrees⟩⟩
      · obtain rfl : stage.key = key' := hkeyed' _ hstage
        refine ⟨stage, codebase, Bench.reconciles_last ⟨hstage, hlive, hfeeds⟩, hretains.key, ?_,
          hretains.isReleased, fun hnever ↦ ?_⟩
        · rw [hretains.spec]
          rfl
        · exact hretains.labels _ (fun hfrees ↦ hnever ⟨stage.key, Bench.reconciles_last hfrees⟩) _
            (VerifiedStreams.label?_build ..)

/-- A live stage that is reconciled with success at the end of the course gets its verified streams,
as there are none that are about to vanish. -/
theorem Bench.supplied_after (hserving : b.IsServing) (hkeyed : b.store.Keyed)
    (hnone : b.store.IsUnverified)
    (hstage : (b.after course).store.find? .stage stage.key = some stage)
    (hlive : stage.isDeleting = false)
    (hok : (reconcileStage context stage.key).onBench (b.after course) = (.ok outcome, last)) :
    VerifiedStreams.IsSupplied stage (b.after course).store last.store := by
  obtain ⟨hstore, hserving'⟩ := b.after_store hserving course
  have hkeyed' : (b.after course).store.Keyed := hstore ▸ hkeyed.after course
  obtain ⟨hresult, hlast, -⟩ := onBench_eq (reconcileStage context stage.key) hserving'
  rw [hok, on_reconcileStage_of_live context hstage hlive] at hresult hlast
  have hprovision : (Stage.provision context stage).on (b.after course).store =
      (.ok outcome, last.store) := Prod.ext hresult.symm hlast.symm
  refine Stage.supplied_of_on_provision (hkeyed' _) (hkeyed' _) (fun codebase stream hfound ↦ ?_)
    hstage hlive hprovision
  obtain ⟨_, _, hbuilt⟩ := Bench.built_after hserving hkeyed hnone hfound
    (VerifiedStreams.isVerified_key stage codebase)
  exact hbuilt.held

end Course

/-! ### Names without dashes -/

theorem Naming.eq_of_joined_eq {before before' after after' : List Char} (hbefore : '-' ∉ before)
    (hbefore' : '-' ∉ before') (hsame : before ++ '-' :: after = before' ++ '-' :: after') :
    before = before' ∧ after = after' := by
  rcases List.append_eq_append_iff.mp hsame with ⟨more, rfl, hrest⟩ | ⟨more, rfl, hrest⟩
  · cases more with
    | nil => exact ⟨(List.append_nil _).symm, (List.cons.inj hrest).2⟩
    | cons c more =>
      obtain ⟨rfl, -⟩ := List.cons.inj hrest
      exact absurd (List.mem_append_right _ (List.mem_cons_self ..)) hbefore'
  · cases more with
    | nil => exact ⟨List.append_nil _, (List.cons.inj hrest).2.symm⟩
    | cons c more =>
      obtain ⟨rfl, -⟩ := List.cons.inj hrest
      exact absurd (List.mem_append_right _ (List.mem_cons_self ..)) hbefore

theorem Naming.toList_verifiedStream (pipeline stage codebase : String) :
    (verifiedStream pipeline stage codebase).toList = pipeline.toList ++ '-' ::
      (stage.toList ++ '-' :: (codebase.toList ++ "-verified".toList)) := by
  simp [verifiedStream]

/-- Pipelines and stages without dashes in their names share no verified streams. -/
theorem Bench.isUnshared_of_dashless {b : Bench} {course : List Happening} {stage : Stage}
    (hdashless : ∀ other codebase, b.Verifies course other codebase →
      '-' ∉ other.spec.pipeline.toList ∧ '-' ∉ other.spec.name.toList)
    (hpipeline : '-' ∉ stage.spec.pipeline.toList) (hname : '-' ∉ stage.spec.name.toList)
    (codebase : String) : b.IsUnshared course stage codebase := by
  intro other codebase' hverifies hsame
  obtain ⟨hpipeline', hname'⟩ := hdashless other codebase' hverifies
  have hjoined : (VerifiedStreams.name other codebase').toList =
      (VerifiedStreams.name stage codebase).toList := congrArg (fun key ↦ key.name.toList) hsame
  simp only [VerifiedStreams.name, Naming.toList_verifiedStream] at hjoined
  obtain ⟨hsame, hrest⟩ := Naming.eq_of_joined_eq hpipeline' hpipeline hjoined
  obtain ⟨-, hrest⟩ := Naming.eq_of_joined_eq hname' hname hrest
  exact ⟨String.toList_inj.mp hsame, String.toList_inj.mp (List.append_cancel_right hrest)⟩

/-! ### What reconciling leaves -/

/-- What there is of verified streams after a reconciliation of a live stage that succeeds, at the
end of a course over a cluster that had none. For every input stream of the pipeline there is one;
it was built in the course, for a stage and a codebase that give it its name. If these are no others
it is of the codebase of the input stream, and is labelled with the pipeline, unless a deleting
stage withdrew that label. -/
theorem verified_in_course {b last : Bench} {course : List Happening} {context : Context}
    {stage : Stage} {outcome : Outcome} (hserving : b.IsServing) (hkeyed : b.store.Keyed)
    (hnone : b.store.IsUnverified)
    (hstage : (b.after course).store.find? .stage stage.key = some stage)
    (hlive : stage.isDeleting = false)
    (hok : (reconcileStage context stage.key).onBench (b.after course) = (.ok outcome, last)) :
    let whole := course ++ [.reconciled context stage.key]
    ∃ pipeline, (b.after course).store.find? .pipeline stage.pipelineKey = some pipeline ∧
      ∀ inputName ∈ pipeline.spec.inputStreams, ∀ input : ImageStream,
        ((b.after course).store.find? .imageStream
            ⟨stage.metadata.namespaceOrEmpty, inputName⟩ = some input ∨
          last.store.find? .imageStream
            ⟨stage.metadata.namespaceOrEmpty, inputName⟩ = some input) →
        ∃ maker codebase stream,
          last.store.find? .imageStream (VerifiedStreams.key stage input.spec.codebase) =
            some stream ∧
          b.Built whole maker codebase stream ∧
          (b.IsUnshared whole stage input.spec.codebase →
            stream.spec.codebase = input.spec.codebase ∧
            (¬ b.Withdraws whole Naming.pipelineLabel →
              stream.metadata.label? Naming.pipelineLabel = some stage.spec.pipeline)) := by
  intro whole
  obtain ⟨pipeline, hpipeline, hsupplied⟩ :=
    Bench.supplied_after hserving hkeyed hnone hstage hlive hok
  refine ⟨pipeline, hpipeline, fun inputName hname input hinput ↦ ?_⟩
  obtain ⟨codebase, ⟨stream, hstream⟩, hinputs⟩ := hsupplied inputName hname
  obtain rfl := hinputs input hinput
  have hafter : (b.after whole).store = last.store := by
    rw [Bench.after_append]
    exact congrArg (fun r ↦ r.2.store) hok
  rw [← hafter] at hstream
  obtain ⟨maker, codebase, hbuilt⟩ := Bench.built_after hserving hkeyed hnone hstream
    (VerifiedStreams.isVerified_key stage input.spec.codebase)
  refine ⟨maker, codebase, stream, hafter ▸ hstream, hbuilt, fun hunshared ↦ ?_⟩
  have hkey : stream.key = VerifiedStreams.key stage input.spec.codebase := by
    rw [(b.after_store hserving whole).1] at hstream
    exact hkeyed.after whole _ hstream
  obtain ⟨hpipeline', rfl⟩ := hunshared maker codebase hbuilt.verifies (hbuilt.key.symm.trans hkey)
  exact ⟨hbuilt.codebase, fun hnever ↦ hpipeline' ▸ hbuilt.label hnever⟩

/-- The stages stay the two that they are. -/
theorem Bench.names_withTwoStages (course : List Happening) {key : Key} {stage : Stage}
    (hfound : (Bench.withTwoStages.after course).store.find? .stage key = some stage) :
    stage.spec.pipeline = "p" ∧ (stage.spec.name = "dev" ∨ stage.spec.name = "qa") := by
  have hsound : Bench.withTwoStages.store.Sound := Bench.sound_put Bench.sound_withStage rfl
  rw [(Bench.after_store ⟨rfl, rfl, rfl⟩ course).1] at hfound
  obtain ⟨before, hbefore, hbecomes⟩ := hsound.toKeyed.stagesLast_after course hfound
  rw [hbecomes.spec]
  unfold withTwoStages put at hbefore
  rw [Store.find?_put] at hbefore
  split at hbefore
  · obtain rfl := Option.some.inj hbefore
    exact ⟨rfl, .inr rfl⟩
  · rw [Bench.find?_withStage hbefore]
    exact ⟨rfl, .inl rfl⟩

/-- The second stage of a pipeline gets a verified stream of its codebase after the first one. -/
theorem verified_in_course_withTwoStages : ∃ (last : Bench) (stream : ImageStream),
    (reconcileStage { now := ⟨1, 0⟩ } ⟨"ci", "qa"⟩).onBench
      (Bench.withTwoStages.after [.reconciled { now := ⟨0, 0⟩ } ⟨"ci", "dev"⟩]) =
        (.ok .awaitChange, last) ∧
    last.store.find? .imageStream ⟨"ci", "p-qa-cb-a-verified"⟩ = some stream ∧
    stream.spec.codebase = "cb-a" ∧
    stream.metadata.label? Naming.pipelineLabel = some "p" := by
  have hsound : Bench.withTwoStages.store.Sound := Bench.sound_put Bench.sound_withStage rfl
  have hnone : Bench.withTwoStages.store.IsUnverified := fun key stream hfound ↦ by
    obtain rfl : stream.key = key := hsound.toKeyed _ hfound
    unfold Bench.withTwoStages Bench.put at hfound
    rw [Store.find?_put_of_kind_ne _ _ (by decide)] at hfound
    rw [Bench.find?_stream_seeded hfound, IsVerified]
    decide
  have hok : (reconcileStage { now := ⟨1, 0⟩ }
      (Fixture.promotionStage "qa" "ci" "p" 1 "dev").key).onBench
        (Bench.withTwoStages.after [.reconciled { now := ⟨0, 0⟩ } ⟨"ci", "dev"⟩]) =
      (.ok .awaitChange, _) := Prod.ext rfl rfl
  obtain ⟨pipeline, hpipeline, hverified⟩ :=
    verified_in_course ⟨rfl, rfl, rfl⟩ hsound.toKeyed hnone rfl rfl hok
  obtain rfl : Fixture.pipeline "p" "ci" ["img-a"] ["cb-a"] ["cb-a"] = pipeline :=
    Option.some.inj hpipeline
  obtain ⟨-, -, stream, hstream, -, hunshared⟩ := hverified "img-a" (List.mem_singleton_self _)
    _ (.inl rfl)
  obtain ⟨hcodebase, hlabel⟩ := hunshared (Bench.isUnshared_of_dashless (fun other _ hverifies ↦ by
    obtain ⟨before, -, -, -, hother, -⟩ := hverifies
    obtain ⟨hpipeline, hname⟩ := Bench.names_withTwoStages before hother
    rw [hpipeline]
    refine ⟨by decide, ?_⟩
    rcases hname with hname | hname <;> rw [hname] <;> decide) (by decide) (by decide) _)
  refine ⟨_, stream, hok, hstream, hcodebase, hlabel ?_⟩
  rintro ⟨key, before, -, -, -, stage, hstage, -, hlabelled⟩
  obtain ⟨hpipeline, hname⟩ := Bench.names_withTwoStages before hstage
  unfold Stage.label at hlabelled
  rw [hpipeline] at hlabelled
  rcases hname with hname | hname <;> rw [hname] at hlabelled <;> exact absurd hlabelled (by decide)

/-! ### Names that are joined in more than one way -/

/-- Stages are told apart by pipeline and name, and there are no verified streams. -/
structure Bench.StartsUnverified (b : Bench) : Prop where
  serving : b.IsServing
  keyed : b.store.Keyed
  tells : ∀ key key' stage stage', b.store.find? .stage key = some stage →
    b.store.find? .stage key' = some stage' → stage.spec.pipeline = stage'.spec.pipeline →
      stage.spec.name = stage'.spec.name → key = key'
  unverified : b.store.IsUnverified

/-- After the course a reconciliation of the live stage succeeds, and the stream is then the
verified one of an input stream of its pipeline. -/
def Bench.EndsWith (b : Bench) (course : List Happening) (key : Key) (stage : Stage)
    (input stream : ImageStream) : Prop :=
  (b.after course).store.find? .stage key = some stage ∧ stage.isDeleting = false ∧
    ∃ pipeline inputName last,
      (b.after course).store.find? .pipeline stage.pipelineKey = some pipeline ∧
      inputName ∈ pipeline.spec.inputStreams ∧
      (b.after course).store.find? .imageStream ⟨stage.metadata.namespaceOrEmpty, inputName⟩ =
        some input ∧
      (reconcileStage { now := ⟨0, 0⟩ } key).onBench (b.after course) =
        (.ok .awaitChange, last) ∧
      last.store.find? .imageStream (VerifiedStreams.key stage input.spec.codebase) = some stream

/-- Two pipelines, with a stage and a codebase each. -/
def Bench.withJoinedNames : Bench :=
  ((((({} : Bench).put (Fixture.pipeline "a" "ci" ["img-1"] ["c-d"] [])).put
    (Fixture.pipeline "a-b" "ci" ["img-2"] ["d"] [])).put
      (Fixture.imageStream "img-1" "ci" "c-d")).put (Fixture.imageStream "img-2" "ci" "d")).put
        (Fixture.registry "ci" "reg/ns") |>.put (Fixture.stage "b" "ci" "a" 0) |>.put
          (Fixture.stage "c" "ci" "a-b" 0)

/-- A pipeline with a deleting stage whose label is that of all verified streams. -/
def Bench.withReservedLabel : Bench :=
  let plain := Fixture.promotionStage "pipeline-name" "ci" "app.edp.epam.com" 1 "dev"
  (((({} : Bench).put (Fixture.pipeline "app.edp.epam.com" "ci" ["img"] ["d"] ["d"])).put
    (Fixture.imageStream "img" "ci" "d")).put (Fixture.registry "ci" "reg/ns")).put
      (Fixture.stage "dev" "ci" "app.edp.epam.com" 0) |>.put
        { plain with metadata := { plain.metadata with
            finalizers := some Stage.finalizers
            deletedAt := some Store.deletionTime } }

theorem Bench.startsUnverified_of_tables {b : Bench} (hserving : b.IsServing)
    (hkeyed : b.store.Keyed)
    (htells : ∀ e ∈ (b.store.table .stage).entries, ∀ e' ∈ (b.store.table .stage).entries,
      e.2.spec.pipeline = e'.2.spec.pipeline → e.2.spec.name = e'.2.spec.name → e.1 = e'.1)
    (hunverified : ∀ e ∈ (b.store.table .imageStream).entries,
      ¬ "-verified".toList <:+ e.1.name.toList) : b.StartsUnverified where
  serving := hserving
  keyed := hkeyed
  tells _ _ _ _ hstage hstage' := htells _ ((SortedMap.get?_eq_some_iff _).mp hstage) _
    ((SortedMap.get?_eq_some_iff _).mp hstage')
  unverified _ _ hfound := hunverified _ ((SortedMap.get?_eq_some_iff _).mp hfound)

theorem Bench.startsUnverified_withJoinedNames : Bench.withJoinedNames.StartsUnverified := by
  refine startsUnverified_of_tables ⟨rfl, rfl, rfl⟩ ?_ (by decide) (by decide)
  unfold withJoinedNames
  iterate 7 refine keyed_put ?_
  exact Store.sound_empty.toKeyed

theorem Bench.startsUnverified_withReservedLabel : Bench.withReservedLabel.StartsUnverified := by
  refine startsUnverified_of_tables ⟨rfl, rfl, rfl⟩ ?_ (by decide) (by decide)
  unfold withReservedLabel
  iterate 5 refine keyed_put ?_
  exact Store.sound_empty.toKeyed

set_option maxRecDepth 4000 in
/-- Two courses after which a verified stream is not that of its stage and codebase. In the first
another stage and codebase have the same name for theirs, and were first; in the second the label of
a deleting stage is the one that names the pipeline. -/
theorem verified_in_course_of_joined :
    (Bench.withJoinedNames.StartsUnverified ∧ ∃ stage input stream,
      Bench.withJoinedNames.EndsWith [.reconciled { now := ⟨0, 0⟩ } ⟨"ci", "b"⟩] ⟨"ci", "c"⟩
        stage input stream ∧ stream.spec.codebase ≠ input.spec.codebase ∧
        stream.metadata.label? Naming.pipelineLabel ≠ some stage.spec.pipeline) ∧
    (Bench.withReservedLabel.StartsUnverified ∧ ∃ stage input stream,
      Bench.withReservedLabel.EndsWith [.reconciled { now := ⟨0, 0⟩ } ⟨"ci", "dev"⟩,
        .reconciled { now := ⟨0, 0⟩ } ⟨"ci", "pipeline-name"⟩] ⟨"ci", "dev"⟩ stage input stream ∧
      stream.metadata.label? Naming.pipelineLabel ≠ some stage.spec.pipeline) := by
  refine ⟨⟨Bench.startsUnverified_withJoinedNames, Fixture.stage "c" "ci" "a-b" 0,
      Fixture.imageStream "img-2" "ci" "d",
      VerifiedStreams.build (Fixture.stage "b" "ci" "a" 0) "a-b-c-d-verified" "c-d" "reg/ns/ci",
      ?_, by decide, by decide⟩,
    ⟨Bench.startsUnverified_withReservedLabel, ?_⟩⟩
  · exact ⟨rfl, rfl, _, "img-2", _, rfl, by decide, rfl, Prod.ext rfl rfl, rfl⟩
  · refine ⟨_, _, _, ⟨rfl, rfl, _, "img", _, rfl, .head _, rfl, Prod.ext rfl rfl, rfl⟩, ?_⟩
    decide

end PipelineOperator
