import PipelineOperator.Proofs.Reconcile.Streams

/-!
Which stages the operator can release. To withdraw its labels a stage after the first needs, for
every input stream that is there, a verified stream of the stage before, whether or not the codebase
is promoted (`Stage.IsReleasable`). With these a release succeeds on every cluster, even where
streams vanish under it because nothing holds them (`Stage.on_release_of_releasable`); without them
it fails and leaves the stage held (`Stage.on_release_of_not_releasable`).
-/

set_option autoImplicit false
set_option relaxedAutoImplicit false

namespace PipelineOperator

open Operation

variable {S s t u : Store} {context : Context} {stage : Stage} {pipeline : Pipeline}
  {inputName : String}

namespace Store

/-- The streams of the second store are streams of the first, and only such as were about to vanish
are missing. -/
structure Thins (s t : Store) : Prop where
  last : s.StreamsLast t
  stems : ∀ ⦃key : Key⦄ ⦃stream' : ImageStream⦄, t.find? .imageStream key = some stream' →
    ∃ stream : ImageStream, s.find? .imageStream key = some stream ∧ stream'.spec = stream.spec

theorem Thins.refl (s : Store) : s.Thins s := ⟨.refl s, fun _ stream hfound ↦ ⟨stream, hfound, rfl⟩⟩

theorem Thins.trans (hfirst : s.Thins t) (hsecond : t.Thins u) : s.Thins u := by
  refine ⟨hfirst.last.trans hsecond.last, fun key stream'' hfound ↦ ?_⟩
  obtain ⟨stream', hfound', hspec⟩ := hsecond.stems hfound
  obtain ⟨stream, hfound'', hspec'⟩ := hfirst.stems hfound'
  exact ⟨stream, hfound'', hspec.trans hspec'⟩

/-- A stream is written with its specification, and is gone if nothing holds it. -/
theorem thins_letGo {o stored : ImageStream} (hfound : s.find? .imageStream o.key = some stored)
    (hspec : o.spec = stored.spec)
    (hreleased : o.metadata.isReleased = stored.metadata.isReleased) : s.Thins (s.letGo o) := by
  unfold letGo
  cases hgone : o.metadata.isReleased with
  | true =>
    refine ⟨fun key stream hstream hheld ↦ ⟨stream, ?_, hheld, rfl⟩, fun key stream' hstream' ↦
      ⟨stream', found_of_find?_remove hstream', rfl⟩⟩
    have hkey : key ≠ o.key := by
      rintro rfl
      obtain rfl := Option.some.inj (hstream.symm.trans hfound)
      exact nomatch hheld.symm.trans (hreleased.symm.trans hgone)
    exact (find?_remove_of_key_ne s .imageStream hkey).trans hstream
  | false =>
    refine ⟨streamsLast_put hfound hgone hspec, fun key stream' hstream' ↦ ?_⟩
    simp only [Bool.false_eq_true, if_false] at hstream'
    rw [find?_put] at hstream'
    split at hstream'
    · next hhere =>
      obtain rfl := Option.some.inj hstream'
      exact ⟨stored, hhere ▸ hfound, hspec⟩
    · exact ⟨stream', hstream', rfl⟩

end Store

namespace Stage

/-- The stage before is recorded and has a verified stream of the codebase, which will stay. -/
def HasVerified (stage : Stage) (codebase : String) (s : Store) : Prop :=
  ∃ previous, stage.previousName? = some previous ∧ ∃ verified : ImageStream,
    s.find? .imageStream ⟨stage.metadata.namespaceOrEmpty,
      Naming.verifiedStream stage.spec.pipeline previous codebase⟩ = some verified ∧
        verified.metadata.isReleased = false

/-- What labels there are on account of an input stream can be withdrawn: it is not there, or the
stage is the first, or the stage before has a verified stream of its codebase. -/
def CanClean (stage : Stage) (inputName : String) (s : Store) : Prop :=
  ∀ input : ImageStream,
    s.find? .imageStream ⟨stage.metadata.namespaceOrEmpty, inputName⟩ = some input →
      stage.isFirst = true ∨ stage.HasVerified input.spec.codebase s

/-- All labels of the stage can be withdrawn, as far as its pipeline is there to tell them. -/
def IsReleasable (stage : Stage) (s : Store) : Prop :=
  ∀ pipeline, s.find? .pipeline stage.pipelineKey = some pipeline →
    ∀ name ∈ pipeline.spec.inputStreams, stage.CanClean name s

theorem CanClean.thins (hthins : s.Thins t) (hcan : stage.CanClean inputName s) :
    stage.CanClean inputName t := by
  intro input' hinput'
  obtain ⟨input, hinput, hspec⟩ := hthins.stems hinput'
  refine (hcan input hinput).imp_right ?_
  rintro ⟨previous, hprevious, verified, hverified, hheld⟩
  obtain ⟨verified', hverified', hheld', -⟩ := hthins.last hverified hheld
  exact ⟨previous, hprevious, verified', hspec ▸ hverified', hheld'⟩

/-- The stage before, once it is provisioned, has the verified streams. -/
theorem canClean_of_hasStreams {maker : Stage} (hstreams : s.SoundAt .imageStream)
    (hns : maker.key.ns = stage.key.ns) (hpipeline : maker.spec.pipeline = stage.spec.pipeline)
    (hprevious : stage.previousName? = some maker.spec.name)
    (hhas : VerifiedStreams.HasStreams maker inputName s) : stage.CanClean inputName s := by
  intro input hinput
  have hns' : maker.metadata.namespaceOrEmpty = stage.metadata.namespaceOrEmpty := hns
  obtain ⟨input', hinput', verified, hverified⟩ := hhas
  rw [hns'] at hinput'
  obtain rfl := Option.some.inj (hinput.symm.trans hinput')
  unfold VerifiedStreams.key at hverified
  rw [hns', hpipeline] at hverified
  exact .inr ⟨_, hprevious, verified, hverified, hstreams.held hverified⟩

/-- A stage that is labelled through a verified stream of the stage before will find it. -/
theorem hasVerified_of_places (hstreams : s.SoundAt .imageStream) (hfirst : stage.isFirst = false)
    {input stream : ImageStream}
    (hinput : s.find? .imageStream ⟨stage.metadata.namespaceOrEmpty, inputName⟩ = some input)
    (hpromoted : pipeline.spec.promotes input.spec.codebase = true)
    (hplaces : EnvironmentLabel.Places stage pipeline inputName s stream) :
    stage.HasVerified input.spec.codebase s := by
  obtain ⟨input', key, hinput', hsource, hstream⟩ := hplaces
  obtain rfl := Option.some.inj (hinput.symm.trans hinput')
  unfold EnvironmentLabel.source? at hsource
  simp only [hpromoted, hfirst, Bool.not_true, Bool.or_self, Bool.false_eq_true, if_false]
    at hsource
  obtain ⟨previous, hprevious, rfl⟩ := Option.map_eq_some_iff.mp hsource
  exact ⟨previous, hprevious, stream, hstream, hstreams.held hstream⟩

/-- What a stage has of verified streams it has whatever becomes of it. -/
theorem HasVerified.becomes {after : Stage} {codebase : String} (hbecomes : stage.Becomes after)
    (hhas : stage.HasVerified codebase s) : after.HasVerified codebase s := by
  obtain ⟨previous, hprevious, verified, hverified, hheld⟩ := hhas
  refine ⟨previous, hbecomes.previous previous hprevious, verified, ?_, hheld⟩
  rw [hbecomes.namespaceOrEmpty, hbecomes.spec]
  exact hverified

end Stage

namespace EnvironmentLabel

/-- Erasing a label from a copy of a stream succeeds, whatever becomes of the stream. -/
theorem exists_on_remove (label : String) {stream stored : ImageStream}
    (hfound : s.find? .imageStream stream.key = some stored)
    (hcopy : stored = stream ∨ stored = stream.withoutLabel label) :
    ∃ t, (remove label stream).on s = (.ok (), t) ∧ s.Thins t := by
  have hsame : stream.spec = stored.spec ∧
      stream.metadata.isReleased = stored.metadata.isReleased := by
    rcases hcopy with rfl | rfl
    · exact ⟨rfl, rfl⟩
    · exact ⟨Object.spec_withoutLabel.symm, Object.isReleased_withoutLabel.symm⟩
  unfold remove
  split
  · have hreplaced : (replace { stream with metadata := stream.metadata.eraseLabel label }).on s =
        _ := Store.replace_eq_letGo (o := { stream with
          metadata := stream.metadata.eraseLabel label }) hfound
    exact ⟨_, on_bind_of_ok hreplaced _, Store.thins_letGo hfound hsame.1 hsame.2⟩
  · exact ⟨s, rfl, .refl s⟩

/-- A step that can be done is done. The verified stream is cleaned first and stays, so the input
stream is then found as it was, or without the label if it is the same. -/
theorem exists_on_cleanFrom (pipeline : Pipeline) (hkeyed : s.Keyed)
    (hcan : stage.CanClean inputName s) :
    ∃ t, (cleanFrom stage pipeline inputName).on s = (.ok (), t) ∧ s.Thins t := by
  unfold cleanFrom
  rw [on_bind_of_ok (on_get ..)]
  cases hinput : s.find? .imageStream ⟨stage.metadata.namespaceOrEmpty, inputName⟩ with
  | none => exact ⟨s, rfl, .refl s⟩
  | some input =>
    have hkey : input.key = ⟨stage.metadata.namespaceOrEmpty, inputName⟩ := hkeyed _ hinput
    have hstored : s.find? .imageStream input.key = some input := by rw [hkey, hinput]
    show ∃ t, (clean stage pipeline input).on s = (.ok (), t) ∧ s.Thins t
    unfold clean
    cases hfirst : stage.isFirst with
    | true => exact exists_on_remove stage.label hstored (.inl rfl)
    | false =>
      obtain hcontra | ⟨previous, hprevious, verified, hverified, hheld⟩ := hcan input hinput
      · exact nomatch hfirst.symm.trans hcontra
      have hkey' : verified.key = _ := hkeyed _ hverified
      have hverified' : s.find? .imageStream verified.key = some verified := hkey' ▸ hverified
      have hfirstDone : (remove stage.label verified).on s =
          (.ok (), Store.unlabel stage.label s verified.key) :=
        on_remove_of_held hverified' hheld (.inl rfl)
      obtain ⟨t, hfirstDone', hthins⟩ := exists_on_remove stage.label hverified' (.inl rfl)
      obtain rfl := congrArg Prod.snd (hfirstDone.symm.trans hfirstDone')
      unfold previousStream Stage.previousName
      simp only [hprevious, pure_bind, on_require_bind, hverified, Bool.false_eq_true, if_false]
      rw [on_bind_of_ok hfirstDone]
      split
      · exact ⟨_, rfl, hthins⟩
      · have hcopy : ∃ stored,
            (Store.unlabel stage.label s verified.key).find? .imageStream input.key = some stored ∧
              (stored = input ∨ stored = input.withoutLabel stage.label) := by
          rw [Store.unlabel_of_found hverified', Store.find?_put, Object.key_withoutLabel]
          split
          · next hhere =>
            obtain rfl := Option.some.inj (hstored.symm.trans (hhere ▸ hverified'))
            exact ⟨_, rfl, .inr rfl⟩
          · exact ⟨input, hstored, .inl rfl⟩
        obtain ⟨stored, hfound, hcopy⟩ := hcopy
        obtain ⟨t, hdone, hthins'⟩ := exists_on_remove stage.label hfound hcopy
        exact ⟨t, hdone, hthins.trans hthins'⟩

theorem exists_on_forM_cleanFrom (hkeyed : s.Keyed) {names : List String}
    (hcan : ∀ name ∈ names, stage.CanClean name s) :
    ∃ t, (names.forM (cleanFrom stage pipeline)).on s = (.ok (), t) := by
  induction names generalizing s with
  | nil => exact ⟨s, rfl⟩
  | cons name names ih =>
    obtain ⟨t, hfirst, hthins⟩ := exists_on_cleanFrom pipeline hkeyed
      (hcan name (List.mem_cons_self ..))
    have hkeyed' := keeps_keyed (cleanFrom stage pipeline name) s hkeyed
    rw [hfirst] at hkeyed'
    obtain ⟨u, hrest⟩ := ih hkeyed' fun next hnext ↦
      (hcan next (List.mem_cons_of_mem _ hnext)).thins hthins
    exact ⟨u, (on_bind_of_ok hfirst _).trans hrest⟩

theorem exists_on_withdraw (hkeyed : s.Keyed) (hreleasable : stage.IsReleasable s) :
    ∃ t, (withdraw stage).on s = (.ok (), t) := by
  cases hpipeline : s.find? .pipeline stage.pipelineKey with
  | none => exact ⟨s, Stage.on_withdraw_of_absent hpipeline⟩
  | some pipeline =>
    rw [Stage.on_withdraw_of_found hpipeline]
    exact exists_on_forM_cleanFrom hkeyed (hreleasable pipeline hpipeline)

end EnvironmentLabel

namespace Stage

theorem find?_stage_withdraw (stage : Stage) (s : Store) (key : Key) :
    ((EnvironmentLabel.withdraw stage).on s).2.find? .stage key = s.find? .stage key :=
  (EnvironmentLabel.asks_withdraw (fun _ ↦ nofun) (fun _ ↦ nofun) fun _ ↦ nofun).spares.find? s key

/-- A stage that can be released is: it is gone, or no longer held by the operator. -/
theorem on_release_of_releasable (context : Context) (hkeyed : S.Keyed)
    (hfound : S.find? .stage stage.key = some stage)
    (hheld : stage.metadata.hasFinalizer Naming.labelCleanup = true)
    (hreleasable : stage.IsReleasable S) :
    ∃ T, (release context stage).on S = (.ok .awaitChange, T) ∧ ∀ after : Stage,
      T.find? .stage stage.key = some after →
        after.metadata.hasFinalizer Naming.labelCleanup = false := by
  obtain ⟨t, hwithdrawn⟩ := EnvironmentLabel.exists_on_withdraw hkeyed hreleasable
  have hdown := on_teardown_of_ok context hwithdrawn
  have hstored : (t.remove context.targetKind ⟨"", stage.target⟩).find? .stage stage.key =
      some stage := by
    have hspared := find?_stage_withdraw stage S stage.key
    rw [hwithdrawn] at hspared
    rw [Store.find?_remove_of_kind_ne _ (context.targetKind_ne (by decide) (by decide)), hspared,
      hfound]
  refine ⟨_, on_release_of_ok hheld hstored hdown, fun after hafter ↦ ?_⟩
  have hkey : stage.released.key = stage.key := Object.key_removeFinalizer
  rw [← hkey] at hafter
  rcases Store.find?_letGo (t.remove context.targetKind ⟨"", stage.target⟩) stage.released with
    hgone | hreleased
  · exact nomatch hafter.symm.trans hgone
  · obtain rfl := Option.some.inj (hafter.symm.trans hreleased)
    exact stage.released_free

/-- Where it is known which streams carry the label, they can be cleaned. -/
theorem canClean_of_cleans (hstreams : S.SoundAt .imageStream) {keys : List Key}
    (hcleans : EnvironmentLabel.Cleans stage pipeline inputName S keys) :
    stage.CanClean inputName S := by
  intro input hinput
  unfold EnvironmentLabel.Cleans at hcleans
  rw [hinput] at hcleans
  obtain ⟨hkeys, hpresent⟩ := hcleans
  cases hfirst : stage.isFirst with
  | true => exact .inl rfl
  | false =>
    unfold EnvironmentLabel.cleaned? at hkeys
    simp only [hfirst, Bool.false_eq_true, if_false] at hkeys
    obtain ⟨previous, hprevious, rfl⟩ := Option.map_eq_some_iff.mp hkeys
    obtain ⟨verified, hverified⟩ := hpresent _ (List.mem_cons_self ..)
    exact .inr ⟨previous, hprevious, verified, hverified, hstreams.held hverified⟩

/-- A stage that cannot be released stays as it is. -/
theorem on_release_of_not_releasable (context : Context) (hstreams : S.SoundAt .imageStream)
    (hfound : S.find? .stage stage.key = some stage)
    (hheld : stage.metadata.hasFinalizer Naming.labelCleanup = true)
    (hstuck : ¬ stage.IsReleasable S) :
    ∃ cause T, EnvironmentLabel.IsUnknown stage cause ∧
      (release context stage).on S = (.error (.ofCause cause), T) ∧
        T.find? .stage stage.key = some stage := by
  unfold IsReleasable at hstuck
  simp only [Classical.not_forall] at hstuck
  obtain ⟨pipeline, hpipeline, name, hname, hcannot⟩ := hstuck
  have hnone (keys : List Key) : ¬ EnvironmentLabel.Cleans stage pipeline name S keys :=
    fun hcleans ↦ hcannot (canClean_of_cleans hstreams hcleans)
  obtain ⟨cause, T, hunknown, hforM⟩ :=
    EnvironmentLabel.on_forM_cleanFrom_of_not_cleans hstreams hname hnone
  have hwithdrawn : (EnvironmentLabel.withdraw stage).on S = (.error (.ofCause cause), T) :=
    (on_withdraw_of_found hpipeline).trans hforM
  have hspared := find?_stage_withdraw stage S stage.key
  rw [hwithdrawn, hfound] at hspared
  exact ⟨cause, T, hunknown, on_release_of_error hheld (on_teardown_of_error context hwithdrawn),
    hspared⟩

end Stage

end PipelineOperator
