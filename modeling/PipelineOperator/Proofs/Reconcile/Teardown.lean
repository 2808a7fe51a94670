import PipelineOperator.Proofs.Operation.OnBench
import PipelineOperator.Proofs.Reconcile.Release

/-!
What taking a stage down makes of the cluster. The image streams that can carry the label of the
stage are told by the pipeline as it is then (`Stage.Reaches`); a teardown that succeeds takes the
label, and nothing else, off every one of them, removes the target and lets go of the stage, and all
else is as it was (`reconcileStage_takesDown`). The same stream may be reached in several ways, as
an input stream and as a verified stream: it does not count in which.
-/

set_option autoImplicit false
set_option relaxedAutoImplicit false

namespace PipelineOperator

open Operation

variable {S T : Store} {stage : Stage} {pipeline : Pipeline} {context : Context}

namespace Stage

/-! ### The streams that can carry the label -/

/-- The image stream under the key can carry the label of the stage on account of an existing input
stream of the pipeline: it is that input stream, for a first stage or a codebase that is not
promoted, or for a later stage the verified stream of its codebase at the stage before. -/
def Reaches (stage : Stage) (pipeline : Pipeline) (s : Store) (key : Key) : Prop :=
  ∃ name ∈ pipeline.spec.inputStreams, ∃ input : ImageStream,
    s.find? .imageStream ⟨stage.metadata.namespaceOrEmpty, name⟩ = some input ∧
    ((stage.isFirst = true ∨ pipeline.spec.promotes input.spec.codebase = false) ∧
        key = ⟨stage.metadata.namespaceOrEmpty, name⟩ ∨
      stage.isFirst = false ∧ ∃ previous, stage.previousName? = some previous ∧
        key = ⟨stage.metadata.namespaceOrEmpty,
          Naming.verifiedStream stage.spec.pipeline previous input.spec.codebase⟩)

theorem mem_cleaned? {name codebase : String} {keys : List Key} {key : Key}
    (hkeys : EnvironmentLabel.cleaned? stage pipeline name codebase = some keys) :
    key ∈ keys ↔
      (stage.isFirst = true ∨ pipeline.spec.promotes codebase = false) ∧
          key = ⟨stage.metadata.namespaceOrEmpty, name⟩ ∨
        stage.isFirst = false ∧ ∃ previous, stage.previousName? = some previous ∧
          key = ⟨stage.metadata.namespaceOrEmpty,
            Naming.verifiedStream stage.spec.pipeline previous codebase⟩ := by
  unfold EnvironmentLabel.cleaned? at hkeys
  cases hfirst : stage.isFirst with
  | true =>
    simp only [hfirst, if_true, Option.some.injEq] at hkeys
    subst hkeys
    simp
  | false =>
    simp only [hfirst, Bool.false_eq_true, if_false] at hkeys
    obtain ⟨previous, hprevious, rfl⟩ := Option.map_eq_some_iff.mp hkeys
    simp only [hprevious, Option.some.injEq, exists_eq_left', List.mem_cons]
    cases pipeline.spec.promotes codebase <;> simp [or_comm]

theorem previousName?_of_cleaned? {name codebase : String} {keys : List Key}
    (hkeys : EnvironmentLabel.cleaned? stage pipeline name codebase = some keys) :
    stage.isFirst = true ∨ ∃ previous, stage.previousName? = some previous := by
  unfold EnvironmentLabel.cleaned? at hkeys
  cases hfirst : stage.isFirst with
  | true => exact .inl rfl
  | false =>
    simp only [hfirst, Bool.false_eq_true, if_false] at hkeys
    obtain ⟨previous, hprevious, -⟩ := Option.map_eq_some_iff.mp hkeys
    exact .inr ⟨previous, hprevious⟩

/-- The streams that are cleaned are those that the stage reaches. -/
theorem reaches_iff (hknown : ∀ name ∈ pipeline.spec.inputStreams, ∃ keys,
      EnvironmentLabel.Cleans stage pipeline name S keys) {key : Key} :
    stage.Reaches pipeline S key ↔ ∃ name ∈ pipeline.spec.inputStreams, ∃ keys,
      EnvironmentLabel.Cleans stage pipeline name S keys ∧ key ∈ keys := by
  refine exists_congr fun name ↦ and_congr_right fun hname ↦ ?_
  obtain ⟨keys, hcleans⟩ := hknown name hname
  have hkeys : (∃ keys', EnvironmentLabel.Cleans stage pipeline name S keys' ∧ key ∈ keys') ↔
      key ∈ keys := by
    refine ⟨?_, fun hkey ↦ ⟨keys, hcleans, hkey⟩⟩
    rintro ⟨keys', hcleans', hkey⟩
    exact hcleans'.unique hcleans ▸ hkey
  rw [hkeys]
  unfold EnvironmentLabel.Cleans at hcleans
  cases hinput : S.find? .imageStream ⟨stage.metadata.namespaceOrEmpty, name⟩ with
  | none =>
    rw [hinput] at hcleans
    obtain rfl : keys = [] := hcleans
    simp
  | some input =>
    rw [hinput] at hcleans
    simp only [mem_cleaned? hcleans.1, Option.some.injEq, exists_eq_left']

theorem on_withdraw_of_absent (habsent : S.find? .pipeline stage.pipelineKey = none) :
    (EnvironmentLabel.withdraw stage).on S = (.ok (), S) := by
  unfold EnvironmentLabel.withdraw
  rw [on_bind_of_ok (on_get ..), habsent]
  rfl

theorem on_withdraw_of_found (hfound : S.find? .pipeline stage.pipelineKey = some pipeline) :
    (EnvironmentLabel.withdraw stage).on S =
      (pipeline.spec.inputStreams.forM (EnvironmentLabel.cleanFrom stage pipeline)).on S := by
  unfold EnvironmentLabel.withdraw
  rw [on_bind_of_ok (on_get ..), hfound]

/-- Where the labels were withdrawn, exactly the streams that the stage reaches were cleaned. -/
theorem on_withdraw_of_ok (hstreams : S.SoundAt .imageStream)
    (hok : (EnvironmentLabel.withdraw stage).on S = (.ok (), T)) :
    ∃ keys, T = Store.unlabelAll stage.label S keys ∧
      (∀ pipeline, S.find? .pipeline stage.pipelineKey = some pipeline →
        ∀ name ∈ pipeline.spec.inputStreams, ∃ keys',
          EnvironmentLabel.Cleans stage pipeline name S keys') ∧
      ∀ key, key ∈ keys ↔ ∃ pipeline, S.find? .pipeline stage.pipelineKey = some pipeline ∧
        stage.Reaches pipeline S key := by
  cases hpipeline : S.find? .pipeline stage.pipelineKey with
  | none =>
    obtain rfl : S = T := congrArg Prod.snd ((on_withdraw_of_absent hpipeline).symm.trans hok)
    refine ⟨[], rfl, fun _ hfound ↦ (nomatch hfound), fun key ↦ ?_⟩
    simp
  | some pipeline =>
    have hcleaned := (on_withdraw_of_found hpipeline).symm.trans hok
    have hknown := EnvironmentLabel.cleans_of_on_forM hstreams hcleaned
    obtain ⟨keys, hon, hmem⟩ := EnvironmentLabel.on_forM_cleanFrom hstreams hknown
    refine ⟨keys, congrArg Prod.snd (hcleaned.symm.trans hon), ?_, fun key ↦ ?_⟩
    · rintro pipeline' ⟨⟩
      exact hknown
    · simp only [Option.some.injEq, exists_eq_left', hmem, reaches_iff hknown]

/-! ### The effect -/

/-- What a successful reconciliation makes of the cluster where it takes a stage down. -/
structure TakesDown (context : Context) (stage : Stage) (S T : Store) : Prop where
  /-- The stage before is known wherever a verified stream of it can carry the label. -/
  previous : ∀ pipeline, S.find? .pipeline stage.pipelineKey = some pipeline →
    ∀ name ∈ pipeline.spec.inputStreams, ∀ input : ImageStream,
      S.find? .imageStream ⟨stage.metadata.namespaceOrEmpty, name⟩ = some input →
      stage.isFirst = true ∨ ∃ previous, stage.previousName? = some previous
  /-- The streams that can carry the label are there, and lose it. -/
  cleaned : ∀ pipeline, S.find? .pipeline stage.pipelineKey = some pipeline →
    ∀ key, stage.Reaches pipeline S key → ∃ stream stream' : ImageStream,
      S.find? .imageStream key = some stream ∧ T.find? .imageStream key = some stream' ∧
        stream.Loses stage.label stream'
  /-- Other streams, and all of them if there is no pipeline, are as they were. -/
  untouched : ∀ key, (∀ pipeline, S.find? .pipeline stage.pipelineKey = some pipeline →
    ¬ stage.Reaches pipeline S key) → T.find? .imageStream key = S.find? .imageStream key
  /-- The target is gone. -/
  target : T.find? context.targetKind ⟨"", stage.target⟩ = none
  /-- The stage has its other finalizers in their order, and is gone if there are none. -/
  released : T.find? .stage stage.key =
    if Object.otherFinalizers stage Naming.labelCleanup = [] then none
    else some (Object.withFinalizers stage
      (some (Object.otherFinalizers stage Naming.labelCleanup)))
  /-- Nothing is created. -/
  created : ∀ k key, S.find? k key = none → T.find? k key = none
  /-- Everything else is as it was. -/
  elsewhere : ∀ k key, k ≠ .imageStream → ¬ (k = context.targetKind ∧ key = ⟨"", stage.target⟩) →
    ¬ (k = .stage ∧ key = stage.key) → T.find? k key = S.find? k key

/-- Letting go of a stage that is held leaves it with its other finalizers. -/
theorem find?_letGo_released (hdeleting : stage.isDeleting = true)
    (hheld : stage.metadata.hasFinalizer Naming.labelCleanup = true) (s : Store) :
    (s.letGo stage.released).find? .stage stage.key =
      if Object.otherFinalizers stage Naming.labelCleanup = [] then none
      else some (Object.withFinalizers stage
        (some (Object.otherFinalizers stage Naming.labelCleanup))) :=
  Store.find?_letGo_removeFinalizer hdeleting hheld s

/-- What letting go of the stage leaves is found elsewhere as it was. -/
theorem find?_letGo_released_of_ne (s : Store) {k : Kind} {key : Key}
    (hne : ¬ (k = .stage ∧ key = stage.key)) :
    (s.letGo stage.released).find? k key = s.find? k key := by
  have hkey : stage.released.key = stage.key := Object.key_removeFinalizer
  exact Store.find?_letGo_of_ne s stage.released (hkey ▸ hne)

/-- What is left of a store when the label of the stage is taken off the streams under the keys, its
target removed and the stage let go. -/
def takenDown (context : Context) (stage : Stage) (S : Store) (keys : List Key) : Store :=
  ((Store.unlabelAll stage.label S keys).remove context.targetKind ⟨"", stage.target⟩).letGo
    stage.released

section TakenDown

variable {keys : List Key} {k : Kind} {key : Key}

/-- Besides the stage and its target only streams are other than they were. -/
theorem find?_takenDown (hstage : ¬ (k = .stage ∧ key = stage.key))
    (htarget : ¬ (k = context.targetKind ∧ key = ⟨"", stage.target⟩)) :
    (takenDown context stage S keys).find? k key =
      (Store.unlabelAll stage.label S keys).find? k key := by
  rw [takenDown, find?_letGo_released_of_ne _ hstage, Store.find?_remove_of_ne _ htarget]

theorem find?_stream_takenDown (hstreams : S.SoundAt .imageStream) :
    (takenDown context stage S keys).find? .imageStream key =
      if key ∈ keys then (S.find? .imageStream key).map (·.withoutLabel stage.label)
      else S.find? .imageStream key := by
  have hstage : ¬ (Kind.imageStream = .stage ∧ key = stage.key) := fun h ↦ nomatch h.1
  have htarget : ¬ (Kind.imageStream = context.targetKind ∧ key = ⟨"", stage.target⟩) :=
    fun h ↦ context.targetKind_ne (by decide) (by decide) h.1
  rw [find?_takenDown hstage htarget, Store.find?_unlabelAll hstreams]

theorem find?_target_takenDown :
    (takenDown context stage S keys).find? context.targetKind ⟨"", stage.target⟩ = none := by
  have hstage : ¬ (context.targetKind = .stage ∧ Key.mk "" stage.target = stage.key) :=
    fun h ↦ context.targetKind_ne (by decide) (by decide) h.1.symm
  rw [takenDown, find?_letGo_released_of_ne _ hstage]
  exact Store.find?_remove_self ..

/-- What was not there is not there afterwards. -/
theorem find?_takenDown_of_absent (hstreams : S.SoundAt .imageStream)
    (hfound : S.find? .stage stage.key = some stage) (habsent : S.find? k key = none) :
    (takenDown context stage S keys).find? k key = none := by
  by_cases htarget : k = context.targetKind ∧ key = ⟨"", stage.target⟩
  · obtain ⟨rfl, rfl⟩ := htarget
    exact find?_target_takenDown
  by_cases hkind : k = .imageStream
  · subst hkind
    rw [find?_stream_takenDown hstreams, habsent]
    split <;> rfl
  · have hstage : ¬ (k = .stage ∧ key = stage.key) := by
      rintro ⟨rfl, rfl⟩
      exact nomatch hfound.symm.trans habsent
    rw [find?_takenDown hstage htarget, Store.find?_unlabelAll_of_ne hkind, habsent]

end TakenDown

/-- Where the labels were withdrawn by cleaning the streams that the stage reaches, the rest of the
teardown has its effect. -/
theorem takesDown_takenDown (hstreams : S.SoundAt .imageStream)
    (hfound : S.find? .stage stage.key = some stage) (hdeleting : stage.isDeleting = true)
    (hheld : stage.metadata.hasFinalizer Naming.labelCleanup = true) {keys : List Key}
    (hknown : ∀ pipeline, S.find? .pipeline stage.pipelineKey = some pipeline →
      ∀ name ∈ pipeline.spec.inputStreams, ∃ keys',
        EnvironmentLabel.Cleans stage pipeline name S keys')
    (hreaches : ∀ key, key ∈ keys ↔ ∃ pipeline,
      S.find? .pipeline stage.pipelineKey = some pipeline ∧ stage.Reaches pipeline S key) :
    stage.TakesDown context S (takenDown context stage S keys) where
  previous pipeline hpipeline name hname input hinput := by
    obtain ⟨keys', hcleans⟩ := hknown pipeline hpipeline name hname
    unfold EnvironmentLabel.Cleans at hcleans
    rw [hinput] at hcleans
    exact previousName?_of_cleaned? hcleans.1
  cleaned pipeline hpipeline key hkey := by
    obtain ⟨name, hname, keys', hcleans, hmem⟩ := (reaches_iff (hknown pipeline hpipeline)).mp hkey
    obtain ⟨stream, hstream⟩ := hcleans.present key hmem
    have hcleaned : key ∈ keys := (hreaches key).mpr ⟨pipeline, hpipeline, hkey⟩
    refine ⟨stream, stream.withoutLabel stage.label, hstream, ?_, stream.loses_withoutLabel _⟩
    rw [find?_stream_takenDown hstreams, if_pos hcleaned, hstream, Option.map_some]
  untouched key hnone := by
    have hout : key ∉ keys := fun hmem ↦ by
      obtain ⟨pipeline, hpipeline, hkey⟩ := (hreaches key).mp hmem
      exact hnone pipeline hpipeline hkey
    rw [find?_stream_takenDown hstreams, if_neg hout]
  target := find?_target_takenDown
  released := find?_letGo_released hdeleting hheld _
  created k key habsent := find?_takenDown_of_absent hstreams hfound habsent
  elsewhere k key hkind htarget hstage := by
    rw [find?_takenDown hstage htarget, Store.find?_unlabelAll_of_ne hkind]

/-- A release that succeeds takes the stage down. -/
theorem takesDown_of_on_release (hstreams : S.SoundAt .imageStream)
    (hfound : S.find? .stage stage.key = some stage) (hdeleting : stage.isDeleting = true)
    (hheld : stage.metadata.hasFinalizer Naming.labelCleanup = true) {outcome : Outcome}
    (hok : (release context stage).on S = (.ok outcome, T)) : stage.TakesDown context S T := by
  cases hwithdrawn : (EnvironmentLabel.withdraw stage).on S with
  | mk r S' =>
    cases r with
    | error e =>
      have hfailed := on_release_of_error hheld (on_teardown_of_error context hwithdrawn)
      exact nomatch congrArg Prod.fst (hfailed.symm.trans hok)
    | ok done =>
      obtain ⟨keys, rfl, hknown, hreaches⟩ := on_withdraw_of_ok hstreams hwithdrawn
      have hstored : ((Store.unlabelAll stage.label S keys).remove context.targetKind
          ⟨"", stage.target⟩).find? .stage stage.key = some stage := by
        rw [Store.find?_remove_of_kind_ne _ (context.targetKind_ne (by decide) (by decide)),
          Store.find?_unlabelAll_of_ne (by decide), hfound]
      have hdone := on_release_of_ok hheld hstored (on_teardown_of_ok context hwithdrawn)
      obtain rfl : takenDown context stage S keys = T :=
        congrArg Prod.snd (hdone.symm.trans hok)
      exact takesDown_takenDown hstreams hfound hdeleting hheld hknown hreaches

end Stage

end PipelineOperator
