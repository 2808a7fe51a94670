import PipelineOperator.Proofs.Operation.Verdict
import PipelineOperator.Proofs.Provision.Streams

/-!
What the handlers of provisioning need. The verified streams need the pipeline, its input streams
and the registry, where a verified stream that was built for an earlier input counts as there
(`VerifiedStreams.requirements`, `Stage.suppliedIn`). The label of a later stage needs the verified
streams of the stage before (`EnvironmentLabel.requirements`). Target, access and job need nothing
else, so these are the requirements of the chain (`Chain.needs_creation`).
-/

set_option autoImplicit false
set_option relaxedAutoImplicit false

namespace PipelineOperator

open Operation

variable {s t : Store} {stage : Stage} {pipeline : Pipeline} {image inputName previous : String}

/-- The image streams and the pipelines are those of the store. -/
structure Store.SameSources (s t : Store) : Prop where
  streams : t.imageStreams = s.imageStreams
  pipelines : t.pipelines = s.pipelines

namespace Store

theorem SameSources.refl (s : Store) : s.SameSources s := ⟨rfl, rfl⟩

theorem dependsOn_sources (s : Store) :
    DependsOn (fun k ↦ k = .imageStream ∨ k = .pipeline) s.SameSources :=
  fun _ _ htables hsame ↦ ⟨(htables .imageStream (.inl rfl)).trans hsame.streams,
    (htables .pipeline (.inr rfl)).trans hsame.pipelines⟩

theorem SameSources.find?_stream (hsame : s.SameSources t) (key : Key) :
    t.find? .imageStream key = s.find? .imageStream key := congrArg (·.get? key) hsame.streams

theorem SameSources.find?_pipeline (hsame : s.SameSources t) (key : Key) :
    t.find? .pipeline key = s.find? .pipeline key := congrArg (·.get? key) hsame.pipelines

theorem SameSources.soundAt (hsame : s.SameSources t) (hstreams : s.SoundAt .imageStream) :
    t.SoundAt .imageStream :=
  ⟨fun _ _ hfound ↦ hstreams.keyed ((hsame.find?_stream _).symm.trans hfound),
    fun hfound ↦ hstreams.held ((hsame.find?_stream _).symm.trans hfound)⟩

/-- Creating the same stream. -/
theorem SameSources.create (hsame : s.SameSources t) (o : ImageStream) :
    (s.create o).2.SameSources (t.create o).2 := by
  unfold Store.create
  rw [hsame.find?_stream]
  split
  · exact hsame
  · exact ⟨congrArg (·.insert o.key o) hsame.streams, hsame.pipelines⟩

end Store

/-! ### Verified streams -/

namespace VerifiedStreams

/-- The store with the verified stream that belongs to an input stream. -/
def supplied (stage : Stage) (image : String) (s : Store) (inputName : String) : Store :=
  match s.find? .imageStream ⟨stage.metadata.namespaceOrEmpty, inputName⟩ with
  | none => s
  | some input =>
    (s.create (build stage (name stage input.spec.codebase) input.spec.codebase image)).2

/-- The input stream has to be there. -/
def inputRequirement (stage : Stage) (s : Store) (inputName : String) : Requirement where
  isMet := (s.find? .imageStream ⟨stage.metadata.namespaceOrEmpty, inputName⟩).isSome
  cause := .inputStreamNotFound stage.metadata.namespaceOrEmpty inputName

/-- The input streams have to be there, each on the store that has the verified streams of those
before it. -/
def inputRequirements (stage : Stage) (image : String) : Store → List String → List Requirement
  | _, [] => []
  | s, inputName :: rest =>
    inputRequirement stage s inputName ::
      inputRequirements stage image (supplied stage image s inputName) rest

end VerifiedStreams

namespace Stage

/-- The names of the input streams of the pipeline. -/
def inputsIn (s : Store) (stage : Stage) : List String :=
  (s.find? .pipeline stage.pipelineKey).elim [] fun pipeline ↦ pipeline.spec.inputStreams

/-- The image of the verified streams. -/
def imageIn (s : Store) (stage : Stage) : String :=
  Naming.verifiedImage
    ((s.find? .component ⟨stage.metadata.namespaceOrEmpty, Naming.registryComponent⟩).elim ""
      fun registry ↦ registry.spec.url)
    stage.metadata.namespaceOrEmpty

/-- The store with all verified streams of the stage. -/
def suppliedIn (s : Store) (stage : Stage) : Store :=
  (stage.inputsIn s).foldl (VerifiedStreams.supplied stage (stage.imageIn s)) s

end Stage

namespace VerifiedStreams

/-- There have to be the pipeline, an input stream of it, the registry and all input streams. -/
def requirements (stage : Stage) (s : Store) : List Requirement :=
  [⟨(s.find? .pipeline stage.pipelineKey).isSome,
      .pipelineNotFound stage.metadata.namespaceOrEmpty stage.spec.pipeline⟩,
    ⟨!(stage.inputsIn s).isEmpty, .emptyInputStreams stage.spec.pipeline⟩,
    ⟨(s.find? .component ⟨stage.metadata.namespaceOrEmpty, Naming.registryComponent⟩).isSome,
      .registryNotFound stage.metadata.namespaceOrEmpty Naming.registryComponent⟩] ++
  inputRequirements stage (stage.imageIn s) s (stage.inputsIn s)

/-- Supplying works on the streams alone. -/
theorem supplied_congr (hsame : s.SameSources t) :
    (supplied stage image s inputName).SameSources (supplied stage image t inputName) := by
  unfold supplied
  rw [hsame.find?_stream]
  split
  · exact hsame
  · exact hsame.create _

theorem foldl_supplied_congr (names : List String) (hsame : s.SameSources t) :
    (names.foldl (supplied stage image) s).SameSources
      (names.foldl (supplied stage image) t) := by
  induction names generalizing s t with
  | nil => exact hsame
  | cons inputName rest ih => exact ih (supplied_congr hsame)

theorem inputRequirements_congr (names : List String) (hsame : s.SameSources t) :
    inputRequirements stage image t names = inputRequirements stage image s names := by
  induction names generalizing s t with
  | nil => rfl
  | cons inputName rest ih =>
    rw [inputRequirements, inputRequirements, ih (supplied_congr hsame), inputRequirement,
      inputRequirement, hsame.find?_stream]

/-- Besides streams and pipelines the requirements depend on the registry. -/
theorem requirements_congr (stage : Stage) (hsame : s.SameSources t)
    (hcomponents : ∀ key, t.find? .component key = s.find? .component key) :
    requirements stage t = requirements stage s ∧
      (stage.suppliedIn s).SameSources (stage.suppliedIn t) := by
  have hinputs : stage.inputsIn t = stage.inputsIn s := by
    rw [Stage.inputsIn, hsame.find?_pipeline]
    rfl
  have himage : stage.imageIn t = stage.imageIn s := by
    rw [Stage.imageIn, hcomponents]
    rfl
  unfold requirements Stage.suppliedIn
  rw [hinputs, himage, hsame.find?_pipeline, hcomponents, inputRequirements_congr _ hsame]
  exact ⟨rfl, foldl_supplied_congr _ hsame⟩

/-- Supplying takes no stream away, and leaves the pipelines. -/
theorem isSome_supplied {key : Key} (hthere : (s.find? .imageStream key).isSome = true) :
    ((supplied stage image s inputName).find? .imageStream key).isSome = true := by
  obtain ⟨stream, hfound⟩ := Option.isSome_iff_exists.mp hthere
  unfold supplied
  split
  · exact hthere
  · rw [Store.find?_create_of_found s _ hfound]
    rfl

theorem isSome_foldl_supplied {key : Key} (names : List String)
    (hthere : (s.find? .imageStream key).isSome = true) :
    ((names.foldl (supplied stage image) s).find? .imageStream key).isSome = true := by
  induction names generalizing s with
  | nil => exact hthere
  | cons inputName rest ih => exact ih (isSome_supplied hthere)

theorem pipelines_foldl_supplied (names : List String) :
    (names.foldl (supplied stage image) s).pipelines = s.pipelines := by
  induction names generalizing s with
  | nil => rfl
  | cons inputName rest ih =>
    have hfirst : (supplied stage image s inputName).pipelines = s.pipelines := by
      unfold supplied Store.create
      split
      · rfl
      · split <;> rfl
    exact ih.trans hfirst

theorem needs_provide (stage : Stage) (image inputName : String) (s : Store) :
    (provide stage image inputName).Needs s [inputRequirement stage s inputName] (fun _ t ↦
      t = supplied stage image s inputName ∧
        (inputRequirement stage t inputName).isMet = true) := by
  refine .of_found (fun input hinput ↦ ?_) on_provide_of_absent
  refine needs_of_on (on_provide_of_found hinput) ⟨?_, ?_⟩
  · rw [supplied, hinput]
  · rw [inputRequirement, Store.find?_create_of_found s _ hinput]
    rfl

theorem needs_forM_provide (stage : Stage) (image : String) (names : List String) (s : Store) :
    (names.forM (provide stage image)).Needs s (inputRequirements stage image s names) (fun _ t ↦
      t = names.foldl (supplied stage image) s ∧
        ∀ inputName ∈ names, (inputRequirement stage t inputName).isMet = true) := by
  induction names generalizing s with
  | nil => exact needs_of_on rfl ⟨rfl, fun _ hname ↦ absurd hname List.not_mem_nil⟩
  | cons inputName rest ih =>
    refine (needs_provide stage image inputName s).bind fun _ t ht ↦ ?_
    obtain ⟨rfl, hthere⟩ := ht
    refine (ih _).mono fun _ u hu ↦ ?_
    obtain ⟨rfl, hrest⟩ := hu
    exact ⟨rfl, List.forall_mem_cons.mpr ⟨isSome_foldl_supplied rest hthere, hrest⟩⟩

theorem needs_serve (stage : Stage) (hkeyed : s.KeyedAt .pipeline) :
    (serve stage).Needs s (requirements stage s) (fun _ t ↦ t = stage.suppliedIn s ∧
      ∃ pipeline, s.find? .pipeline stage.pipelineKey = some pipeline ∧
        ∀ inputName ∈ pipeline.spec.inputStreams,
          (inputRequirement stage t inputName).isMet = true) := by
  refine needs_require_bind fun pipeline hpipeline ↦ ?_
  have hname : pipeline.metadata.anyName = stage.spec.pipeline :=
    congrArg Key.name (hkeyed hpipeline)
  have hinputs : stage.inputsIn s = pipeline.spec.inputStreams := by
    rw [Stage.inputsIn, hpipeline]
    rfl
  rw [Stage.suppliedIn, hinputs]
  refine .of_met (fun hmet ↦ ?_) fun hunmet ↦ ?_
  · have hsome : pipeline.spec.inputStreams.isEmpty = false := by simpa using hmet
    rw [hsome]
    simp only [Bool.false_eq_true, if_false]
    unfold registry
    rw [bind_assoc]
    refine needs_require_bind fun registry hregistry ↦ ?_
    have himage : stage.imageIn s =
        Naming.verifiedImage registry.spec.url stage.metadata.namespaceOrEmpty := by
      rw [Stage.imageIn, hregistry]
      rfl
    rw [himage]
    refine (needs_forM_provide stage _ _ s).mono fun _ t ht ↦ ?_
    exact ⟨ht.1, pipeline, hpipeline, ht.2⟩
  · have hnone : pipeline.spec.inputStreams.isEmpty = true := by simpa using hunmet
    rw [hnone, ← hname]
    exact ⟨s, rfl⟩

end VerifiedStreams

/-! ### Labels -/

/-- The image streams are under the keys, and with the specifications, that they have in the store.
-/
def Store.SameStreams (s t : Store) : Prop :=
  ∀ key, (t.find? .imageStream key).map Object.spec = (s.find? .imageStream key).map Object.spec

theorem Store.SameStreams.isSome_eq (hsame : s.SameStreams t) (key : Key) :
    (t.find? .imageStream key).isSome = (s.find? .imageStream key).isSome := by
  have hspecs := congrArg Option.isSome (hsame key)
  rwa [Option.isSome_map, Option.isSome_map] at hspecs

theorem Store.SameStreams.put_withLabel (hsame : s.SameStreams t) {stream : ImageStream}
    (hfound : t.find? .imageStream stream.key = some stream) (label : String) :
    s.SameStreams (t.put (stream.withLabel label)) := by
  intro key
  rw [← hsame key, find?_put, Object.key_withLabel]
  split
  · next hkey =>
    rw [hkey, hfound, Option.map_some, Option.map_some, Object.spec_withLabel]
  · rfl

namespace EnvironmentLabel

/-- The verified stream of the stage before has to be there, if the stage deploys from it. -/
def sourceRequirements (stage : Stage) (pipeline : Pipeline) (previous : String) (s : Store)
    (inputName : String) : List Requirement :=
  match s.find? .imageStream ⟨stage.metadata.namespaceOrEmpty, inputName⟩ with
  | none => []
  | some input =>
    if stage.isFirst || !pipeline.spec.promotes input.spec.codebase then []
    else
      let name := Naming.verifiedStream stage.spec.pipeline previous input.spec.codebase
      [⟨(s.find? .imageStream ⟨stage.metadata.namespaceOrEmpty, name⟩).isSome,
        .verifiedStreamNotFound stage.metadata.namespaceOrEmpty name⟩]

/-- The verified streams of the stage before have to be there for what is promoted. -/
def requirements (stage : Stage) (previous : String) (s : Store) : List Requirement :=
  (s.find? .pipeline stage.pipelineKey).elim [] fun pipeline ↦
    pipeline.spec.inputStreams.flatMap (sourceRequirements stage pipeline previous s)

theorem requirements_congr (hsame : s.SameSources t) :
    requirements stage previous t = requirements stage previous s := by
  have hsources (pipeline : Pipeline) : sourceRequirements stage pipeline previous t =
      sourceRequirements stage pipeline previous s := by
    funext inputName
    simp only [sourceRequirements, hsame.find?_stream]
  simp only [requirements, hsame.find?_pipeline, hsources]

/-- Labelling from one input stream needs the stream from which its codebase is deployed. -/
theorem needs_placeOn (hprevious : stage.isFirst = false → stage.previousName? = some previous)
    (hthere : (s.find? .imageStream ⟨stage.metadata.namespaceOrEmpty, inputName⟩).isSome = true)
    (hsame : s.SameStreams t) (hstreams : t.SoundAt .imageStream) :
    (placeOn stage pipeline inputName).Needs t
      (sourceRequirements stage pipeline previous s inputName) (fun _ u ↦ s.SameStreams u) := by
  obtain ⟨original, horiginal⟩ := Option.isSome_iff_exists.mp hthere
  obtain ⟨input, hinput, hspec⟩ := Option.map_eq_some_iff.mp
    ((hsame _).trans (congrArg (·.map Object.spec) horiginal))
  have hlabelled {stream : ImageStream} (hplaces : Places stage pipeline inputName t stream) :
      (placeOn stage pipeline inputName).Needs t [] (fun _ u ↦ s.SameStreams u) :=
    needs_of_on (on_placeOn hstreams hplaces)
      (hsame.put_withLabel (hplaces.found hstreams) stage.label)
  simp only [sourceRequirements, horiginal, ← hspec]
  by_cases hdirect : (stage.isFirst || !pipeline.spec.promotes input.spec.codebase) = true
  · simp only [if_pos hdirect]
    exact hlabelled ⟨input, _, hinput, if_pos hdirect, hinput⟩
  · simp only [if_neg hdirect]
    have hname : stage.previousName? = some previous := hprevious (by simp_all)
    rw [← hsame.isSome_eq]
    refine .of_found (fun verified hverified ↦ ?_) fun habsent ↦ ?_
    · refine hlabelled ⟨input, _, hinput, ?_, hverified⟩
      rw [source?, if_neg hdirect, hname]
      rfl
    · unfold placeOn VerifiedStreams.input previousStream Stage.previousName
      rw [on_require_bind, hinput]
      simp only [if_neg hdirect, hname, pure_bind, on_require_bind, habsent]

theorem needs_forM_placeOn (hprevious : stage.isFirst = false → stage.previousName? = some previous)
    {names : List String}
    (hthere : ∀ inputName ∈ names,
      (s.find? .imageStream ⟨stage.metadata.namespaceOrEmpty, inputName⟩).isSome = true)
    (hsame : s.SameStreams t) (hstreams : t.SoundAt .imageStream) :
    (names.forM (placeOn stage pipeline)).Needs t
      (names.flatMap (sourceRequirements stage pipeline previous s)) (fun _ _ ↦ True) := by
  induction names generalizing t with
  | nil => exact needs_of_on rfl trivial
  | cons inputName rest ih =>
    obtain ⟨hfirst, hrest⟩ := List.forall_mem_cons.mp hthere
    have hplaced : (placeOn stage pipeline inputName).Needs t _ _ :=
      (needs_placeOn hprevious hfirst hsame hstreams).keeps
      (I := fun u ↦ u.SoundAt .imageStream) (fun u hu ↦ (keepsStreams_placeOn u hu).1) hstreams
    rw [List.flatMap_cons]
    exact hplaced.bind fun _ u hu ↦ ih hrest hu.1 hu.2

theorem needs_serve (hprevious : stage.isFirst = false → stage.previousName? = some previous)
    (hpipeline : s.find? .pipeline stage.pipelineKey = some pipeline)
    (hthere : ∀ inputName ∈ pipeline.spec.inputStreams,
      (s.find? .imageStream ⟨stage.metadata.namespaceOrEmpty, inputName⟩).isSome = true)
    (hstreams : s.SoundAt .imageStream) :
    (serve stage).Needs s (requirements stage previous s) (fun _ _ ↦ True) := by
  have hserve : (serve stage).on s =
      (pipeline.spec.inputStreams.forM (placeOn stage pipeline)).on s := by
    unfold serve Stage.parent
    rw [on_require_bind, hpipeline]
  unfold requirements
  rw [hpipeline]
  exact (needs_forM_placeOn hprevious hthere (fun _ ↦ rfl) hstreams).congr hserve

end EnvironmentLabel

/-! ### The chain -/

theorem Handler.needs_target (context : Context) (stage : Stage) (s : Store) :
    ((target context).serve stage).Needs s [] (fun _ _ ↦ True) := by
  have hon : ((target context).serve stage).on s = _ := on_target s
  split at hon
  · exact (needs_secure (Target.buildSpace ..) s).congr hon
  · exact (needs_secure (Target.buildNamespace ..) s).congr hon

theorem Access.needs_serve (platform : Platform) (stage : Stage) (s : Store) :
    (serve platform stage).Needs s [] (fun _ _ ↦ True) := by
  rw [serve_eq]
  refine (needs_secure _ s).bind fun _ t _ ↦ needs_forM (fun binding hbinding u ↦ ?_) t
  rw [ensureBinding_eq hbinding]
  exact needs_secure binding u

theorem StageJob.needs_serve (hkeyed : s.KeyedAt .jenkinsJob)
    (hpipeline : s.find? .pipeline stage.pipelineKey = some pipeline) :
    (serve stage).Needs s [] (fun _ _ ↦ True) := by
  have hserve : (serve stage).on s =
      (.ok (), s.put (brought s stage (desired s stage pipeline))) := by
    rw [serve_eq, Stage.parent, on_require_bind, hpipeline]
    exact (on_bind_of_ok (rests_config s stage pipeline).on _).trans (on_bring hkeyed stage _)
  exact needs_of_on hserve trivial

/-- The kinds of which streams and pipelines are. -/
theorem Kind.isFollowed_of_source (k : Kind) (hk : k = .imageStream ∨ k = .pipeline) :
    k.IsFollowed := hk.imp_right .inl

/-- A handler that needs nothing, and leaves the streams and the pipelines as they are. -/
theorem Handler.needs_passed (handler : Handler)
    (hneeds : (handler.serve stage).Needs t [] (fun _ _ ↦ True))
    (hkeeps : (handler.serve stage).Keeps s.SameSources) (ht : t.Keyed ∧ s.SameSources t) :
    (handler.serve stage).Needs t [] (fun _ u ↦ u.Keyed ∧ s.SameSources u) := by
  have hboth : (handler.serve stage).Keeps (fun u ↦ u.Keyed ∧ s.SameSources u) :=
    fun u hu ↦ ⟨keeps_keyed _ u hu.1, hkeeps u hu.2⟩
  exact (hneeds.keeps hboth ht).mono fun _ _ hu ↦ hu.2

theorem Handler.needs_job (hpipeline : s.find? .pipeline stage.pipelineKey = some pipeline)
    (ht : t.Keyed ∧ s.SameSources t) :
    (job.serve stage).Needs t [] (fun _ u ↦ u.Keyed ∧ s.SameSources u) :=
  job.needs_passed (StageJob.needs_serve (ht.1 _) ((ht.2.find?_pipeline _).trans hpipeline))
    (keeps_job s.dependsOn_sources Kind.isFollowed_of_source) ht

namespace Chain

variable {Q Q' : Store → Prop} {needed rest : List Requirement} {others : Chain}

theorem needs_last {handler : Handler}
    (hserve : (handler.serve stage).Needs s needed (fun _ t ↦ Q t)) :
    ((last handler).serve stage).Needs s needed (fun _ t ↦ Q t) :=
  hserve.counted handler.name

theorem needs_link {handler : Handler}
    (hserve : (handler.serve stage).Needs s needed (fun _ t ↦ Q t))
    (hrest : ∀ t, Q t → (others.serve stage).Needs t rest (fun _ u ↦ Q' u)) :
    ((link handler others).serve stage).Needs s (needed ++ rest) (fun _ u ↦ Q' u) :=
  (hserve.counted handler.name).bind fun _ t ht ↦ hrest t ht

/-- Target and access do not add to what the handlers after them need. -/
theorem needs_link_target (context : Context) (ht : t.Keyed ∧ s.SameSources t)
    (hrest : ∀ u, u.Keyed ∧ s.SameSources u → (others.serve stage).Needs u rest (fun _ _ ↦ True)) :
    ((link (.target context) (link (.access context) others)).serve stage).Needs t rest
      (fun _ _ ↦ True) := by
  have htarget := (Handler.target context).needs_passed (Handler.needs_target context stage t)
    (Handler.keeps_target s.dependsOn_sources (by simp) (by simp)) ht
  refine needs_link htarget fun u hu ↦ ?_
  have haccess := (Handler.access context).needs_passed
    (Access.needs_serve context.platform stage u)
    (Handler.keeps_access s.dependsOn_sources Kind.isFollowed_of_source) hu
  exact needs_link haccess hrest

/-- The chain needs what the verified streams need, and the label of a stage that is provisioned
automatically needs its sources on the store that has the verified streams. -/
def requirements (stage : Stage) (previous : String) (s : Store) : List Requirement :=
  VerifiedStreams.requirements stage s ++ if stage.spec.trigger = .auto then
    EnvironmentLabel.requirements stage previous (stage.suppliedIn s) else []

theorem needs_creation (context : Context) (hkeyed : s.Keyed)
    (hprevious : stage.isFirst = false → stage.previousName? = some previous)
    (hstreams : stage.spec.trigger = .auto → s.SoundAt .imageStream) :
    ((creation context stage.spec.trigger).serve stage).Needs s
      (requirements stage previous s) (fun _ _ ↦ True) := by
  have hverified := ((VerifiedStreams.needs_serve stage (hkeyed .pipeline)).keeps
    (keeps_keyed _) hkeyed).keeps (I := fun t ↦ stage.spec.trigger = .auto → t.SoundAt .imageStream)
    (fun u hu hauto ↦ (VerifiedStreams.keepsStreams_serve u (hu hauto)).1) hstreams
  have hsupplied {pipeline : Pipeline} (hpipeline : s.find? .pipeline stage.pipelineKey =
      some pipeline) : (stage.suppliedIn s).find? .pipeline stage.pipelineKey = some pipeline :=
    (congrArg (·.get? stage.pipelineKey)
      (VerifiedStreams.pipelines_foldl_supplied (stage.inputsIn s))).trans hpipeline
  unfold requirements
  cases htrigger : stage.spec.trigger with
  | manual =>
    refine needs_link hverified fun t ht ↦ ?_
    obtain ⟨⟨⟨rfl, pipeline, hpipeline, -⟩, ht⟩, -⟩ := ht
    refine needs_link_target context ⟨ht, .refl _⟩ fun u hu ↦ ?_
    exact needs_last ((Handler.needs_job (hsupplied hpipeline) hu).mono fun _ _ _ ↦ trivial)
  | auto =>
    refine needs_link hverified fun t ht ↦ ?_
    obtain ⟨⟨⟨rfl, pipeline, hpipeline, hthere⟩, ht⟩, hsound⟩ := ht
    refine needs_link_target context ⟨ht, .refl _⟩ fun u hu ↦ ?_
    refine needs_link (Handler.needs_job (hsupplied hpipeline) hu) fun v hv ↦ ?_
    have hlabel : (Handler.environmentLabel.serve stage).Needs v
        (EnvironmentLabel.requirements stage previous v) (fun _ _ ↦ True) := by
      refine EnvironmentLabel.needs_serve hprevious
        ((hv.2.find?_pipeline _).trans (hsupplied hpipeline)) (fun inputName hname ↦ ?_)
        (hv.2.soundAt (hsound htrigger))
      rw [hv.2.find?_stream]
      exact hthere inputName hname
    rw [EnvironmentLabel.requirements_congr hv.2] at hlabel
    exact needs_last hlabel

end Chain

end PipelineOperator
