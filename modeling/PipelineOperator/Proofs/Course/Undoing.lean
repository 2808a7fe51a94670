import PipelineOperator.Proofs.Course.Labels

/-!
Placing the label of a stage and withdrawing it right afterwards. Placing makes the streams labelled
ones and does nothing else (`Store.Labelled`), and only streams that the stage reaches get the label
(`Store.Confines`). Withdrawing takes it off every stream that the stage reaches, and which these
are does not depend on labels; so where no stream carried the label before, the cluster is what it
was (`EnvironmentLabel.withdraw_undoes_serve`). It does not count through how many input streams a
stream was labelled, and whether it was as an input stream or as a verified one.
-/

set_option autoImplicit false
set_option relaxedAutoImplicit false

namespace PipelineOperator

open Operation

variable {S s t T : Store} {stage : Stage} {pipeline : Pipeline} {inputName label : String}

namespace Store

/-- Each stream of the first store is in the second one, as it was or with the label; there are no
others. -/
structure Labelled (label : String) (S t : Store) : Prop where
  sound : t.SoundAt .imageStream
  streams : ∀ key, t.find? .imageStream key = S.find? .imageStream key ∨
    t.find? .imageStream key = (S.find? .imageStream key).map (Object.withLabel · label)

theorem Labelled.refl (hstreams : s.SoundAt .imageStream) : s.Labelled label s :=
  ⟨hstreams, fun _ ↦ .inl rfl⟩

theorem Labelled.found (hlabelled : S.Labelled label t) {key : Key} {stream : ImageStream}
    (hfound : S.find? .imageStream key = some stream) : ∃ stream' : ImageStream,
      t.find? .imageStream key = some stream' ∧ stream'.spec = stream.spec ∧
        (stream.hasLabel label = true → stream'.hasLabel label = true) := by
  have hstreams := hlabelled.streams key
  rw [hfound, Option.map_some] at hstreams
  rcases hstreams with hsame | hlabel
  · exact ⟨stream, hsame, rfl, id⟩
  · exact ⟨_, hlabel, Object.spec_withLabel, fun _ ↦ Object.hasLabel_withLabel⟩

/-- The second store is the first one again, but that streams that had no labels may have an empty
map of them. -/
structure Restores (S T : Store) : Prop where
  streams : ∀ key, Option.Rel Object.Matches (S.find? .imageStream key) (T.find? .imageStream key)
  elsewhere : ∀ k key, k ≠ .imageStream → T.find? k key = S.find? k key

/-- A label that is put on once more is put on. -/
theorem map_withLabel_twice (found : Option ImageStream) (label : String) :
    (found.map (Object.withLabel · label)).map (Object.withLabel · label) =
      found.map (Object.withLabel · label) := by
  cases found with
  | none => rfl
  | some stream => exact congrArg some Object.withLabel_withLabel

/-- Labelling one more stream. -/
theorem Labelled.put (hlabelled : S.Labelled label t) {stream : ImageStream}
    (hfound : t.find? .imageStream stream.key = some stream) :
    S.Labelled label (t.put (stream.withLabel label)) := by
  refine ⟨hlabelled.sound.put (Object.isReleased_withLabel.trans (hlabelled.sound.held hfound)),
    fun key ↦ ?_⟩
  rw [find?_put, Object.key_withLabel]
  split
  · next hkey =>
    have hnow : some (stream.withLabel label) =
        (t.find? .imageStream key).map (Object.withLabel · label) := by
      rw [hkey, hfound, Option.map_some]
    rw [hnow]
    rcases hlabelled.streams key with hsame | hlabel
    · exact .inr (by rw [hsame])
    · exact .inr (by rw [hlabel, map_withLabel_twice])
  · exact hlabelled.streams key

/-- Where every stream with the label was cleaned, the streams are what they were before any of them
had it. -/
theorem Labelled.restored (hlabelled : S.Labelled label t)
    (hfree : S.IsUnlabelled label) {keys : List Key}
    (hcleaned : ∀ ⦃key⦄ ⦃stream : ImageStream⦄, t.find? .imageStream key = some stream →
      stream.hasLabel label = true → key ∈ keys) (key : Key) :
    Option.Rel Object.Matches (S.find? .imageStream key)
      ((unlabelAll label t keys).find? .imageStream key) := by
  rw [find?_unlabelAll hlabelled.sound]
  have hstreams := hlabelled.streams key
  cases hfound : S.find? .imageStream key with
  | none =>
    rw [hfound, Option.map_none, or_self] at hstreams
    rw [hstreams, Option.map_none, ite_self]
    exact .none
  | some stream =>
    have hlacks := hfree _ _ hfound
    rw [hfound, Option.map_some] at hstreams
    rcases hstreams with hsame | hlabel
    · rw [hsame, Option.map_some, Object.withoutLabel_of_lacks hlacks, ite_self]
      exact .some (.refl stream)
    · rw [if_pos (hcleaned hlabel Object.hasLabel_withLabel), hlabel, Option.map_some]
      exact .some (Object.matches_withoutLabel_withLabel hlacks)

end Store

namespace EnvironmentLabel

theorem keeps_placeOn_labelled (S : Store) (stage : Stage) (pipeline : Pipeline)
    (inputName : String) : (placeOn stage pipeline inputName).Keeps (S.Labelled stage.label) := by
  intro t hlabelled
  by_cases hplaces : ∃ stream, Places stage pipeline inputName t stream
  · obtain ⟨stream, hplaces⟩ := hplaces
    rw [on_placeOn hlabelled.sound hplaces]
    exact hlabelled.put (hplaces.found hlabelled.sound)
  · obtain ⟨e, hrests⟩ := rests_placeOn_of_not_places fun stream h ↦ hplaces ⟨stream, h⟩
    rw [hrests.on]
    exact hlabelled

/-- Serving does nothing but to label streams. -/
theorem labelled_serve (stage : Stage) (hstreams : S.SoundAt .imageStream) :
    S.Labelled stage.label ((serve stage).on S).2 := by
  have hkeeps : (serve stage).Keeps (S.Labelled stage.label) :=
    keeps_require_bind fun t pipeline hlabelled _ ↦
      keeps_forM (fun name _ ↦ keeps_placeOn_labelled S stage pipeline name) t hlabelled
  exact hkeeps S (.refl hstreams)

theorem find?_serve_of_ne {k : Kind} (hkind : k ≠ .imageStream) (S : Store) (stage : Stage)
    (key : Key) : ((serve stage).on S).2.find? k key = S.find? k key := by
  have hreads : (serve stage).Asks (fun request ↦ request.kind = k → request.isRead = true) :=
    asks_serve (fun _ _ ↦ rfl) (fun _ _ ↦ rfl) fun _ hcontra ↦ absurd hcontra.symm hkind
  exact hreads.keeps_of_reads (Store.dependsOn_find? key (· = S.find? k key)) S rfl

/-- The stream from which the stage deploys for an input stream is there and carries its label. -/
def IsPlaced (stage : Stage) (pipeline : Pipeline) (inputName : String) (s : Store) : Prop :=
  ∃ stream, Places stage pipeline inputName s stream ∧ stream.hasLabel stage.label = true

/-- What is placed stays placed while streams are labelled. -/
theorem IsPlaced.labelled (hlabelled : s.Labelled stage.label t)
    (hplaced : IsPlaced stage pipeline inputName s) : IsPlaced stage pipeline inputName t := by
  obtain ⟨stream, ⟨input, key, hinput, hsource, hstream⟩, hlabel⟩ := hplaced
  obtain ⟨input', hinput', hspec, -⟩ := hlabelled.found hinput
  obtain ⟨stream', hstream', -, hkept⟩ := hlabelled.found hstream
  exact ⟨stream', ⟨input', key, hinput', hspec ▸ hsource, hstream'⟩, hkept hlabel⟩

theorem isPlaced_of_on_placeOn (hstreams : s.SoundAt .imageStream)
    (hok : (placeOn stage pipeline inputName).on s = (.ok (), t)) :
    IsPlaced stage pipeline inputName t := by
  by_cases hplaces : ∃ stream, Places stage pipeline inputName s stream
  · obtain ⟨stream, hplaces⟩ := hplaces
    have hlabelled := keeps_placeOn_labelled s stage pipeline inputName s (.refl hstreams)
    rw [on_placeOn hstreams hplaces] at hok hlabelled
    obtain rfl := congrArg Prod.snd hok
    obtain ⟨input, key, hinput, hsource, hstream⟩ := hplaces
    obtain ⟨input', hinput', hspec, -⟩ := hlabelled.found hinput
    refine ⟨stream.withLabel stage.label, ⟨input', key, hinput', hspec ▸ hsource, ?_⟩,
      Object.hasLabel_withLabel⟩
    rw [Store.find?_put, Object.key_withLabel, if_pos (hstreams.keyed hstream).symm]
  · obtain ⟨e, hrests⟩ := rests_placeOn_of_not_places fun stream h ↦ hplaces ⟨stream, h⟩
    exact nomatch congrArg Prod.fst (hrests.on.symm.trans hok)

/-- Where serving succeeded, the label is in place for every input stream. -/
theorem isPlaced_of_on_serve (hstreams : S.SoundAt .imageStream)
    (hok : (serve stage).on S = (.ok (), T)) :
    ∃ pipeline, S.find? .pipeline stage.pipelineKey = some pipeline ∧
      ∀ name ∈ pipeline.spec.inputStreams, IsPlaced stage pipeline name T := by
  obtain ⟨pipeline, hpipeline, hplaced⟩ := exists_of_on_require_bind hok
  refine ⟨pipeline, hpipeline, forM_establishes (I := fun t ↦ t.SoundAt .imageStream)
    (fun name _ s hs ↦ (keepsStreams_placeOn s hs).1)
    (fun name _ s t hs hdone ↦ isPlaced_of_on_placeOn hs hdone)
    (fun name _ next _ u hu ↦ ?_) hstreams hplaced⟩
  have hlabelled := keeps_placeOn_labelled u stage pipeline next u (.refl hu.1)
  exact ⟨hlabelled.sound, hu.2.labelled hlabelled⟩

/-- Withdrawing right after serving gives the streams back. -/
theorem restores_of_on_withdraw (hstreams : S.SoundAt .imageStream)
    (hfree : S.IsUnlabelled stage.label)
    (hplaced : (serve stage).on S = (.ok (), t))
    (hwithdrawn : (withdraw stage).on t = (.ok (), T)) : S.Restores T := by
  have hlabelled := labelled_serve stage hstreams
  have helsewhere (k : Kind) (key : Key) (hkind : k ≠ .imageStream) :=
    find?_serve_of_ne hkind S stage key
  rw [hplaced] at hlabelled helsewhere
  obtain ⟨keys, rfl, -, hkeys⟩ := Stage.on_withdraw_of_ok hlabelled.sound hwithdrawn
  obtain ⟨pipeline, hpipeline, -⟩ := isPlaced_of_on_serve hstreams hplaced
  -- The label is on streams alone that the stage reaches, so that no stream is left with it.
  have hconfined : S.ConfinesFrom stage pipeline t := by
    have hserve : (serve stage).Keeps (S.ConfinesFrom stage pipeline) :=
      keeps_serve_confinesFrom fun other hother ↦ by
        obtain rfl := Option.some.inj (hpipeline.symm.trans hother)
        exact ⟨fun _ ↦ id, fun _ _ ↦ id⟩
    have hkept := hserve S ⟨hstreams, fun _ ↦ rfl, fun key stream hfound hlabel ↦
      nomatch hlabel.symm.trans (hfree _ _ hfound)⟩
    rwa [hplaced] at hkept
  refine ⟨hlabelled.restored hfree fun key stream hfound hlabel ↦ ?_, fun k key hkind ↦ ?_⟩
  · refine (hkeys key).mpr ⟨pipeline, ?_, hconfined.confines hfound hlabel⟩
    rw [hconfined.pipelines, hpipeline]
  · rw [Store.find?_unlabelAll_of_ne hkind, helsewhere k key hkind]

/-- Placing the label of a stage that no stream carries puts it where the stage deploys from, and
withdrawing it right afterwards gives the cluster back. -/
theorem withdraw_undoes_serve {b placed last : Bench} (hserving : b.IsServing)
    (hstreams : b.store.SoundAt .imageStream)
    (hfree : b.store.IsUnlabelled stage.label)
    (hplaced : (serve stage).onBench b = (.ok (), placed))
    (hwithdrawn : (withdraw stage).onBench placed = (.ok (), last)) :
    (∃ pipeline, b.store.find? .pipeline stage.pipelineKey = some pipeline ∧
      ∀ name ∈ pipeline.spec.inputStreams, IsPlaced stage pipeline name placed.store) ∧
    b.store.Restores last.store := by
  obtain ⟨hresult, hstore, hserving'⟩ := onBench_eq (serve stage) hserving
  rw [hplaced] at hresult hstore hserving'
  obtain ⟨hresult', hstore', -⟩ := onBench_eq (withdraw stage) hserving'
  rw [hwithdrawn] at hresult' hstore'
  have hserve : (serve stage).on b.store = (.ok (), placed.store) :=
    Prod.ext hresult.symm hstore.symm
  have hwithdraw : (withdraw stage).on placed.store = (.ok (), last.store) :=
    Prod.ext hresult'.symm hstore'.symm
  exact ⟨isPlaced_of_on_serve hstreams hserve,
    restores_of_on_withdraw hstreams hfree hserve hwithdraw⟩

/-- A later stage of a codebase that is not promoted: the input stream gets the label and loses it,
and the verified stream of the stage before never has it. -/
theorem withdraw_undoes_serve_withVerified : ∃ placed last : Bench,
    Bench.withVerified.store.IsUnlabelled (Fixture.promotionStage "qa" "ci" "p" 1 "dev").label ∧
    (serve (Fixture.promotionStage "qa" "ci" "p" 1 "dev")).onBench Bench.withVerified =
      (.ok (), placed) ∧
    (withdraw (Fixture.promotionStage "qa" "ci" "p" 1 "dev")).onBench placed = (.ok (), last) ∧
    Bench.withVerified.store.Restores last.store := by
  have hfree : Bench.withVerified.store.IsUnlabelled
      (Fixture.promotionStage "qa" "ci" "p" 1 "dev").label := Bench.isUnlabelled_withVerified
  have hplaced : (serve (Fixture.promotionStage "qa" "ci" "p" 1 "dev")).onBench
      Bench.withVerified = (.ok (), _) := Prod.ext rfl rfl
  have hwithdrawn : (withdraw (Fixture.promotionStage "qa" "ci" "p" 1 "dev")).onBench
      ((serve (Fixture.promotionStage "qa" "ci" "p" 1 "dev")).onBench Bench.withVerified).2 =
      (.ok (), _) := Prod.ext rfl rfl
  exact ⟨_, _, hfree, hplaced, hwithdrawn, (withdraw_undoes_serve ⟨rfl, rfl, rfl⟩
    (Bench.sound_withVerified.soundAt _) hfree hplaced hwithdrawn).2⟩

end EnvironmentLabel

end PipelineOperator
