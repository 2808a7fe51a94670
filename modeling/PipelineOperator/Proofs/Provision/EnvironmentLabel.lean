import PipelineOperator.Proofs.Provision.Site

/-!
Placing environment labels settles and absorbs failures. Which stream a label goes on depends on the
codebase of the input stream and on nothing that labels change; once the stream carries the label
the step only reads.
-/

set_option autoImplicit false
set_option relaxedAutoImplicit false

namespace PipelineOperator

namespace EnvironmentLabel

open Operation

variable {z : Site} {stage : Stage} {pipeline : Pipeline} {inputName label : String}
  {s t : Store}

/-! ### One stream -/

theorem on_set (hstreams : s.SoundAt .imageStream) {stream : ImageStream}
    (hfound : s.find? .imageStream stream.key = some stream) :
    (set label stream).on s = (.ok (), s.put (stream.withLabel label)) := by
  unfold set
  cases hlabel : stream.metadata.labelMap.contains label with
  | true =>
    rw [Object.withLabel_of_hasLabel hlabel, Store.put_of_find? hfound]
    rfl
  | false =>
    have hheld : stream.metadata.isReleased = false := hstreams.held hfound
    have hreplaced : (replace { stream with metadata := stream.metadata.setLabel label "" }).on s =
        _ := Store.replace_of_found (o := { stream with
          metadata := stream.metadata.setLabel label "" }) hfound hheld
    rw [Object.withLabel_of_lacks hlabel]
    exact on_bind_of_ok hreplaced _

theorem rests_set {stream : ImageStream} {result : Except Fault Unit} :
    (set label stream).Rests s result ↔ stream.hasLabel label = true ∧ result = .ok () := by
  unfold set
  cases hlabel : stream.metadata.labelMap.contains label with
  | true => exact ⟨fun hrests ↦ ⟨hlabel, hrests⟩, fun h ↦ h.2⟩
  | false =>
    constructor
    · intro hrests
      exact nomatch hrests.1
    · rintro ⟨hcontra, -⟩
      exact nomatch hlabel.symm.trans hcontra

theorem atomic_set (stream : ImageStream) : (set label stream).Atomic := by
  unfold set
  split
  · exact atomic_pure ()
  · exact (atomic_ask _).map _

/-! ### The stream from which the stage deploys -/

theorem asks_previousStream {allowed : Request → Prop} {codebase : String}
    (hget : ∀ key, allowed (.get .imageStream key)) :
    (previousStream stage codebase).Asks allowed := by
  unfold previousStream Stage.previousName
  cases stage.previousName? with
  | none => exact asks_fail _
  | some previous => exact asks_require (hget _)

/-- The stream on which the label of an input stream is to be placed. -/
def Places (stage : Stage) (pipeline : Pipeline) (inputName : String) (s : Store)
    (stream : ImageStream) : Prop :=
  ∃ input key, s.find? .imageStream ⟨stage.metadata.namespaceOrEmpty, inputName⟩ = some input ∧
    source? stage pipeline inputName input.spec.codebase = some key ∧
    s.find? .imageStream key = some stream

theorem places_unique {stream stream' : ImageStream}
    (hplaces : Places stage pipeline inputName s stream)
    (hplaces' : Places stage pipeline inputName s stream') : stream = stream' := by
  obtain ⟨input, key, hinput, hsource, hstream⟩ := hplaces
  obtain ⟨input', key', hinput', hsource', hstream'⟩ := hplaces'
  obtain rfl := Option.some.inj (hinput.symm.trans hinput')
  obtain rfl := Option.some.inj (hsource.symm.trans hsource')
  exact Option.some.inj (hstream.symm.trans hstream')

/-- Without such a stream the step fails before it writes. -/
theorem rests_placeOn_of_not_places
    (hnone : ∀ stream, ¬ Places stage pipeline inputName s stream) :
    ∃ e, (placeOn stage pipeline inputName).Rests s (.error e) := by
  unfold placeOn VerifiedStreams.input
  simp only [rests_require_bind]
  cases hinput : s.find? .imageStream ⟨stage.metadata.namespaceOrEmpty, inputName⟩ with
  | none => exact ⟨_, rfl⟩
  | some input =>
    by_cases hdirect : (stage.isFirst || !pipeline.spec.promotes input.spec.codebase) = true
    · exact absurd ⟨input, _, hinput, if_pos hdirect, hinput⟩ (hnone input)
    · simp only [if_neg hdirect]
      unfold previousStream Stage.previousName
      cases hprevious : stage.previousName? with
      | none => exact ⟨_, rests_bind.mpr (.inr ⟨_, rfl, rfl⟩)⟩
      | some previous =>
        simp only [pure_bind, rests_require_bind]
        cases hverified : s.find? .imageStream ⟨stage.metadata.namespaceOrEmpty,
            Naming.verifiedStream stage.spec.pipeline previous input.spec.codebase⟩ with
        | none => exact ⟨_, rfl⟩
        | some stream =>
          refine absurd ⟨input, _, hinput, ?_, hverified⟩ (hnone stream)
          rw [source?, if_neg hdirect, hprevious]
          rfl

/-- With such a stream the step is to label it. -/
theorem placeOn_of_places {stream : ImageStream}
    (hplaces : Places stage pipeline inputName s stream) :
    (placeOn stage pipeline inputName).on s = (set stage.label stream).on s ∧
      ∀ r, (placeOn stage pipeline inputName).Rests s r ↔ (set stage.label stream).Rests s r := by
  obtain ⟨input, key, hinput, hsource, hstream⟩ := hplaces
  unfold placeOn VerifiedStreams.input
  simp only [on_require_bind, rests_require_bind, hinput]
  by_cases hdirect : (stage.isFirst || !pipeline.spec.promotes input.spec.codebase) = true
  · simp only [if_pos hdirect]
    rw [source?, if_pos hdirect, Option.some.injEq] at hsource
    obtain rfl := hsource
    obtain rfl := Option.some.inj (hinput.symm.trans hstream)
    exact ⟨rfl, fun r ↦ Iff.rfl⟩
  · simp only [if_neg hdirect]
    rw [source?, if_neg hdirect] at hsource
    obtain ⟨previous, hprevious, rfl⟩ := Option.map_eq_some_iff.mp hsource
    unfold previousStream Stage.previousName
    simp only [hprevious, pure_bind, on_require_bind, rests_require_bind, hstream, implies_true,
      and_self]

theorem atomic_placeOn (stage : Stage) (pipeline : Pipeline) (inputName : String) :
    (placeOn stage pipeline inputName).Atomic := by
  refine Atomic.bind (atomic_require _ _) (asks_require rfl) fun input ↦ ?_
  split
  · exact atomic_set input
  · refine Atomic.bind ?_ ?_ fun verified ↦ atomic_set verified
    · unfold previousStream Stage.previousName
      cases stage.previousName? with
      | none => exact atomic_fail _
      | some previous => exact atomic_require _ _
    · exact asks_previousStream fun _ ↦ rfl

/-! ### Settling -/

/-- Later on the label still goes on what is then found under the same key. -/
theorem Places.later (hleads : z.Leads s t) {stream stream' : ImageStream} (hsound : s.Sound)
    (hplaces : Places z.stage pipeline inputName s stream)
    (hfound : t.find? .imageStream stream.key = some stream') :
    Places z.stage pipeline inputName t stream' := by
  obtain ⟨input, key, hinput, hsource, hstream⟩ := hplaces
  obtain ⟨input', hinput', hspec⟩ := Option.map_eq_some_iff.mp
    (hleads.codebaseAt inputName input.spec.codebase
      (Option.map_eq_some_iff.mpr ⟨input, hinput, rfl⟩))
  exact ⟨input', key, hinput', hspec ▸ hsource, hsound.keyed hstream ▸ hfound⟩

theorem Places.found (hstreams : s.SoundAt .imageStream) {stream : ImageStream}
    (hplaces : Places stage pipeline inputName s stream) :
    s.find? .imageStream stream.key = some stream := by
  obtain ⟨input, key, hinput, hsource, hstream⟩ := hplaces
  rw [hstreams.keyed hstream, hstream]

/-- Where the labelling succeeds without a write, the label is there. -/
theorem rests_placeOn : (placeOn stage pipeline inputName).Rests s (.ok ()) ↔
    ∃ stream, Places stage pipeline inputName s stream ∧ stream.hasLabel stage.label = true := by
  by_cases hplaces : ∃ stream, Places stage pipeline inputName s stream
  · obtain ⟨stream, hplaces⟩ := hplaces
    rw [(placeOn_of_places hplaces).2, rests_set]
    constructor
    · rintro ⟨hlabel, -⟩
      exact ⟨stream, hplaces, hlabel⟩
    · rintro ⟨stream', hplaces', hlabel⟩
      exact ⟨places_unique hplaces' hplaces ▸ hlabel, rfl⟩
  · obtain ⟨e, hrests⟩ := rests_placeOn_of_not_places fun stream h ↦ hplaces ⟨stream, h⟩
    constructor
    · intro hok
      exact nomatch hrests.unique hok
    · rintro ⟨stream, h, -⟩
      exact absurd ⟨stream, h⟩ hplaces

/-- The one write of a step. -/
theorem on_placeOn (hstreams : s.SoundAt .imageStream) {stream : ImageStream}
    (hplaces : Places stage pipeline inputName s stream) :
    (placeOn stage pipeline inputName).on s = (.ok (), s.put (stream.withLabel stage.label)) := by
  rw [(placeOn_of_places hplaces).1, on_set hstreams (hplaces.found hstreams)]

theorem leads_placeOn (hauto : z.stage.spec.trigger = .auto)
    (hpipeline : z.pipeline? = some pipeline) (hname : inputName ∈ pipeline.spec.inputStreams)
    (hsound : s.Sound) {stream : ImageStream}
    (hplaces : Places z.stage pipeline inputName s stream) :
    z.Leads s (s.put (stream.withLabel z.stage.label)) := by
  refine Site.leads_alter hsound (hplaces.found (hsound.soundAt _)) (.inr ⟨⟨hauto, ?_⟩, rfl⟩)
  obtain ⟨input, key, hinput, hsource, hstream⟩ := hplaces
  refine ⟨pipeline, inputName, _, ⟨hpipeline, hname,
    Option.map_eq_some_iff.mpr ⟨input, hinput, rfl⟩⟩, ?_⟩
  rw [hsound.keyed hstream, hsource]

theorem settles_placeOn (hauto : z.stage.spec.trigger = .auto)
    (hpipeline : z.pipeline? = some pipeline) (hname : inputName ∈ pipeline.spec.inputStreams) :
    (placeOn z.stage pipeline inputName).Settles z.development := by
  constructor
  · intro s hdom
    by_cases hplaces : ∃ stream, Places z.stage pipeline inputName s stream
    · obtain ⟨stream, hplaces⟩ := hplaces
      rw [on_placeOn (hdom.sound.soundAt _) hplaces]
      exact leads_placeOn hauto hpipeline hname hdom.sound hplaces
    · obtain ⟨e, hrests⟩ := rests_placeOn_of_not_places fun stream h ↦ hplaces ⟨stream, h⟩
      rw [hrests.on]
      exact .refl hdom.sound
  · intro s hdom
    by_cases hplaces : ∃ stream, Places z.stage pipeline inputName s stream
    · obtain ⟨stream, hplaces⟩ := hplaces
      rw [on_placeOn (hdom.sound.soundAt _) hplaces, rests_placeOn]
      have hleads := leads_placeOn hauto hpipeline hname hdom.sound hplaces
      have hkey : (stream.withLabel z.stage.label).key = stream.key := Object.key_withLabel
      refine ⟨stream.withLabel z.stage.label, hplaces.later hleads hdom.sound ?_,
        Object.hasLabel_withLabel⟩
      rw [← hkey, Store.find?_put_self]
    · obtain ⟨e, hrests⟩ := rests_placeOn_of_not_places fun stream h ↦ hplaces ⟨stream, h⟩
      rw [hrests.on]
      exact hrests
  · intro s t hdom hrests hleads
    rw [rests_placeOn] at hrests ⊢
    obtain ⟨stream, hplaces, hlabel⟩ := hrests
    obtain ⟨stream', hfound, halters⟩ := hleads.found (hplaces.found (hdom.sound.soundAt _))
    refine ⟨stream', hplaces.later hleads hdom.sound hfound, ?_⟩
    rcases halters with rfl | ⟨-, rfl⟩
    · exact hlabel
    · exact Object.hasLabel_withLabel

theorem settles_serve (hauto : z.stage.spec.trigger = .auto) :
    (serve z.stage).Settles z.development :=
  settles_require_bind (fun hdom ↦ Site.Leads.pipeline hdom) fun _ hpipeline ↦
    settles_forM fun _ hname ↦ settles_placeOn hauto hpipeline hname

theorem asks_placeOn {allowed : Request → Prop} (hget : ∀ key, allowed (.get .imageStream key))
    (hreplace : ∀ o : ImageStream, allowed (.replace .imageStream o)) :
    (placeOn stage pipeline inputName).Asks allowed := by
  have hset (stream : ImageStream) : (set stage.label stream).Asks allowed := by
    unfold set
    split
    · exact asks_pure ()
    · exact (asks_ask (hreplace _)).bind fun _ ↦ asks_pure ()
  refine (asks_require (hget _)).bind fun input ↦ ?_
  split
  · exact hset input
  · exact (asks_previousStream hget).bind fun verified ↦ hset verified

theorem asks_serve {allowed : Request → Prop} (hpipeline : ∀ key, allowed (.get .pipeline key))
    (hget : ∀ key, allowed (.get .imageStream key))
    (hreplace : ∀ o : ImageStream, allowed (.replace .imageStream o)) :
    (serve stage).Asks allowed :=
  (asks_require (hpipeline _)).bind fun _ ↦ asks_forM fun _ _ ↦ asks_placeOn hget hreplace

theorem absorbs_serve (hauto : z.stage.spec.trigger = .auto) {hidden : Kind → Prop}
    (hshown : ¬ hidden .imageStream) : (serve z.stage).Absorbs z.development hidden :=
  absorbs_require_bind (fun hdom ↦ Site.Leads.pipeline hdom) fun _ hpipeline ↦
    absorbs_forM fun _ hname ↦ (settles_placeOn hauto hpipeline hname).absorbs
      (atomic_placeOn _ _ _) (asks_placeOn (fun _ ↦ hshown) fun _ ↦ hshown)

end EnvironmentLabel

end PipelineOperator
