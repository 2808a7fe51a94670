import PipelineOperator.Proofs.Provision.Keeping

/-!
Image streams outlast what is done for stages. When no call fails, each step of a handler leaves
every stream where it was, with its specification; streams may be created, and labels change
(`Operation.KeepsStreams`). So what a handler found on its way is still there when its chain is
done: the input streams and the verified streams of the stage (`VerifiedStreams.found_of_on_serve`),
and the streams from which the stage deploys (`EnvironmentLabel.places_of_on_serve`).
-/

set_option autoImplicit false
set_option relaxedAutoImplicit false

namespace PipelineOperator

open Operation

variable {s t u : Store} {stage : Stage} {pipeline : Pipeline} {context : Context}
  {inputName image : String} {P : Store → Prop} {α : Type}

namespace Store

/-- Every stream that was not about to vanish is there later on, with its specification. -/
def StreamsLast (s t : Store) : Prop :=
  ∀ ⦃key : Key⦄ ⦃stream : ImageStream⦄, s.find? .imageStream key = some stream →
    stream.metadata.isReleased = false → ∃ stream' : ImageStream,
      t.find? .imageStream key = some stream' ∧ stream'.metadata.isReleased = false ∧
        stream'.spec = stream.spec

theorem StreamsLast.refl (s : Store) : s.StreamsLast s :=
  fun _ stream hfound hheld ↦ ⟨stream, hfound, hheld, rfl⟩

theorem StreamsLast.trans (hfirst : s.StreamsLast t) (hsecond : t.StreamsLast u) :
    s.StreamsLast u := by
  intro key stream hfound hheld
  obtain ⟨stream', hfound', hheld', hspec⟩ := hfirst hfound hheld
  obtain ⟨stream'', hfound'', hheld'', hspec'⟩ := hsecond hfound' hheld'
  exact ⟨stream'', hfound'', hheld'', hspec'.trans hspec⟩

/-- Among held streams all are found later on. -/
theorem StreamsLast.found (hlast : s.StreamsLast t) (hstreams : s.SoundAt .imageStream) {key : Key}
    {stream : ImageStream} (hfound : s.find? .imageStream key = some stream) :
    ∃ stream' : ImageStream, t.find? .imageStream key = some stream' ∧
      stream'.spec = stream.spec := by
  obtain ⟨stream', hfound', -, hspec⟩ := hlast hfound (hstreams.held hfound)
  exact ⟨stream', hfound', hspec⟩

theorem streamsLast_create (o : ImageStream) : s.StreamsLast (s.create o).2 :=
  fun _ stream hfound hheld ↦ ⟨stream, find?_create_of_found s o hfound, hheld, rfl⟩

theorem streamsLast_put {o stored : ImageStream} (hfound : s.find? .imageStream o.key = some stored)
    (hheld : o.metadata.isReleased = false) (hspec : o.spec = stored.spec) :
    s.StreamsLast (s.put o) := by
  intro key stream hstream hstreamHeld
  rw [find?_put]
  split
  · next hhere =>
    obtain rfl := Option.some.inj (hfound.symm.trans (hhere ▸ hstream))
    exact ⟨o, rfl, hheld, hspec⟩
  · exact ⟨stream, hstream, hstreamHeld, rfl⟩

theorem streamsLast_put_of_ne {k : Kind} (hk : .imageStream ≠ k) (o : Object k) :
    s.StreamsLast (s.put o) := fun key stream hfound hheld ↦
  ⟨stream, by rw [find?_put_of_kind_ne s o hk, hfound], hheld, rfl⟩

theorem streamsLast_unlabelAll (hstreams : s.SoundAt .imageStream) (label : String)
    (keys : List Key) : s.StreamsLast (unlabelAll label s keys) := by
  intro key stream hfound hheld
  rw [find?_unlabelAll hstreams, hfound]
  split
  · exact ⟨stream.withoutLabel label, rfl, Object.isReleased_withoutLabel.trans hheld,
      Object.spec_withoutLabel⟩
  · exact ⟨stream, rfl, hheld, rfl⟩

end Store

namespace Operation

/-- On a store whose streams are held, every stream stays where it is and is held. -/
def KeepsStreams (op : Operation α) : Prop :=
  ∀ s : Store, s.SoundAt .imageStream →
    (op.on s).2.SoundAt .imageStream ∧ s.StreamsLast (op.on s).2

/-- Along with the streams stays what follows from their being there. -/
theorem KeepsStreams.keeps {op : Operation α} (hop : op.KeepsStreams)
    (hlasts : ∀ s t : Store, s.SoundAt .imageStream → s.StreamsLast t → P s → P t) :
    op.Keeps (fun t ↦ t.SoundAt .imageStream ∧ P t) := by
  intro s hbefore
  obtain ⟨hstreams, hlast⟩ := hop s hbefore.1
  exact ⟨hstreams, hlasts s _ hbefore.1 hlast hbefore.2⟩

theorem keepsStreams_iff {op : Operation α} :
    op.KeepsStreams ↔ ∀ s : Store, op.Keeps (fun t ↦ t.SoundAt .imageStream ∧ s.StreamsLast t) :=
  ⟨fun hop _ ↦ hop.keeps fun _ _ _ hlast hbefore ↦ hbefore.trans hlast,
    fun hop s hstreams ↦ hop s s ⟨hstreams, .refl s⟩⟩

end Operation

/-- That streams are sound and last is a matter of the streams. -/
theorem Store.dependsOn_streams (s : Store) :
    DependsOn (· = .imageStream) (fun t ↦ t.SoundAt .imageStream ∧ s.StreamsLast t) := by
  intro t u htables ⟨hstreams, hlast⟩
  have hsame (key : Key) : u.find? .imageStream key = t.find? .imageStream key := by
    rw [find?, htables _ rfl]
    rfl
  refine ⟨⟨fun key o h ↦ hstreams.keyed (hsame key ▸ h),
    fun {key o} h ↦ hstreams.held (hsame key ▸ h)⟩, fun key stream hfound hheld ↦ ?_⟩
  rw [hsame]
  exact hlast hfound hheld

/-- Every image stream is still there as it was. -/
def Store.Grows (s t : Store) : Prop :=
  ∀ key stream, s.find? .imageStream key = some stream → t.find? .imageStream key = some stream

theorem Store.dependsOn_grows (s : Store) : DependsOn (· = .imageStream) s.Grows := by
  intro t u htables hgrows key stream hfound
  have hsame : u.find? .imageStream key = t.find? .imageStream key := by
    rw [find?, htables _ rfl]
    rfl
  rw [hsame]
  exact hgrows key stream hfound

namespace VerifiedStreams

theorem isReleased_build (name codebase image : String) :
    (build stage name codebase image).metadata.isReleased = false := rfl

theorem keepsStreams_provide : (provide stage image inputName).KeepsStreams := by
  intro s hstreams
  cases hinput : s.find? .imageStream ⟨stage.metadata.namespaceOrEmpty, inputName⟩ with
  | none =>
    rw [on_provide_of_absent hinput]
    exact ⟨hstreams, .refl s⟩
  | some input =>
    rw [on_provide_of_found hinput]
    refine ⟨?_, Store.streamsLast_create _⟩
    cases hfound : s.find? .imageStream
        (build stage (name stage input.spec.codebase) input.spec.codebase image).key with
    | some stored => rwa [Store.create_of_found hfound]
    | none =>
      rw [Store.create_of_absent hfound]
      exact hstreams.put (isReleased_build ..)

/-- Serving keeps what each of its steps keeps for the pipeline of the stage. -/
theorem keeps_serve {kinds : Kind → Prop} (hP : Store.DependsOn kinds P)
    (hprovide : ∀ s pipeline, P s → s.find? .pipeline stage.pipelineKey = some pipeline →
      ∀ image, ∀ inputName ∈ pipeline.spec.inputStreams,
        (provide stage image inputName).Keeps P) :
    (serve stage).Keeps P := by
  refine keeps_require_bind fun s pipeline hbefore hpipeline ↦ ?_
  split
  · exact hbefore
  · refine Keeps.bind ?_
      (fun url ↦ keeps_forM fun name hname ↦ hprovide s pipeline hbefore hpipeline _ name hname)
      s hbefore
    have hregistry : (registry stage.metadata.namespaceOrEmpty).Asks
        (fun request ↦ kinds request.kind → request.isRead = true) :=
      (asks_require fun _ ↦ rfl).bind fun _ ↦ asks_pure _
    exact hregistry.keeps_of_reads hP

theorem keepsStreams_serve : (serve stage).KeepsStreams :=
  keepsStreams_iff.mpr fun s ↦ keeps_serve s.dependsOn_streams fun _ _ _ _ _ _ _ ↦
    keepsStreams_iff.mp keepsStreams_provide s

theorem keeps_provide_grows (s : Store) : (provide stage image inputName).Keeps s.Grows := by
  intro t hgrows
  cases hinput : t.find? .imageStream ⟨stage.metadata.namespaceOrEmpty, inputName⟩ with
  | none =>
    rw [on_provide_of_absent hinput]
    exact hgrows
  | some input =>
    rw [on_provide_of_found hinput]
    exact fun key stream hfound ↦ Store.find?_create_of_found t _ (hgrows key stream hfound)

/-- There is the input stream of the name, and the verified stream that belongs to it. -/
def HasStreams (stage : Stage) (inputName : String) (s : Store) : Prop :=
  ∃ input : ImageStream,
    s.find? .imageStream ⟨stage.metadata.namespaceOrEmpty, inputName⟩ = some input ∧
      ∃ verified, s.find? .imageStream (key stage input.spec.codebase) = some verified

theorem HasStreams.last (hstreams : s.SoundAt .imageStream) (hlast : s.StreamsLast t)
    (hhas : HasStreams stage inputName s) : HasStreams stage inputName t := by
  obtain ⟨input, hinput, verified, hverified⟩ := hhas
  obtain ⟨input', hinput', hspec⟩ := hlast.found hstreams hinput
  obtain ⟨verified', hverified', -⟩ := hlast.found hstreams hverified
  exact ⟨input', hinput', verified', hspec ▸ hverified'⟩

theorem HasStreams.grows (hgrows : s.Grows t) (hhas : HasStreams stage inputName s) :
    HasStreams stage inputName t := by
  obtain ⟨input, hinput, verified, hverified⟩ := hhas
  exact ⟨input, hgrows _ _ hinput, verified, hgrows _ _ hverified⟩

theorem hasStreams_of_on_provide (hok : (provide stage image inputName).on s = (.ok (), t)) :
    HasStreams stage inputName t := by
  cases hinput : s.find? .imageStream ⟨stage.metadata.namespaceOrEmpty, inputName⟩ with
  | none => exact nomatch congrArg Prod.fst ((on_provide_of_absent hinput).symm.trans hok)
  | some input =>
    obtain rfl := congrArg Prod.snd ((on_provide_of_found hinput).symm.trans hok)
    exact ⟨input, Store.find?_create_of_found s _ hinput,
      Store.find?_create_self s (build stage _ input.spec.codebase image)⟩

/-- A stream that is found after a verified stream was provided was there before, or it is the
one that was built. -/
theorem found_or_built_of_on_provide {key : Key} {stream : ImageStream}
    (hfound : ((provide stage image inputName).on s).2.find? .imageStream key = some stream) :
    s.find? .imageStream key = some stream ∨ ∃ input : ImageStream,
      s.find? .imageStream ⟨stage.metadata.namespaceOrEmpty, inputName⟩ = some input ∧
        stream = build stage (name stage input.spec.codebase) input.spec.codebase image := by
  cases hinput : s.find? .imageStream ⟨stage.metadata.namespaceOrEmpty, inputName⟩ with
  | none =>
    rw [on_provide_of_absent hinput] at hfound
    exact .inl hfound
  | some input =>
    rw [on_provide_of_found hinput] at hfound
    cases htaken : s.find? .imageStream
        (build stage (name stage input.spec.codebase) input.spec.codebase image).key with
    | some stored =>
      rw [Store.create_of_found htaken] at hfound
      exact .inl hfound
    | none =>
      rw [Store.create_of_absent htaken, Store.find?_put] at hfound
      split at hfound
      · exact .inr ⟨input, rfl, (Option.some.inj hfound).symm⟩
      · exact .inl hfound

/-- Where serving succeeded, no stream was touched and there are the verified streams. -/
theorem found_of_on_serve (hok : (serve stage).on s = (.ok (), t)) :
    s.Grows t ∧ ∃ pipeline, s.find? .pipeline stage.pipelineKey = some pipeline ∧
      ∀ name ∈ pipeline.spec.inputStreams, HasStreams stage name t := by
  constructor
  · have hgrows : (serve stage).Keeps s.Grows :=
      keeps_serve s.dependsOn_grows fun _ _ _ _ _ _ _ ↦ keeps_provide_grows s
    have hkept := hgrows s fun _ _ ↦ id
    rwa [hok] at hkept
  obtain ⟨pipeline, hpipeline, hprovided⟩ := exists_of_on_require_bind hok
  refine ⟨pipeline, hpipeline, ?_⟩
  split at hprovided
  · exact nomatch congrArg Prod.fst hprovided
  · unfold registry at hprovided
    rw [bind_assoc] at hprovided
    obtain ⟨_, -, hprovided⟩ := exists_of_on_require_bind hprovided
    exact forM_establishes (I := fun _ ↦ True) (f := provide stage _) (fun _ _ _ _ ↦ trivial)
      (fun name _ s t _ hdone ↦ hasStreams_of_on_provide hdone)
      (fun name _ next _ u hu ↦ ⟨trivial, hu.2.grows (keeps_provide_grows u u fun _ _ ↦ id)⟩)
      trivial hprovided

end VerifiedStreams

namespace EnvironmentLabel

theorem keepsStreams_placeOn : (placeOn stage pipeline inputName).KeepsStreams := by
  intro s hstreams
  by_cases hplaces : ∃ stream, Places stage pipeline inputName s stream
  · obtain ⟨stream, hplaces⟩ := hplaces
    have hfound := hplaces.found hstreams
    have hheld : (stream.withLabel stage.label).metadata.isReleased = false :=
      Object.isReleased_withLabel.trans (hstreams.held hfound)
    have hstored : s.find? .imageStream (stream.withLabel stage.label).key = some stream := by
      rw [Object.key_withLabel, hfound]
    rw [on_placeOn hstreams hplaces]
    exact ⟨hstreams.put hheld, Store.streamsLast_put hstored hheld Object.spec_withLabel⟩
  · obtain ⟨e, hrests⟩ := rests_placeOn_of_not_places fun stream h ↦ hplaces ⟨stream, h⟩
    rw [hrests.on]
    exact ⟨hstreams, .refl s⟩

theorem keepsStreams_serve : (serve stage).KeepsStreams :=
  keepsStreams_iff.mpr fun s ↦ keeps_require_bind fun t _ hbefore _ ↦
    keeps_forM (fun _ _ ↦ keepsStreams_iff.mp keepsStreams_placeOn s) t hbefore

theorem keepsStreams_cleanFrom : (cleanFrom stage pipeline inputName).KeepsStreams := by
  intro s hstreams
  by_cases hcleans : ∃ keys, Cleans stage pipeline inputName s keys
  · obtain ⟨keys, hcleans⟩ := hcleans
    rw [on_cleanFrom hstreams hcleans]
    exact ⟨hstreams.unlabelAll hstreams keys, Store.streamsLast_unlabelAll hstreams _ keys⟩
  · obtain ⟨cause, -, hrests⟩ := rests_cleanFrom_of_not_cleans fun keys h ↦ hcleans ⟨keys, h⟩
    rw [hrests.on]
    exact ⟨hstreams, .refl s⟩

theorem keepsStreams_withdraw : (withdraw stage).KeepsStreams := by
  refine keepsStreams_iff.mpr fun s ↦ keeps_get_bind fun t hbefore ↦ ?_
  split
  · exact hbefore
  · exact keeps_forM (fun _ _ ↦ keepsStreams_iff.mp keepsStreams_cleanFrom s) t hbefore

/-- A stream that is found after labelling was there before, or it is the one that was labelled. -/
theorem found_or_labelled_of_on_placeOn (hstreams : s.SoundAt .imageStream) {key : Key}
    {stream' : ImageStream}
    (hfound : ((placeOn stage pipeline inputName).on s).2.find? .imageStream key = some stream') :
    s.find? .imageStream key = some stream' ∨ ∃ stream,
      Places stage pipeline inputName s stream ∧ s.find? .imageStream key = some stream ∧
        stream' = stream.withLabel stage.label := by
  by_cases hplaces : ∃ stream, Places stage pipeline inputName s stream
  · obtain ⟨stream, hplaces⟩ := hplaces
    rw [on_placeOn hstreams hplaces, Store.find?_put, Object.key_withLabel] at hfound
    split at hfound
    · next hhere =>
      exact .inr ⟨stream, hplaces, hhere ▸ hplaces.found hstreams, (Option.some.inj hfound).symm⟩
    · exact .inl hfound
  · obtain ⟨e, hrests⟩ := rests_placeOn_of_not_places fun stream h ↦ hplaces ⟨stream, h⟩
    rw [hrests.on] at hfound
    exact .inl hfound

theorem Places.last (hstreams : s.SoundAt .imageStream) (hlast : s.StreamsLast t)
    (hplaces : ∃ stream, Places stage pipeline inputName s stream) :
    ∃ stream, Places stage pipeline inputName t stream := by
  obtain ⟨stream, input, key, hinput, hsource, hstream⟩ := hplaces
  obtain ⟨input', hinput', hspec⟩ := hlast.found hstreams hinput
  obtain ⟨stream', hstream', -⟩ := hlast.found hstreams hstream
  exact ⟨stream', input', key, hinput', hspec ▸ hsource, hstream'⟩

theorem places_of_on_placeOn (hstreams : s.SoundAt .imageStream)
    (hok : (placeOn stage pipeline inputName).on s = (.ok (), t)) :
    ∃ stream, Places stage pipeline inputName t stream := by
  by_cases hplaces : ∃ stream, Places stage pipeline inputName s stream
  · have hlast : s.StreamsLast ((placeOn stage pipeline inputName).on s).2 :=
      (keepsStreams_placeOn s hstreams).2
    rw [hok] at hlast
    exact Places.last hstreams hlast hplaces
  · obtain ⟨e, hrests⟩ := rests_placeOn_of_not_places fun stream h ↦ hplaces ⟨stream, h⟩
    exact nomatch congrArg Prod.fst (hrests.on.symm.trans hok)

/-- Where labelling succeeded, there are the streams from which the stage deploys. -/
theorem places_of_on_serve (hstreams : s.SoundAt .imageStream)
    (hok : (serve stage).on s = (.ok (), t)) :
    ∃ pipeline, s.find? .pipeline stage.pipelineKey = some pipeline ∧
      ∀ name ∈ pipeline.spec.inputStreams, ∃ stream, Places stage pipeline name t stream := by
  obtain ⟨pipeline, hpipeline, hplaced⟩ := exists_of_on_require_bind hok
  exact ⟨pipeline, hpipeline, forM_establishes (I := fun t ↦ t.SoundAt .imageStream)
    (fun name _ s hs ↦ (keepsStreams_placeOn s hs).1)
    (fun name _ s t hs hdone ↦ places_of_on_placeOn hs hdone)
    (fun name _ next _ ↦ keepsStreams_placeOn.keeps fun _ _ hs hlast ↦ Places.last hs hlast)
    hstreams hplaced⟩

end EnvironmentLabel

/-! ### The chain -/

/-- The pipelines are those of the store. -/
def Store.SamePipelines (s t : Store) : Prop :=
  ∀ key, t.find? .pipeline key = s.find? .pipeline key

theorem Store.dependsOn_pipelines (s : Store) : DependsOn (· = .pipeline) s.SamePipelines := by
  intro t u htables hsame key
  rw [find?, htables .pipeline rfl]
  exact hsame key

/-- Labels are placed and withdrawn without writing pipelines. -/
theorem EnvironmentLabel.keeps_samePipelines (s : Store) (stage : Stage) :
    (serve stage).Keeps s.SamePipelines ∧ (withdraw stage).Keeps s.SamePipelines :=
  ⟨(asks_serve (fun _ _ ↦ rfl) (fun _ _ ↦ rfl) fun _ ↦ nofun).keeps_of_reads s.dependsOn_pipelines,
    (asks_withdraw (fun _ _ ↦ rfl) (fun _ _ ↦ rfl) fun _ ↦ nofun).keeps_of_reads
      s.dependsOn_pipelines⟩

namespace Chain

theorem keeps_samePipelines (s : Store) (context : Context) (stage : Stage) :
    ∀ handler ∈ (creation context stage.spec.trigger).handlers,
      (handler.serve stage).Keeps s.SamePipelines :=
  keeps_creation s.dependsOn_pipelines (fun _ hk ↦ .inr (.inl hk))
    ((VerifiedStreams.asks_serve (fun _ _ ↦ rfl) (fun _ _ ↦ rfl) (fun _ _ ↦ rfl)
      fun _ ↦ nofun).keeps_of_reads s.dependsOn_pipelines)
    (Handler.keeps_target s.dependsOn_pipelines nofun nofun)
    fun _ ↦ (EnvironmentLabel.keeps_samePipelines s stage).1

/-- Whatever a handler of the chain does, the streams stay. -/
theorem keepsStreams_creation (context : Context) (stage : Stage) :
    ∀ handler ∈ (creation context stage.spec.trigger).handlers,
      (handler.serve stage).KeepsStreams := by
  have hkinds (k : Kind) (hk : k = .imageStream) : k.IsFollowed := .inl hk
  intro handler hhandler
  refine keepsStreams_iff.mpr fun s ↦ ?_
  exact keeps_creation s.dependsOn_streams hkinds
    (keepsStreams_iff.mp VerifiedStreams.keepsStreams_serve s)
    (Handler.keeps_target s.dependsOn_streams nofun nofun)
    (fun _ ↦ keepsStreams_iff.mp EnvironmentLabel.keepsStreams_serve s) handler hhandler

/-- Where the chain succeeded, what one of its handlers came to for every input stream outlasted the
handlers after it. -/
theorem outlasts_of_on_creation (stage : Stage) {P : Pipeline → String → Store → Prop}
    (hstreams : s.SoundAt .imageStream)
    (hok : ((creation context stage.spec.trigger).serve stage).on s = (.ok (), t))
    {handler : Handler} (hhandler : handler ∈ (creation context stage.spec.trigger).handlers)
    (hdone : ∀ u v, u.SoundAt .imageStream → (handler.serve stage).on u = (.ok (), v) →
      ∃ pipeline, u.find? .pipeline stage.pipelineKey = some pipeline ∧
        ∀ name ∈ pipeline.spec.inputStreams, P pipeline name v)
    (hlasts : ∀ pipeline name, ∀ u v : Store, u.SoundAt .imageStream → u.StreamsLast v →
      P pipeline name u → P pipeline name v) :
    t.SoundAt .imageStream ∧ ∃ pipeline, s.find? .pipeline stage.pipelineKey = some pipeline ∧
      ∀ name ∈ pipeline.spec.inputStreams, P pipeline name t := by
  obtain ⟨u, v, ⟨hu, hsame⟩, hon, hleft⟩ := exists_of_on_serve
    (I := fun t ↦ t.SoundAt .imageStream ∧ s.SamePipelines t)
    (fun next hnext u hu ↦ ⟨(keepsStreams_creation context stage next hnext u hu.1).1,
      keeps_samePipelines s context stage next hnext u hu.2⟩)
    ⟨hstreams, fun _ ↦ rfl⟩ hok hhandler
  have hv : v.SoundAt .imageStream := by
    have hkept := (keepsStreams_creation context stage handler hhandler u hu).1
    rwa [hon] at hkept
  obtain ⟨pipeline, hpipeline, hnames⟩ := hdone u v hu hon
  obtain ⟨ht, hnames'⟩ := hleft
    (fun t ↦ t.SoundAt .imageStream ∧ ∀ name ∈ pipeline.spec.inputStreams, P pipeline name t)
    (fun next hnext ↦ (keepsStreams_creation context stage next hnext).keeps
      fun u v hu hlast hu' name hname ↦ hlasts pipeline name u v hu hlast (hu' name hname))
    ⟨hv, hnames⟩
  exact ⟨ht, pipeline, by rw [← hsame, hpipeline], hnames'⟩

end Chain

end PipelineOperator
