import PipelineOperator.Proofs.Provision.Streams

/-!
Image streams in the hands of the operator. Once a stream is there, handlers change its labels and
nothing else, and only those of a deleting stage erase one (`Object.Retains`). So what holds of all
streams, and depends on no label that is free to go, is kept by the handlers
(`EnvironmentLabel.keeps_serve`, `EnvironmentLabel.keeps_withdraw`), except that verified streams
have to be built with it (`VerifiedStreams.keeps_provide`). Streams that are about to vanish may do
so: such a one is gone with its next update.
-/

set_option autoImplicit false
set_option relaxedAutoImplicit false

namespace PipelineOperator

open Operation

/-- The later object is the earlier one but for its labels, of which it has all that are not free
to go. -/
structure Object.Retains {k : Kind} (free : String → Prop) (o o' : Object k) : Prop where
  key : o'.key = o.key
  spec : o'.spec = o.spec
  isReleased : o'.metadata.isReleased = o.metadata.isReleased
  labels : ∀ label, ¬ free label → ∀ value, o.metadata.label? label = some value →
    o'.metadata.label? label = some value

namespace Object

variable {k : Kind} {o o' o'' : Object k} {free : String → Prop} {label : String}

theorem Retains.refl (o : Object k) : o.Retains free o := ⟨rfl, rfl, rfl, fun _ _ _ ↦ id⟩

theorem Retains.trans (hfirst : o.Retains free o') (hsecond : o'.Retains free o'') :
    o.Retains free o'' where
  key := hsecond.key.trans hfirst.key
  spec := hsecond.spec.trans hfirst.spec
  isReleased := hsecond.isReleased.trans hfirst.isReleased
  labels label hkept value hvalue :=
    hsecond.labels label hkept value (hfirst.labels label hkept value hvalue)

theorem Retains.mono {free' : String → Prop} (hretains : o.Retains free o')
    (hmore : ∀ label, free label → free' label) : o.Retains free' o' :=
  ⟨hretains.key, hretains.spec, hretains.isReleased,
    fun label hkept ↦ hretains.labels label fun hfree ↦ hkept (hmore label hfree)⟩

theorem retains_setLabel (hlacks : o.hasLabel label = false) :
    o.Retains free { o with metadata := o.metadata.setLabel label "" } where
  key := rfl
  spec := rfl
  isReleased := rfl
  labels other _ value hvalue := by
    have hne : other ≠ label := by
      rintro rfl
      have hnone : (o.metadata.label? other).isSome = false := hlacks
      rw [hvalue] at hnone
      exact nomatch hnone
    exact (SortedMap.get?_insert_of_ne _ hne _).trans hvalue

theorem retains_eraseLabel (hfree : free label) :
    o.Retains free { o with metadata := o.metadata.eraseLabel label } where
  key := rfl
  spec := rfl
  isReleased := rfl
  labels other hkept value hvalue := by
    have hne : other ≠ label := by
      rintro rfl
      exact hkept hfree
    exact (SortedMap.get?_erase_of_ne _ hne).trans hvalue

end Object

/-- Every image stream is as they are to be, and under some keys there are streams. -/
structure Store.Hosts (Q : ImageStream → Prop) (C : Key → Prop) (s : Store) : Prop where
  keyed : s.KeyedAt .imageStream
  streams : ∀ key stream, s.find? .imageStream key = some stream → Q stream
  there : ∀ key, C key → ∃ stream, s.find? .imageStream key = some stream

/-- What is asked of streams does not depend on labels that are free to go, and keeps the streams
that have to be there from vanishing. -/
structure IsRetained (free : String → Prop) (Q : ImageStream → Prop) (C : Key → Prop) : Prop where
  retained : ∀ stream stream' : ImageStream, stream.Retains free stream' → Q stream → Q stream'
  held : ∀ stream : ImageStream, Q stream → C stream.key → stream.metadata.isReleased = false

section Handlers

variable {s t : Store} {Q : ImageStream → Prop} {C : Key → Prop} {free : String → Prop}
  {stage : Stage} {pipeline : Pipeline} {inputName image label : String}

namespace Store

theorem dependsOn_hosts (Q : ImageStream → Prop) (C : Key → Prop) :
    DependsOn (· = .imageStream) (Hosts Q C) := by
  intro s t htables hhosts
  have hsame (key : Key) : t.find? .imageStream key = s.find? .imageStream key := by
    rw [find?, htables _ rfl]
    rfl
  refine ⟨fun key o hfound ↦ hhosts.keyed (hsame key ▸ hfound),
    fun key stream hfound ↦ hhosts.streams key stream (hsame key ▸ hfound), fun key hkey ↦ ?_⟩
  rw [hsame]
  exact hhosts.there key hkey

theorem Hosts.put (hhosts : s.Hosts Q C) {stream : ImageStream} (hstream : Q stream) :
    (s.put stream).Hosts Q C := by
  refine ⟨hhosts.keyed.put stream, fun key found hfound ↦ ?_, fun key hkey ↦ ?_⟩
  · rw [find?_put] at hfound
    split at hfound
    · exact Option.some.inj hfound ▸ hstream
    · exact hhosts.streams key found hfound
  · rw [find?_put]
    split
    · exact ⟨stream, rfl⟩
    · exact hhosts.there key hkey

theorem Hosts.replace (hhosts : s.Hosts Q C) (hretained : IsRetained free Q C)
    {stream : ImageStream} (hstream : Q stream) : (s.replace stream).2.Hosts Q C := by
  unfold Store.replace
  split
  · exact hhosts
  split
  · next hreleased =>
    refine ⟨hhosts.keyed.remove _ _,
      fun key found hfound ↦ hhosts.streams key found (found_of_find?_remove hfound),
      fun key hkey ↦ ?_⟩
    have hne : key ≠ stream.key := by
      rintro rfl
      exact nomatch hreleased.symm.trans (hretained.held stream hstream hkey)
    rw [find?_remove_of_ne s fun hhere ↦ hne hhere.2]
    exact hhosts.there key hkey
  · exact hhosts.put hstream

end Store

namespace VerifiedStreams

/-- Where every input stream is as streams are to be, so must be the verified stream that is built
for it. -/
theorem keeps_provide (hbuild : ∀ input : ImageStream, Q input →
      input.key = ⟨stage.metadata.namespaceOrEmpty, inputName⟩ →
        Q (build stage (name stage input.spec.codebase) input.spec.codebase image)) :
    (provide stage image inputName).Keeps (Store.Hosts Q C) := by
  intro s hhosts
  cases hinput : s.find? .imageStream ⟨stage.metadata.namespaceOrEmpty, inputName⟩ with
  | none =>
    rw [on_provide_of_absent hinput]
    exact hhosts
  | some input =>
    rw [on_provide_of_found hinput]
    cases hfound : s.find? .imageStream
        (build stage (name stage input.spec.codebase) input.spec.codebase image).key with
    | some stored => rwa [Store.create_of_found hfound]
    | none =>
      rw [Store.create_of_absent hfound]
      exact hhosts.put (hbuild input (hhosts.streams _ _ hinput) (hhosts.keyed hinput))

end VerifiedStreams

namespace EnvironmentLabel

theorem keeps_set (hretained : IsRetained free Q C) {stream : ImageStream} (hstream : Q stream) :
    (set label stream).Keeps (Store.Hosts Q C) := by
  unfold set
  split
  · exact keeps_pure ()
  · next hlacks =>
    refine Keeps.bind (fun s hhosts ↦ hhosts.replace hretained ?_) fun _ ↦ keeps_pure ()
    exact hretained.retained _ _ (Object.retains_setLabel (Bool.eq_false_iff.mpr hlacks)) hstream

theorem keeps_remove (hretained : IsRetained free Q C) (hfree : free label) {stream : ImageStream}
    (hstream : Q stream) : (remove label stream).Keeps (Store.Hosts Q C) := by
  unfold remove
  split
  · refine Keeps.bind (fun s hhosts ↦ hhosts.replace hretained ?_) fun _ ↦ keeps_pure ()
    exact hretained.retained _ _ (Object.retains_eraseLabel hfree) hstream
  · exact keeps_pure ()

/-- What is done with the verified stream of the stage before can rely on that being as streams are
to be. -/
theorem keeps_previousStream_bind {codebase : String} {f : ImageStream → Operation Unit}
    (hnext : ∀ stream, Q stream → (f stream).Keeps (Store.Hosts Q C)) :
    (previousStream stage codebase >>= f).Keeps (Store.Hosts Q C) := by
  unfold previousStream Stage.previousName
  cases stage.previousName? with
  | none => exact fun s hhosts ↦ hhosts
  | some previous =>
    exact keeps_require_bind fun s stream hhosts hfound ↦
      hnext stream (hhosts.streams _ _ hfound) s hhosts

theorem keeps_placeOn (hretained : IsRetained free Q C) :
    (placeOn stage pipeline inputName).Keeps (Store.Hosts Q C) := by
  refine keeps_require_bind fun s input hhosts hinput ↦ ?_
  split
  · exact keeps_set hretained (hhosts.streams _ _ hinput) s hhosts
  · exact keeps_previousStream_bind (fun stream hstream ↦ keeps_set hretained hstream) s hhosts

theorem keeps_serve (hretained : IsRetained free Q C) :
    (serve stage).Keeps (Store.Hosts Q C) :=
  keeps_require_bind fun s _ hhosts _ ↦ keeps_forM (fun _ _ ↦ keeps_placeOn hretained) s hhosts

theorem keeps_cleanFrom (hretained : IsRetained free Q C) (hfree : free stage.label) :
    (cleanFrom stage pipeline inputName).Keeps (Store.Hosts Q C) := by
  refine keeps_get_bind fun s hhosts ↦ ?_
  split
  · exact hhosts
  · next input hinput =>
    have hremove {stream : ImageStream} (hstream : Q stream) :
        (remove stage.label stream).Keeps (Store.Hosts Q C) := keeps_remove hretained hfree hstream
    unfold clean
    split
    · exact hremove (hhosts.streams _ _ hinput) s hhosts
    · refine keeps_previousStream_bind (fun stream hstream ↦ ?_) s hhosts
      refine (hremove hstream).bind fun _ ↦ ?_
      split
      · exact keeps_pure ()
      · exact hremove (hhosts.streams _ _ hinput)

theorem keeps_withdraw (hretained : IsRetained free Q C) (hfree : free stage.label) :
    (withdraw stage).Keeps (Store.Hosts Q C) := by
  refine keeps_get_bind fun s hhosts ↦ ?_
  split
  · exact hhosts
  · exact keeps_forM (fun _ _ ↦ keeps_cleanFrom hretained hfree) s hhosts

end EnvironmentLabel

end Handlers

/-! ### What providing verified streams comes to -/

/-- The codebases of which the stage gets verified streams: those of the input streams of its
pipeline. -/
def Store.Feeds (s : Store) (stage : Stage) (codebase : String) : Prop :=
  ∃ pipeline inputName, ∃ input : ImageStream,
    s.find? .pipeline stage.pipelineKey = some pipeline ∧
      inputName ∈ pipeline.spec.inputStreams ∧
      s.find? .imageStream ⟨stage.metadata.namespaceOrEmpty, inputName⟩ = some input ∧
      input.spec.codebase = codebase

/-- The stream was there. -/
def Store.Recalls (s : Store) (free : String → Prop) (stream : ImageStream) : Prop :=
  ∃ before, s.find? .imageStream stream.key = some before ∧ before.Retains free stream

/-- The stream was there, or it was built for a codebase that the stage is fed with. -/
def Store.Supplies (s : Store) (stage : Stage) (free : String → Prop) (stream : ImageStream) :
    Prop :=
  s.Recalls free stream ∨ ∃ codebase image, s.Feeds stage codebase ∧
    (VerifiedStreams.build stage (VerifiedStreams.name stage codebase) codebase image).Retains
      free stream

/-- From the one store to the other the stage got a verified stream for every input stream of its
pipeline, under the key of the codebase that this is of, both before and afterwards. -/
def VerifiedStreams.IsSupplied (stage : Stage) (s t : Store) : Prop :=
  ∃ pipeline, s.find? .pipeline stage.pipelineKey = some pipeline ∧
    ∀ inputName ∈ pipeline.spec.inputStreams, ∃ codebase,
      (∃ verified, t.find? .imageStream (key stage codebase) = some verified) ∧
      ∀ input : ImageStream,
        (s.find? .imageStream ⟨stage.metadata.namespaceOrEmpty, inputName⟩ = some input ∨
          t.find? .imageStream ⟨stage.metadata.namespaceOrEmpty, inputName⟩ = some input) →
        input.spec.codebase = codebase

section Serving

variable {s t u : Store} {stage : Stage} {free : String → Prop} {inputName image : String}
  {C : Key → Prop} {context : Context}

/-- An input stream that was built on the way is of a codebase with which the stage was fed. -/
theorem Store.Supplies.feeds {pipeline : Pipeline}
    (hpipeline : s.find? .pipeline stage.pipelineKey = some pipeline)
    (hname : inputName ∈ pipeline.spec.inputStreams) {input : ImageStream}
    (hsupplies : s.Supplies stage free input)
    (hkey : input.key = ⟨stage.metadata.namespaceOrEmpty, inputName⟩) :
    s.Feeds stage input.spec.codebase := by
  rcases hsupplies with ⟨before, hbefore, hretains⟩ | ⟨codebase, image, hfeeds, hretains⟩
  · rw [hretains.spec]
    exact ⟨pipeline, inputName, before, hpipeline, hname, hkey ▸ hbefore, rfl⟩
  · rw [hretains.spec]
    exact hfeeds

theorem Store.Recalls.retained {stream stream' : ImageStream} (hrecalls : s.Recalls free stream)
    (hretains : stream.Retains free stream') : s.Recalls free stream' := by
  obtain ⟨before, hbefore, hsame⟩ := hrecalls
  exact ⟨before, hretains.key ▸ hbefore, hsame.trans hretains⟩

theorem Store.recalls_self (hkeyed : s.KeyedAt .imageStream) {key : Key} {stream : ImageStream}
    (hfound : s.find? .imageStream key = some stream) : s.Recalls free stream :=
  ⟨stream, (hkeyed hfound).symm ▸ hfound, .refl stream⟩

theorem Store.hosts_recalls (hkeyed : s.KeyedAt .imageStream)
    (hthere : ∀ key, C key → ∃ stream, s.find? .imageStream key = some stream) :
    s.Hosts (s.Recalls free) C :=
  ⟨hkeyed, fun _ _ hfound ↦ s.recalls_self hkeyed hfound, hthere⟩

theorem Store.isRetained_recalls (hheld : ∀ stream : ImageStream, C stream.key →
      ∀ before, s.find? .imageStream stream.key = some before →
        before.metadata.isReleased = false) : IsRetained free (s.Recalls free) C where
  retained _ _ hretains hrecalls := hrecalls.retained hretains
  held stream := by
    rintro ⟨before, hbefore, hretains⟩ hkey
    exact hretains.isReleased.trans (hheld stream hkey before hbefore)

/-- What is kept of the streams of a store along with its pipelines. -/
theorem Store.dependsOn_supply (s : Store) (Q : ImageStream → Prop) (C : Key → Prop) :
    DependsOn (fun k ↦ k = .pipeline ∨ k = .imageStream)
      (fun t ↦ s.SamePipelines t ∧ t.Hosts Q C) := fun t u htables hbefore ↦
  ⟨s.dependsOn_pipelines t u (fun k hk ↦ htables k (.inl hk)) hbefore.1,
    dependsOn_hosts Q C t u (fun k hk ↦ htables k (.inr hk)) hbefore.2⟩

theorem Store.hosts_supplies (hkeyed : s.KeyedAt .imageStream) (stage : Stage)
    (free : String → Prop) : s.Hosts (s.Supplies stage free) (fun _ ↦ False) :=
  ⟨hkeyed, fun _ _ hfound ↦ .inl (s.recalls_self hkeyed hfound), fun _ ↦ False.elim⟩

theorem Store.isRetained_supplies (s : Store) (stage : Stage) (free : String → Prop) :
    IsRetained free (s.Supplies stage free) (fun _ ↦ False) where
  held _ _ := False.elim
  retained stream stream' hretains hsupplies := by
    rcases hsupplies with hrecalls | ⟨codebase, image, hfeeds, hsame⟩
    · exact .inl (hrecalls.retained hretains)
    · exact .inr ⟨codebase, image, hfeeds, hsame.trans hretains⟩

namespace VerifiedStreams

/-- Along with the pipelines, which are only read, all streams stay accounted for. -/
theorem keeps_serve_supplies (s : Store) (stage : Stage) (free : String → Prop) :
    (serve stage).Keeps
      (fun t ↦ s.SamePipelines t ∧ t.Hosts (s.Supplies stage free) (fun _ ↦ False)) := by
  refine keeps_serve (s.dependsOn_supply _ _)
    fun t pipeline hbefore hpipeline image inputName hname u hu ↦ ⟨?_, ?_⟩
  · exact (asks_provide (fun _ _ ↦ rfl) fun _ ↦ nofun).keeps_of_reads s.dependsOn_pipelines u hu.1
  · rw [hbefore.1] at hpipeline
    refine keeps_provide (fun input hinput hkey ↦ ?_) u hu.2
    exact .inr ⟨_, image, hinput.feeds hpipeline hname hkey, .refl _⟩

end VerifiedStreams

/-- The chain of provisioning after its first handler. -/
def Chain.afterStreams (context : Context) (trigger : Trigger) : Chain :=
  ofHandlers (Handler.target context) ([Handler.access context, Handler.job] ++
    if trigger = .auto then [Handler.environmentLabel] else [])

theorem Chain.creation_eq (context : Context) (trigger : Trigger) :
    creation context trigger = .link Handler.verifiedStreams (afterStreams context trigger) := rfl

/-- The handlers after the first build no streams. -/
theorem Chain.keeps_afterStreams (context : Context) (trigger : Trigger) (stage : Stage)
    {Q : ImageStream → Prop} {C : Key → Prop} (hretained : IsRetained free Q C) :
    ((afterStreams context trigger).serve stage).Keeps (Store.Hosts Q C) := by
  have hI := Store.dependsOn_hosts Q C
  refine keeps_serve fun handler hhandler ↦ ?_
  unfold afterStreams at hhandler
  rw [handlers_ofHandlers] at hhandler
  simp only [List.cons_append, List.nil_append, List.mem_cons] at hhandler
  rcases hhandler with rfl | rfl | rfl | hlabel
  · exact Handler.keeps_target hI nofun nofun
  · exact Handler.keeps_access hI fun _ hk ↦ .inl hk
  · exact Handler.keeps_job hI fun _ hk ↦ .inl hk
  · split at hlabel
    · obtain rfl := List.mem_singleton.mp hlabel
      exact EnvironmentLabel.keeps_serve hretained
    · exact nomatch hlabel

/-- Where the chain of provisioning succeeded, it provided the verified streams first. -/
theorem Chain.exists_of_on_creation {trigger : Trigger}
    (hok : ((creation context trigger).serve stage).on s = (.ok (), t)) :
    ∃ u, (VerifiedStreams.serve stage).on s = (.ok (), u) ∧
      ∀ free Q C, IsRetained free Q C → u.Hosts Q C → t.Hosts Q C := by
  rw [creation_eq] at hok
  obtain ⟨_, u, hcounted,
    (hrest : ((afterStreams context trigger).serve stage).on u = (.ok (), t))⟩ :=
      exists_of_on_bind hok
  refine ⟨u, (on_counted ..).symm.trans hcounted, fun free Q C hretained hhosts ↦ ?_⟩
  have hleft := keeps_afterStreams context trigger stage hretained u hhosts
  rwa [hrest] at hleft

/-- A built stream is not about to vanish. -/
theorem Store.Supplies.held {stream : ImageStream} (hsupplies : s.Supplies stage free stream)
    (hheld : ∀ before : ImageStream, s.find? .imageStream stream.key = some before →
      before.metadata.isReleased = false) : stream.metadata.isReleased = false := by
  rcases hsupplies with ⟨before, hbefore, hretains⟩ | ⟨codebase, image, -, hretains⟩
  · exact hretains.isReleased.trans (hheld before hbefore)
  · exact hretains.isReleased

/-- Where the chain of provisioning succeeded there is a verified stream for every input stream,
under the key of its codebase. -/
theorem Chain.supplied_of_on_creation {trigger : Trigger} (hkeyed : s.KeyedAt .imageStream)
    (hheld : ∀ codebase stream, s.find? .imageStream (VerifiedStreams.key stage codebase) =
      some stream → stream.metadata.isReleased = false)
    (hok : ((creation context trigger).serve stage).on s = (.ok (), t)) :
    VerifiedStreams.IsSupplied stage s t := by
  obtain ⟨u, hserve, hleft⟩ := exists_of_on_creation hok
  obtain ⟨hgrows, pipeline, hpipeline, hstreams⟩ := VerifiedStreams.found_of_on_serve hserve
  refine ⟨pipeline, hpipeline, fun inputName hname ↦ ?_⟩
  obtain ⟨input, hinput, verified, hverified⟩ := hstreams inputName hname
  have hsupplied : u.Hosts (s.Supplies stage (fun _ ↦ False)) (fun _ ↦ False) := by
    have hkept := VerifiedStreams.keeps_serve_supplies s stage (fun _ ↦ False) s
      ⟨fun _ ↦ rfl, s.hosts_supplies hkeyed stage _⟩
    rw [hserve] at hkept
    exact hkept.2
  -- From here on only labels change, and the verified stream stays since it is held.
  have hretained : IsRetained (fun _ ↦ False) (u.Recalls (fun _ ↦ False))
      (· = VerifiedStreams.key stage input.spec.codebase) := by
    refine Store.isRetained_recalls fun stream hkey before hbefore ↦ ?_
    refine (hsupplied.streams _ _ hbefore).held fun stored hstored ↦ ?_
    rw [hsupplied.keyed hbefore, hkey] at hstored
    exact hheld _ _ hstored
  have hhosts := hleft _ _ _ hretained
    (u.hosts_recalls hsupplied.keyed fun _ hkey ↦ ⟨verified, hkey ▸ hverified⟩)
  refine ⟨input.spec.codebase, hhosts.there _ rfl, fun input' hinput' ↦ ?_⟩
  rcases hinput' with hbefore | hafter
  · rw [Option.some.inj (hinput.symm.trans (hgrows _ _ hbefore))]
  · obtain ⟨before, hbefore, hretains⟩ := hhosts.streams _ _ hafter
    rw [hhosts.keyed hafter] at hbefore
    rw [Option.some.inj (hinput.symm.trans hbefore), hretains.spec]

end Serving

end PipelineOperator
