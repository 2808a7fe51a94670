import PipelineOperator.Proofs.Operation.OnBench
import PipelineOperator.Proofs.Reconcile.Furnishing
import PipelineOperator.Proofs.Reconcile.Release

/-!
What there is after a stage was provisioned, compared with what there was before
(`Stage.Effect`), with the objects that are new written out. The handlers rest where they have
succeeded, which tells what is there; the development in which they work tells what else may have
changed (`Site.Leads`). For every object the two leave one possibility (`reconcileStage_effect`).
-/

set_option autoImplicit false
set_option relaxedAutoImplicit false

namespace PipelineOperator

open Operation

variable {context : Context} {stage adopted : Stage} {pipeline : Pipeline} {registry : Component}
  {S T U : Store}

namespace Naming

theorem verifiedStream_injective {pipeline stage codebase codebase' : String}
    (hsame : verifiedStream pipeline stage codebase = verifiedStream pipeline stage codebase') :
    codebase = codebase' := by
  unfold verifiedStream at hsame
  rwa [String.append_left_inj, String.append_right_inj] at hsame

end Naming

/-- The second store has what the first one had under the key of the object, and else the object. -/
def Store.Completes {k : Kind} (S T : Store) (o : Object k) : Prop :=
  T.find? k o.key = some ((S.find? k o.key).getD o)

namespace Stage

/-! ### The effect -/

/-- The pipeline has an input stream of that name, and that is of that codebase. -/
def Takes (stage : Stage) (pipeline : Pipeline) (s : Store) (name codebase : String) : Prop :=
  name ∈ pipeline.spec.inputStreams ∧ ∃ input : ImageStream,
    s.find? .imageStream ⟨stage.metadata.namespaceOrEmpty, name⟩ = some input ∧
      input.spec.codebase = codebase

/-- The stage deploys by itself, and from the stream under the key. -/
def DeploysFrom (stage : Stage) (pipeline : Pipeline) (s : Store) (key : Key) : Prop :=
  stage.spec.trigger = .auto ∧ ∃ name codebase, stage.Takes pipeline s name codebase ∧
    EnvironmentLabel.IsSource stage pipeline name codebase key

/-- The stream under the key is labelled if the stage deploys from it, and else left alone. -/
def Relabels (stage : Stage) (pipeline : Pipeline) (s : Store) (key : Key)
    (before after : ImageStream) : Prop :=
  (stage.DeploysFrom pipeline s key →
      after = before.withLabel (stage.spec.pipeline ++ "/" ++ stage.spec.name)) ∧
    (¬ stage.DeploysFrom pipeline s key → after = before)

/-- The objects other than image streams that belong to the environment of the stage. -/
def Touches (context : Context) (stage : Stage) : Kind → Key → Prop
  | .stage, key => key = stage.key
  | .jenkinsJob, key => key = stage.key
  | .ns, key => context.kiosk = false ∧
      key = ⟨"", stage.metadata.namespaceOrEmpty ++ "-" ++ stage.spec.name⟩
  | .space, key => context.kiosk = true ∧
      key = ⟨"", stage.metadata.namespaceOrEmpty ++ "-" ++ stage.spec.name⟩
  | .role, key => key = ⟨stage.metadata.namespaceOrEmpty ++ "-" ++ stage.spec.name,
      "admin-console-view-deployments"⟩
  | .roleBinding, key => ∃ b ∈ Access.desiredBindings stage.metadata.namespaceOrEmpty
      (stage.metadata.namespaceOrEmpty ++ "-" ++ stage.spec.name) context.platform, key = b.key
  | _, _ => False

/-- What provisioning an adopted stage has made of the store. -/
structure Effect (context : Context) (adopted : Stage) (pipeline : Pipeline)
    (registry : Component) (S T : Store) : Prop where
  /-- Every input stream is there. -/
  inputs : ∀ name ∈ pipeline.spec.inputStreams, ∃ codebase,
    adopted.Takes pipeline T name codebase
  /-- Image streams that were there are there, but for the label. -/
  kept : ∀ key before, S.find? .imageStream key = some before → ∃ after,
    T.find? .imageStream key = some after ∧ adopted.Relabels pipeline T key before after
  /-- The verified streams of the codebases that were missing have been built, and nobody owns
  them. -/
  built : ∀ name codebase, adopted.Takes pipeline T name codebase →
    S.find? .imageStream (VerifiedStreams.key adopted codebase) = none → ∃ after,
      T.find? .imageStream (VerifiedStreams.key adopted codebase) = some after ∧
        adopted.Relabels pipeline T (VerifiedStreams.key adopted codebase) {
          metadata := {
            name := some
              (adopted.spec.pipeline ++ "-" ++ adopted.spec.name ++ "-" ++ codebase ++ "-verified")
            ns := adopted.metadata.ns
            labels := some (SortedMap.ofList [
              ("app.edp.epam.com/pipeline-name", adopted.spec.pipeline),
              ("app.kubernetes.io/managed-by", "edp-cd-pipeline-operator")])
            owners := none }
          spec := {
            codebase := codebase
            imageName := registry.spec.url ++ "/" ++ adopted.metadata.namespaceOrEmpty } } after
  /-- There are no other new image streams. -/
  verified : ∀ key after, S.find? .imageStream key = none → T.find? .imageStream key = some after →
    ∃ name codebase, adopted.Takes pipeline T name codebase ∧
      key = VerifiedStreams.key adopted codebase
  /-- A namespace that was missing is labelled with that of the stage as its tenant. -/
  namespaces : context.kiosk = false → S.Completes (k := .ns) T {
    metadata := {
      name := some (adopted.metadata.namespaceOrEmpty ++ "-" ++ adopted.spec.name)
      labels := some (SortedMap.ofList [
        ("app.edp.epam.com/tenant", adopted.metadata.namespaceOrEmpty),
        ("app.kubernetes.io/managed-by", "edp-cd-pipeline-operator")]) }
    spec := none }
  /-- A space that was missing has the namespace of the stage as its tenant and account. -/
  spaces : context.kiosk = true → S.Completes (k := .space) T {
    metadata := {
      name := some (adopted.metadata.namespaceOrEmpty ++ "-" ++ adopted.spec.name)
      labels := some (SortedMap.ofList [
        ("app.edp.epam.com/tenant", adopted.metadata.namespaceOrEmpty)]) }
    spec := { account := adopted.metadata.namespaceOrEmpty } }
  role : S.Completes (k := .role) T {
    metadata := {
      name := some "admin-console-view-deployments"
      ns := some (adopted.metadata.namespaceOrEmpty ++ "-" ++ adopted.spec.name)
      labels := some (SortedMap.ofList [
        ("app.kubernetes.io/managed-by", "edp-cd-pipeline-operator")]) }
    spec := {
      rules := some [{
        apiGroups := some ["apps"]
        resources := some ["deployments"]
        verbs := ["get", "list"] }] } }
  bindings : ∀ b ∈ Access.desiredBindings adopted.metadata.namespaceOrEmpty
    (adopted.metadata.namespaceOrEmpty ++ "-" ++ adopted.spec.name) context.platform,
      b.key.ns = adopted.metadata.namespaceOrEmpty ++ "-" ++ adopted.spec.name ∧ S.Completes T b
  /-- The job has the configuration that there was to be had before, and is else what it was. -/
  job : ∃ config, (StageJob.config adopted pipeline).on S = (.ok config, S) ∧
    T.find? .jenkinsJob adopted.key = some ((S.find? .jenkinsJob adopted.key).elim {
        metadata := {
          name := some adopted.metadata.anyName
          ns := adopted.metadata.ns
          owners := (Kind.stage.controllerReference adopted.metadata).map fun owner ↦ [owner] }
        spec := {
          stageName := adopted.metadata.anyName
          folder := adopted.spec.pipeline
          job := {
            name := "job-provisions/job/cd/job/" ++ adopted.spec.jobProvisioning
            config := config
            autoTriggerPeriod := 60 } }
        status := some { action := "accept_jenkins_job" } }
      fun job ↦ { job with spec.job.config := config })
  /-- A stage that deploys by itself has a labelled stream to deploy each input from. -/
  labelled : adopted.spec.trigger = .auto →
    ∀ name codebase, adopted.Takes pipeline T name codebase → ∃ key stream,
      EnvironmentLabel.IsSource adopted pipeline name codebase key ∧
      T.find? .imageStream key = some stream ∧
      stream.hasLabel (adopted.spec.pipeline ++ "/" ++ adopted.spec.name) = true
  registered : T.find? .stage adopted.key =
      some { adopted with status := adopted.confirmedStatus context } ∧
    ∃ status, adopted.confirmedStatus context = some status ∧ status.IsRegistration
  elsewhere : ∀ k key, k ≠ .imageStream → ¬ adopted.Touches context k key →
    T.find? k key = S.find? k key

/-- That the stage was stored as adopted before makes no difference to the rest. -/
theorem Effect.of_put (heffect : Effect context adopted pipeline registry (S.put adopted) T) :
    Effect context adopted pipeline registry S T := by
  have hput {k : Kind} {key : Key} (hbeside : ¬ (k = .stage ∧ key = adopted.key)) :
      (S.put adopted).find? k key = S.find? k key := Store.find?_put_of_ne S adopted hbeside
  have hkind {k : Kind} (hne : k ≠ .stage) (key : Key) :
      (S.put adopted).find? k key = S.find? k key := hput fun h ↦ hne h.1
  have hcompletes {k : Kind} (hne : k ≠ .stage) {o : Object k}
      (hcompletes : (S.put adopted).Completes T o) : S.Completes T o := by
    unfold Store.Completes at hcompletes ⊢
    rwa [hkind hne] at hcompletes
  have hdesired : StageJob.desired (S.put adopted) adopted pipeline =
      StageJob.desired S adopted pipeline :=
    StageJob.desired_congr (hkind (by decide)) (hkind (by decide)) adopted pipeline
  constructor
  case inputs => exact heffect.inputs
  case kept =>
    intro key before hbefore
    exact heffect.kept key before ((hkind (by decide) key).trans hbefore)
  case built =>
    intro name codebase htakes habsent
    exact heffect.built name codebase htakes ((hkind (by decide) _).trans habsent)
  case verified =>
    intro key after habsent hafter
    exact heffect.verified key after ((hkind (by decide) key).trans habsent) hafter
  case namespaces => exact fun hkiosk ↦ hcompletes (by decide) (heffect.namespaces hkiosk)
  case spaces => exact fun hkiosk ↦ hcompletes (by decide) (heffect.spaces hkiosk)
  case role => exact hcompletes (by decide) heffect.role
  case bindings =>
    intro b hb
    exact (heffect.bindings b hb).imp_right (hcompletes (by decide))
  case job =>
    obtain ⟨config, hconfig, hjob⟩ := heffect.job
    rw [(StageJob.rests_config (S.put adopted) adopted pipeline).on, hdesired] at hconfig
    obtain rfl := Except.ok.inj (congrArg Prod.fst hconfig)
    rw [hkind (by decide)] at hjob
    exact ⟨_, (StageJob.rests_config S adopted pipeline).on, hjob⟩
  case labelled => exact heffect.labelled
  case registered => exact heffect.registered
  case elsewhere =>
    intro k key hstream htouches
    rw [heffect.elsewhere k key hstream htouches]
    refine hput ?_
    rintro ⟨rfl, rfl⟩
    exact htouches rfl

end Stage

/-! ### What the handlers leave behind -/

namespace Site

variable {z : Site}

theorem feeds_iff (hpipeline : z.pipeline? = some pipeline) {name codebase : String} :
    z.Feeds T pipeline name codebase ↔ z.stage.Takes pipeline T name codebase := by
  unfold Feeds codebaseAt
  rw [Option.map_eq_some_iff]
  exact ⟨fun h ↦ h.2, fun h ↦ ⟨hpipeline, h⟩⟩

theorem deploys_iff (hpipeline : z.pipeline? = some pipeline) {key : Key} :
    z.Deploys T key ↔ z.stage.DeploysFrom pipeline T key := by
  constructor
  · rintro ⟨hauto, pipeline', name, codebase, hfeeds, hsource⟩
    obtain rfl := Option.some.inj (hpipeline.symm.trans hfeeds.1)
    exact ⟨hauto, name, codebase, (feeds_iff hpipeline).mp hfeeds,
      EnvironmentLabel.source?_eq_some_iff.mp hsource⟩
  · rintro ⟨hauto, name, codebase, htakes, hsource⟩
    exact ⟨hauto, pipeline, name, codebase, (feeds_iff hpipeline).mpr htakes,
      EnvironmentLabel.source?_eq_some_iff.mpr hsource⟩

/-- Where labelling rests, there is a labelled stream for every input stream. -/
theorem labelled_of_takes (hpipeline : T.find? .pipeline z.stage.pipelineKey = some pipeline)
    (hrests : (EnvironmentLabel.serve z.stage).Rests T (.ok ())) {name codebase : String}
    (htakes : z.stage.Takes pipeline T name codebase) : ∃ key stream,
      EnvironmentLabel.IsSource z.stage pipeline name codebase key ∧
        T.find? .imageStream key = some stream ∧ stream.hasLabel z.stage.label = true := by
  obtain ⟨hname, input, hinput, rfl⟩ := htakes
  unfold EnvironmentLabel.serve Stage.parent at hrests
  rw [rests_require_bind, hpipeline] at hrests
  obtain ⟨stream, ⟨input', key, hinput', hsource, hstream⟩, hlabel⟩ :=
    EnvironmentLabel.rests_placeOn.mp (rests_forM.mp hrests name hname)
  obtain rfl := Option.some.inj (hinput.symm.trans hinput')
  exact ⟨key, stream, EnvironmentLabel.source?_eq_some_iff.mp hsource, hstream, hlabel⟩

theorem hasLabel_of_deploysFrom (hpipeline : T.find? .pipeline z.stage.pipelineKey = some pipeline)
    (hrests : z.stage.spec.trigger = .auto → (EnvironmentLabel.serve z.stage).Rests T (.ok ()))
    {key : Key} (hdeploys : z.stage.DeploysFrom pipeline T key) {stream : ImageStream}
    (hfound : T.find? .imageStream key = some stream) : stream.hasLabel z.stage.label = true := by
  obtain ⟨hauto, name, codebase, htakes, hsource⟩ := hdeploys
  obtain ⟨key', stream', hsource', hstream', hlabel⟩ :=
    labelled_of_takes hpipeline (hrests hauto) htakes
  obtain rfl := hsource.unique hsource'
  obtain rfl := Option.some.inj (hfound.symm.trans hstream')
  exact hlabel

/-- What may have become of a stream is what should have. -/
theorem relabels (hpipeline : z.pipeline? = some pipeline) (hleads : z.Leads z.base T)
    (hrests : z.stage.spec.trigger = .auto → (EnvironmentLabel.serve z.stage).Rests T (.ok ()))
    {before after : ImageStream} (hfound : T.find? .imageStream before.key = some after)
    (halters : z.Alters T .imageStream before after) :
    z.stage.Relabels pipeline T before.key before after := by
  have hstored : T.find? .pipeline z.stage.pipelineKey = some pipeline :=
    hleads.pipeline.trans hpipeline
  constructor
  · intro hdeploys
    have hlabel := hasLabel_of_deploysFrom hstored hrests hdeploys hfound
    rcases halters with rfl | ⟨-, rfl⟩
    · exact (Object.withLabel_of_hasLabel hlabel).symm
    · rfl
  · intro hspared
    rcases halters with rfl | ⟨hdeploys, -⟩
    · rfl
    · exact absurd ((deploys_iff hpipeline).mp hdeploys) hspared

/-- The verified stream of a codebase, where it was missing. -/
theorem built_of_leads (hregistry : z.registry? = some registry) (hleads : z.Leads z.base T)
    {codebase : String}
    (habsent : z.base.find? .imageStream (VerifiedStreams.key z.stage codebase) = none)
    {after : ImageStream}
    (hafter : T.find? .imageStream (VerifiedStreams.key z.stage codebase) = some after) :
    z.Alters T .imageStream (z.verified registry codebase) after := by
  have hchanges := hleads.changes .imageStream (VerifiedStreams.key z.stage codebase)
  rw [habsent, hafter] at hchanges
  obtain ⟨built, ⟨pipeline', registry', name', codebase', -, hregistry', rfl⟩, halters⟩ := hchanges
  obtain rfl := Option.some.inj (hregistry.symm.trans hregistry')
  have hkey : VerifiedStreams.key z.stage codebase' = VerifiedStreams.key z.stage codebase :=
    halters.key.symm.trans (hleads.sound.keyed hafter)
  obtain rfl := Naming.verifiedStream_injective (congrArg Key.name hkey)
  exact halters

/-- A new stream is a verified stream. -/
theorem verified_of_leads (hpipeline : z.pipeline? = some pipeline) (hleads : z.Leads z.base T)
    {key : Key} (habsent : z.base.find? .imageStream key = none) {after : ImageStream}
    (hafter : T.find? .imageStream key = some after) : ∃ name codebase,
      z.stage.Takes pipeline T name codebase ∧ key = VerifiedStreams.key z.stage codebase := by
  have hchanges := hleads.changes .imageStream key
  rw [habsent, hafter] at hchanges
  obtain ⟨built, ⟨pipeline', registry', name, codebase, hfeeds, -, rfl⟩, halters⟩ := hchanges
  obtain rfl := Option.some.inj (hpipeline.symm.trans hfeeds.1)
  refine ⟨name, codebase, (feeds_iff hpipeline).mp hfeeds, ?_⟩
  exact (hleads.sound.keyed hafter).symm.trans halters.key

/-- Where providing a place rests, the place is the one that was there or the one that is built. -/
theorem provided_of_rests {k : Kind} {o : Object k} {action : String} (hleads : z.Leads z.base T)
    (hkind : isAlterable k = false) (hbuilds : ∀ o', z.Builds T k o' → o' = o)
    (hrests : (Target.provide z.context.now z.stage k action (ensure o.key o)).Rests T (.ok ())) :
    z.base.Completes T o :=
  hleads.kept_or_built hkind (fun o' ho' _ ↦ hbuilds o' ho')
    (rests_secure.mp (Target.rests_provide.mp hrests)).1

/-- Nothing is touched but what belongs to the environment of the stage. -/
theorem elsewhere_of_leads (hleads : z.Leads z.base T) {k : Kind} {key : Key}
    (hstream : k ≠ .imageStream) (htouches : ¬ z.stage.Touches z.context k key) :
    T.find? k key = z.base.find? k key := by
  cases k
  case imageStream => exact absurd rfl hstream
  case stage => exact hleads.elsewhere (.inl rfl) htouches
  case jenkinsJob => exact hleads.elsewhere (.inr rfl) htouches
  case ns =>
    refine hleads.untouched rfl ?_
    rintro o ⟨hkiosk, rfl⟩ rfl
    exact htouches ⟨hkiosk, rfl⟩
  case space =>
    refine hleads.untouched rfl ?_
    rintro o ⟨hkiosk, rfl⟩ rfl
    exact htouches ⟨hkiosk, rfl⟩
  case role =>
    refine hleads.untouched rfl ?_
    rintro o rfl rfl
    exact htouches rfl
  case roleBinding => exact hleads.untouched rfl fun o ho hkey ↦ htouches ⟨o, ho, hkey.symm⟩
  all_goals exact hleads.given rfl key

/-- Where all handlers rest, the development has had its effect. -/
theorem effect (hleads : z.Leads z.base T)
    (hrests : ∀ handler ∈ (Chain.creation z.context z.stage.spec.trigger).handlers,
      (handler.serve z.stage).Rests T (.ok ()))
    (hregistered : T.find? .stage z.stage.key =
      some { z.stage with status := z.stage.confirmedStatus z.context }) :
    ∃ pipeline registry, z.pipeline? = some pipeline ∧ z.registry? = some registry ∧
      z.stage.Effect z.context pipeline registry z.base T := by
  have hstreams := hrests .verifiedStreams (Chain.mem_handlers_creation.mpr (by simp))
  have htarget := hrests (.target z.context) (Chain.mem_handlers_creation.mpr (by simp))
  have haccess := hrests (.access z.context) (Chain.mem_handlers_creation.mpr (by simp))
  have hjob := hrests .job (Chain.mem_handlers_creation.mpr (by simp))
  have hlabel (hauto : z.stage.spec.trigger = .auto) :
      (EnvironmentLabel.serve z.stage).Rests T (.ok ()) :=
    hrests .environmentLabel (Chain.mem_handlers_creation.mpr (by simp [hauto]))
  obtain ⟨pipeline, registry, hpipeline, hregistry, hinputs⟩ :=
    VerifiedStreams.found_of_rests_serve hstreams
  have hpipeline' : z.pipeline? = some pipeline := hleads.pipeline.symm.trans hpipeline
  have hregistry' : z.registry? = some registry := hleads.registry.symm.trans hregistry
  obtain ⟨hrole, hbindings⟩ := Access.found_of_rests_serve haccess
  refine ⟨pipeline, registry, hpipeline', hregistry', ?_⟩
  constructor
  case inputs =>
    intro name hname
    obtain ⟨input, hinput, -⟩ := hinputs name hname
    exact ⟨_, hname, input, hinput, rfl⟩
  case kept =>
    intro key before hbefore
    obtain rfl : before.key = key := z.sound.keyed hbefore
    obtain ⟨after, hafter, halters⟩ := hleads.found hbefore
    exact ⟨after, hafter, relabels hpipeline' hleads hlabel hafter halters⟩
  case built =>
    rintro name codebase ⟨hname, input, hinput, rfl⟩ habsent
    obtain ⟨input', hinput', after, hafter⟩ := hinputs name hname
    obtain rfl := Option.some.inj (hinput.symm.trans hinput')
    have halters := built_of_leads hregistry' hleads habsent hafter
    have hafter' : T.find? .imageStream (z.verified registry input.spec.codebase).key =
        some after := hafter
    refine ⟨after, hafter, ?_⟩
    rw [← VerifiedStreams.build_eq]
    exact relabels hpipeline' hleads hlabel hafter' halters
  case verified =>
    intro key after habsent hafter
    exact verified_of_leads hpipeline' hleads habsent hafter
  case namespaces =>
    intro hkiosk
    unfold Handler.target at htarget
    rw [hkiosk] at htarget
    rw [← Target.buildNamespace_eq]
    exact provided_of_rests (k := .ns) hleads rfl (fun o' ho' ↦ ho'.2) htarget
  case spaces =>
    intro hkiosk
    unfold Handler.target at htarget
    rw [hkiosk] at htarget
    rw [← Target.buildSpace_eq]
    exact provided_of_rests (k := .space) hleads rfl (fun o' ho' ↦ ho'.2) htarget
  case role =>
    rw [← Access.viewRole_eq]
    exact hleads.kept_or_built (k := .role) rfl (fun o' ho' _ ↦ ho') hrole
  case bindings =>
    intro b hb
    exact ⟨Access.ns_of_mem_desiredBindings hb, hleads.kept_or_built (k := .roleBinding) rfl
      (fun b' hb' hkey ↦ Access.eq_of_key_eq hb hb' hkey) (hbindings b hb)⟩
  case job =>
    obtain ⟨pipeline', job, hpipeline'', hfound, hconfig⟩ := StageJob.found_of_rests_serve hjob
    obtain rfl := Option.some.inj (hpipeline.symm.trans hpipeline'')
    rw [StageJob.desired_of_leads hleads] at hconfig
    refine ⟨_, (StageJob.rests_config z.base z.stage pipeline).on, ?_⟩
    rw [← StageJob.brought_eq, hfound, StageJob.eq_brought_of_leads hleads hfound, hconfig]
  case labelled =>
    intro hauto name codebase htakes
    exact labelled_of_takes hpipeline (hlabel hauto) htakes
  case registered => exact ⟨hregistered, Stage.isRegistration_confirmedStatus z.context z.stage⟩
  case elsewhere =>
    intro k key hstream htouches
    exact elsewhere_of_leads hleads hstream htouches

end Site

/-! ### A successful reconciliation -/

namespace Stage

/-- Confirming an adopted stage that was furnished stores it with its status. -/
theorem leads_of_confirmed (hsound : S.Sound) (hlive : adopted.isDeleting = false)
    (hfurnished : (furnish context adopted).on (S.put adopted) = (.ok (), U))
    {outcome : Outcome} (hconfirmed : (confirm context adopted).on U = (.ok outcome, T)) :
    T = U.put { adopted with status := adopted.confirmedStatus context } ∧
      (Site.exact context adopted S hsound hlive).Leads (S.put adopted) U ∧
      (Site.exact context adopted S hsound hlive).Leads U T := by
  have hbefore : (Site.exact context adopted S hsound hlive).Leads (S.put adopted) U :=
    leads_furnish hfurnished
  have hstored : U.find? .stage adopted.key = some adopted := by
    have hspares := (spares_furnish context adopted).find? (S.put adopted) adopted.key
    rw [hfurnished] at hspares
    exact hspares.trans (Store.find?_put_self S adopted)
  obtain rfl : U.put { adopted with status := adopted.confirmedStatus context } = T :=
    congrArg Prod.snd ((on_confirm context (hbefore.sound.toKeyed _) hstored).symm.trans hconfirmed)
  exact ⟨rfl, hbefore, Site.leads_alter hbefore.sound hstored (.inr ⟨rfl, rfl, rfl⟩)⟩

/-- An adopted stage that was furnished and confirmed has had its effect. -/
theorem effect_of_furnished (hsound : S.Sound) (hlive : adopted.isDeleting = false)
    (hfurnished : (furnish context adopted).on (S.put adopted) = (.ok (), U))
    {outcome : Outcome} (hconfirmed : (confirm context adopted).on U = (.ok outcome, T)) :
    ∃ pipeline registry, S.find? .pipeline adopted.pipelineKey = some pipeline ∧
      S.find? .component ⟨adopted.metadata.namespaceOrEmpty, Naming.registryComponent⟩ =
        some registry ∧ adopted.Effect context pipeline registry S T := by
  obtain ⟨rfl, hbefore, hreport⟩ := leads_of_confirmed hsound hlive hfurnished hconfirmed
  obtain ⟨pipeline, registry, hpipeline, hregistry, heffect⟩ :=
    Site.effect (hbefore.trans hreport) (rests_handlers hfurnished hreport)
      (Store.find?_put_self U _)
  refine ⟨pipeline, registry, ?_, ?_, heffect.of_put⟩
  · exact (Store.find?_put_of_kind_ne S adopted (by decide) _).symm.trans hpipeline
  · exact (Store.find?_put_of_kind_ne S adopted (by decide) _).symm.trans hregistry

end Stage

/-- What a reconciliation that succeeds without failing calls makes of a stage and of the cluster.
The stage is stored as adopted and as registered, and its environment is there. -/
theorem reconcileStage_effect {b last : Bench} (hserving : b.IsServing) (hsound : b.store.Sound)
    (hfound : b.store.find? .stage stage.key = some stage) (hlive : stage.isDeleting = false)
    {outcome : Outcome}
    (hok : (reconcileStage context stage.key).onBench b = (.ok outcome, last)) :
    ∃ pipeline registry,
      b.store.find? .pipeline ⟨stage.metadata.namespaceOrEmpty, stage.spec.pipeline⟩ =
        some pipeline ∧
      b.store.find? .component ⟨stage.metadata.namespaceOrEmpty, "docker-registry"⟩ =
        some registry ∧
      (stage.withWiring (stage.wiringIn b.store)).IsWired b.store ∧
      (stage.withWiring (stage.wiringIn b.store)).Effect context pipeline registry b.store
        last.store := by
  obtain ⟨hresult, hstore, -⟩ := onBench_eq (reconcileStage context stage.key) hserving
  rw [hok] at hresult hstore
  have hprovision : (Stage.provision context stage).on b.store = (.ok outcome, last.store) :=
    (on_reconcileStage_of_live context hfound hlive).symm.trans
      (Prod.ext hresult.symm hstore.symm)
  rcases Stage.on_adopt hfound hlive with ⟨e, hadopt⟩ | ⟨hadopt, hwired⟩
  · rw [(Stage.rests_provision_of_error hadopt).on] at hprovision
    exact nomatch congrArg Prod.fst hprovision
  rw [Stage.on_provision_of_ok hadopt] at hprovision
  cases hfurnished : (Stage.furnish context (stage.withWiring (stage.wiringIn b.store))).on
      (b.store.put (stage.withWiring (stage.wiringIn b.store))) with
  | mk result U =>
    cases result with
    | error e =>
      exact nomatch congrArg Prod.fst ((on_bind_of_error hfurnished _).symm.trans hprovision)
    | ok done =>
      have hconfirmed := (on_bind_of_ok hfurnished _).symm.trans hprovision
      have hadoptedLive : (stage.withWiring (stage.wiringIn b.store)).isDeleting = false := hlive
      obtain ⟨pipeline, registry, hpipeline, hregistry, heffect⟩ :=
        Stage.effect_of_furnished hsound hadoptedLive hfurnished hconfirmed
      exact ⟨pipeline, registry, hpipeline, hregistry, hwired, heffect⟩

/-- The first stage of a pipeline of one application gets a verified stream and a namespace. -/
theorem reconcileStage_effect_withStage : ∃ last : Bench,
    (reconcileStage { now := ⟨0, 0⟩ } (Fixture.stage "dev" "ci" "p" 0).key).onBench
      Bench.withStage = (.ok .awaitChange, last) ∧
    (∃ pipeline registry, Bench.withStage.store.find? .pipeline ⟨"ci", "p"⟩ = some pipeline ∧
      ((Fixture.stage "dev" "ci" "p" 0).withWiring
        ((Fixture.stage "dev" "ci" "p" 0).wiringIn Bench.withStage.store)).Effect
          { now := ⟨0, 0⟩ } pipeline registry Bench.withStage.store last.store) ∧
    last.store.find? .imageStream ⟨"ci", "p-dev-cb-a-verified"⟩ = some {
      metadata := {
        name := some "p-dev-cb-a-verified"
        ns := some "ci"
        labels := some (SortedMap.ofList [
          ("app.edp.epam.com/pipeline-name", "p"),
          ("app.kubernetes.io/managed-by", "edp-cd-pipeline-operator")]) }
      spec := { codebase := "cb-a", imageName := "reg/ns/ci" } } ∧
    last.store.find? .ns ⟨"", "ci-dev"⟩ = some {
      metadata := {
        name := some "ci-dev"
        labels := some (SortedMap.ofList [
          ("app.edp.epam.com/tenant", "ci"),
          ("app.kubernetes.io/managed-by", "edp-cd-pipeline-operator")]) }
      spec := none } := by
  have hstored : Bench.withStage.store.find? .stage (Fixture.stage "dev" "ci" "p" 0).key =
      some (Fixture.stage "dev" "ci" "p" 0) :=
    Store.find?_put_self _ (Fixture.stage "dev" "ci" "p" 0)
  have hok : (reconcileStage { now := ⟨0, 0⟩ } (Fixture.stage "dev" "ci" "p" 0).key).onBench
      Bench.withStage = (.ok .awaitChange, _) := Prod.ext rfl rfl
  obtain ⟨pipeline, registry, hpipeline, -, -, heffect⟩ := reconcileStage_effect
    Bench.isServing_withStage Bench.sound_withStage hstored rfl hok
  exact ⟨_, hok, ⟨pipeline, registry, hpipeline, heffect⟩, rfl, heffect.namespaces rfl⟩

end PipelineOperator
