import PipelineOperator.Proofs.Object.Labels
import PipelineOperator.Proofs.Operation.Settling
import PipelineOperator.Provision.Chain

/-!
How a cluster develops while a stage is provisioned. A `Site` fixes the stage and the store from
which the work starts. What may be built is said by `Site.Builds`, what may become of an object that
is there by `Site.Alters`: the status of the stage, the environment label of the streams from which
it deploys, and the configuration of its job. Nothing else changes (`Site.Leads`).
-/

set_option autoImplicit false
set_option relaxedAutoImplicit false

namespace PipelineOperator

namespace EnvironmentLabel

/-- The key of the stream from which a stage deploys the codebase of an input stream, where it can
be told. -/
def source? (stage : Stage) (pipeline : Pipeline) (inputName codebase : String) : Option Key :=
  if stage.isFirst || !pipeline.spec.promotes codebase then
    some ⟨stage.metadata.namespaceOrEmpty, inputName⟩
  else stage.previousName?.map (fun previous ↦
    ⟨stage.metadata.namespaceOrEmpty,
      Naming.verifiedStream stage.spec.pipeline previous codebase⟩)

/-- The stage deploys the codebase from the input stream if it is the first one or if the pipeline
does not promote the codebase, and else from the verified stream of the stage recorded before it. -/
def IsSource (stage : Stage) (pipeline : Pipeline) (inputName codebase : String) (key : Key) :
    Prop :=
  if stage.spec.order = 0 ∨ codebase ∉ pipeline.spec.applicationsToPromote.getD [] then
    key = ⟨stage.metadata.namespaceOrEmpty, inputName⟩
  else ∃ previous, previous ≠ "" ∧
    stage.metadata.annotation? "deploy.edp.epam.com/previous-stage-name" = some previous ∧
    key = ⟨stage.metadata.namespaceOrEmpty,
      stage.spec.pipeline ++ "-" ++ previous ++ "-" ++ codebase ++ "-verified"⟩

theorem source?_eq_some_iff {stage : Stage} {pipeline : Pipeline} {inputName codebase : String}
    {key : Key} : source? stage pipeline inputName codebase = some key ↔
      IsSource stage pipeline inputName codebase key := by
  have hdirect : (stage.isFirst || !pipeline.spec.promotes codebase) = true ↔
      stage.spec.order = 0 ∨ codebase ∉ pipeline.spec.applicationsToPromote.getD [] := by
    simp [Stage.isFirst, PipelineSpec.promotes]
  have hprevious (previous : String) : stage.previousName? = some previous ↔
      previous ≠ "" ∧ stage.metadata.annotation? "deploy.edp.epam.com/previous-stage-name" =
        some previous := by
    simp [Stage.previousName?, Option.filter_eq_some_iff, and_comm, Naming.previousStageAnnotation]
  unfold source? IsSource
  simp only [hdirect]
  split
  · rw [Option.some.injEq, eq_comm]
  · simp only [Option.map_eq_some_iff, hprevious, and_assoc]
    exact exists_congr fun _ ↦ and_congr_right fun _ ↦ and_congr_right fun _ ↦ eq_comm

theorem IsSource.unique {stage : Stage} {pipeline : Pipeline} {inputName codebase : String}
    {key key' : Key} (hsource : IsSource stage pipeline inputName codebase key)
    (hsource' : IsSource stage pipeline inputName codebase key') : key = key' :=
  Option.some.inj
    ((source?_eq_some_iff.mpr hsource).symm.trans (source?_eq_some_iff.mpr hsource'))

end EnvironmentLabel

/-- A stage that is provisioned, in its surroundings, and the store from which that starts. -/
structure Site where
  context : Context
  stage : Stage
  base : Store
  /-- The configurations that the job of the stage may get. -/
  configs : String → Prop
  sound : base.Sound
  stored : base.find? .stage stage.key = some stage

namespace Site

variable (z : Site)

def ns : String := z.stage.metadata.namespaceOrEmpty

def pipeline? : Option Pipeline := z.base.find? .pipeline z.stage.pipelineKey

def registry? : Option Component := z.base.find? .component ⟨z.ns, Naming.registryComponent⟩

/-- The codebase of the stream of that name. -/
def codebaseAt (s : Store) (name : String) : Option String :=
  (s.find? .imageStream ⟨z.ns, name⟩).map (fun stream ↦ ImageStreamSpec.codebase stream.spec)

/-- The verified stream of a codebase at the stage. -/
def verified (registry : Component) (codebase : String) : ImageStream :=
  VerifiedStreams.build z.stage (VerifiedStreams.name z.stage codebase) codebase
    (Naming.verifiedImage registry.spec.url z.ns)

/-- The pipeline has an input stream of that name, and of that codebase. -/
def Feeds (s : Store) (pipeline : Pipeline) (name codebase : String) : Prop :=
  z.pipeline? = some pipeline ∧ name ∈ pipeline.spec.inputStreams ∧
    z.codebaseAt s name = some codebase

/-- The stage deploys from the stream under the key by itself. -/
def Deploys (s : Store) (key : Key) : Prop :=
  z.stage.spec.trigger = .auto ∧ ∃ pipeline name codebase, z.Feeds s pipeline name codebase ∧
    EnvironmentLabel.source? z.stage pipeline name codebase = some key

/-- The objects that provisioning builds. -/
def Builds (s : Store) : (k : Kind) → Object k → Prop
  | .imageStream, o => ∃ pipeline registry name codebase, z.Feeds s pipeline name codebase ∧
      z.registry? = some registry ∧ o = z.verified registry codebase
  | .ns, o => z.context.kiosk = false ∧ o = Target.buildNamespace z.stage.target z.ns
  | .space, o => z.context.kiosk = true ∧ o = Target.buildSpace z.stage.target z.ns
  | .role, o => o = Access.viewRole z.stage.target
  | .roleBinding, o => o ∈ Access.desiredBindings z.ns z.stage.target z.context.platform
  | .jenkinsJob, o => ∃ config, z.configs config ∧ o = StageJob.build z.stage config
  | _, _ => False

/-- What may become of an object. -/
def Alters (s : Store) : (k : Kind) → Object k → Object k → Prop
  | .stage, o, o' => o' = o ∨
      o.key = z.stage.key ∧ o'.metadata = o.metadata ∧ o'.spec = o.spec
  | .imageStream, o, o' => o' = o ∨ z.Deploys s o.key ∧ o' = o.withLabel z.stage.label
  | .jenkinsJob, o, o' => o' = o ∨
      o.key = z.stage.key ∧ ∃ config, z.configs config ∧ o' = o.withConfig config
  | _, o, o' => o' = o

/-- What may be found where this was found before. -/
def Changes (s : Store) (k : Kind) : Option (Object k) → Option (Object k) → Prop
  | none, none => True
  | none, some o' => ∃ o, z.Builds s k o ∧ z.Alters s k o o'
  | some _, none => False
  | some o, some o' => z.Alters s k o o'

/-- The store may develop into the other one while the stage is provisioned. -/
structure Leads (s t : Store) : Prop where
  sound : t.Sound
  changes : ∀ k key, z.Changes t k (s.find? k key) (t.find? k key)

variable {z} {k : Kind} {s t u : Store}

/-! ### Changes of one object -/

theorem Alters.refl (s : Store) (o : Object k) : z.Alters s k o o := by
  cases k <;> first | exact .inl rfl | exact rfl

theorem Alters.key {o o' : Object k} (halters : z.Alters s k o o') : o'.key = o.key := by
  cases k
  case stage =>
    rcases halters with rfl | ⟨-, hmetadata, -⟩
    · rfl
    · simp only [Object.key, hmetadata]
  case imageStream =>
    rcases halters with rfl | ⟨-, rfl⟩
    · rfl
    · exact Object.key_withLabel
  case jenkinsJob =>
    rcases halters with rfl | ⟨-, config, -, rfl⟩ <;> rfl
  all_goals exact halters ▸ rfl

theorem Alters.isReleased {o o' : Object k} (halters : z.Alters s k o o') :
    o'.metadata.isReleased = o.metadata.isReleased := by
  cases k
  case stage =>
    rcases halters with rfl | ⟨-, hmetadata, -⟩
    · rfl
    · rw [hmetadata]
  case imageStream =>
    rcases halters with rfl | ⟨-, rfl⟩
    · rfl
    · exact Object.isReleased_withLabel
  case jenkinsJob =>
    rcases halters with rfl | ⟨-, config, -, rfl⟩ <;> rfl
  all_goals exact halters ▸ rfl

theorem Alters.trans {o o' o'' : Object k} (hfirst : z.Alters s k o o')
    (hsecond : z.Alters s k o' o'') : z.Alters s k o o'' := by
  have hkey : o'.key = o.key := hfirst.key
  cases k
  case stage =>
    rcases hfirst with rfl | ⟨hhere, hmetadata, hspec⟩
    · exact hsecond
    rcases hsecond with rfl | ⟨-, hmetadata', hspec'⟩
    · exact .inr ⟨hhere, hmetadata, hspec⟩
    · exact .inr ⟨hhere, hmetadata'.trans hmetadata, hspec'.trans hspec⟩
  case imageStream =>
    rcases hfirst with rfl | ⟨hdeploys, rfl⟩
    · exact hsecond
    rcases hsecond with rfl | ⟨-, rfl⟩
    · exact .inr ⟨hdeploys, rfl⟩
    · exact .inr ⟨hdeploys, Object.withLabel_withLabel⟩
  case jenkinsJob =>
    rcases hfirst with rfl | ⟨hhere, config, hconfig, rfl⟩
    · exact hsecond
    rcases hsecond with rfl | ⟨-, config', hconfig', rfl⟩
    · exact .inr ⟨hhere, config, hconfig, rfl⟩
    · exact .inr ⟨hhere, config', hconfig', rfl⟩
  all_goals exact hsecond.trans hfirst

theorem isReleased_of_builds {o : Object k} (hbuilds : z.Builds s k o) :
    o.metadata.isReleased = false := by
  cases k
  case imageStream =>
    obtain ⟨pipeline, registry, name, codebase, -, -, rfl⟩ := hbuilds
    rfl
  case ns => exact hbuilds.2 ▸ rfl
  case space => exact hbuilds.2 ▸ rfl
  case role => exact (show o = _ from hbuilds) ▸ rfl
  case jenkinsJob =>
    obtain ⟨config, -, rfl⟩ := hbuilds
    rfl
  case roleBinding =>
    simp only [Builds, Access.desiredBindings, List.mem_append, List.mem_cons,
      List.not_mem_nil, or_false] at hbuilds
    rcases hbuilds with (rfl | rfl) | hview
    · rfl
    · rfl
    · split at hview
      · obtain rfl := List.mem_singleton.mp hview
        rfl
      · exact (nomatch hview)
  all_goals exact hbuilds.elim

/-! ### Developments -/

/-- What is built and labelled depends on the codebases of the input streams only. -/
theorem Feeds.mono (hkeeps : ∀ name codebase, z.codebaseAt s name = some codebase →
    z.codebaseAt t name = some codebase) {pipeline : Pipeline} {name codebase : String}
    (hfeeds : z.Feeds s pipeline name codebase) : z.Feeds t pipeline name codebase :=
  ⟨hfeeds.1, hfeeds.2.1, hkeeps name codebase hfeeds.2.2⟩

theorem Builds.mono (hkeeps : ∀ name codebase, z.codebaseAt s name = some codebase →
    z.codebaseAt t name = some codebase) {o : Object k} (hbuilds : z.Builds s k o) :
    z.Builds t k o := by
  cases k
  case imageStream =>
    obtain ⟨pipeline, registry, name, codebase, hfeeds, hregistry, rfl⟩ := hbuilds
    exact ⟨pipeline, registry, name, codebase, hfeeds.mono hkeeps, hregistry, rfl⟩
  all_goals exact hbuilds

theorem Deploys.mono (hkeeps : ∀ name codebase, z.codebaseAt s name = some codebase →
    z.codebaseAt t name = some codebase) {key : Key} (hdeploys : z.Deploys s key) :
    z.Deploys t key := by
  obtain ⟨hauto, pipeline, name, codebase, hfeeds, hsource⟩ := hdeploys
  exact ⟨hauto, pipeline, name, codebase, hfeeds.mono hkeeps, hsource⟩

theorem Alters.mono (hkeeps : ∀ name codebase, z.codebaseAt s name = some codebase →
    z.codebaseAt t name = some codebase) {o o' : Object k} (halters : z.Alters s k o o') :
    z.Alters t k o o' := by
  cases k
  case imageStream =>
    rcases halters with rfl | ⟨hdeploys, rfl⟩
    · exact .inl rfl
    · exact .inr ⟨hdeploys.mono hkeeps, rfl⟩
  all_goals exact halters

theorem Leads.found (hleads : z.Leads s t) {key : Key} {o : Object k}
    (hfound : s.find? k key = some o) : ∃ o', t.find? k key = some o' ∧ z.Alters t k o o' := by
  have hchanges := hleads.changes k key
  rw [hfound] at hchanges
  cases hlater : t.find? k key with
  | none => exact (hlater ▸ hchanges : z.Changes t k (some o) none).elim
  | some o' => exact ⟨o', rfl, (hlater ▸ hchanges : z.Changes t k (some o) (some o'))⟩

/-- A codebase that a stream has is not lost. -/
theorem Leads.codebaseAt (hleads : z.Leads s t) (name codebase : String)
    (hcodebase : z.codebaseAt s name = some codebase) : z.codebaseAt t name = some codebase := by
  obtain ⟨stream, hfound, hstream⟩ := Option.map_eq_some_iff.mp hcodebase
  obtain ⟨stream', hfound', halters⟩ := hleads.found hfound
  refine Option.map_eq_some_iff.mpr ⟨stream', hfound', ?_⟩
  rcases halters with rfl | ⟨-, rfl⟩
  · exact hstream
  · rw [Object.spec_withLabel]
    exact hstream

theorem Leads.refl (hsound : s.Sound) : z.Leads s s := by
  refine ⟨hsound, fun k key ↦ ?_⟩
  cases s.find? k key with
  | none => trivial
  | some o => exact Alters.refl s o

theorem Leads.trans (hfirst : z.Leads s t) (hsecond : z.Leads t u) : z.Leads s u := by
  refine ⟨hsecond.sound, fun k key ↦ ?_⟩
  have hchanges := hfirst.changes k key
  cases hs : s.find? k key with
  | none =>
    cases ht : t.find? k key with
    | none => exact ht ▸ hsecond.changes k key
    | some o =>
      rw [hs, ht] at hchanges
      obtain ⟨built, hbuilds, halters⟩ := hchanges
      obtain ⟨o', hu, halters'⟩ := hsecond.found ht
      rw [hu]
      exact ⟨built, hbuilds.mono hsecond.codebaseAt,
        (halters.mono hsecond.codebaseAt).trans halters'⟩
  | some o =>
    obtain ⟨o', ht, halters⟩ := hfirst.found hs
    obtain ⟨o'', hu, halters'⟩ := hsecond.found ht
    rw [hu]
    exact (halters.mono hsecond.codebaseAt).trans halters'

variable (z) in
/-- The developments from the store in which the work starts. -/
def development : Development where
  dom s := z.Leads z.base s
  leads := z.Leads
  refl hdom := .refl hdom.sound
  trans := .trans
  stays := .trans

/-- Building an object that is missing. -/
theorem leads_create (hsound : s.Sound) {o : Object k} (habsent : s.find? k o.key = none)
    (hbuilds : z.Builds s k o) : z.Leads s (s.put o) := by
  have hkeeps (name codebase : String) (hcodebase : z.codebaseAt s name = some codebase) :
      z.codebaseAt (s.put o) name = some codebase := by
    obtain ⟨stream, hfound, hstream⟩ := Option.map_eq_some_iff.mp hcodebase
    refine Option.map_eq_some_iff.mpr ⟨stream, ?_, hstream⟩
    rw [Store.find?_put_of_ne, hfound]
    rintro ⟨rfl, hkey⟩
    rw [hkey, habsent] at hfound
    exact nomatch hfound
  refine ⟨hsound.put (isReleased_of_builds hbuilds), fun k' key ↦ ?_⟩
  by_cases hhere : k' = k ∧ key = o.key
  · obtain ⟨rfl, rfl⟩ := hhere
    rw [Store.find?_put_self, habsent]
    exact ⟨o, hbuilds.mono hkeeps, .refl _ o⟩
  · rw [Store.find?_put_of_ne s o hhere]
    cases s.find? k' key with
    | none => trivial
    | some stored => exact .refl _ stored

theorem leads_secure (hsound : s.Sound) {o : Object k} (hbuilds : z.Builds s k o) :
    z.Leads s (s.create o).2 := by
  cases hfound : s.find? k o.key with
  | some stored =>
    rw [Store.create_of_found hfound]
    exact .refl hsound
  | none =>
    rw [Store.create_of_absent hfound]
    exact leads_create hsound hfound hbuilds

/-- Altering an object that is there. -/
theorem leads_alter (hsound : s.Sound) {o o' : Object k} (hfound : s.find? k o.key = some o)
    (halters : z.Alters s k o o') : z.Leads s (s.put o') := by
  have hkey : o'.key = o.key := halters.key
  have hheld : o'.metadata.isReleased = false := halters.isReleased.trans (hsound.held hfound)
  have hkeeps (name codebase : String) (hcodebase : z.codebaseAt s name = some codebase) :
      z.codebaseAt (s.put o') name = some codebase := by
    obtain ⟨stream, hstored, hstream⟩ := Option.map_eq_some_iff.mp hcodebase
    by_cases hhere : Kind.imageStream = k ∧ (⟨z.ns, name⟩ : Key) = o'.key
    · obtain ⟨rfl, hname⟩ := hhere
      rw [hname, hkey, hfound] at hstored
      obtain rfl := Option.some.inj hstored
      refine Option.map_eq_some_iff.mpr ⟨o', hname ▸ Store.find?_put_self s o', ?_⟩
      rcases halters with rfl | ⟨-, rfl⟩
      · exact hstream
      · rw [Object.spec_withLabel]
        exact hstream
    · exact Option.map_eq_some_iff.mpr
        ⟨stream, (Store.find?_put_of_ne s o' hhere).trans hstored, hstream⟩
  refine ⟨hsound.put hheld, fun k' key ↦ ?_⟩
  by_cases hhere : k' = k ∧ key = o'.key
  · obtain ⟨rfl, rfl⟩ := hhere
    rw [Store.find?_put_self, hkey, hfound]
    exact halters.mono hkeeps
  · rw [Store.find?_put_of_ne s o' hhere]
    cases s.find? k' key with
    | none => trivial
    | some stored => exact .refl _ stored

/-! ### What stays -/

/-- The kinds whose objects provisioning only reads. -/
def isGiven : Kind → Bool
  | .pipeline => true
  | .component => true
  | .codebase => true
  | .gitServer => true
  | .jenkinsFolder => true
  | .jenkins => true
  | _ => false

theorem Leads.given (hleads : z.Leads s t) (hgiven : isGiven k = true) (key : Key) :
    t.find? k key = s.find? k key := by
  have hchanges := hleads.changes k key
  cases hs : s.find? k key with
  | none =>
    cases ht : t.find? k key with
    | none => rfl
    | some o =>
      rw [hs, ht] at hchanges
      obtain ⟨built, hbuilds, -⟩ := hchanges
      cases k <;> first | exact hbuilds.elim | exact (nomatch hgiven)
  | some o =>
    obtain ⟨o', ht, halters⟩ := hleads.found hs
    rw [ht]
    cases k <;> first | exact congrArg some halters | exact (nomatch hgiven)

/-- The kinds of which an object that is there may be altered. -/
def isAlterable : Kind → Bool
  | .stage => true
  | .imageStream => true
  | .jenkinsJob => true
  | _ => false

theorem Leads.kept (hleads : z.Leads s t) (hkept : isAlterable k = false) {key : Key}
    {o : Object k} (hfound : s.find? k key = some o) : t.find? k key = some o := by
  obtain ⟨o', ht, halters⟩ := hleads.found hfound
  rw [ht]
  cases k <;> first | exact congrArg some halters | exact (nomatch hkept)

theorem Leads.pipeline (hleads : z.Leads z.base s) :
    s.find? .pipeline z.stage.pipelineKey = z.pipeline? := hleads.given rfl _

theorem Leads.registry (hleads : z.Leads z.base s) :
    s.find? .component ⟨z.ns, Naming.registryComponent⟩ = z.registry? := hleads.given rfl _

/-- The stage stays where it is, but for its status. -/
theorem Leads.stage (hleads : z.Leads z.base s) :
    ∃ status, s.find? .stage z.stage.key = some { z.stage with status := status } := by
  obtain ⟨stored, hfound, halters⟩ := hleads.found z.stored
  refine ⟨stored.status, hfound.trans (congrArg some ?_)⟩
  rcases halters with rfl | ⟨-, hmetadata, hspec⟩
  · rfl
  · show (⟨stored.metadata, stored.spec, stored.status⟩ : Stage) = _
    rw [hmetadata, hspec]

/-- Objects that are left alone once they are there are as they were, or as they are built. -/
theorem Leads.kept_or_built (hleads : z.Leads s t) (hkept : isAlterable k = false) {o : Object k}
    (hunique : ∀ o', z.Builds t k o' → o'.key = o.key → o' = o)
    (hthere : ∃ stored, t.find? k o.key = some stored) :
    t.find? k o.key = some ((s.find? k o.key).getD o) := by
  cases hbefore : s.find? k o.key with
  | some stored => exact hleads.kept hkept hbefore
  | none =>
    obtain ⟨stored, hstored⟩ := hthere
    have hchanges := hleads.changes k o.key
    rw [hbefore, hstored] at hchanges
    obtain ⟨built, hbuilds, halters⟩ := hchanges
    have hsame : stored = built := by
      cases k <;> first | exact halters | exact (nomatch hkept)
    have hkey : built.key = o.key := hsame ▸ hleads.sound.keyed hstored
    rw [hstored, hsame, hunique built hbuilds hkey]
    rfl

/-- Where nothing can be built, such objects are what they were. -/
theorem Leads.untouched (hleads : z.Leads s t) (hkept : isAlterable k = false) {key : Key}
    (hbuilds : ∀ o, z.Builds t k o → o.key ≠ key) : t.find? k key = s.find? k key := by
  cases hbefore : s.find? k key with
  | some stored => exact hleads.kept hkept hbefore
  | none =>
    cases hafter : t.find? k key with
    | none => rfl
    | some stored =>
      have hchanges := hleads.changes k key
      rw [hbefore, hafter] at hchanges
      obtain ⟨built, hbuilt, halters⟩ := hchanges
      exact absurd (halters.key.symm.trans (hleads.sound.keyed hafter)) (hbuilds built hbuilt)

/-- Of stages and jobs only those of the stage itself are touched. -/
theorem Leads.elsewhere (hleads : z.Leads z.base s) (hkind : k = .stage ∨ k = .jenkinsJob)
    {key : Key} (hkey : key ≠ z.stage.key) : s.find? k key = z.base.find? k key := by
  have hchanges := hleads.changes k key
  cases hbase : z.base.find? k key with
  | none =>
    cases hfound : s.find? k key with
    | none => rfl
    | some o =>
      rw [hbase, hfound] at hchanges
      obtain ⟨built, hbuilds, halters⟩ := hchanges
      rcases hkind with rfl | rfl
      · exact hbuilds.elim
      · obtain ⟨config, -, rfl⟩ := hbuilds
        exact absurd ((hleads.sound.keyed hfound).symm.trans halters.key) hkey
  | some o =>
    have hhere : o.key = key := z.sound.keyed hbase
    obtain ⟨o', hfound, halters⟩ := hleads.found hbase
    rw [hfound]
    rcases hkind with rfl | rfl
    · rcases halters with rfl | ⟨hstage, -⟩
      · rfl
      · exact absurd (hhere.symm.trans hstage) hkey
    · rcases halters with rfl | ⟨hstage, -⟩
      · rfl
      · exact absurd (hhere.symm.trans hstage) hkey

/-! ### Objects that are built and left alone -/

open Operation in
theorem settles_secure {o : Object k} (hkept : isAlterable k = false)
    (hbuilds : ∀ s, z.Builds s k o) : (secure o).Settles z.development := by
  constructor
  · intro s hdom
    rw [on_secure]
    exact leads_secure hdom.sound (hbuilds s)
  · intro s hdom
    rw [on_secure, rests_secure]
    exact ⟨Store.find?_create_self s o, rfl⟩
  · intro s t hdom hrests hleads
    rw [rests_secure] at hrests ⊢
    obtain ⟨⟨stored, hfound⟩, -⟩ := hrests
    exact ⟨⟨stored, hleads.kept hkept hfound⟩, rfl⟩

end Site

end PipelineOperator
