import PipelineOperator.Proofs.Provision.Site

/-!
Providing the job of a stage. Without failing calls the job gets the configuration that follows from
the store (`StageJob.desired`), and then rests. When a look-up fails, the job gets a configuration
without its library, so failures are absorbed only up to the configuration of the job: the next run
without failures puts it right.
-/

set_option autoImplicit false
set_option relaxedAutoImplicit false

namespace PipelineOperator

namespace Object

variable {job : JenkinsJob} {config : String}

theorem withConfig_of_config (hconfig : job.spec.job.config = config) :
    job.withConfig config = job := by
  subst hconfig
  rfl

end Object

namespace StageJob

open Operation

variable {z : Site} {stage : Stage} {pipeline : Pipeline} {config : String} {s t : Store}

/-! ### The configuration -/

/-- A library through its codebase and the git server of that, as far as the store has them. -/
def located (s : Store) (ns : String) (library : Library) : Option LibraryParameters := do
  let codebase ← s.find? .codebase ⟨ns, library.name⟩
  let server ← s.find? .gitServer ⟨ns, CodebaseSpec.gitServer codebase.spec⟩
  let path ← libraryPath? library codebase.spec
  return {
    url := cloneUrl server.spec path
    branch := library.branch
    credentials := GitServerSpec.sshKeySecret server.spec
    gitServer := server.metadata.anyName }

/-- The library of the stage, if it wants one that can be located. -/
def resolved (s : Store) (stage : Stage) : Option LibraryParameters :=
  match stage.spec.source.kind, stage.spec.source.library with
  | .library, some library => located s stage.metadata.namespaceOrEmpty library
  | _, _ => none

/-- The configuration that the job of the stage is to have. -/
def desired (s : Store) (stage : Stage) (pipeline : Pipeline) : String :=
  (parameters stage pipeline (resolved s stage)).text

theorem rests_libraryParameters (s : Store) (ns : String) (library : Library) :
    ∃ r, (libraryParameters ns library).Rests s r ∧ r.toOption = located s ns library := by
  unfold libraryParameters located
  simp only [rests_require_bind]
  cases hcodebase : s.find? .codebase ⟨ns, library.name⟩ with
  | none => exact ⟨_, rfl, rfl⟩
  | some codebase =>
    cases hserver : s.find? .gitServer ⟨ns, CodebaseSpec.gitServer codebase.spec⟩ with
    | none =>
      simp only [Option.bind_eq_bind, Option.bind_some, hserver]
      exact ⟨_, rfl, rfl⟩
    | some server =>
      simp only [Option.bind_eq_bind, Option.bind_some, hserver]
      cases hpath : libraryPath? library codebase.spec with
      | none => exact ⟨_, rfl, rfl⟩
      | some path => exact ⟨_, rfl, rfl⟩

theorem rests_resolveLibrary (s : Store) (stage : Stage) :
    (resolveLibrary stage).Rests s (.ok (resolved s stage)) := by
  unfold resolveLibrary resolved
  cases stage.spec.source.kind with
  | default => rfl
  | library =>
    cases stage.spec.source.library with
    | none => rfl
    | some library =>
      obtain ⟨r, hrests, hlocated⟩ :=
        rests_libraryParameters s stage.metadata.namespaceOrEmpty library
      simp only [map_eq_pure_bind, rests_tryCatch, rests_bind, ← hlocated]
      cases r with
      | ok parameters => exact .inl ⟨_, .inl ⟨_, hrests, rfl⟩, rfl⟩
      | error e => exact .inr ⟨e, .inr ⟨e, hrests, rfl⟩, rfl⟩

theorem rests_config (s : Store) (stage : Stage) (pipeline : Pipeline) :
    (StageJob.config stage pipeline).Rests s (.ok (desired s stage pipeline)) :=
  rests_bind.mpr (.inl ⟨_, rests_resolveLibrary s stage, rfl⟩)

/-- The configuration depends on codebases and git servers only. -/
theorem desired_congr (hcodebases : ∀ key, t.find? .codebase key = s.find? .codebase key)
    (hservers : ∀ key, t.find? .gitServer key = s.find? .gitServer key) (stage : Stage)
    (pipeline : Pipeline) : desired t stage pipeline = desired s stage pipeline := by
  have hlocated (ns : String) (library : Library) :
      located t ns library = located s ns library := by
    unfold located
    rw [hcodebases]
    simp only [hservers]
  unfold desired resolved
  simp only [hlocated]

/-- Provisioning does not bear on the configuration. -/
theorem desired_of_leads (hleads : z.Leads s t) (stage : Stage) (pipeline : Pipeline) :
    desired t stage pipeline = desired s stage pipeline :=
  desired_congr (hleads.given rfl) (hleads.given rfl) stage pipeline

theorem asks_libraryParameters {allowed : Request → Prop}
    (hcodebase : ∀ key, allowed (.get .codebase key))
    (hserver : ∀ key, allowed (.get .gitServer key)) (ns : String) (library : Library) :
    (libraryParameters ns library).Asks allowed := by
  refine (asks_require (hcodebase _)).bind fun codebase ↦
    (asks_require (hserver _)).bind fun server ↦ ?_
  cases libraryPath? library codebase.spec with
  | none => exact asks_fail _
  | some path => exact asks_pure _

theorem asks_resolveLibrary {allowed : Request → Prop}
    (hcodebase : ∀ key, allowed (.get .codebase key))
    (hserver : ∀ key, allowed (.get .gitServer key)) (stage : Stage) :
    (resolveLibrary stage).Asks allowed := by
  unfold resolveLibrary
  split
  · rw [map_eq_pure_bind]
    exact ((asks_libraryParameters hcodebase hserver _ _).bind fun _ ↦ asks_pure _).tryCatch
      fun _ ↦ asks_pure _
  · exact asks_pure _

/-- Whichever calls fail, there is a configuration, and nothing was done. -/
theorem surely_config (s : Store) (stage : Stage) (pipeline : Pipeline) :
    (StageJob.config stage pipeline).Surely s
      (fun r s' ↦ (∃ config, r = .ok config) ∧ s' = s) := by
  have hresolve : (resolveLibrary stage).Surely s (fun r s' ↦ (∃ l, r = .ok l) ∧ s' = s) := by
    unfold resolveLibrary
    split
    · next library _ _ =>
      rw [surely_tryCatch, map_eq_pure_bind, surely_bind]
      have hreads : (libraryParameters stage.metadata.namespaceOrEmpty library).Asks
          (fun request ↦ request.isRead = true) :=
        asks_libraryParameters (fun _ ↦ rfl) (fun _ ↦ rfl) _ library
      refine (hreads.surely s).mono fun r s' hsame ↦ ?_
      cases r with
      | ok parameters => exact ⟨⟨_, rfl⟩, hsame⟩
      | error e => exact ⟨⟨_, rfl⟩, hsame⟩
    · exact ⟨⟨none, rfl⟩, rfl⟩
  refine surely_bind.mpr (hresolve.mono fun r s' hr ↦ ?_)
  obtain ⟨⟨l, rfl⟩, rfl⟩ := hr
  exact ⟨⟨_, rfl⟩, rfl⟩

/-! ### The job -/

/-- Gives the job a configuration, or builds it with that. -/
def bring (stage : Stage) (config : String) : Operation Unit := do
  match ← get .jenkinsJob stage.key with
  | some existing =>
    if existing.spec.job.config = config then pure () else setJobConfig stage.key config
  | none => do
    let _ ← create (build stage config)

theorem serve_eq (stage : Stage) :
    serve stage = stage.parent >>= fun pipeline ↦
      StageJob.config stage pipeline >>= fun config ↦ bring stage config := rfl

/-- The job after it was brought to a configuration. -/
def brought (s : Store) (stage : Stage) (config : String) : JenkinsJob :=
  match s.find? .jenkinsJob stage.key with
  | some existing => existing.withConfig config
  | none => build stage config

theorem brought_eq (s : Store) (stage : Stage) (config : String) :
    brought s stage config = (s.find? .jenkinsJob stage.key).elim {
        metadata := {
          name := some stage.metadata.anyName
          ns := stage.metadata.ns
          owners := (Kind.stage.controllerReference stage.metadata).map fun owner ↦ [owner] }
        spec := {
          stageName := stage.metadata.anyName
          folder := stage.spec.pipeline
          job := {
            name := "job-provisions/job/cd/job/" ++ stage.spec.jobProvisioning
            config := config
            autoTriggerPeriod := 60 } }
        status := some { action := "accept_jenkins_job" } }
      fun job ↦ { job with spec.job.config := config } := by
  unfold brought
  cases s.find? .jenkinsJob stage.key <;> rfl

theorem key_brought (hkeyed : s.KeyedAt .jenkinsJob) (stage : Stage) (config : String) :
    (brought s stage config).key = stage.key := by
  unfold brought
  cases hfound : s.find? .jenkinsJob stage.key with
  | some existing =>
    have hkey : existing.key = stage.key := hkeyed hfound
    exact hkey
  | none => rfl

theorem config_brought (s : Store) (stage : Stage) (config : String) :
    (brought s stage config).spec.job.config = config := by
  unfold brought
  cases s.find? .jenkinsJob stage.key <;> rfl

theorem on_bring (hkeyed : s.KeyedAt .jenkinsJob) (stage : Stage) (config : String) :
    (bring stage config).on s = (.ok (), s.put (brought s stage config)) := by
  unfold bring brought
  rw [on_bind_of_ok (on_get ..)]
  cases hfound : s.find? .jenkinsJob stage.key with
  | some existing =>
    have hkey : existing.key = stage.key := hkeyed hfound
    by_cases hconfig : existing.spec.job.config = config
    · have hsame : existing.withConfig config = existing := Object.withConfig_of_config hconfig
      simp only [if_pos hconfig, hsame, on_pure]
      rw [Store.put_of_find? (hkey ▸ hfound)]
    · simp only [if_neg hconfig]
      exact hkeyed.setJobConfig hfound config
  | none =>
    have hcreated : (create (build stage config)).on s =
        (.ok .created, s.put (build stage config)) :=
      congrArg (fun c ↦ (Except.ok c.1, c.2))
        (Store.create_of_absent (o := build stage config) hfound)
    exact on_bind_of_ok hcreated _

theorem rests_bring : (bring stage config).Rests s (.ok ()) ↔
    ∃ job, s.find? .jenkinsJob stage.key = some job ∧ job.spec.job.config = config := by
  unfold bring
  rw [rests_get_bind]
  cases hfound : s.find? .jenkinsJob stage.key with
  | some existing =>
    by_cases hconfig : existing.spec.job.config = config
    · simp only [if_pos hconfig]
      exact ⟨fun _ ↦ ⟨existing, rfl, hconfig⟩, fun _ ↦ rfl⟩
    · simp only [if_neg hconfig, rests_setJobConfig, false_iff]
      rintro ⟨job, hjob, hsame⟩
      exact hconfig (Option.some.inj hjob ▸ hsame)
  | none =>
    constructor
    · intro hrests
      exact absurd hrests.1 Bool.false_ne_true
    · rintro ⟨job, hjob, -⟩
      cases hjob

theorem atomic_bring (stage : Stage) (config : String) : (bring stage config).Atomic := by
  refine atomic_get_bind fun found ↦ ?_
  cases found with
  | none => exact (atomic_ask _).map _
  | some existing =>
    show (if existing.spec.job.config = config then pure () else
      setJobConfig stage.key config : Operation Unit).Atomic
    split
    · exact atomic_pure ()
    · exact atomic_ask _

theorem asks_serve {allowed : Request → Prop} (hpipeline : ∀ key, allowed (.get .pipeline key))
    (hcodebase : ∀ key, allowed (.get .codebase key))
    (hserver : ∀ key, allowed (.get .gitServer key))
    (hget : ∀ key, allowed (.get .jenkinsJob key))
    (hcreate : ∀ o : JenkinsJob, allowed (.create .jenkinsJob o))
    (hset : ∀ key config, allowed (.setJobConfig key config)) :
    (serve stage).Asks allowed := by
  rw [serve_eq]
  refine (asks_require (hpipeline _)).bind fun pipeline ↦ ?_
  refine Asks.bind ?_ fun config ↦ ?_
  · exact (asks_resolveLibrary hcodebase hserver stage).bind fun _ ↦ asks_pure _
  · refine (asks_ask (hget _)).bind fun found ↦ ?_
    cases found with
    | none => exact (asks_ask (hcreate _)).bind fun _ ↦ asks_pure _
    | some existing =>
      show (if existing.spec.job.config = config then pure () else
        setJobConfig stage.key config : Operation Unit).Asks allowed
      split
      · exact asks_pure _
      · exact asks_ask (hset _ _)

theorem leads_brought (hsound : s.Sound) (hconfig : z.configs config) :
    z.Leads s (s.put (brought s z.stage config)) := by
  unfold brought
  cases hfound : s.find? .jenkinsJob z.stage.key with
  | some existing =>
    have hkey : existing.key = z.stage.key := hsound.keyed hfound
    exact Site.leads_alter hsound (hkey ▸ hfound) (.inr ⟨hkey, config, hconfig, rfl⟩)
  | none =>
    have hbuilds : z.Builds s .jenkinsJob (build z.stage config) := ⟨config, hconfig, rfl⟩
    exact Site.leads_create hsound hfound hbuilds

/-- All that may come of the job is another configuration. -/
theorem eq_brought_of_leads (hleads : z.Leads z.base s) {job : JenkinsJob}
    (hfound : s.find? .jenkinsJob z.stage.key = some job) :
    job = brought z.base z.stage job.spec.job.config := by
  have hchanges := hleads.changes .jenkinsJob z.stage.key
  rw [hfound] at hchanges
  unfold brought
  cases hbase : z.base.find? .jenkinsJob z.stage.key with
  | some existing =>
    rw [hbase] at hchanges
    rcases hchanges with rfl | ⟨-, config, -, rfl⟩ <;> rfl
  | none =>
    rw [hbase] at hchanges
    obtain ⟨built, ⟨config, -, rfl⟩, rfl | ⟨-, config', -, rfl⟩⟩ := hchanges <;> rfl

/-- The job that there is where providing it rests. -/
theorem found_of_rests_serve (hrests : (serve stage).Rests s (.ok ())) :
    ∃ pipeline job, s.find? .pipeline stage.pipelineKey = some pipeline ∧
      s.find? .jenkinsJob stage.key = some job ∧
      job.spec.job.config = desired s stage pipeline := by
  rw [serve_eq] at hrests
  unfold Stage.parent at hrests
  rw [rests_require_bind] at hrests
  cases hpipeline : s.find? .pipeline stage.pipelineKey with
  | none =>
    rw [hpipeline] at hrests
    exact nomatch hrests
  | some pipeline =>
    rw [hpipeline] at hrests
    rcases rests_bind.mp hrests with ⟨config, hconfig, hbring⟩ | ⟨e, -, hcontra⟩
    · obtain rfl := Except.ok.inj (hconfig.unique (rests_config s stage pipeline))
      obtain ⟨job, hjob, hsame⟩ := rests_bring.mp hbring
      exact ⟨pipeline, job, rfl, hjob, hsame⟩
    · exact nomatch hcontra

/-! ### Settling -/

theorem settles_bring (hconfigs : ∀ c, z.configs c ↔ c = config) :
    (bring z.stage config).Settles z.development := by
  constructor
  · intro s hdom
    rw [on_bring (hdom.sound.toKeyed _)]
    exact leads_brought hdom.sound ((hconfigs config).mpr rfl)
  · intro s hdom
    rw [on_bring (hdom.sound.toKeyed _), rests_bring]
    refine ⟨brought s z.stage config, ?_, config_brought s z.stage config⟩
    rw [← key_brought (hdom.sound.toKeyed _) z.stage config, Store.find?_put_self]
  · intro s t hdom hrests hleads
    rw [rests_bring] at hrests ⊢
    obtain ⟨job, hfound, hconfig⟩ := hrests
    obtain ⟨job', hfound', halters⟩ := hleads.found hfound
    refine ⟨job', hfound', ?_⟩
    rcases halters with rfl | ⟨-, config', hconfig', rfl⟩
    · exact hconfig
    · exact (hconfigs config').mp hconfig'

/-- Without failing calls the job is brought to one configuration. -/
theorem settles_serve (hconfigs : ∀ pipeline, z.pipeline? = some pipeline →
    ∀ config, z.configs config ↔ config = desired z.base z.stage pipeline) :
    (serve z.stage).Settles z.development := by
  rw [serve_eq]
  refine settles_require_bind (fun hdom ↦ Site.Leads.pipeline hdom) fun pipeline hpipeline ↦ ?_
  refine (settles_bring (hconfigs pipeline hpipeline)).congr (fun {s} hdom ↦ ?_)
    (fun {s r} hdom ↦ ?_)
  · rw [on_bind_of_ok (rests_config s z.stage pipeline).on, desired_of_leads hdom]
  · have hconfig := rests_config s z.stage pipeline
    rw [desired_of_leads hdom] at hconfig
    rw [rests_bind]
    constructor
    · rintro (⟨config, hrests, hbring⟩ | ⟨e, hrests, -⟩)
      · obtain rfl := Except.ok.inj (hrests.unique hconfig)
        exact hbring
      · exact nomatch hrests.unique hconfig
    · intro hbring
      exact .inl ⟨_, hconfig, hbring⟩

/-- A failing look-up is absorbed, if the configuration of the job is left out of account. -/
theorem absorbs_serve (hconfigs : ∀ config, z.configs config) {hidden : Kind → Prop}
    (hhidden : hidden .jenkinsJob) : (serve z.stage).Absorbs z.development hidden := by
  rw [serve_eq]
  refine absorbs_require_bind (fun hdom ↦ Site.Leads.pipeline hdom) fun pipeline hpipeline ↦ ?_
  have hdone {s : Store} (hsound : s.Sound) : SameOff hidden
      ((StageJob.config z.stage pipeline >>= fun config ↦ bring z.stage config).on s)
      (.ok (), s) := by
    rw [on_bind_of_ok (rests_config s z.stage pipeline).on, on_bring (hsound.toKeyed _)]
    exact ⟨rfl, Store.agreeOff_put s hhidden _⟩
  constructor
  · intro s hdom
    have hsound : s.Sound := hdom.sound
    rw [surely_bind]
    refine (surely_config s z.stage pipeline).mono fun r s' hr ↦ ?_
    obtain ⟨⟨config, rfl⟩, rfl⟩ := hr
    refine (atomic_bring z.stage config s').mono fun r s'' hr ↦ ?_
    rcases hr with ⟨e, rfl, rfl⟩ | hon
    · exact ⟨.refl hsound, .refl _, nofun⟩
    · rw [on_bring (hsound.toKeyed _)] at hon
      obtain ⟨rfl, rfl⟩ := Prod.mk.inj hon
      have hleads := leads_brought (z := z) hsound (hconfigs config)
      have hput := Store.agreeOff_put s' hhidden (brought s' z.stage config)
      refine ⟨hleads, ?_, fun _ ↦ ⟨?_, fun t ht ↦ hdone ht.sound⟩⟩
      · exact ((hdone hleads.sound).trans (.of_agreeOff hput _)).trans (hdone hsound).symm
      · exact (hdone hsound).trans (.of_agreeOff hput.symm _)
  · intro s t hs ht hagree
    exact ((hdone hs.sound).trans (.of_agreeOff hagree _)).trans (hdone ht.sound).symm

end StageJob

end PipelineOperator
