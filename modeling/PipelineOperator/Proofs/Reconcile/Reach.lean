import PipelineOperator.Proofs.Reconcile.Requests
import PipelineOperator.Proofs.Reconcile.Retry
import PipelineOperator.Proofs.Reconcile.Safety

/-!
How far a reconciliation reaches, whichever calls fail and however it ends. A `Reach` says what may
be built, what may become of an object that is there, and what may vanish; `Stage.reach` and
`Pipeline.reach` are those of the two kinds of reconciliation, and `reconcile_keeps_reach` says that
neither goes beyond its own.
-/

set_option autoImplicit false
set_option relaxedAutoImplicit false

namespace PipelineOperator

open Operation

variable {context : Context} {S T U : Store} {stage : Stage} {pipeline : Pipeline}

/-- The objects that may come about, change and vanish, and the writes by which they do. -/
structure Reach where
  builds : (k : Kind) → Object k → Prop
  alters : (k : Kind) → Object k → Object k → Prop
  removes : Kind → Key → Prop
  writes : Write → Prop

/-- Between the stores nothing has changed that is out of reach. -/
structure Reach.Bounds (reach : Reach) (S T : Store) : Prop where
  built : ∀ {k : Kind} {key : Key} {o : Object k}, S.find? k key = none →
    T.find? k key = some o → o.key = key ∧ reach.builds k o
  altered : ∀ {k : Kind} {key : Key} {o o' : Object k}, S.find? k key = some o →
    T.find? k key = some o' → o' = o ∨ o.key = key ∧ reach.alters k o o'
  removed : ∀ {k : Kind} {key : Key} {o : Object k}, S.find? k key = some o →
    T.find? k key = none → reach.removes k key

theorem Reach.Bounds.refl (reach : Reach) (S : Store) : reach.Bounds S S where
  built habsent hfound := nomatch habsent.symm.trans hfound
  altered hfound hfound' := .inl (Option.some.inj (hfound'.symm.trans hfound))
  removed hfound habsent := nomatch hfound.symm.trans habsent

namespace Reach.Bounds

variable {reach : Reach} {k : Kind}

/-- Removing what may vanish. -/
theorem remove (hbounds : reach.Bounds S T) {key : Key} (hremoves : reach.removes k key) :
    reach.Bounds S (T.remove k key) := by
  constructor
  · intro k' key' o habsent hlater
    exact hbounds.built habsent (Store.found_of_find?_remove hlater)
  · intro k' key' o o' hbefore hlater
    exact hbounds.altered hbefore (Store.found_of_find?_remove hlater)
  · intro k' key' o hbefore hlater
    by_cases hhere : k' = k ∧ key' = key
    · obtain ⟨rfl, rfl⟩ := hhere
      exact hremoves
    · exact hbounds.removed hbefore ((Store.find?_remove_of_ne T hhere).symm.trans hlater)

/-- Storing what may have become of an object. -/
theorem put (hbounds : reach.Bounds S T) {o o' : Object k} (hbase : S.find? k o'.key = some o)
    (hkey : o.key = o'.key) (halters : reach.alters k o o') : reach.Bounds S (T.put o') := by
  constructor
  · intro k' key other habsent hlater
    by_cases hhere : k' = k ∧ key = o'.key
    · obtain ⟨rfl, rfl⟩ := hhere
      exact nomatch hbase.symm.trans habsent
    · exact hbounds.built habsent ((Store.find?_put_of_ne T o' hhere).symm.trans hlater)
  · intro k' key other other' hbefore hlater
    by_cases hhere : k' = k ∧ key = o'.key
    · obtain ⟨rfl, rfl⟩ := hhere
      obtain rfl := Option.some.inj (hbase.symm.trans hbefore)
      obtain rfl := Option.some.inj ((Store.find?_put_self T o').symm.trans hlater)
      exact .inr ⟨hkey, halters⟩
    · exact hbounds.altered hbefore ((Store.find?_put_of_ne T o' hhere).symm.trans hlater)
  · intro k' key other hbefore hlater
    by_cases hhere : k' = k ∧ key = o'.key
    · obtain ⟨rfl, rfl⟩ := hhere
      exact nomatch (Store.find?_put_self T o').symm.trans hlater
    · exact hbounds.removed hbefore ((Store.find?_put_of_ne T o' hhere).symm.trans hlater)

/-- Building what may be built, and does not vanish. -/
theorem create (hbounds : reach.Bounds S T) {o : Object k} (hbuilds : reach.builds k o)
    (hstays : ¬ reach.removes k o.key) : reach.Bounds S (T.create o).2 := by
  cases hthere : T.find? k o.key with
  | some stored =>
    rw [Store.create_of_found hthere]
    exact hbounds
  | none =>
    rw [Store.create_of_absent hthere]
    constructor
    · intro k' key other habsent hlater
      by_cases hhere : k' = k ∧ key = o.key
      · obtain ⟨rfl, rfl⟩ := hhere
        obtain rfl := Option.some.inj ((Store.find?_put_self T o).symm.trans hlater)
        exact ⟨rfl, hbuilds⟩
      · exact hbounds.built habsent ((Store.find?_put_of_ne T o hhere).symm.trans hlater)
    · intro k' key other other' hbefore hlater
      by_cases hhere : k' = k ∧ key = o.key
      · obtain ⟨rfl, rfl⟩ := hhere
        exact absurd (hbounds.removed hbefore hthere) hstays
      · exact hbounds.altered hbefore ((Store.find?_put_of_ne T o hhere).symm.trans hlater)
    · intro k' key other hbefore hlater
      by_cases hhere : k' = k ∧ key = o.key
      · obtain ⟨rfl, rfl⟩ := hhere
        exact nomatch (Store.find?_put_self T o).symm.trans hlater
      · exact hbounds.removed hbefore ((Store.find?_put_of_ne T o hhere).symm.trans hlater)

end Reach.Bounds

/-- Every write that was sent is one of these, whether or not it took effect. -/
def Trial.Sends (writes : Write → Prop) (t : Trial Bench) : Prop :=
  ∀ call ∈ t.calls, ∀ w, call.request.write? = some w → writes w

/-- In the trial nothing out of reach was changed, nor was any such write sent. -/
structure Trial.KeepsReach (reach : Reach) (S : Store) (t : Trial Bench) : Prop where
  bounds : reach.Bounds S t.state.store
  sends : t.Sends reach.writes

/-! ### The reach of the reconciliations -/

namespace Stage

/-- The objects that are built for a stage. A verified stream may carry the label of the stage. -/
def builds (context : Context) (stage : Stage) : (k : Kind) → Object k → Prop
  | .imageStream, o => ∃ codebase image, ∃ built : ImageStream, built =
        VerifiedStreams.build stage (VerifiedStreams.name stage codebase) codebase image ∧
      (o = built ∨ o = built.withLabel stage.label)
  | .ns, o => o = Target.buildNamespace stage.target stage.metadata.namespaceOrEmpty
  | .space, o => o = Target.buildSpace stage.target stage.metadata.namespaceOrEmpty
  | .role, o => o = Access.viewRole stage.target
  | .roleBinding, o => o ∈ Access.desiredBindings stage.metadata.namespaceOrEmpty stage.target
      context.platform
  | .jenkinsJob, o => ∃ config, o = StageJob.build stage config
  | _, _ => False

/-- What may become of an object: of the stage all but its specification and its identity, of the
image streams of its namespace the one label, and of its job the configuration. -/
def alters (stage : Stage) : (k : Kind) → Object k → Object k → Prop
  | .stage, o, o' => o.key = stage.key ∧ ∃ w status, o' = { withWiring o w with status := status }
  | .imageStream, o, o' => o.key.ns = stage.metadata.namespaceOrEmpty ∧
      (o' = o.withLabel stage.label ∨ o' = o.withoutLabel stage.label)
  | .jenkinsJob, o, o' => o.key = stage.key ∧ ∃ config, o' = o.withConfig config
  | _, _, _ => False

/-- What may vanish: the target, and the stage itself with the last finalizer. -/
def removes (stage : Stage) (k : Kind) (key : Key) : Prop :=
  (k = .ns ∨ k = .space) ∧ key = ⟨"", stage.target⟩ ∨
    k = .stage ∧ key = stage.key ∧ stage.isDeleting = true

/-- The writes that may be sent, whether or not they take effect. -/
def writes (stage : Stage) (w : Write) : Prop :=
  w.kind = .stage ∧ w.key = stage.key ∨
  w.kind = .imageStream ∧ (w.action = .create ∨ w.action = .update) ∨
  (w.kind = .ns ∨ w.kind = .space) ∧ w.key = ⟨"", stage.target⟩ ∧
    (w.action = .create ∨ w.action = .delete) ∨
  (w.kind = .role ∨ w.kind = .roleBinding) ∧ w.action = .create ∨
  w.kind = .jenkinsJob ∧ (w.action = .create ∨ w.action = .patch)

def reach (context : Context) (stage : Stage) : Reach where
  builds := stage.builds context
  alters := stage.alters
  removes := stage.removes
  writes := stage.writes

end Stage

namespace Pipeline

/-- What may become of an object: finalizers and status of the pipeline are other ones. -/
def alters (pipeline : Pipeline) : (k : Kind) → Object k → Object k → Prop
  | .pipeline, o, o' => o.key = pipeline.key ∧
      ∃ finalizers status, o' = { Object.withFinalizers o finalizers with status := status }
  | _, _, _ => False

/-- The folder of the jobs is all that is built. -/
def builds (pipeline : Pipeline) : (k : Kind) → Object k → Prop
  | .jenkinsFolder, o => o = jobFolder pipeline
  | _, _ => False

def reach (pipeline : Pipeline) : Reach where
  builds := pipeline.builds
  alters := pipeline.alters
  removes k key := k = .pipeline ∧ key = pipeline.key ∧ pipeline.isDeleting = true
  writes w := w.kind = .pipeline ∧ (w.action = .update ∨ w.action = .status) ∨
    w.kind = .jenkinsFolder ∧ w.action = .create

end Pipeline

/-! ### A live stage -/

namespace Stage

variable {w : Wiring} {k : Kind}

/-- How a stage is wired has no bearing on its reach. -/
theorem reach_withWiring (context : Context) (stage : Stage) (w : Wiring) :
    (stage.withWiring w).reach context = stage.reach context := by
  have hbuilds : (stage.withWiring w).builds context = stage.builds context := by
    funext k
    cases k <;> rfl
  have halters : (stage.withWiring w).alters = stage.alters := by
    funext k
    cases k <;> rfl
  unfold reach
  rw [hbuilds, halters]
  rfl

end Stage

namespace Site

variable {z : Site} {k : Kind}

theorem builds_of_builds {built o : Object k} (hbuilds : z.Builds T k built)
    (halters : z.Alters T k built o) : (z.stage.reach z.context).builds k o := by
  cases k
  case imageStream =>
    obtain ⟨pipeline, registry, name, codebase, -, -, rfl⟩ := hbuilds
    exact ⟨codebase, _, z.verified registry codebase, rfl, halters.imp id And.right⟩
  case jenkinsJob =>
    obtain ⟨config, -, rfl⟩ := hbuilds
    rcases halters with rfl | ⟨-, config', -, rfl⟩
    · exact ⟨config, rfl⟩
    · exact ⟨config', rfl⟩
  case ns => exact (show o = built from halters).trans hbuilds.2
  case space => exact (show o = built from halters).trans hbuilds.2
  case role => exact (show o = built from halters).trans hbuilds
  case roleBinding =>
    obtain rfl : o = built := halters
    exact hbuilds
  all_goals exact hbuilds.elim

/-- The stream from which a stage deploys is in its namespace. -/
theorem Deploys.ns {key : Key} (hdeploys : z.Deploys T key) : key.ns = z.ns := by
  obtain ⟨-, pipeline, name, codebase, -, hsource⟩ := hdeploys
  unfold EnvironmentLabel.source? at hsource
  split at hsource
  · obtain rfl := Option.some.inj hsource
    rfl
  · obtain ⟨previous, -, rfl⟩ := Option.map_eq_some_iff.mp hsource
    rfl

theorem alters_of_alters {o o' : Object k} (halters : z.Alters T k o o') :
    o' = o ∨ (z.stage.reach z.context).alters k o o' := by
  cases k
  case stage =>
    refine halters.imp id fun ⟨hkey, hmetadata, hspec⟩ ↦ ⟨hkey, Stage.wiring o, o'.status, ?_⟩
    show (⟨o'.metadata, o'.spec, o'.status⟩ : Stage) = _
    rw [hmetadata, hspec]
    rfl
  case imageStream => exact halters.imp id fun ⟨hdeploys, hlabel⟩ ↦ ⟨hdeploys.ns, .inl hlabel⟩
  case jenkinsJob =>
    exact halters.imp id fun ⟨hkey, config, _, hconfig⟩ ↦ ⟨hkey, config, hconfig⟩
  all_goals exact .inl halters

/-- What is done on the site of an adopted stage is within its reach. -/
theorem Leads.bounds (hleads : z.Leads z.base T) :
    (z.stage.reach z.context).Bounds z.base T where
  built {k key o} habsent hlater := by
    have hchanges := hleads.changes k key
    rw [habsent, hlater] at hchanges
    obtain ⟨built, hbuilds, halters⟩ := hchanges
    exact ⟨hleads.sound.keyed hlater, builds_of_builds hbuilds halters⟩
  altered {k key o o'} hbefore hlater := by
    obtain ⟨o'', hfound, halters⟩ := hleads.found hbefore
    obtain rfl := Option.some.inj (hfound.symm.trans hlater)
    exact (alters_of_alters halters).imp id fun h ↦ ⟨z.sound.keyed hbefore, h⟩
  removed {k key o} hbefore hlater := by
    obtain ⟨o'', hfound, -⟩ := hleads.found hbefore
    exact nomatch hfound.symm.trans hlater

end Site

namespace Stage

variable {w : Wiring}

/-- That the stage was stored as adopted first is within its reach as well. -/
theorem bounds_of_adopted (hfound : S.find? .stage stage.key = some stage)
    (hbounds : (stage.reach context).Bounds (S.put (stage.withWiring w)) T) :
    (stage.reach context).Bounds S T := by
  have hbeside {k : Kind} {key : Key} (hne : ¬ (k = .stage ∧ key = stage.key)) :
      (S.put (stage.withWiring w)).find? k key = S.find? k key :=
    Store.find?_put_of_ne S (stage.withWiring w) hne
  have hstored : (S.put (stage.withWiring w)).find? .stage stage.key =
      some (stage.withWiring w) := Store.find?_put_self S (stage.withWiring w)
  constructor
  · intro k key o habsent hlater
    refine hbounds.built ((hbeside ?_).trans habsent) hlater
    rintro ⟨rfl, rfl⟩
    exact nomatch hfound.symm.trans habsent
  · intro k key o o' hbefore hlater
    by_cases hhere : k = .stage ∧ key = stage.key
    · obtain ⟨rfl, rfl⟩ := hhere
      obtain rfl := Option.some.inj (hfound.symm.trans hbefore)
      refine .inr ⟨rfl, rfl, ?_⟩
      rcases hbounds.altered hstored hlater with rfl | ⟨-, -, w', status, rfl⟩
      · exact ⟨w, stage.status, rfl⟩
      · exact ⟨w', status, rfl⟩
    · exact hbounds.altered ((hbeside hhere).trans hbefore) hlater
  · intro k key o hbefore hlater
    by_cases hhere : k = .stage ∧ key = stage.key
    · obtain ⟨rfl, rfl⟩ := hhere
      exact hbounds.removed hstored hlater
    · exact hbounds.removed ((hbeside hhere).trans hbefore) hlater

/-- Whichever calls fail, provisioning keeps within the reach of the stage. -/
theorem surely_provision_bounds (hsound : S.Sound)
    (hfound : S.find? .stage stage.key = some stage) (hlive : stage.isDeleting = false) :
    (provision context stage).Surely S (fun _ T ↦ (stage.reach context).Bounds S T) := by
  rw [provision_eq, surely_bind]
  refine (atomic_adopt stage S).mono fun r T hr ↦ ?_
  rcases hr with ⟨e, rfl, rfl⟩ | hon
  · exact .refl _ T
  rcases on_adopt hfound hlive with ⟨e, hadopt⟩ | ⟨hadopt, -⟩
  · obtain ⟨rfl, rfl⟩ := Prod.mk.inj (hadopt.on.symm.trans hon)
    exact .refl _ S
  obtain ⟨rfl, rfl⟩ := Prod.mk.inj (hadopt.symm.trans hon)
  let z : Site := Site.loose context (stage.withWiring (stage.wiringIn S)) S hsound hlive
  have hmatches : context.Matches z.context := ⟨rfl, rfl⟩
  have hunderway := (Site.Underway.base z).surely_furnish hmatches (fun _ ↦ trivial) z.stage.status
  refine hunderway.mono fun r T hunder ↦ bounds_of_adopted (w := stage.wiringIn S) hfound ?_
  have hbounds := hunder.leads.bounds
  rwa [show z.stage = stage.withWiring (stage.wiringIn S) from rfl, reach_withWiring] at hbounds

end Stage

/-! ### A deleting stage -/

/-- A label was taken off some streams of a namespace. -/
def Store.UnlabelsIn (ns label : String) (S T : Store) : Prop :=
  ∃ keys : List Key, (∀ key ∈ keys, key.ns = ns) ∧ T = Store.unlabelAll label S keys

theorem Store.UnlabelsIn.refl {ns label : String} (S : Store) : UnlabelsIn ns label S S :=
  ⟨[], ⟨fun _ hmem ↦ (nomatch hmem), rfl⟩⟩

theorem Store.UnlabelsIn.trans {ns label : String} (hfirst : UnlabelsIn ns label S T)
    (hsecond : UnlabelsIn ns label T U) : UnlabelsIn ns label S U := by
  obtain ⟨keys, hkeys, rfl⟩ := hfirst
  obtain ⟨more, hmore, rfl⟩ := hsecond
  refine ⟨keys ++ more, List.forall_mem_append.mpr ⟨hkeys, hmore⟩, ?_⟩
  rw [Store.unlabelAll, Store.unlabelAll, Store.unlabelAll, List.foldl_append]

namespace EnvironmentLabel

variable {inputName : String} {keys : List Key}

/-- The streams to be cleaned are in the namespace of the stage. -/
theorem Cleans.ns (hcleans : Cleans stage pipeline inputName S keys) :
    ∀ key ∈ keys, key.ns = stage.metadata.namespaceOrEmpty := by
  unfold Cleans at hcleans
  cases hinput : S.find? .imageStream ⟨stage.metadata.namespaceOrEmpty, inputName⟩ with
  | none =>
    rw [hinput] at hcleans
    obtain rfl : keys = [] := hcleans
    exact fun _ hmem ↦ nomatch hmem
  | some input =>
    rw [hinput] at hcleans
    intro key hkey
    have hkeys := hcleans.1
    unfold cleaned? at hkeys
    split at hkeys
    · obtain rfl := Option.some.inj hkeys
      rw [List.mem_singleton.mp hkey]
    · obtain ⟨previous, -, rfl⟩ := Option.map_eq_some_iff.mp hkeys
      rcases List.mem_cons.mp hkey with rfl | hkey
      · rfl
      · split at hkey
        · exact nomatch hkey
        · rw [List.mem_singleton.mp hkey]

theorem surely_forM_cleanFrom (hstreams : S.SoundAt .imageStream) (names : List String) :
    (names.forM (cleanFrom stage pipeline)).Surely S (fun _ T ↦
      S.UnlabelsIn stage.metadata.namespaceOrEmpty stage.label T) := by
  induction names generalizing S with
  | nil => exact .refl S
  | cons name names ih =>
    show (cleanFrom stage pipeline name >>= fun _ ↦ names.forM (cleanFrom stage pipeline)).Surely
      S _
    rw [surely_bind]
    refine (surely_cleanFrom hstreams).mono fun r T hr ↦ ?_
    have hfirst : S.UnlabelsIn stage.metadata.namespaceOrEmpty stage.label T := by
      rcases hr with ⟨-, rfl⟩ | ⟨keys, begun, hcleans, hbegun, rfl, -⟩
      · exact .refl T
      · exact ⟨begun, fun key hkey ↦ hcleans.ns key (hbegun hkey), rfl⟩
    cases r with
    | error e => exact hfirst
    | ok done =>
      have hstreams' : T.SoundAt .imageStream := by
        obtain ⟨begun, -, rfl⟩ := hfirst
        exact hstreams.unlabelAll hstreams begun
      exact (ih hstreams').mono fun _ _ hrest ↦ hfirst.trans hrest

/-- Whichever calls fail, withdrawing the label takes it off some streams of the namespace. -/
theorem surely_withdraw (hstreams : S.SoundAt .imageStream) :
    (withdraw stage).Surely S (fun _ T ↦
      S.UnlabelsIn stage.metadata.namespaceOrEmpty stage.label T) := by
  unfold withdraw
  rw [surely_bind, surely_get]
  refine ⟨fun fault ↦ .refl S, ?_⟩
  cases S.find? .pipeline stage.pipelineKey with
  | none => exact .refl S
  | some pipeline => exact surely_forM_cleanFrom hstreams _

end EnvironmentLabel

namespace Stage

theorem bounds_unlabelAll (context : Context) (hstreams : S.SoundAt .imageStream)
    {keys : List Key} (hns : ∀ key ∈ keys, key.ns = stage.metadata.namespaceOrEmpty) :
    (stage.reach context).Bounds S (Store.unlabelAll stage.label S keys) := by
  have hstream (key : Key) : (Store.unlabelAll stage.label S keys).find? .imageStream key = _ :=
    Store.find?_unlabelAll hstreams keys key
  have hother {k : Kind} (hkind : k ≠ .imageStream) (key : Key) :
      (Store.unlabelAll stage.label S keys).find? k key = S.find? k key :=
    Store.find?_unlabelAll_of_ne hkind S keys key
  constructor
  · intro k key o habsent hlater
    by_cases hkind : k = .imageStream
    · subst hkind
      rw [hstream, habsent] at hlater
      split at hlater <;> exact nomatch hlater
    · rw [hother hkind, habsent] at hlater
      exact nomatch hlater
  · intro k key o o' hbefore hlater
    by_cases hkind : k = .imageStream
    · subst hkind
      rw [hstream, hbefore] at hlater
      split at hlater
      · next hmem =>
        have hkey : o.key = key := hstreams.keyed hbefore
        exact .inr ⟨hkey, hkey ▸ hns key hmem, .inr (Option.some.inj hlater).symm⟩
      · exact .inl (Option.some.inj hlater).symm
    · rw [hother hkind, hbefore] at hlater
      exact .inl (Option.some.inj hlater).symm
  · intro k key o hbefore hlater
    by_cases hkind : k = .imageStream
    · subst hkind
      rw [hstream, hbefore] at hlater
      split at hlater <;> exact nomatch hlater
    · rw [hother hkind, hbefore] at hlater
      exact nomatch hlater

end Stage

namespace Stage

/-- A deleting stage that is let go loses a finalizer, and is gone with the last one. -/
theorem bounds_letGo (hfound : S.find? .stage stage.key = some stage)
    (hdeleting : stage.isDeleting = true) (hbounds : (stage.reach context).Bounds S T) :
    (stage.reach context).Bounds S (T.letGo stage.released) := by
  have hkey : stage.released.key = stage.key := Object.key_removeFinalizer
  have hremoves : (stage.reach context).removes .stage stage.released.key :=
    Or.inr ⟨rfl, hkey, hdeleting⟩
  unfold Store.letGo
  split
  · exact hbounds.remove hremoves
  · obtain ⟨finalizers, hreleased⟩ := Object.removeFinalizer_eq stage Naming.labelCleanup
    exact hbounds.put (hkey ▸ hfound) hkey.symm
      ⟨rfl, { stage.wiring with finalizers := finalizers }, stage.status, hreleased⟩

/-- Whichever calls fail, taking a stage down keeps within its reach, and leaves the stages alone.
-/
theorem surely_teardown_bounds (context : Context) (hstreams : S.SoundAt .imageStream) :
    ((Chain.teardown context).serve stage).Surely S (fun _ T ↦
      (stage.reach context).Bounds S T ∧ ∀ key, T.find? .stage key = S.find? .stage key) := by
  have htarget : (stage.reach context).removes context.targetKind ⟨"", stage.target⟩ :=
    .inl ⟨context.targetKind_eq, rfl⟩
  have hstage : Kind.stage ≠ context.targetKind := context.targetKind_ne (by decide) (by decide)
  show (counted _ (EnvironmentLabel.withdraw stage) >>= fun _ ↦
    counted _ ((Handler.removeTarget context).serve stage)).Surely S _
  rw [surely_bind, surely_counted]
  refine (EnvironmentLabel.surely_withdraw hstreams).mono ?_
  rintro r T ⟨begun, hns, rfl⟩
  have hcleaned := bounds_unlabelAll context hstreams hns
  have hstages (key : Key) : (Store.unlabelAll stage.label S begun).find? .stage key =
      S.find? .stage key := Store.find?_unlabelAll_of_ne (by decide) S begun key
  cases r with
  | error e => exact ⟨hcleaned, hstages⟩
  | ok done =>
    rw [surely_counted, Handler.serve_removeTarget, surely_delete]
    refine ⟨fun fault ↦ ⟨hcleaned, hstages⟩, hcleaned.remove htarget, fun key ↦ ?_⟩
    rw [Store.find?_remove_of_kind_ne _ hstage, hstages]

/-- Whichever calls fail, a release keeps within the reach of the stage. -/
theorem surely_release_bounds (context : Context) (hstreams : S.SoundAt .imageStream)
    (hfound : S.find? .stage stage.key = some stage) (hdeleting : stage.isDeleting = true) :
    (release context stage).Surely S (fun _ T ↦ (stage.reach context).Bounds S T) := by
  cases hheld : stage.metadata.hasFinalizer Naming.labelCleanup with
  | false =>
    rw [release_of_free hheld]
    exact .refl _ S
  | true =>
    rw [release_of_held hheld, surely_bind]
    refine (surely_teardown_bounds context hstreams).mono fun r T ⟨hbounds, hstages⟩ ↦ ?_
    cases r with
    | error e => exact hbounds
    | ok done =>
      have hkey : stage.released.key = stage.key := Object.key_removeFinalizer
      have hstored : T.find? .stage stage.released.key = some stage := by
        rw [hkey, hstages, hfound]
      rw [surely_bind, surely_replace, Store.replace_eq_letGo hstored]
      exact ⟨fun fault ↦ hbounds, bounds_letGo hfound hdeleting hbounds⟩

end Stage

/-! ### Pipelines -/

namespace Pipeline

/-- The pipeline with other finalizers and another status. -/
def kept (pipeline : Pipeline) (finalizers : Option (List String))
    (status : Option PipelineStatus) : Pipeline :=
  { Object.withFinalizers pipeline finalizers with status := status }

variable {finalizers : Option (List String)} {status : Option PipelineStatus}

/-- Whatever was done for the pipeline, it is there, and nothing out of reach was touched. -/
structure Maintained (pipeline : Pipeline) (S T : Store) : Prop where
  sound : T.Sound
  bounds : (reach pipeline).Bounds S T
  stored : ∃ finalizers status,
    T.find? .pipeline (Object.key pipeline) = some (kept pipeline finalizers status)

theorem Maintained.put (hfound : S.find? .pipeline (Object.key pipeline) = some pipeline)
    (hlive : Object.isDeleting pipeline = false) (hmaintained : Maintained pipeline S T)
    (finalizers : Option (List String)) (status : Option PipelineStatus) :
    Maintained pipeline S (T.put (kept pipeline finalizers status)) where
  sound := hmaintained.sound.put
    (Object.isReleased_of_live (o := kept pipeline finalizers status) hlive)
  bounds := hmaintained.bounds.put hfound rfl ⟨rfl, finalizers, status, rfl⟩
  stored := ⟨finalizers, status, Store.find?_put_self T (kept pipeline finalizers status)⟩

theorem Maintained.folder (hmaintained : Maintained pipeline S T) :
    Maintained pipeline S (T.create (jobFolder pipeline)).2 := by
  obtain ⟨finalizers, status, hstored⟩ := hmaintained.stored
  refine ⟨hmaintained.sound.create rfl, hmaintained.bounds.create rfl ?_, finalizers, status,
    Store.find?_create_of_found T (jobFolder pipeline) hstored⟩
  rintro ⟨hcontra, -⟩
  exact nomatch hcontra

/-- Whichever calls fail, working off a generation keeps within the reach of the pipeline. -/
theorem surely_setUp (context : Context) (ns : String)
    (hfound : S.find? .pipeline (Object.key pipeline) = some pipeline)
    (hlive : Object.isDeleting pipeline = false) (hmaintained : Maintained pipeline S T)
    (hstored : T.find? .pipeline (Object.key pipeline) = some (kept pipeline finalizers status)) :
    (setUp context ns (kept pipeline finalizers status)).Surely T
      (fun _ U ↦ Maintained pipeline S U) := by
  have hreport {U : Store} (hmaintained : Maintained pipeline S U)
      (hstored : U.find? .pipeline (Object.key pipeline) =
        some (kept pipeline finalizers status)) (ready : PipelineStatus) :
      (report (kept pipeline finalizers status) ready >>= fun _ ↦ pure ()).Surely U
        (fun _ V ↦ Maintained pipeline S V) := by
    rw [surely_bind]
    refine (surely_report (o := kept pipeline finalizers status) hmaintained.sound hstored
      ready).mono ?_
    rintro r V (⟨⟨e, rfl⟩, rfl⟩ | ⟨rfl, rfl⟩)
    · exact hmaintained
    · exact hmaintained.put hfound hlive finalizers (some ready)
  have hreads : (jenkinsEnabled ns).Asks (fun request ↦ request.isRead = true) := asks_ask rfl
  unfold setUp
  rw [surely_bind]
  refine (hreads.surely T).mono ?_
  rintro r U rfl
  cases r with
  | error e => exact hmaintained
  | ok enabled =>
    cases enabled with
    | false => exact hreport hmaintained hstored _
    | true =>
      simp only [if_true]
      rw [surely_bind, surely_create]
      exact ⟨fun fault ↦ hmaintained, hreport hmaintained.folder
        (Store.find?_create_of_found U (jobFolder pipeline) hstored) _⟩

/-- Whichever calls fail, maintaining a live pipeline keeps within its reach. -/
theorem surely_maintain (context : Context) (ns : String) (hsound : S.Sound)
    (hfound : S.find? .pipeline (Object.key pipeline) = some pipeline)
    (hlive : Object.isDeleting pipeline = false) :
    (maintain context ns pipeline).Surely S (fun _ T ↦ Maintained pipeline S T) := by
  have hstart : Maintained pipeline S S :=
    ⟨hsound, .refl _ S, pipeline.metadata.finalizers, pipeline.status, hfound⟩
  obtain ⟨changed, hensure, -, hsame⟩ := Object.ensureFinalizers_eq pipeline finalizers
  generalize Object.finalizersWith pipeline finalizers = wanted at hensure hsame
  have hrest {T : Store} (hmaintained : Maintained pipeline S T)
      (hstored : T.find? .pipeline (Object.key pipeline) =
        some (kept pipeline wanted pipeline.status)) :
      Surely (do
        if isAhead (kept pipeline wanted pipeline.status) then
          setUp context ns (kept pipeline wanted pipeline.status)
        return Outcome.awaitChange) T (fun _ U ↦ Maintained pipeline S U) := by
    cases isAhead (kept pipeline wanted pipeline.status) with
    | false => exact hmaintained
    | true =>
      simp only [if_true, surely_bind]
      refine (surely_setUp context ns hfound hlive hmaintained hstored).mono fun r U hr ↦ ?_
      cases r <;> exact hr
  unfold maintain
  simp only [hensure]
  cases changed with
  | false =>
    obtain rfl := hsame rfl
    exact hrest hstart hfound
  | true =>
    have hreplaced : S.replace (kept pipeline wanted pipeline.status) =
        (.ok (kept pipeline wanted pipeline.status),
          S.put (kept pipeline wanted pipeline.status)) :=
      Store.replace_of_found (o := kept pipeline wanted pipeline.status) hfound
        (Object.isReleased_of_live (o := kept pipeline wanted pipeline.status) hlive)
    show (replace (kept pipeline wanted pipeline.status) >>= fun held ↦ do
      if isAhead held then setUp context ns held
      return Outcome.awaitChange).Surely S _
    rw [surely_bind, surely_replace, hreplaced]
    exact ⟨fun fault ↦ hstart, hrest (hstart.put hfound hlive wanted pipeline.status)
      (Store.find?_put_self S (kept pipeline wanted pipeline.status))⟩

/-- Whichever calls fail, a deleting pipeline loses a finalizer, and is gone with the last one. -/
theorem surely_release_bounds (hfound : S.find? .pipeline (Object.key pipeline) = some pipeline)
    (hdeleting : Object.isDeleting pipeline = true) :
    (release pipeline).Surely S (fun _ T ↦ (reach pipeline).Bounds S T) := by
  refine (atomic_release pipeline S).mono ?_
  rintro r T (⟨e, -, rfl⟩ | hon)
  · exact .refl _ T
  rcases rests_release_or_letGo hfound with ⟨result, hrests⟩ | ⟨-, hletGo⟩
  · obtain ⟨-, rfl⟩ := Prod.mk.inj (hrests.on.symm.trans hon)
    exact .refl _ S
  · obtain ⟨-, rfl⟩ := Prod.mk.inj (hletGo.symm.trans hon)
    have hkey : (Object.removeFinalizer pipeline Naming.ownedStages).2.key = Object.key pipeline :=
      Object.key_removeFinalizer
    obtain ⟨finalizers, hreleased⟩ := Object.removeFinalizer_eq pipeline Naming.ownedStages
    have hstart : (reach pipeline).Bounds S S := .refl _ S
    unfold Store.letGo
    split
    · exact hstart.remove ⟨rfl, hkey, hdeleting⟩
    · exact hstart.put (hkey ▸ hfound) hkey.symm ⟨rfl, finalizers, pipeline.status, hreleased⟩

theorem surely_reconcilePipeline (context : Context) (hsound : S.Sound)
    (hfound : S.find? .pipeline (Object.key pipeline) = some pipeline) :
    (reconcilePipeline context (Object.key pipeline)).Surely S
      (fun _ T ↦ (reach pipeline).Bounds S T) := by
  unfold reconcilePipeline
  rw [surely_bind, surely_get, hfound]
  refine ⟨fun fault ↦ .refl _ S, ?_⟩
  cases hdeleting : Object.isDeleting pipeline with
  | true =>
    simp only [hdeleting, if_true]
    exact surely_release_bounds hfound hdeleting
  | false =>
    simp only [hdeleting]
    exact (surely_maintain context _ hsound hfound hdeleting).mono fun _ _ h ↦ h.bounds

end Pipeline

theorem surely_reconcileStage_bounds (context : Context) (hsound : S.Sound)
    (hfound : S.find? .stage stage.key = some stage) :
    (reconcileStage context stage.key).Surely S (fun _ T ↦ (stage.reach context).Bounds S T) := by
  cases hdeleting : stage.isDeleting with
  | true =>
    exact surely_reconcileStage_of_deleting hfound hdeleting (fun _ ↦ .refl _ S)
      (Stage.surely_release_bounds context (hsound.soundAt _) hfound hdeleting)
  | false =>
    exact surely_reconcileStage_of_live hfound hdeleting (fun _ ↦ .refl _ S)
      (Stage.surely_provision_bounds hsound hfound hdeleting)

/-! ### The writes that are sent -/

namespace Request

variable {request : Request} {w : Write}

theorem Furnishes.writes {wiring : Stage.Wiring}
    (hfurnishes : Furnishes (stage.withWiring wiring) request) (hwrite : request.write? = some w) :
    stage.writes w := by
  have hsent {w' : Write} (hw : request.write? = some w') (hwrites : stage.writes w') :
      stage.writes w := Option.some.inj (hw.symm.trans hwrite) ▸ hwrites
  cases hfurnishes with
  | read hread => exact nomatch (write?_of_isRead hread).symm.trans hwrite
  | buildStream o => exact hsent rfl (.inr (.inl ⟨rfl, .inl rfl⟩))
  | labelStream o => exact hsent rfl (.inr (.inl ⟨rfl, .inr rfl⟩))
  | buildNamespace source => exact hsent rfl (.inr (.inr (.inl ⟨.inl rfl, rfl, .inl rfl⟩)))
  | buildSpace account => exact hsent rfl (.inr (.inr (.inl ⟨.inr rfl, rfl, .inl rfl⟩)))
  | buildRole o => exact hsent rfl (.inr (.inr (.inr (.inl ⟨.inl rfl, rfl⟩))))
  | buildBinding o => exact hsent rfl (.inr (.inr (.inr (.inl ⟨.inr rfl, rfl⟩))))
  | buildJob o => exact hsent rfl (.inr (.inr (.inr (.inr ⟨rfl, .inl rfl⟩))))
  | configureJob key config => exact hsent rfl (.inr (.inr (.inr (.inr ⟨rfl, .inr rfl⟩))))
  | reportStatus status => exact hsent rfl (.inl ⟨rfl, rfl⟩)
  | reportStage status => exact hsent rfl (.inl ⟨rfl, rfl⟩)

theorem Dismantles.writes (hdismantles : Dismantles context stage request)
    (hwrite : request.write? = some w) : stage.writes w := by
  have hsent {w' : Write} (hw : request.write? = some w') (hwrites : stage.writes w') :
      stage.writes w := Option.some.inj (hw.symm.trans hwrite) ▸ hwrites
  cases hdismantles with
  | read hread => exact nomatch (write?_of_isRead hread).symm.trans hwrite
  | labelStream o => exact hsent rfl (.inr (.inl ⟨rfl, .inr rfl⟩))
  | removeTarget =>
    exact hsent rfl (.inr (.inr (.inl ⟨context.targetKind_eq, rfl, .inr rfl⟩)))
  | release => exact hsent rfl (.inl ⟨rfl, Object.key_removeFinalizer⟩)

theorem Maintains.writes (hmaintains : Maintains request) (hwrite : request.write? = some w) :
    (Pipeline.reach pipeline).writes w := by
  have hsent {w' : Write} (hw : request.write? = some w')
      (hwrites : (Pipeline.reach pipeline).writes w') : (Pipeline.reach pipeline).writes w :=
    Option.some.inj (hw.symm.trans hwrite) ▸ hwrites
  cases hmaintains with
  | read hread => exact nomatch (write?_of_isRead hread).symm.trans hwrite
  | update o => exact hsent rfl (.inl ⟨rfl, .inl rfl⟩)
  | reportStatus o => exact hsent rfl (.inl ⟨rfl, .inr rfl⟩)
  | buildFolder o => exact hsent rfl (.inr ⟨rfl, rfl⟩)

end Request

section Trial

variable {faults : Nat → Option Fault} {t : Trial Bench}

theorem Trial.Sends.amid {α : Type} {writes : Write → Prop} {allowed : Request → Prop}
    {op : Operation α} (hsends : t.Sends writes) (hasks : op.Asks allowed)
    (hallowed : ∀ {request w}, allowed request → request.write? = some w → writes w)
    (faults : Nat → Option Fault) : (op.amid faults t).2.Sends writes := by
  obtain ⟨⟨new, hcalls, hnew⟩, -⟩ := hasks.amid (I := fun _ ↦ True) (t := t)
    (fun _ _ _ _ ↦ trivial) trivial faults
  unfold Trial.Sends
  rw [hcalls]
  exact List.forall_mem_append.mpr
    ⟨hsends, fun call hcall w hwrite ↦ hallowed (hnew call hcall).1 hwrite⟩

/-- Adoption sends a write of the stage at most. -/
theorem Stage.sends_adopt (hfound : t.state.store.find? .stage stage.key = some stage)
    (hlive : stage.isDeleting = false) (hsends : t.Sends stage.writes)
    (faults : Nat → Option Fault) : ((adopt stage).amid faults t).2.Sends stage.writes := by
  obtain ⟨new, hcalls, hnew, -⟩ := amid_adopt hfound hlive faults
  unfold Trial.Sends
  rw [hcalls]
  refine List.forall_mem_append.mpr ⟨hsends, fun call hcall w hwrite ↦ .inl ?_⟩
  exact Classical.byContradiction fun hbeside ↦ (hnew call hcall).2 ⟨w, hwrite, hbeside⟩

theorem Stage.sends_provision (context : Context)
    (hfound : t.state.store.find? .stage stage.key = some stage)
    (hlive : stage.isDeleting = false) (hsends : t.Sends stage.writes)
    (faults : Nat → Option Fault) :
    ((provision context stage).amid faults t).2.Sends stage.writes := by
  have hadopted := sends_adopt hfound hlive hsends faults
  obtain ⟨_, -, -, hresult⟩ := amid_adopt hfound hlive faults
  rw [provision_eq, amid_bind]
  generalize (adopt stage).amid faults t = first at hadopted hresult ⊢
  obtain ⟨result, t'⟩ := first
  rcases hresult with ⟨e, rfl, -⟩ | ⟨wiring, rfl, -⟩
  · exact hadopted
  · have hasks := asks_furnish_confirm context (stage.withWiring wiring)
    exact hadopted.amid hasks Request.Furnishes.writes faults

theorem sends_reconcileStage (context : Context) (faults : Nat → Option Fault) {b : Bench}
    (hfound : b.store.find? .stage stage.key = some stage) :
    ((reconcileStage context stage.key).attempt faults b).2.Sends stage.writes := by
  obtain ⟨reply, b', hget, hstore, hreply⟩ := amid_get .stage stage.key faults { state := b }
  have hread : Trial.Sends stage.writes
      ⟨b', [] ++ [⟨.get .stage stage.key, b, !reply.isOk⟩], []⟩ :=
    List.forall_mem_singleton.mpr fun w hwrite ↦ nomatch hwrite
  have hfound' : b'.store.find? .stage stage.key = some stage := hstore ▸ hfound
  unfold reconcileStage attempt
  rw [amid_bind, hget]
  rcases hreply with ⟨fault, rfl⟩ | rfl
  · exact hread
  · simp only [hfound]
    cases hdeleting : stage.isDeleting with
    | true => exact hread.amid (Stage.asks_release context stage) Request.Dismantles.writes faults
    | false => exact Stage.sends_provision context hfound' hdeleting hread faults

theorem sends_reconcilePipeline (context : Context) (key : Key) (faults : Nat → Option Fault)
    (b : Bench) :
    ((reconcilePipeline context key).attempt faults b).2.Sends
      (Pipeline.reach pipeline).writes := by
  have hstart : Trial.Sends (Pipeline.reach pipeline).writes { state := b } :=
    fun call hcall ↦ nomatch hcall
  exact hstart.amid (asks_reconcilePipeline context key) Request.Maintains.writes faults

end Trial

/-- Whichever calls of a reconciliation fail, and however it ends, it keeps within its reach. -/
theorem reconcile_keeps_reach (context : Context) (faults : Nat → Option Fault) {b : Bench}
    (hsound : b.store.Sound) :
    (∀ stage : Stage, b.store.find? .stage stage.key = some stage →
      ((reconcileStage context stage.key).attempt faults b).2.KeepsReach (stage.reach context)
        b.store) ∧
    ∀ pipeline : Pipeline, b.store.find? .pipeline pipeline.key = some pipeline →
      ((reconcilePipeline context pipeline.key).attempt faults b).2.KeepsReach
        (Pipeline.reach pipeline) b.store := by
  refine ⟨fun stage hfound ↦ ⟨?_, sends_reconcileStage context faults hfound⟩,
    fun pipeline hfound ↦ ⟨?_, sends_reconcilePipeline context _ faults b⟩⟩
  · exact (surely_reconcileStage_bounds context hsound hfound).amid (t := { state := b }) faults
  · exact (Pipeline.surely_reconcilePipeline context hsound hfound).amid (t := { state := b })
      faults

/-- The creation of the namespace fails, and with it the first of the two writes of the status. -/
theorem reconcile_keeps_reach_withStage :
    ((reconcileStage { now := ⟨0, 0⟩ } (Fixture.stage "dev" "ci" "p" 0).key).attempt
      (fun n ↦ if n = 9 ∨ n = 10 then some (.ofCause .brokenExchange) else none)
        Bench.withStage).2.KeepsReach
          ((Fixture.stage "dev" "ci" "p" 0).reach { now := ⟨0, 0⟩ }) Bench.withStage.store := by
  have hstored : Bench.withStage.store.find? .stage (Fixture.stage "dev" "ci" "p" 0).key =
      some (Fixture.stage "dev" "ci" "p" 0) :=
    Store.find?_put_self _ (Fixture.stage "dev" "ci" "p" 0)
  exact (reconcile_keeps_reach _ _ Bench.sound_withStage).1 _ hstored

end PipelineOperator
