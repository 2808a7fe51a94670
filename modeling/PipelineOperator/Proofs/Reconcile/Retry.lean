import PipelineOperator.Proofs.Operation.Trial
import PipelineOperator.Proofs.Reconcile.Furnishing
import PipelineOperator.Proofs.Reconcile.Release

/-!
Reconciling a stage until it succeeds. Whatever calls failed on the way, the cluster is in the end
as if the first reconciliation had succeeded (`reconcileStage_converges`). A live stage is either
not adopted yet, or on its way from where it was adopted (`Site.Underway`); a deleting one is being
taken down or has been let go.
-/

set_option autoImplicit false
set_option relaxedAutoImplicit false

namespace PipelineOperator

open Operation

variable {context : Context} {S T U : Store} {stage : Stage}

namespace Stage

theorem atomic_adopt (s : Stage) : (adopt s).Atomic := by
  refine (atomic_wire s).bind (asks_wire s (fun _ ↦ rfl) fun _ ↦ rfl) fun (wired, wiredStage) ↦ ?_
  show (if wired || (wiredStage.ensureFinalizers finalizers).1 then
    replace (wiredStage.ensureFinalizers finalizers).2 else
    pure (wiredStage.ensureFinalizers finalizers).2 : Operation Stage).Atomic
  split
  · exact atomic_ask _
  · exact atomic_pure _

end Stage

/-! ### A live stage on its way -/

/-- The store came about by provisioning the stage, and provisioning still comes to the same. -/
structure Site.Underway (z : Site) (T : Store) : Prop where
  leads : z.Leads z.base T
  ahead : SameOff Chain.passing ((Stage.furnish z.context z.stage).on T)
    ((Stage.furnish z.context z.stage).on z.base)

namespace Site.Underway

variable {z : Site} {context' : Context} {status : Option StageStatus}

theorem base (z : Site) : z.Underway z.base := ⟨.refl z.sound, .refl _⟩

/-- Another status of the stage does not matter. -/
theorem report (hconfigs : ∀ config, z.configs config) (hunder : z.Underway T)
    (status : Option StageStatus) : z.Underway (T.put { z.stage with status := status }) := by
  obtain ⟨old, hstored⟩ := hunder.leads.stage
  have hleads : z.Leads T (T.put { z.stage with status := status }) :=
    Site.leads_alter hunder.leads.sound (o := { z.stage with status := old }) hstored
      (.inr ⟨rfl, rfl, rfl⟩)
  have habsorbs := Stage.absorbs_furnish_self hconfigs
  refine ⟨hunder.leads.trans hleads, .trans ?_ hunder.ahead⟩
  exact habsorbs.oblivious (hunder.leads.trans hleads) hunder.leads
    (Store.agreeOff_put T (.inl rfl) _)

/-- Whichever calls of provisioning fail, the stage stays on its way. -/
theorem surely_furnish (hcontext : context'.Matches z.context)
    (hconfigs : ∀ config, z.configs config) (hunder : z.Underway T)
    (status : Option StageStatus) :
    (Stage.furnish context' { z.stage with status := status } >>= fun _ ↦
      Stage.confirm context' { z.stage with status := status }).Surely T
        (fun _ T' ↦ z.Underway T') := by
  have habsorbs := Stage.absorbs_furnish hcontext hconfigs
  have halike := Stage.alike_furnish hcontext z.stage
  rw [Stage.furnish_withStatus context' z.stage status, surely_bind]
  refine (habsorbs.hindered hunder.leads).mono fun r T' ⟨hleads, hagain, _⟩ ↦ ?_
  rw [halike.on, halike.on] at hagain
  have hunder' : z.Underway T' := ⟨hunder.leads.trans hleads, hagain.trans hunder.ahead⟩
  cases r with
  | error e => exact hunder'
  | ok done =>
    obtain ⟨old, hstored⟩ := hunder'.leads.stage
    refine (Stage.surely_confirm (s := { z.stage with status := status }) context'
      hunder'.leads.sound hstored).mono fun r T'' hr ↦ ?_
    rcases hr with rfl | ⟨status', rfl⟩
    · exact hunder'
    · exact hunder'.report hconfigs status'

/-- A stage on its way has been adopted. -/
theorem on_adopt (hwired : z.stage.IsWired z.base) (hunder : z.Underway T)
    (hstored : T.find? .stage z.stage.key = some { z.stage with status := status }) :
    (Stage.adopt { z.stage with status := status }).on T =
      (.ok { z.stage with status := status }, T) :=
  Stage.on_adopt_of_wired hunder.leads.sound hstored (hunder.leads.isWired hwired status)

theorem surely_provision (hcontext : context'.Matches z.context)
    (hconfigs : ∀ config, z.configs config) (hwired : z.stage.IsWired z.base)
    (hunder : z.Underway T)
    (hstored : T.find? .stage z.stage.key = some { z.stage with status := status }) :
    (Stage.provision context' { z.stage with status := status }).Surely T
      (fun _ T' ↦ z.Underway T') := by
  rw [Stage.provision_eq, surely_bind]
  refine (Stage.atomic_adopt _ T).mono fun r T' hr ↦ ?_
  rcases hr with ⟨e, rfl, rfl⟩ | hon
  · exact hunder
  · obtain ⟨rfl, rfl⟩ := Prod.mk.inj ((hunder.on_adopt hwired hstored).symm.trans hon)
    exact hunder.surely_furnish hcontext hconfigs status

/-- Without failing calls, provisioning a stage on its way fails where its handlers do, and else
reports it. -/
theorem on_furnish (hcontext : context'.Matches z.context)
    (hconfigs : ∀ config, z.configs config) (hunder : z.Underway T)
    (hstored : T.find? .stage z.stage.key = some { z.stage with status := status }) :
    (∃ e U, (Stage.furnish z.context z.stage).on T = (.error e, U) ∧
      (Stage.furnish context' { z.stage with status := status } >>= fun _ ↦
        Stage.confirm context' { z.stage with status := status }).on T = (.error e, U)) ∨
    ∃ U status', (Stage.furnish z.context z.stage).on T = (.ok (), U) ∧
      (Stage.furnish context' { z.stage with status := status } >>= fun _ ↦
        Stage.confirm context' { z.stage with status := status }).on T =
          (.ok .awaitChange, U.put { z.stage with status := status' }) ∧
      status'.any StageStatus.isRegistered = true := by
  have hfurnish := (Stage.alike_furnish hcontext z.stage).on T
  have hspares := (Stage.spares_furnish z.context z.stage).find? T z.stage.key
  have hleads := (Stage.absorbs_furnish_self hconfigs).develops hunder.leads
  rw [Stage.furnish_withStatus context' z.stage status]
  generalize (Stage.furnish z.context z.stage).on T = furnished at *
  obtain ⟨r, U⟩ := furnished
  cases r with
  | error e => exact .inl ⟨e, U, rfl, on_bind_of_error hfurnish _⟩
  | ok done =>
    have hsound : U.Sound := hleads.sound
    have hconfirm := Stage.on_confirm (s := { z.stage with status := status }) context'
      (hsound.toKeyed _) (hspares.trans hstored)
    exact .inr ⟨U, _, rfl, (on_bind_of_ok hfurnish _).trans hconfirm,
      Stage.isRegistered_confirmedStatus context' _⟩

/-- The job of a stage that was provisioned. -/
theorem job (hlive : z.stage.isDeleting = false) (hunder : z.Underway T)
    (hfurnished : (Stage.furnish z.context z.stage).on T = (.ok (), U))
    (hleads : z.Leads z.base U) : ∃ pipeline, z.pipeline? = some pipeline ∧
      U.find? .jenkinsJob z.stage.key = some (StageJob.brought z.base z.stage
        (StageJob.desired z.base z.stage pipeline)) := by
  obtain ⟨status, hstored⟩ := hunder.leads.stage
  have hput : T.put { z.stage with status := status } = T := Store.put_of_find? hstored
  rw [← Stage.furnish_withStatus z.context z.stage status, ← hput] at hfurnished
  have hstays : (Site.exact z.context { z.stage with status := status } T hunder.leads.sound
      hlive).Leads U U := .refl hleads.sound
  have hhandlers := Stage.rests_handlers hfurnished hstays
  obtain ⟨pipeline, job, hpipeline, hjob, hconfig⟩ := StageJob.found_of_rests_serve
    (hhandlers Handler.job (Chain.mem_handlers_creation.mpr (by simp)))
  refine ⟨pipeline, hleads.pipeline.symm.trans hpipeline, ?_⟩
  have hdesired : job.spec.job.config = StageJob.desired z.base z.stage pipeline :=
    hconfig.trans (StageJob.desired_of_leads hleads _ pipeline)
  have hjob' : U.find? .jenkinsJob z.stage.key = some job := hjob
  rw [hjob', StageJob.eq_brought_of_leads hleads hjob', hdesired]

/-- Wherever a stage on its way is provisioned from, the same comes of it. -/
theorem finished (hconfigs : ∀ config, z.configs config) (hlive : z.stage.isDeleting = false)
    (hunder : z.Underway T) (hfurnished : (Stage.furnish z.context z.stage).on T = (.ok (), U)) :
    ∃ U₀, (Stage.furnish z.context z.stage).on z.base = (.ok (), U₀) ∧
      ∀ k key, ¬ (k = .stage ∧ key = z.stage.key) → U.find? k key = U₀.find? k key := by
  have habsorbs := Stage.absorbs_furnish_self hconfigs
  have hleads := hunder.leads.trans (habsorbs.develops hunder.leads)
  have hleads₀ := habsorbs.develops (.refl z.sound)
  have hsame := hunder.ahead
  generalize hbase : (Stage.furnish z.context z.stage).on z.base = first at hsame hleads₀
  obtain ⟨r, U₀⟩ := first
  rw [hfurnished] at hsame hleads
  obtain ⟨hresult, hagree⟩ := hsame
  obtain rfl : Except.ok () = r := hresult
  refine ⟨U₀, rfl, fun k key hbeside ↦ ?_⟩
  by_cases hkey : key = z.stage.key
  · subst hkey
    by_cases hjob : k = .jenkinsJob
    · subst hjob
      obtain ⟨pipeline, hpipeline, hfound⟩ := hunder.job hlive hfurnished hleads
      obtain ⟨pipeline₀, hpipeline₀, hfound₀⟩ := (base z).job hlive hbase hleads₀
      obtain rfl := Option.some.inj (hpipeline.symm.trans hpipeline₀)
      rw [hfound, hfound₀]
    · exact hagree.find? (fun hpassing ↦ hpassing.elim (fun h ↦ hbeside ⟨h, rfl⟩) hjob) _
  · by_cases hpassing : Chain.passing k
    · rw [hleads.elsewhere hpassing hkey, Site.Leads.elsewhere hleads₀ hpassing hkey]
    · exact hagree.find? hpassing key

end Site.Underway

/-! ### A deleting stage on its way -/

/-- The store came about by taking the stage down, and that still comes to the same; or the stage
has been let go. -/
inductive Takedown.Underway (z : Takedown) (context : Context) (T : Store) : Prop where
  | down (leads : z.Leads z.base T)
      (ahead : ((Chain.teardown context).serve z.stage).on T =
        ((Chain.teardown context).serve z.stage).on z.base)
  | gone {U : Store} (down : ((Chain.teardown context).serve z.stage).on z.base = (.ok (), U))
      (letGo : T = U.letGo z.stage.released)

namespace Takedown.Underway

variable {z : Takedown} {context' : Context}

theorem absorbs_teardown (z : Takedown) (context : Context) :
    ((Chain.teardown context).serve z.stage).Absorbs z.development (fun _ ↦ False) :=
  Chain.absorbs_teardown context id id id

/-- A stage that has been let go needs nothing any more. -/
theorem rests_of_letGo (hdeleting : stage.isDeleting = true) (U : Store) :
    (reconcileStage context stage.key).Rests (U.letGo stage.released) (.ok .awaitChange) := by
  have hkey : stage.released.key = stage.key := Object.key_removeFinalizer
  rcases Store.find?_letGo U stage.released with hgone | hleft
  · exact rests_reconcileStage_of_absent context (hkey ▸ hgone)
  · refine (rests_reconcileStage_of_deleting context (hkey ▸ hleft) ?_).mpr ?_
    · exact Object.isDeleting_removeFinalizer.trans hdeleting
    · rw [Stage.release_of_free stage.released_free]
      rfl

/-- Whichever calls fail, the stage stays on its way out. -/
theorem surely_reconcileStage (hteardown : Chain.teardown context' = Chain.teardown context)
    (hstored : z.base.find? .stage z.stage.key = some z.stage)
    (hdeleting : z.stage.isDeleting = true)
    (hheld : z.stage.metadata.hasFinalizer Naming.labelCleanup = true)
    (hunder : z.Underway context T) :
    (reconcileStage context' z.stage.key).Surely T (fun _ T' ↦ z.Underway context T') := by
  cases hunder with
  | down hleads hahead =>
    have hfound : T.find? .stage z.stage.key = some z.stage :=
      (hleads.given (k := .stage) rfl _).trans hstored
    refine surely_reconcileStage_of_deleting hfound hdeleting (fun _ ↦ .down hleads hahead) ?_
    rw [Stage.release_of_held hheld, hteardown, surely_bind]
    refine ((absorbs_teardown z context).hindered hleads).mono fun r T' hr ↦ ?_
    obtain ⟨hleads', hagain, hdone⟩ := hr
    have hdown : z.Underway context T' :=
      .down (hleads.trans hleads') (hagain.eq.trans hahead)
    cases r with
    | error e => exact hdown
    | ok done =>
      have hfound' : T'.find? .stage z.stage.key = some z.stage :=
        (hleads'.given (k := .stage) rfl _).trans hfound
      have hkey : z.stage.released.key = z.stage.key := Object.key_removeFinalizer
      have hreplaced := Store.replace_eq_letGo (o := z.stage.released) (hkey ▸ hfound')
      refine surely_bind.mpr (surely_replace.mpr ⟨fun fault ↦ hdown, ?_⟩)
      rw [hreplaced]
      exact .gone (hahead.symm.trans (hdone rfl).1.eq) rfl
  | @gone U hdown hletGo =>
    subst hletGo
    have hkey : z.stage.released.key = z.stage.key := Object.key_removeFinalizer
    rcases Store.find?_letGo U z.stage.released with hgone | hleft
    · exact surely_reconcileStage_of_absent context' (hkey ▸ hgone) (fun _ ↦ .gone hdown rfl)
        (.gone hdown rfl)
    · have hdeleting' : z.stage.released.isDeleting = true :=
        Object.isDeleting_removeFinalizer.trans hdeleting
      refine surely_reconcileStage_of_deleting (hkey ▸ hleft) hdeleting'
        (fun _ ↦ .gone hdown rfl) ?_
      rw [Stage.release_of_free z.stage.released_free]
      exact .gone hdown rfl

/-- Without failing calls a stage on its way out comes to where it comes from the start. -/
theorem on_reconcileStage (hteardown : Chain.teardown context' = Chain.teardown context)
    (hstored : z.base.find? .stage z.stage.key = some z.stage)
    (hdeleting : z.stage.isDeleting = true)
    (hheld : z.stage.metadata.hasFinalizer Naming.labelCleanup = true)
    (hunder : z.Underway context T) :
    (reconcileStage context' z.stage.key).on T =
      (reconcileStage context z.stage.key).on z.base := by
  rw [on_reconcileStage_of_deleting context hstored hdeleting]
  cases hunder with
  | down hleads hahead =>
    have hfound : T.find? .stage z.stage.key = some z.stage :=
      (hleads.given (k := .stage) rfl _).trans hstored
    rw [on_reconcileStage_of_deleting context' hfound hdeleting, Stage.release_of_held hheld,
      Stage.release_of_held hheld, hteardown, on_bind, on_bind, hahead]
  | @gone U hdown hletGo =>
    subst hletGo
    have hleads := (absorbs_teardown z context).develops (.refl z.sound)
    rw [hdown] at hleads
    have hfound : U.find? .stage z.stage.key = some z.stage :=
      (Takedown.Leads.given (k := .stage) hleads rfl _).trans hstored
    rw [(rests_of_letGo hdeleting U).on, Stage.on_release_of_ok hheld hfound hdown]

end Takedown.Underway

/-! ### Attempts -/

/-- The stores are the same, except for what the status of a stage says. -/
structure Store.SameButStatus (key : Key) (s t : Store) : Prop where
  elsewhere : ∀ k key', ¬ (k = .stage ∧ key' = key) → s.find? k key' = t.find? k key'
  here : (s.find? .stage key).map (fun stage ↦ (stage.metadata, stage.spec, stage.status.isSome)) =
    (t.find? .stage key).map (fun stage ↦ (stage.metadata, stage.spec, stage.status.isSome))

theorem Store.SameButStatus.refl (key : Key) (s : Store) : s.SameButStatus key s :=
  ⟨fun _ _ _ ↦ rfl, rfl⟩

theorem Store.sameButStatus_put (stage stage' : Stage) (hkey : stage'.key = stage.key)
    (hmetadata : stage'.metadata = stage.metadata) (hspec : stage'.spec = stage.spec)
    (hregistered : stage.isRegistered = true) (hregistered' : stage'.isRegistered = true)
    (helsewhere : ∀ k key, ¬ (k = .stage ∧ key = stage.key) → S.find? k key = T.find? k key) :
    (S.put stage).SameButStatus stage.key (T.put stage') := by
  constructor
  · intro k key hbeside
    rw [Store.find?_put_of_ne S stage hbeside, Store.find?_put_of_ne T stage' (hkey ▸ hbeside)]
    exact helsewhere k key hbeside
  · have hsome {status : Option StageStatus}
        (hany : status.any StageStatus.isRegistered = true) : status.isSome = true := by
      cases status with
      | none => exact nomatch hany
      | some _ => rfl
    rw [Store.find?_put_self, ← hkey, Store.find?_put_self, Option.map_some, Option.map_some,
      hmetadata, hspec, hsome hregistered, hsome hregistered']

/-- The status of the stage under the key says that it is provisioned. -/
def Store.Registers (key : Key) (s : Store) : Prop :=
  ∃ stage : Stage, s.find? .stage key = some stage ∧ stage.isRegistered = true

/-- The stores that attempts at a stage can lead to, and what is known of them: a reconciliation
without failing calls that succeeds on one of them would have succeeded in the first place. -/
structure Stage.Converges (context : Context) (stage : Stage) (S : Store) (reached : Store → Prop) :
    Prop where
  start : reached S
  step : ∀ now T, reached T → (reconcileStage { context with now } stage.key).Surely T
    (fun _ T' ↦ reached T')
  finish : ∀ {now T outcome T'}, reached T →
    (reconcileStage { context with now } stage.key).on T = (.ok outcome, T') →
    ∃ T₀, (reconcileStage context stage.key).on S = (.ok outcome, T₀) ∧
      T'.SameButStatus stage.key T₀ ∧
      (stage.isDeleting = false → T'.Registers stage.key ∧ T₀.Registers stage.key)

namespace Stage

theorem converges_of_deleting (context : Context) (hsound : S.Sound)
    (hfound : S.find? .stage stage.key = some stage) (hdeleting : stage.isDeleting = true) :
    ∃ reached, stage.Converges context S reached := by
  have hlive {p : Prop} (hcontra : stage.isDeleting = false) : p :=
    nomatch hdeleting.symm.trans hcontra
  cases hheld : stage.metadata.hasFinalizer Naming.labelCleanup with
  | false =>
    have hon (context : Context) :
        (reconcileStage context stage.key).on S = (.ok .awaitChange, S) := by
      rw [on_reconcileStage_of_deleting context hfound hdeleting, release_of_free hheld]
      rfl
    refine ⟨(· = S), rfl, ?_, ?_⟩
    · rintro now T rfl
      refine surely_reconcileStage_of_deleting hfound hdeleting (fun _ ↦ rfl) ?_
      rw [release_of_free hheld]
      rfl
    · rintro now T outcome T' rfl hlast
      rw [hon] at hlast
      obtain ⟨hresult, rfl⟩ := Prod.mk.inj hlast
      exact ⟨T, (hon context).trans (congrArg (·, T) hresult), .refl _ _, hlive⟩
  | true =>
    let z : Takedown := ⟨stage, S, hsound⟩
    refine ⟨z.Underway context, .down (.refl hsound) rfl, fun now T hunder ↦ ?_, ?_⟩
    · have hteardown : Chain.teardown { context with now } = Chain.teardown context := rfl
      exact hunder.surely_reconcileStage hteardown hfound hdeleting hheld
    · intro now T outcome T' hunder hlast
      have hteardown : Chain.teardown { context with now } = Chain.teardown context := rfl
      have hsame := hunder.on_reconcileStage hteardown hfound hdeleting hheld
      exact ⟨T', hsame.symm.trans hlast, .refl _ _, hlive⟩

/-- As long as a stage cannot be adopted, nothing is written. -/
theorem surely_reconcileStage_of_error {e : Fault}
    (hfound : S.find? .stage stage.key = some stage) (hlive : stage.isDeleting = false)
    (hadopt : (adopt stage).Rests S (.error e)) :
    (reconcileStage context stage.key).Surely S (fun _ T ↦ T = S) := by
  refine PipelineOperator.surely_reconcileStage_of_live hfound hlive (fun _ ↦ rfl) ?_
  rw [provision_eq, surely_bind]
  refine (atomic_adopt stage S).mono fun r T hr ↦ ?_
  rcases hr with ⟨e', rfl, rfl⟩ | hon
  · rfl
  · obtain ⟨rfl, rfl⟩ := Prod.mk.inj (hadopt.on.symm.trans hon)
    rfl

theorem converges_of_error (context : Context) {e : Fault}
    (hfound : S.find? .stage stage.key = some stage) (hlive : stage.isDeleting = false)
    (hadopt : (adopt stage).Rests S (.error e)) : ∃ reached, stage.Converges context S reached := by
  refine ⟨(· = S), rfl, ?_, ?_⟩
  · rintro now T rfl
    exact surely_reconcileStage_of_error hfound hlive hadopt
  · rintro now T outcome T' rfl hlast
    rw [on_reconcileStage_of_live _ hfound hlive, (rests_provision_of_error hadopt).on] at hlast
    exact nomatch congrArg Prod.fst hlast

theorem converges_of_adopted (context : Context) (hsound : S.Sound)
    (hfound : S.find? .stage stage.key = some stage) (hlive : stage.isDeleting = false)
    {w : Wiring}
    (hadopt : (adopt stage).on S = (.ok (stage.withWiring w), S.put (stage.withWiring w)))
    (hwired : IsWired S (stage.withWiring w)) : ∃ reached, stage.Converges context S reached := by
  let z : Site := Site.loose context (stage.withWiring w) S hsound hlive
  have hconfigs (config : String) : z.configs config := trivial
  have hmatches (now : Instant) : Context.Matches { context with now } z.context := ⟨rfl, rfl⟩
  have hself : context.Matches z.context := ⟨rfl, rfl⟩
  have hwired' : z.stage.IsWired z.base := hwired.put hfound rfl
  have hbase : z.base.find? .stage z.stage.key = some z.stage := z.stored
  refine ⟨fun T ↦ T = S ∨ z.Underway T, .inl rfl, fun now T hreached ↦ ?_, ?_⟩
  · rcases hreached with rfl | hunder
    · refine surely_reconcileStage_of_live hfound hlive (fun _ ↦ .inl rfl) ?_
      rw [provision_eq, surely_bind]
      refine (atomic_adopt stage T).mono fun r T' hr ↦ ?_
      rcases hr with ⟨e, rfl, rfl⟩ | hon
      · exact .inl rfl
      · obtain ⟨rfl, rfl⟩ := Prod.mk.inj (hadopt.symm.trans hon)
        exact ((Site.Underway.base z).surely_furnish (hmatches now) hconfigs
          z.stage.status).mono fun _ _ hunder ↦ .inr hunder
    · obtain ⟨status, hstored⟩ := hunder.leads.stage
      refine surely_reconcileStage_of_live hstored hlive (fun _ ↦ .inr hunder) ?_
      exact (hunder.surely_provision (hmatches now) hconfigs hwired' hstored).mono
        fun _ _ hunder' ↦ .inr hunder'
  · intro now T outcome T' hreached hlast
    obtain ⟨T₁, status, hunder, hstored, hrun⟩ : ∃ T₁ status, z.Underway T₁ ∧
        T₁.find? .stage z.stage.key = some { z.stage with status := status } ∧
        (furnish { context with now } { z.stage with status := status } >>= fun _ ↦
          confirm { context with now } { z.stage with status := status }).on T₁ =
            (.ok outcome, T') := by
      obtain rfl | hunder := hreached
      · rw [on_reconcileStage_of_live _ hfound hlive, on_provision_of_ok hadopt] at hlast
        exact ⟨z.base, z.stage.status, .base z, hbase, hlast⟩
      · obtain ⟨status, hstored⟩ := hunder.leads.stage
        have hprovision := (on_reconcileStage_of_live _ hstored hlive).symm.trans hlast
        rw [provision_eq, on_bind_of_ok (hunder.on_adopt hwired' hstored)] at hprovision
        exact ⟨T, status, hunder, hstored, hprovision⟩
    rcases hunder.on_furnish (hmatches now) hconfigs hstored with
        ⟨e, U, -, hcontra⟩ | ⟨U, status', hfurnished, hdone, hregistered⟩
    · exact nomatch congrArg Prod.fst (hrun.symm.trans hcontra)
    obtain ⟨hresult, rfl⟩ := Prod.mk.inj (hrun.symm.trans hdone)
    obtain rfl := Except.ok.inj hresult
    obtain ⟨U₀, hfurnished₀, helsewhere⟩ := hunder.finished hconfigs hlive hfurnished
    rcases (Site.Underway.base z).on_furnish hself hconfigs hbase with
        ⟨e, U, hcontra, -⟩ | ⟨U', status₀, hfurnished', hdone₀, hregistered₀⟩
    · exact nomatch congrArg Prod.fst (hfurnished₀.symm.trans hcontra)
    obtain rfl : U₀ = U' := congrArg Prod.snd (hfurnished₀.symm.trans hfurnished')
    refine ⟨U₀.put { z.stage with status := status₀ }, ?_, ?_, fun _ ↦ ⟨?_, ?_⟩⟩
    · rw [on_reconcileStage_of_live _ hfound hlive, on_provision_of_ok hadopt]
      exact hdone₀
    · exact Store.sameButStatus_put { z.stage with status := status' }
        { z.stage with status := status₀ } rfl rfl rfl hregistered hregistered₀ helsewhere
    · exact ⟨{ z.stage with status := status' }, Store.find?_put_self _ _, hregistered⟩
    · exact ⟨{ z.stage with status := status₀ }, Store.find?_put_self _ _, hregistered₀⟩

theorem exists_converges (context : Context) (hsound : S.Sound)
    (hfound : S.find? .stage stage.key = some stage) :
    ∃ reached, stage.Converges context S reached := by
  cases hdeleting : stage.isDeleting with
  | true => exact converges_of_deleting context hsound hfound hdeleting
  | false =>
    rcases on_adopt hfound hdeleting with ⟨e, hadopt⟩ | ⟨hadopt, hwired⟩
    · exact converges_of_error context hfound hdeleting hadopt
    · exact converges_of_adopted context hsound hfound hdeleting hadopt hwired

end Stage

/-- Attempts at a stage converge. After any number of them, whichever calls failed in each, a
reconciliation without failing calls that succeeds leaves the store that it would have left without
the attempts, and would have succeeded then too. -/
theorem reconcileStage_converges (context : Context) {b : Bench} (hserving : b.IsServing)
    (hsound : b.store.Sound) {stage : Stage} (hfound : b.store.find? .stage stage.key = some stage)
    (tries : List (Instant × (Nat → Option Fault))) {now : Instant} {outcome : Outcome}
    {last : Bench}
    (hlast : (reconcileStage { context with now } stage.key).onBench
      (attempts (fun now ↦ reconcileStage { context with now } stage.key) tries b) =
        (.ok outcome, last)) :
    ∃ once, (reconcileStage context stage.key).onBench b = (.ok outcome, once) ∧
      last.store.SameButStatus stage.key once.store ∧
      (stage.isDeleting = false →
        last.store.Registers stage.key ∧ once.store.Registers stage.key) := by
  obtain ⟨reached, hreached⟩ := Stage.exists_converges context hsound hfound
  obtain ⟨hserving', hthere⟩ := attempts_induction hreached.step tries hserving hreached.start
  obtain ⟨hresult, hstore, -⟩ :=
    onBench_eq (reconcileStage { context with now } stage.key) hserving'
  rw [hlast] at hresult hstore
  obtain ⟨T₀, honce, hsame, hregisters⟩ :=
    hreached.finish hthere (Prod.ext hresult.symm hstore.symm)
  obtain ⟨hresult₀, hstore₀, -⟩ := onBench_eq (reconcileStage context stage.key) hserving
  rw [honce] at hresult₀ hstore₀
  refine ⟨_, Prod.ext hresult₀ rfl, ?_⟩
  rw [hstore₀]
  exact ⟨hsame, hregisters⟩

/-- The creation of the namespace fails first, and then that of a binding. -/
theorem reconcileStage_converges_withStage :
    ∃ once last : Bench,
      (reconcileStage { now := ⟨9, 0⟩ } (Fixture.stage "dev" "ci" "p" 0).key).onBench
        Bench.withStage = (.ok .awaitChange, once) ∧
      (reconcileStage { now := ⟨2, 0⟩ } (Fixture.stage "dev" "ci" "p" 0).key).onBench
        (attempts (fun now ↦ reconcileStage { now } (Fixture.stage "dev" "ci" "p" 0).key)
          [(⟨0, 0⟩, fun n ↦ if n = 9 then some (.ofCause .brokenExchange) else none),
            (⟨1, 0⟩, fun n ↦ if n = 12 then some (.ofCause .brokenExchange) else none)]
          Bench.withStage) = (.ok .awaitChange, last) ∧
      last.store.SameButStatus (Fixture.stage "dev" "ci" "p" 0).key once.store := by
  have hstored : Bench.withStage.store.find? .stage (Fixture.stage "dev" "ci" "p" 0).key =
      some (Fixture.stage "dev" "ci" "p" 0) :=
    Store.find?_put_self _ (Fixture.stage "dev" "ci" "p" 0)
  have hlast : (reconcileStage { now := ⟨2, 0⟩ } (Fixture.stage "dev" "ci" "p" 0).key).onBench
      (attempts (fun now ↦ reconcileStage { now } (Fixture.stage "dev" "ci" "p" 0).key)
        [(⟨0, 0⟩, fun n ↦ if n = 9 then some (.ofCause .brokenExchange) else none),
          (⟨1, 0⟩, fun n ↦ if n = 12 then some (.ofCause .brokenExchange) else none)]
        Bench.withStage) = (.ok .awaitChange, _) := Prod.ext rfl rfl
  obtain ⟨once, honce, hsame, -⟩ := reconcileStage_converges { now := ⟨9, 0⟩ }
    Bench.isServing_withStage Bench.sound_withStage hstored _ hlast
  exact ⟨once, _, honce, hlast, hsame⟩

end PipelineOperator
