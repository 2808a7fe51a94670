import PipelineOperator.Proofs.Provision.Chain
import PipelineOperator.Proofs.Reconcile.Wiring

/-!
What is done for a live stage once it is adopted. `Stage.furnish` is the chain with the check before
it, `Stage.confirm` the report at the end; `Site.adopted` is the site on which both work. Whatever
the chain does, the stage stays wired, so that another reconciliation adopts it as it is.
-/

set_option autoImplicit false
set_option relaxedAutoImplicit false

namespace PipelineOperator

namespace Stage

open Operation

variable {s : Stage} {T : Store}

/-- Provisions an adopted stage. -/
def furnish (context : Context) (s : Stage) : Operation Unit :=
  requirePrevious s >>= fun _ ↦ (Chain.creation context s.spec.trigger).serve s

/-- Reports that a stage is provisioned, unless its status says so. -/
def confirm (context : Context) (s : Stage) : Operation Outcome := do
  if !s.isRegistered then
    let _ ← report s (StageStatus.registered context.now)
  return .awaitChange

/-- Provisioning is adoption and what follows for the adopted stage. -/
theorem provision_eq (context : Context) (s : Stage) :
    provision context s = adopt s >>= fun adopted ↦
      (requirePrevious adopted >>= fun _ ↦
        (Chain.creation context s.spec.trigger).serve adopted) >>= fun _ ↦
      confirm context adopted := by
  unfold provision confirm
  simp only [bind_assoc]

theorem on_provision_of_ok {context : Context} {w : Wiring} {T' : Store}
    (hadopt : (adopt s).on T = (.ok (s.withWiring w), T')) :
    (provision context s).on T =
      (furnish context (s.withWiring w) >>= fun _ ↦ confirm context (s.withWiring w)).on T' := by
  rw [provision_eq, on_bind_of_ok hadopt]
  rfl

theorem rests_provision_of_ok {context : Context} {result : Except Fault Outcome}
    (hadopt : (adopt s).Rests T (.ok s))
    (hrests : (furnish context s >>= fun _ ↦ confirm context s).Rests T result) :
    (provision context s).Rests T result := by
  rw [provision_eq]
  exact rests_bind.mpr (.inl ⟨s, hadopt, hrests⟩)

theorem rests_provision_of_error {context : Context} {e : Fault}
    (hadopt : (adopt s).Rests T (.error e)) : (provision context s).Rests T (.error e) :=
  rests_bind.mpr (.inr ⟨e, hadopt, rfl⟩)

theorem furnish_withStatus (context : Context) (s : Stage) (status : Option StageStatus) :
    furnish context { s with status := status } = furnish context s := by
  unfold furnish
  rw [Chain.creation_serve_status]
  rfl

theorem requirePrevious_eq (s : Stage) : s.requirePrevious = pure () ∨
    s.requirePrevious = fail (.previousStageNotFound s.spec.name s.spec.pipeline s.spec.order) := by
  unfold requirePrevious previousName
  cases s.isFirst with
  | true => exact .inl rfl
  | false =>
    cases s.previousName? with
    | none => exact .inr rfl
    | some name => exact .inl rfl

theorem settles_furnish {z : Site} {context : Context} (hcontext : context.Matches z.context)
    (hconfigs : ∀ pipeline, z.pipeline? = some pipeline →
      ∀ config, z.configs config ↔ config = StageJob.desired z.base z.stage pipeline) :
    (furnish context z.stage).Settles z.development := by
  have hchain := Chain.settles_creation hcontext hconfigs
  unfold furnish
  rcases requirePrevious_eq z.stage with hprevious | hprevious
  · rw [hprevious]
    exact settles_pure.seq hchain
  · rw [hprevious]
    exact (settles_fail _).seq hchain

theorem absorbs_furnish {z : Site} {context : Context} (hcontext : context.Matches z.context)
    (hconfigs : ∀ config, z.configs config) :
    (furnish context z.stage).Absorbs z.development Chain.passing := by
  have hchain := Chain.absorbs_creation hcontext hconfigs
  unfold furnish
  rcases requirePrevious_eq z.stage with hprevious | hprevious
  · rw [hprevious]
    exact absorbs_pure.seq hchain
  · rw [hprevious]
    exact (absorbs_fail _).seq hchain

theorem absorbs_furnish_self {z : Site} (hconfigs : ∀ config, z.configs config) :
    (furnish z.context z.stage).Absorbs z.development Chain.passing :=
  absorbs_furnish ⟨rfl, rfl⟩ hconfigs

theorem spares_furnish (context : Context) (s : Stage) : (furnish context s).Spares .stage := by
  have hchain := Chain.spares_creation context s.spec.trigger s
  unfold furnish
  rcases requirePrevious_eq s with hprevious | hprevious
  · rw [hprevious]
    exact hchain
  · rw [hprevious]
    exact fun _ ↦ rfl

theorem alike_furnish {context context' : Context} (hcontext : context.Matches context')
    (s : Stage) : Alike (furnish context s) (furnish context' s) :=
  (Alike.refl _).bind fun _ ↦ Chain.alike_creation hcontext s.spec.trigger s

end Stage

namespace Site

variable {z : Site} {s t : Store}

theorem Leads.sameOutlines (hleads : z.Leads s t) : s.SameOutlines t := by
  intro key
  have hchanges := hleads.changes .stage key
  cases hs : s.find? .stage key with
  | none =>
    cases ht : t.find? .stage key with
    | none => rfl
    | some o =>
      rw [hs, ht] at hchanges
      obtain ⟨built, hbuilds, -⟩ := hchanges
      exact hbuilds.elim
  | some stage =>
    obtain ⟨stage', ht, halters⟩ := hleads.found hs
    rw [ht]
    rcases halters with rfl | ⟨-, hmetadata, hspec⟩
    · rfl
    · show some (_, _) = some (_, _)
      rw [hmetadata, hspec]

/-- Provisioning does not undo the wiring. -/
theorem Leads.isWired (hleads : z.Leads z.base s) (hwired : z.stage.IsWired z.base)
    (status : Option StageStatus) : Stage.IsWired s { z.stage with status := status } :=
  (hwired.transport (fun key ↦ hleads.given rfl key) hleads.sameOutlines).withStatus status

/-- The site on which an adopted stage is provisioned. -/
def adopted (context : Context) (stage : Stage) (store : Store) (configs : String → Prop)
    (hsound : store.Sound) (hlive : stage.isDeleting = false) : Site where
  context := context
  stage := stage
  base := store.put stage
  configs := configs
  sound := hsound.put (Object.isReleased_of_live hlive)
  stored := Store.find?_put_self store stage

/-- The site on which an adopted stage is provisioned without failing calls: its job may only get
the configuration that follows from the store. -/
def exact (context : Context) (stage : Stage) (store : Store) (hsound : store.Sound)
    (hlive : stage.isDeleting = false) : Site :=
  adopted context stage store (fun config ↦ ∃ pipeline,
    (store.put stage).find? .pipeline stage.pipelineKey = some pipeline ∧
      config = StageJob.desired (store.put stage) stage pipeline) hsound hlive

/-- The site on which an adopted stage is provisioned while any call may fail. -/
def loose (context : Context) (stage : Stage) (store : Store) (hsound : store.Sound)
    (hlive : stage.isDeleting = false) : Site :=
  adopted context stage store (fun _ ↦ True) hsound hlive

theorem settles_exact {context context' : Context} (hcontext : context'.Matches context)
    {stage : Stage} {store : Store} (hsound : store.Sound) (hlive : stage.isDeleting = false) :
    (stage.furnish context').Settles (exact context stage store hsound hlive).development := by
  refine Stage.settles_furnish (z := exact context stage store hsound hlive) hcontext
    fun pipeline hpipeline config ↦ ⟨?_, fun hconfig ↦ ⟨pipeline, hpipeline, hconfig⟩⟩
  rintro ⟨pipeline', hpipeline', rfl⟩
  obtain rfl := Option.some.inj (hpipeline.symm.trans hpipeline')
  rfl

end Site

/-- Storing a stage anew under the same outline. -/
theorem Store.sameOutlines_put {s : Store} {stage stage' : Stage}
    (hfound : s.find? .stage stage'.key = some stage)
    (houtline : outline stage' = outline stage) : s.SameOutlines (s.put stage') := by
  intro key
  rw [find?_put]
  by_cases hkey : key = stage'.key
  · rw [if_pos hkey, hkey, hfound, Option.map_some, Option.map_some, houtline]
  · rw [if_neg hkey]

/-- A stage that was stored as wired is wired in the store that has it. -/
theorem Stage.IsWired.put {s : Store} {stage stage' : Stage} (hwired : stage'.IsWired s)
    (hfound : s.find? .stage stage'.key = some stage)
    (houtline : Store.outline stage' = Store.outline stage) : stage'.IsWired (s.put stage') :=
  hwired.transport (fun key ↦ Store.find?_put_of_kind_ne s stage' (by decide) key)
    (Store.sameOutlines_put hfound houtline)

namespace Stage

open Operation

variable {context : Context} {s : Stage} {T U : Store}

/-! ### What success means -/

/-- The status of a provisioned stage: what it has if that says so, and else what is reported. -/
def confirmedStatus (context : Context) (s : Stage) : Option StageStatus :=
  if s.isRegistered then s.status else some (StageStatus.registered context.now)

theorem isRegistered_confirmedStatus (context : Context) (s : Stage) :
    (s.confirmedStatus context).any StageStatus.isRegistered = true := by
  unfold confirmedStatus
  cases hregistered : s.isRegistered with
  | true => exact hregistered
  | false => exact StageStatus.isRegistered_registered context.now

theorem isRegistration_confirmedStatus (context : Context) (s : Stage) :
    ∃ status, s.confirmedStatus context = some status ∧ status.IsRegistration := by
  obtain ⟨status, hstatus, hregistered⟩ :=
    (Option.any_eq_true ..).mp (isRegistered_confirmedStatus context s)
  exact ⟨status, hstatus, StageStatus.isRegistered_iff.mp hregistered⟩

/-- A stage that was provisioned is reported as such. -/
theorem on_confirm (context : Context) (hkeyed : U.KeyedAt .stage)
    (hstored : U.find? .stage s.key = some s) :
    (confirm context s).on U =
      (.ok .awaitChange, U.put { s with status := s.confirmedStatus context }) := by
  unfold confirm confirmedStatus
  cases s.isRegistered with
  | true =>
    show (Except.ok Outcome.awaitChange, U) = (Except.ok Outcome.awaitChange, U.put s)
    rw [Store.put_of_find? hstored]
  | false =>
    simp only [Bool.not_false, if_true]
    rw [on_bind_of_ok (on_report hkeyed hstored _)]
    rfl

/-- Whichever calls fail, confirming writes the status of the stage at most. -/
theorem surely_confirm (context : Context) (hsound : T.Sound) {old : Option StageStatus}
    (hstored : T.find? .stage s.key = some { s with status := old }) :
    (confirm context s).Surely T
      (fun _ T' ↦ T' = T ∨ ∃ status, T' = T.put { s with status := status }) := by
  unfold confirm
  cases s.isRegistered with
  | true => exact .inl rfl
  | false =>
    simp only [Bool.not_false, if_true, surely_bind]
    refine (surely_report (o := s) hsound hstored _).mono fun r T' hr ↦ ?_
    rcases hr with ⟨⟨e, rfl⟩, rfl⟩ | ⟨rfl, rfl⟩
    · exact .inl rfl
    · exact .inr ⟨_, rfl⟩

/-- Furnishing an adopted stage without failing calls develops the store, however it ends. -/
theorem leads_furnish {hsound : T.Sound} {hlive : s.isDeleting = false} {r : Except Fault Unit}
    (hon : (furnish context s).on (T.put s) = (r, U)) :
    (Site.exact context s T hsound hlive).Leads (T.put s) U := by
  have hsettles : (furnish context s).Settles (Site.exact context s T hsound hlive).development :=
    Site.settles_exact ⟨rfl, rfl⟩ hsound hlive
  have hdom : (Site.exact context s T hsound hlive).Leads (T.put s) (T.put s) :=
    .refl (Site.exact context s T hsound hlive).sound
  have hfurnished := hsettles.develops hdom
  rwa [hon] at hfurnished

/-- Once an adopted stage was furnished without failing calls, all its handlers rest, and go on to
do so. -/
theorem rests_handlers {hsound : T.Sound} {hlive : s.isDeleting = false} {V : Store}
    (hon : (furnish context s).on (T.put s) = (.ok (), U))
    (hleads : (Site.exact context s T hsound hlive).Leads U V) :
    ∀ handler ∈ (Chain.creation context s.spec.trigger).handlers,
      (handler.serve s).Rests V (.ok ()) := by
  have hsettles : (furnish context s).Settles (Site.exact context s T hsound hlive).development :=
    Site.settles_exact ⟨rfl, rfl⟩ hsound hlive
  have hdom : (Site.exact context s T hsound hlive).Leads (T.put s) (T.put s) :=
    .refl (Site.exact context s T hsound hlive).sound
  have hrests := hsettles.rests hdom
  rw [hon] at hrests
  refine Chain.rests_serve.mp ?_
  rcases rests_bind.mp (hsettles.lasts (leads_furnish hon) hrests hleads) with
      ⟨done, -, hchain⟩ | ⟨e, -, hcontra⟩
  · exact hchain
  · exact nomatch hcontra

end Stage

end PipelineOperator
