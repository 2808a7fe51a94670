import PipelineOperator.Proofs.Operation.Keeping
import PipelineOperator.Proofs.Provision.Chain

/-!
What the chain of provisioning keeps when no call fails. Of the image streams, the pipelines and the
places into which stages deploy, three handlers write anything; what these keep the chain keeps
(`Chain.keeps_creation`). After a success every handler has done its part on a store on the way
(`Chain.exists_of_on_serve`).
-/

set_option autoImplicit false
set_option relaxedAutoImplicit false

namespace PipelineOperator

open Operation

variable {I : Store → Prop} {kinds : Kind → Prop} {context : Context} {stage : Stage}

theorem Chain.keeps_serve {stage : Stage} {chain : Chain}
    (hhandlers : ∀ handler ∈ chain.handlers, (handler.serve stage).Keeps I) :
    (chain.serve stage).Keeps I := by
  induction chain with
  | last handler => exact (hhandlers handler (List.mem_singleton_self _)).counted handler.name
  | link handler rest ih =>
    exact ((hhandlers handler (List.mem_cons_self ..)).counted handler.name).bind fun _ ↦
      ih fun next hnext ↦ hhandlers next (List.mem_cons_of_mem _ hnext)

/-- Where a chain succeeded, so did each of its handlers, on a store that came about under way and
from which the chain ends in the store that is left. -/
theorem Chain.exists_of_on_serve {stage : Stage} {chain : Chain}
    (hkeeps : ∀ handler ∈ chain.handlers, (handler.serve stage).Keeps I) {s t : Store}
    (hbefore : I s) (hok : (chain.serve stage).on s = (.ok (), t)) {handler : Handler}
    (hhandler : handler ∈ chain.handlers) : ∃ u v, I u ∧
      (handler.serve stage).on u = (.ok (), v) ∧ ∀ J : Store → Prop,
        (∀ handler ∈ chain.handlers, (handler.serve stage).Keeps J) → J v → J t := by
  induction chain generalizing s with
  | last first =>
    obtain rfl := List.mem_singleton.mp hhandler
    exact ⟨s, t, hbefore, (Operation.on_counted ..).symm.trans hok, fun _ _ hafter ↦ hafter⟩
  | link first rest ih =>
    obtain ⟨_, s', hcounted, (hrest : (rest.serve stage).on s' = (.ok (), t))⟩ :=
      exists_of_on_bind hok
    have hfirst : (first.serve stage).on s = (.ok _, s') := (on_counted ..).symm.trans hcounted
    rcases List.mem_cons.mp hhandler with rfl | hhandler
    · refine ⟨s, s', hbefore, hfirst, fun J hJ hafter ↦ ?_⟩
      have hkept := Chain.keeps_serve
        (fun next hnext ↦ hJ next (List.mem_cons_of_mem _ hnext)) s' hafter
      rwa [hrest] at hkept
    · have hthere : I s' := by
        have hkept := hkeeps first (List.mem_cons_self ..) s hbefore
        rwa [hfirst] at hkept
      obtain ⟨u, v, hu, hon, hleft⟩ :=
        ih (fun next hnext ↦ hkeeps next (List.mem_cons_of_mem _ hnext)) hthere hrest hhandler
      exact ⟨u, v, hu, hon, fun J hJ ↦
        hleft J fun next hnext ↦ hJ next (List.mem_cons_of_mem _ hnext)⟩

/-- The kinds of objects whose tables courses of reconciliations are followed in. -/
def Kind.IsFollowed (k : Kind) : Prop := k = .imageStream ∨ k = .pipeline ∨ k = .ns ∨ k = .space

namespace Handler

theorem keeps_access (hI : Store.DependsOn kinds I) (hkinds : ∀ k, kinds k → k.IsFollowed) :
    ((access context).serve stage).Keeps I := by
  have hrole : ¬ kinds .role := fun hk ↦ by simpa [Kind.IsFollowed] using hkinds _ hk
  have hbinding : ¬ kinds .roleBinding := fun hk ↦ by simpa [Kind.IsFollowed] using hkinds _ hk
  exact (Access.asks_serve (fun _ _ ↦ rfl) (fun _ _ ↦ rfl) (fun _ hk ↦ absurd hk hrole)
    fun _ hk ↦ absurd hk hbinding).keeps_of_reads hI

theorem keeps_job (hI : Store.DependsOn kinds I) (hkinds : ∀ k, kinds k → k.IsFollowed) :
    (job.serve stage).Keeps I := by
  have hjob : ¬ kinds .jenkinsJob := fun hk ↦ by simpa [Kind.IsFollowed] using hkinds _ hk
  exact (StageJob.asks_serve (fun _ _ ↦ rfl) (fun _ _ ↦ rfl) (fun _ _ ↦ rfl) (fun _ _ ↦ rfl)
    (fun _ hk ↦ absurd hk hjob) fun _ _ hk ↦ absurd hk hjob).keeps_of_reads hI

/-- As long as no call fails, providing the target is to secure it. -/
theorem on_target (s : Store) :
    ((target context).serve stage).on s =
      if context.kiosk then
        (secure (Target.buildSpace stage.target stage.metadata.namespaceOrEmpty)).on s
      else (secure (Target.buildNamespace stage.target stage.metadata.namespaceOrEmpty)).on s := by
  unfold target
  cases context.kiosk with
  | true => exact Target.on_provide (Target.buildSpace ..) s
  | false => exact Target.on_provide (Target.buildNamespace ..) s

theorem keeps_target (hI : Store.DependsOn kinds I) (hns : ¬ kinds .ns) (hspace : ¬ kinds .space) :
    ((target context).serve stage).Keeps I := by
  have hsecure {k : Kind} (hk : ¬ kinds k) (o : Object k) : (secure o).Keeps I :=
    (asks_secure (fun hk' ↦ absurd hk' hk) fun hk' ↦ absurd hk' hk).keeps_of_reads hI
  intro s hbefore
  rw [on_target]
  split
  · exact hsecure hspace _ s hbefore
  · exact hsecure hns _ s hbefore

theorem spares_removeTarget {k : Kind} (hns : k ≠ .ns) (hspace : k ≠ .space) :
    ((removeTarget context).serve stage).Spares k := by
  rw [serve_removeTarget]
  exact (asks_ask (context.targetKind_ne hns hspace) : (delete context.targetKind _).Asks _).spares

theorem keeps_removeTarget (hI : Store.DependsOn kinds I) (hns : ¬ kinds .ns)
    (hspace : ¬ kinds .space) : ((removeTarget context).serve stage).Keeps I := by
  have htarget : ¬ kinds context.targetKind := by
    rcases context.targetKind_eq with h | h
    · exact h ▸ hns
    · exact h ▸ hspace
  rw [serve_removeTarget]
  exact (asks_ask fun hk ↦ absurd hk htarget).keeps_of_reads hI

end Handler

theorem Chain.keeps_creation (hI : Store.DependsOn kinds I) (hkinds : ∀ k, kinds k → k.IsFollowed)
    (hverified : (VerifiedStreams.serve stage).Keeps I)
    (htarget : ((Handler.target context).serve stage).Keeps I)
    (hlabel : stage.spec.trigger = .auto → (EnvironmentLabel.serve stage).Keeps I) :
    ∀ handler ∈ (creation context stage.spec.trigger).handlers, (handler.serve stage).Keeps I := by
  intro handler hhandler
  rcases mem_handlers_creation.mp hhandler with rfl | rfl | rfl | rfl | ⟨hauto, rfl⟩
  · exact hverified
  · exact htarget
  · exact Handler.keeps_access hI hkinds
  · exact Handler.keeps_job hI hkinds
  · exact hlabel hauto

end PipelineOperator
