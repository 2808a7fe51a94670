import PipelineOperator.Proofs.Provision.Access
import PipelineOperator.Proofs.Provision.EnvironmentLabel
import PipelineOperator.Proofs.Provision.Job
import PipelineOperator.Proofs.Provision.Target
import PipelineOperator.Proofs.Provision.VerifiedStreams
import PipelineOperator.Proofs.Provision.Withdrawal

/-!
A chain settles, absorbs failures, or keeps to some requests if each of its handlers does. From this
the chain that provisions a stage has the first two: it settles when the job may only get the
configuration that follows from the store, and absorbs failures when it may get any.
-/

set_option autoImplicit false
set_option relaxedAutoImplicit false

namespace PipelineOperator

namespace Chain

open Operation

variable {D : Development} {hidden : Kind → Prop} {stage : Stage} {s : Store}

theorem settles_serve {chain : Chain}
    (hhandlers : ∀ handler ∈ chain.handlers, (handler.serve stage).Settles D) :
    (chain.serve stage).Settles D := by
  induction chain with
  | last handler => exact (hhandlers handler (List.mem_singleton_self _)).counted handler.name
  | link handler rest ih =>
    exact ((hhandlers handler (List.mem_cons_self ..)).counted handler.name).seq
      (ih fun next hnext ↦ hhandlers next (List.mem_cons_of_mem _ hnext))

theorem absorbs_serve {chain : Chain}
    (hhandlers : ∀ handler ∈ chain.handlers, (handler.serve stage).Absorbs D hidden) :
    (chain.serve stage).Absorbs D hidden := by
  induction chain with
  | last handler => exact (hhandlers handler (List.mem_singleton_self _)).counted handler.name
  | link handler rest ih =>
    exact ((hhandlers handler (List.mem_cons_self ..)).counted handler.name).seq
      (ih fun next hnext ↦ hhandlers next (List.mem_cons_of_mem _ hnext))

theorem asks_serve {allowed : Request → Prop} {chain : Chain}
    (hhandlers : ∀ handler ∈ chain.handlers, (handler.serve stage).Asks allowed) :
    (chain.serve stage).Asks allowed := by
  induction chain with
  | last handler => exact (hhandlers handler (List.mem_singleton_self _)).counted handler.name
  | link handler rest ih =>
    exact ((hhandlers handler (List.mem_cons_self ..)).counted handler.name).bind fun _ ↦
      ih fun next hnext ↦ hhandlers next (List.mem_cons_of_mem _ hnext)

/-- A chain rests with success where every handler does. -/
theorem rests_serve {chain : Chain} : (chain.serve stage).Rests s (.ok ()) ↔
    ∀ handler ∈ chain.handlers, (handler.serve stage).Rests s (.ok ()) := by
  induction chain with
  | last handler =>
    show (counted handler.name (handler.serve stage)).Rests s (.ok ()) ↔ _
    rw [rests_counted, handlers, List.forall_mem_singleton]
  | link handler rest ih =>
    show (counted handler.name (handler.serve stage) >>= fun _ ↦ rest.serve stage).Rests s
      (.ok ()) ↔ _
    rw [rests_bind, handlers, List.forall_mem_cons, ← ih]
    constructor
    · rintro (⟨_, hfirst, hrest⟩ | ⟨e, -, hcontra⟩)
      · exact ⟨rests_counted.mp hfirst, hrest⟩
      · cases hcontra
    · rintro ⟨hfirst, hrest⟩
      exact .inl ⟨(), rests_counted.mpr hfirst, hrest⟩

end Chain

/-- The contexts differ in the time at most. -/
def Context.Matches (context context' : Context) : Prop :=
  context.platform = context'.platform ∧ context.kiosk = context'.kiosk

namespace Handler

open Operation

variable {z : Site} {context : Context} {hidden : Kind → Prop}

theorem settles_target (hcontext : context.Matches z.context) :
    ((target context).serve z.stage).Settles z.development := by
  unfold target
  cases hkiosk : context.kiosk with
  | true =>
    exact Target.settles_provide (o := Target.buildSpace z.stage.target z.ns) rfl
      fun s ↦ ⟨hcontext.2 ▸ hkiosk, rfl⟩
  | false =>
    exact Target.settles_provide (o := Target.buildNamespace z.stage.target z.ns) rfl
      fun s ↦ ⟨hcontext.2 ▸ hkiosk, rfl⟩

theorem absorbs_target (hcontext : context.Matches z.context) (hstage : hidden .stage)
    (hspace : ¬ hidden .space) (hnamespace : ¬ hidden .ns) :
    ((target context).serve z.stage).Absorbs z.development hidden := by
  unfold target
  cases hkiosk : context.kiosk with
  | true =>
    exact Target.absorbs_provide (o := Target.buildSpace z.stage.target z.ns) rfl
      (fun s ↦ ⟨hcontext.2 ▸ hkiosk, rfl⟩) hstage hspace
  | false =>
    exact Target.absorbs_provide (o := Target.buildNamespace z.stage.target z.ns) rfl
      (fun s ↦ ⟨hcontext.2 ▸ hkiosk, rfl⟩) hstage hnamespace

end Handler

namespace Chain

open Operation

variable {z : Site} {context : Context}

theorem mem_handlers_creation {context : Context} {trigger : Trigger} {handler : Handler} :
    handler ∈ (creation context trigger).handlers ↔
      handler = .verifiedStreams ∨ handler = .target context ∨ handler = .access context ∨
        handler = .job ∨ trigger = .auto ∧ handler = .environmentLabel := by
  unfold creation
  rw [handlers_ofHandlers]
  cases trigger <;> simp

theorem settles_creation (hcontext : context.Matches z.context)
    (hconfigs : ∀ pipeline, z.pipeline? = some pipeline →
      ∀ config, z.configs config ↔ config = StageJob.desired z.base z.stage pipeline) :
    ((creation context z.stage.spec.trigger).serve z.stage).Settles z.development := by
  refine settles_serve fun handler hhandler ↦ ?_
  rcases mem_handlers_creation.mp hhandler with rfl | rfl | rfl | rfl | ⟨hauto, rfl⟩
  · exact VerifiedStreams.settles_serve
  · exact Handler.settles_target hcontext
  · show (Access.serve context.platform z.stage).Settles z.development
    rw [hcontext.1]
    exact Access.settles_serve
  · exact StageJob.settles_serve hconfigs
  · exact EnvironmentLabel.settles_serve hauto

/-- The kinds in which attempts may differ for good: the status of the stage is not part of the
comparison, and the configuration of the job is put right by the last handler that touches it. -/
def passing (k : Kind) : Prop := k = .stage ∨ k = .jenkinsJob

theorem absorbs_creation (hcontext : context.Matches z.context)
    (hconfigs : ∀ config, z.configs config) :
    ((creation context z.stage.spec.trigger).serve z.stage).Absorbs z.development passing := by
  refine absorbs_serve fun handler hhandler ↦ ?_
  rcases mem_handlers_creation.mp hhandler with rfl | rfl | rfl | rfl | ⟨hauto, rfl⟩
  · exact VerifiedStreams.absorbs_serve (by simp [passing])
  · exact Handler.absorbs_target hcontext (.inl rfl) (by simp [passing]) (by simp [passing])
  · show (Access.serve context.platform z.stage).Absorbs z.development passing
    rw [hcontext.1]
    exact Access.absorbs_serve (by simp [passing]) (by simp [passing])
  · exact StageJob.absorbs_serve hconfigs (.inr rfl)
  · exact EnvironmentLabel.absorbs_serve hauto (by simp [passing])

/-- What the handlers do does not depend on the status that the stage has. -/
theorem creation_serve_status (context : Context) (trigger : Trigger) (stage : Stage)
    (status : Option StageStatus) :
    (creation context trigger).serve { stage with status := status } =
      (creation context trigger).serve stage := by
  cases trigger <;> cases hkiosk : context.kiosk <;>
    simp only [creation, Handler.target, hkiosk] <;> rfl

/-! ### Runs without failing calls -/

theorem spares_serve {k : Kind} {stage : Stage} {chain : Chain}
    (hhandlers : ∀ handler ∈ chain.handlers, (handler.serve stage).Spares k) :
    (chain.serve stage).Spares k := by
  induction chain with
  | last handler => exact (hhandlers handler (List.mem_singleton_self _)).counted handler.name
  | link handler rest ih =>
    exact ((hhandlers handler (List.mem_cons_self ..)).counted handler.name).bind fun _ ↦
      ih fun next hnext ↦ hhandlers next (List.mem_cons_of_mem _ hnext)

/-- As long as no call fails, provisioning writes nothing about stages. -/
theorem spares_creation (context : Context) (trigger : Trigger) (stage : Stage) :
    ((creation context trigger).serve stage).Spares .stage := by
  have hprovide {k : Kind} (hkind : k ≠ .stage) (now : Instant) (action : String) (o : Object k) :
      (Target.provide now stage k action (ensure o.key o)).Spares .stage := by
    intro s
    rw [Target.on_provide]
    exact (asks_secure hkind.symm hkind.symm : (secure o).Asks _).spares s
  refine spares_serve fun handler hhandler ↦ ?_
  rcases mem_handlers_creation.mp hhandler with rfl | rfl | rfl | rfl | ⟨-, rfl⟩
  · exact Asks.spares (VerifiedStreams.asks_serve (by simp [Request.kind]) (by simp [Request.kind])
      (by simp [Request.kind]) (by simp [Request.kind]))
  · unfold Handler.target
    split
    · exact hprovide (by decide) _ _ (Target.buildSpace ..)
    · exact hprovide (by decide) _ _ (Target.buildNamespace ..)
  · exact Asks.spares (Access.asks_serve (by simp [Request.kind]) (by simp [Request.kind])
      (by simp [Request.kind]) (by simp [Request.kind]))
  · exact Asks.spares (StageJob.asks_serve (by simp [Request.kind]) (by simp [Request.kind])
      (by simp [Request.kind]) (by simp [Request.kind]) (by simp [Request.kind])
      (by simp [Request.kind]))
  · exact Asks.spares (EnvironmentLabel.asks_serve (by simp [Request.kind])
      (by simp [Request.kind]) (by simp [Request.kind]))

theorem alike_link {stage : Stage} {handler handler' : Handler} {rest rest' : Chain}
    (hserve : Alike (handler.serve stage) (handler'.serve stage))
    (hrest : Alike (rest.serve stage) (rest'.serve stage)) :
    Alike ((link handler rest).serve stage) ((link handler' rest').serve stage) :=
  (hserve.counted handler.name handler'.name).bind fun _ ↦ hrest

/-- As long as no call fails, the time at which a stage is provisioned does not matter. -/
theorem alike_creation {context context' : Context} (hcontext : context.Matches context')
    (trigger : Trigger) (stage : Stage) :
    Alike ((creation context trigger).serve stage) ((creation context' trigger).serve stage) := by
  have htarget : Alike ((Handler.target context).serve stage)
      ((Handler.target context').serve stage) := by
    unfold Handler.target
    rw [hcontext.2]
    split
    · exact ⟨fun s ↦ (Target.on_provide (Target.buildSpace ..) s).trans
        (Target.on_provide (Target.buildSpace ..) s).symm,
        fun s r ↦ (Target.rests_provide (o := Target.buildSpace ..)).trans
          (Target.rests_provide (o := Target.buildSpace ..)).symm⟩
    · exact ⟨fun s ↦ (Target.on_provide (Target.buildNamespace ..) s).trans
        (Target.on_provide (Target.buildNamespace ..) s).symm,
        fun s r ↦ (Target.rests_provide (o := Target.buildNamespace ..)).trans
          (Target.rests_provide (o := Target.buildNamespace ..)).symm⟩
  have haccess : Handler.access context = Handler.access context' := by
    unfold Handler.access
    rw [hcontext.1]
  unfold creation
  rw [haccess]
  cases trigger with
  | auto => exact alike_link (.refl _) (alike_link htarget (.refl _))
  | manual => exact alike_link (.refl _) (alike_link htarget (.refl _))

end Chain

/-! ### Taking a stage down -/

/-- The kind of the places into which stages deploy. -/
def Context.targetKind (context : Context) : Kind := if context.kiosk then .space else .ns

theorem Context.targetKind_eq (context : Context) :
    context.targetKind = .ns ∨ context.targetKind = .space := by
  unfold targetKind
  split
  · exact .inr rfl
  · exact .inl rfl

theorem Context.targetKind_ne {k : Kind} (context : Context) (hns : k ≠ .ns) (hspace : k ≠ .space) :
    k ≠ context.targetKind := by
  rcases context.targetKind_eq with h | h
  · exact h ▸ hns
  · exact h ▸ hspace

namespace Handler

open Operation

variable {z : Takedown} {hidden : Kind → Prop}

theorem absorbs_removal {k : Kind} (hkind : k = .ns ∨ k = .space) (hshown : ¬ hidden k) :
    (delete k ⟨"", z.stage.target⟩).Absorbs z.development hidden := by
  refine Atomic.absorbs (atomic_ask _) (asks_ask hshown) ?_ ?_ ?_
  · intro s hdom
    refine ⟨hdom.sound.remove .., fun k' key ↦ ?_⟩
    rw [on_delete]
    by_cases hhere : k' = k ∧ key = ⟨"", z.stage.target⟩
    · obtain ⟨rfl, rfl⟩ := hhere
      rw [Store.find?_remove_self]
      cases s.find? k' ⟨"", z.stage.target⟩ with
      | none => trivial
      | some o => exact ⟨hkind, rfl⟩
    · rw [Store.find?_remove_of_ne s hhere]
      exact (Takedown.Leads.refl hdom.sound).changes k' key
  · intro s hdom
    rw [on_delete, on_delete, Store.remove_of_absent (Store.find?_remove_self ..)]
  · intro s s' t hdom hon hleads
    rw [on_delete] at hon ⊢
    obtain rfl : s.remove k ⟨"", z.stage.target⟩ = s' := congrArg Prod.snd hon
    have hchanges := hleads.changes k ⟨"", z.stage.target⟩
    rw [Store.find?_remove_self] at hchanges
    have habsent : t.find? k ⟨"", z.stage.target⟩ = none := by
      cases hfound : t.find? k ⟨"", z.stage.target⟩ with
      | none => rfl
      | some o =>
        rw [hfound] at hchanges
        exact hchanges.elim
    rw [Store.remove_of_absent habsent]

theorem serve_removeTarget (context : Context) (stage : Stage) :
    (removeTarget context).serve stage = delete context.targetKind ⟨"", stage.target⟩ := by
  unfold removeTarget Context.targetKind
  cases context.kiosk <;> rfl

theorem absorbs_removeTarget (context : Context) (hspace : ¬ hidden .space)
    (hnamespace : ¬ hidden .ns) :
    ((removeTarget context).serve z.stage).Absorbs z.development hidden := by
  have hshown : ¬ hidden context.targetKind := by
    rcases context.targetKind_eq with h | h
    · exact h ▸ hnamespace
    · exact h ▸ hspace
  rw [serve_removeTarget]
  exact absorbs_removal context.targetKind_eq hshown

end Handler

theorem Chain.mem_handlers_teardown {context : Context} {handler : Handler} :
    handler ∈ (teardown context).handlers ↔
      handler = .withdrawLabel ∨ handler = .removeTarget context := by
  rw [teardown, handlers_ofHandlers, List.mem_cons, List.mem_singleton]

theorem Chain.absorbs_teardown {z : Takedown} (context : Context) {hidden : Kind → Prop}
    (hstream : ¬ hidden .imageStream) (hspace : ¬ hidden .space) (hnamespace : ¬ hidden .ns) :
    ((teardown context).serve z.stage).Absorbs z.development hidden := by
  refine absorbs_serve fun handler hhandler ↦ ?_
  rcases mem_handlers_teardown.mp hhandler with rfl | rfl
  · exact EnvironmentLabel.absorbs_withdraw hstream
  · exact Handler.absorbs_removeTarget context hspace hnamespace

end PipelineOperator
