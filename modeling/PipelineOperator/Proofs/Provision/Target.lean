import PipelineOperator.Proofs.Provision.Report
import PipelineOperator.Proofs.Provision.Site

/-!
Providing the target settles and absorbs failures. The report that is written on the stage when a
call fails is the only trace of the failure, and it does not bear on the target itself.
-/

set_option autoImplicit false
set_option relaxedAutoImplicit false

namespace PipelineOperator

namespace Target

open Operation

variable {k : Kind} {s t : Store} {z : Site} {now : Instant} {stage : Stage} {action : String}

/-! ### The places that are built -/

theorem buildNamespace_eq (stage : Stage) (source : String) :
    buildNamespace stage.target source = {
      metadata := {
        name := some (stage.metadata.namespaceOrEmpty ++ "-" ++ stage.spec.name)
        labels := some (SortedMap.ofList [
          ("app.edp.epam.com/tenant", source),
          ("app.kubernetes.io/managed-by", "edp-cd-pipeline-operator")]) }
      spec := none } := rfl

theorem buildSpace_eq (stage : Stage) (account : String) :
    buildSpace stage.target account = {
      metadata := {
        name := some (stage.metadata.namespaceOrEmpty ++ "-" ++ stage.spec.name)
        labels := some (SortedMap.ofList [("app.edp.epam.com/tenant", account)]) }
      spec := { account := account } } := rfl

/-! ### Providing them -/

/-- As long as no call fails, providing a place is to secure it. -/
theorem on_provide (o : Object k) (s : Store) :
    (provide now stage k action (ensure o.key o)).on s = (secure o).on s := by
  have hsecure := on_secure o s
  unfold secure at hsecure
  unfold provide secure
  rw [on_tryCatch, hsecure]

theorem rests_provide {o : Object k} {result : Except Fault Unit} :
    (provide now stage k action (ensure o.key o)).Rests s result ↔
      (secure o).Rests s result := by
  unfold provide
  rw [rests_tryCatch]
  constructor
  · rintro (⟨a, hrests, rfl⟩ | ⟨e, hrests, -⟩)
    · exact hrests
    · exact nomatch (rests_secure.mp hrests).2
  · intro hrests
    obtain rfl := (rests_secure.mp hrests).2
    exact .inl ⟨(), hrests, rfl⟩

theorem settles_provide {o : Object k} (hkind : Site.isAlterable k = false)
    (hbuilds : ∀ s, z.Builds s k o) :
    (provide now stage k action (ensure o.key o)).Settles z.development :=
  (Site.settles_secure hkind hbuilds).congr (fun _ ↦ on_provide ..) (fun _ ↦ rests_provide)

/-- A failing call leaves a report on the stage at most. -/
theorem surely_provide {o : Object k} (hdom : z.Leads z.base s) :
    (provide now z.stage k action (ensure o.key o)).Surely s (fun r s' ↦
      ((∃ e, r = .error e) ∧
        (s' = s ∨ ∃ status, s' = s.put { z.stage with status := some status })) ∨
      (provide now z.stage k action (ensure o.key o)).on s = (r, s')) := by
  obtain ⟨old, hstage⟩ := hdom.stage
  rw [on_provide]
  unfold provide
  rw [surely_tryCatch]
  refine (atomic_secure o s).mono fun r s' hr ↦ ?_
  rcases hr with ⟨e, rfl, rfl⟩ | hon
  · refine surely_bind.mpr ?_
    refine (surely_reportFailure hdom.sound hstage now action e).mono fun r s'' hr ↦ ?_
    obtain ⟨rfl, hleft⟩ := hr
    exact .inl ⟨⟨_, rfl⟩, hleft⟩
  · cases r with
    | ok a => exact .inr hon
    | error e =>
      rw [on_secure] at hon
      exact nomatch hon

theorem absorbs_provide {o : Object k} (hkind : Site.isAlterable k = false)
    (hbuilds : ∀ s, z.Builds s k o) {hidden : Kind → Prop} (hstage : hidden .stage)
    (hshown : ¬ hidden k) :
    (provide now z.stage k action (ensure o.key o)).Absorbs z.development hidden := by
  have hsettles : (provide now z.stage k action (ensure o.key o)).Settles z.development :=
    settles_provide hkind hbuilds
  have hoblivious {s t : Store} (hagree : Store.AgreeOff hidden s t) :
      SameOff hidden ((provide now z.stage k action (ensure o.key o)).on s)
        ((provide now z.stage k action (ensure o.key o)).on t) := by
    rw [on_provide, on_provide]
    exact (asks_secure hshown hshown).on_agreeOff hagree
  refine ⟨fun {s} hdom ↦ (surely_provide hdom).mono fun r s' hr ↦ ?_,
    fun _ _ hagree ↦ hoblivious hagree⟩
  have hsound : s.Sound := hdom.sound
  rcases hr with ⟨⟨e, rfl⟩, hleft⟩ | hon
  · rcases hleft with rfl | ⟨status, rfl⟩
    · exact ⟨.refl hsound, .refl _, nofun⟩
    · obtain ⟨old, hfound⟩ := hdom.stage
      refine ⟨Site.leads_alter hsound (o := { z.stage with status := old }) hfound
        (.inr ⟨rfl, rfl, rfl⟩), hoblivious ?_, nofun⟩
      exact Store.agreeOff_put s hstage _
  · have hleads := hsettles.develops hdom
    have hrests := hsettles.rests hdom
    rw [hon] at hleads hrests
    refine ⟨hleads, ?_, fun hok ↦ ?_⟩
    · rw [hrests.on, hon]
      exact .refl _
    · obtain rfl : r = .ok () := hok
      refine ⟨hon ▸ .refl _, fun t ht ↦ ?_⟩
      have hdom' : z.development.dom s' := z.development.stays hdom hleads
      rw [(hsettles.lasts hdom' hrests ht).on]
      exact .refl _

end Target

end PipelineOperator
