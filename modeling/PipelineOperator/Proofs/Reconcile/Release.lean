import PipelineOperator.Proofs.Object.Finalizers
import PipelineOperator.Proofs.Provision.Chain
import PipelineOperator.Reconcile.Stage

/-!
Releasing a stage that is being deleted: its chain, and then the stage is stored without the
finalizer of the operator, or is gone if that was the last one (`Store.letGo`). Whether a stage is
released at all is settled by the first read of its reconciliation.
-/

set_option autoImplicit false
set_option relaxedAutoImplicit false

namespace PipelineOperator

open Operation

variable {S s t : Store} {key : Key} {context : Context} {stage : Stage}

namespace Stage

/-- The stage without the finalizer of the operator. -/
def released (stage : Stage) : Stage := (Object.removeFinalizer stage Naming.labelCleanup).2

theorem release_of_held (hheld : stage.metadata.hasFinalizer Naming.labelCleanup = true) :
    release context stage = (Chain.teardown context).serve stage >>= fun _ ↦
      replace stage.released >>= fun _ ↦ pure .awaitChange := by
  unfold release
  rw [if_pos hheld]
  rfl

theorem release_of_free (hfree : stage.metadata.hasFinalizer Naming.labelCleanup = false) :
    release context stage = pure .awaitChange := by
  unfold release
  rw [hfree]
  rfl

/-- Without failing calls a stage is taken down if the labels can be withdrawn. -/
theorem on_teardown_of_ok (context : Context) {s' : Store}
    (hwithdrawn : (EnvironmentLabel.withdraw stage).on s = (.ok (), s')) :
    ((Chain.teardown context).serve stage).on s =
      (.ok (), s'.remove context.targetKind ⟨"", stage.target⟩) := by
  have hfirst : (counted Handler.withdrawLabel.name
      (EnvironmentLabel.withdraw stage)).on s = (.ok (), s') := by
    rw [on_counted, hwithdrawn]
  have hlast : (counted (Handler.removeTarget context).name
      ((Handler.removeTarget context).serve stage)).on s' =
        (.ok (), s'.remove context.targetKind ⟨"", stage.target⟩) := by
    rw [on_counted, Handler.serve_removeTarget, on_delete]
  exact (on_bind_of_ok hfirst _).trans hlast

theorem on_teardown_of_error (context : Context) {e : Fault} {s' : Store}
    (hwithdrawn : (EnvironmentLabel.withdraw stage).on s = (.error e, s')) :
    ((Chain.teardown context).serve stage).on s = (.error e, s') :=
  on_bind_of_error ((on_counted ..).trans hwithdrawn) _

theorem rests_teardown_of_error (context : Context) {e : Fault}
    (hrests : (EnvironmentLabel.withdraw stage).Rests s (.error e)) :
    ((Chain.teardown context).serve stage).Rests s (.error e) :=
  rests_bind.mpr (.inr ⟨e, rests_counted.mpr hrests, rfl⟩)

/-- Without failing calls a stage that can be taken down is let go. -/
theorem on_release_of_ok (hheld : stage.metadata.hasFinalizer Naming.labelCleanup = true)
    (hfound : t.find? .stage stage.key = some stage)
    (hdown : ((Chain.teardown context).serve stage).on s = (.ok (), t)) :
    (release context stage).on s = (.ok .awaitChange, t.letGo stage.released) := by
  have hkey : stage.released.key = stage.key := Object.key_removeFinalizer
  have hreplaced : (replace stage.released).on t = (.ok stage.released, t.letGo stage.released) :=
    Store.replace_eq_letGo (hkey ▸ hfound)
  rw [release_of_held hheld, on_bind_of_ok hdown]
  exact on_bind_of_ok hreplaced _

theorem on_release_of_error (hheld : stage.metadata.hasFinalizer Naming.labelCleanup = true)
    {e : Fault} (hdown : ((Chain.teardown context).serve stage).on s = (.error e, t)) :
    (release context stage).on s = (.error e, t) := by
  rw [release_of_held hheld, on_bind_of_error hdown]

theorem rests_release_of_error (hheld : stage.metadata.hasFinalizer Naming.labelCleanup = true)
    {e : Fault} (hrests : ((Chain.teardown context).serve stage).Rests s (.error e)) :
    (release context stage).Rests s (.error e) := by
  rw [release_of_held hheld]
  exact rests_bind.mpr (.inr ⟨e, hrests, rfl⟩)

theorem released_free (stage : Stage) :
    stage.released.metadata.hasFinalizer Naming.labelCleanup = false :=
  Object.hasFinalizer_removeFinalizer

end Stage

/-! ### The first step of a reconciliation -/

theorem rests_reconcileStage_of_absent (context : Context)
    (habsent : S.find? .stage key = none) :
    (reconcileStage context key).Rests S (.ok .awaitChange) := by
  unfold reconcileStage
  rw [rests_get_bind, habsent]
  rfl

theorem on_reconcileStage_of_live (context : Context) {stage : Stage}
    (hfound : S.find? .stage key = some stage) (hlive : stage.isDeleting = false) :
    (reconcileStage context key).on S = (Stage.provision context stage).on S := by
  unfold reconcileStage
  rw [on_bind_of_ok (on_get ..), hfound]
  simp only [hlive]
  rfl

theorem rests_reconcileStage_of_live (context : Context) {stage : Stage}
    (hfound : S.find? .stage key = some stage) (hlive : stage.isDeleting = false)
    {result : Except Fault Outcome} :
    (reconcileStage context key).Rests S result ↔
      (Stage.provision context stage).Rests S result := by
  unfold reconcileStage
  rw [rests_get_bind, hfound]
  simp only [hlive]
  exact Iff.rfl

theorem on_reconcileStage_of_deleting (context : Context) {stage : Stage}
    (hfound : S.find? .stage key = some stage) (hdeleting : stage.isDeleting = true) :
    (reconcileStage context key).on S = (Stage.release context stage).on S := by
  unfold reconcileStage
  rw [on_bind_of_ok (on_get ..), hfound]
  simp only [hdeleting]
  rfl

/-- A reconciliation finds nothing, provisions a live stage, or releases a deleting one. -/
theorem on_reconcileStage_cases (context : Context) (key : Key) (hkeyed : S.KeyedAt .stage) :
    (S.find? .stage key = none ∧ (reconcileStage context key).on S = (.ok .awaitChange, S)) ∨
    ∃ stage : Stage, stage.key = key ∧ S.find? .stage stage.key = some stage ∧
      (stage.isDeleting = false ∧
          (reconcileStage context key).on S = (Stage.provision context stage).on S ∨
        stage.isDeleting = true ∧
          (reconcileStage context key).on S = (Stage.release context stage).on S) := by
  cases hfound : S.find? .stage key with
  | none => exact .inl ⟨rfl, (rests_reconcileStage_of_absent context hfound).on⟩
  | some stage =>
    obtain rfl : stage.key = key := hkeyed hfound
    refine .inr ⟨stage, rfl, hfound, ?_⟩
    cases hmarked : stage.isDeleting with
    | false => exact .inl ⟨rfl, on_reconcileStage_of_live context hfound hmarked⟩
    | true => exact .inr ⟨rfl, on_reconcileStage_of_deleting context hfound hmarked⟩

theorem rests_reconcileStage_of_deleting (context : Context) {stage : Stage}
    (hfound : S.find? .stage key = some stage) (hdeleting : stage.isDeleting = true)
    {result : Except Fault Outcome} :
    (reconcileStage context key).Rests S result ↔
      (Stage.release context stage).Rests S result := by
  unfold reconcileStage
  rw [rests_get_bind, hfound]
  simp only [hdeleting]
  exact Iff.rfl

section Surely

variable {Q : Except Fault Outcome → Store → Prop}

theorem surely_reconcileStage_of_absent (context : Context)
    (habsent : S.find? .stage key = none) (hfailed : ∀ fault, Q (.error fault) S)
    (hidle : Q (.ok .awaitChange) S) : (reconcileStage context key).Surely S Q := by
  unfold reconcileStage
  rw [surely_bind, surely_get, habsent]
  exact ⟨hfailed, hidle⟩

theorem surely_reconcileStage_of_live (hfound : S.find? .stage key = some stage)
    (hlive : stage.isDeleting = false) (hfailed : ∀ fault, Q (.error fault) S)
    (hprovision : (Stage.provision context stage).Surely S Q) :
    (reconcileStage context key).Surely S Q := by
  unfold reconcileStage
  rw [surely_bind, surely_get, hfound]
  simp only [hlive]
  exact ⟨hfailed, hprovision⟩

theorem surely_reconcileStage_of_deleting (hfound : S.find? .stage key = some stage)
    (hdeleting : stage.isDeleting = true) (hfailed : ∀ fault, Q (.error fault) S)
    (hrelease : (Stage.release context stage).Surely S Q) :
    (reconcileStage context key).Surely S Q := by
  unfold reconcileStage
  rw [surely_bind, surely_get, hfound]
  simp only [hdeleting]
  exact ⟨hfailed, hrelease⟩

end Surely

end PipelineOperator
