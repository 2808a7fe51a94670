import PipelineOperator.Proofs.Operation.OnBench
import PipelineOperator.Proofs.Reconcile.Furnishing
import PipelineOperator.Proofs.Reconcile.Pipeline
import PipelineOperator.Proofs.Reconcile.Release

/-!
Reconciling twice in a row is reconciling once (`reconcile_idempotent`). For a stage this comes
down to the settling of its handlers, and for a deleting one to the withdrawal of its labels.
-/

set_option autoImplicit false
set_option relaxedAutoImplicit false

namespace PipelineOperator

open Operation

variable {context context' : Context} {S T : Store} {key : Key}

/-! ### A live stage -/

/-- A stage that was adopted, furnished as far as that goes, and reported if that succeeded. -/
theorem rests_reconcileStage_of_furnished {z : Site} (hcontext : z.context.Matches context')
    (hlive : z.stage.isDeleting = false) (hwired : z.stage.IsWired z.base)
    (hnamed : ∀ key stage, z.base.find? .stage key = some stage → stage.spec.name ≠ "")
    (hdom : z.Leads z.base T) {status : Option StageStatus}
    (hfound : T.find? .stage z.stage.key = some { z.stage with status := status })
    {result : Except Fault Unit} (hfurnished : (Stage.furnish z.context z.stage).Rests T result)
    (hregistered : result = .ok () → status.any StageStatus.isRegistered = true) :
    (reconcileStage context' z.stage.key).Rests T (result.map fun _ ↦ .awaitChange) := by
  have hadopt : (Stage.adopt { z.stage with status := status }).Rests T
      (.ok { z.stage with status := status }) := by
    refine Stage.rests_adopt_of_wired (hdom.isWired hwired status) fun previous hprevious ↦ ?_
    obtain ⟨key, hkey⟩ := Store.find?_of_mem_listed (List.mem_of_find?_eq_some hprevious)
    have houtline := hdom.sameOutlines key
    rw [hkey] at houtline
    obtain ⟨stage, hstage, hsame⟩ := Option.map_eq_some_iff.mp houtline
    have hspec : stage.spec = previous.spec := congrArg Prod.snd hsame
    rw [← hspec]
    exact hnamed key stage hstage
  refine (rests_reconcileStage_of_live context' hfound hlive).mpr
    (Stage.rests_provision_of_ok hadopt ?_)
  rw [Stage.furnish_withStatus]
  have hrests := ((Stage.alike_furnish hcontext z.stage).rests T result).mp hfurnished
  cases result with
  | error e => exact rests_bind.mpr (.inr ⟨e, hrests, rfl⟩)
  | ok done =>
    refine rests_bind.mpr (.inl ⟨(), hrests, ?_⟩)
    have hstatus : Stage.isRegistered { z.stage with status := status } = true := hregistered rfl
    unfold Stage.confirm
    rw [hstatus]
    rfl

theorem rests_reconcileStage_of_provision (hcontext : context.Matches context')
    (hsound : S.Sound)
    (hnamed : ∀ key stage, S.find? .stage key = some stage → stage.spec.name ≠ "")
    {stage : Stage} (hfound : S.find? .stage stage.key = some stage)
    (hlive : stage.isDeleting = false) :
    (reconcileStage context' stage.key).Rests ((Stage.provision context stage).on S).2
      ((Stage.provision context stage).on S).1 := by
  rcases Stage.on_adopt hfound hlive with ⟨e, hadopt⟩ | ⟨hadopt, hwired⟩
  · rw [(Stage.rests_provision_of_error hadopt).on]
    exact (rests_reconcileStage_of_live context' hfound hlive).mpr
      (Stage.rests_provision_of_error hadopt)
  rw [Stage.on_provision_of_ok hadopt]
  generalize hadopted : stage.withWiring (stage.wiringIn S) = adopted at hadopt hwired ⊢
  have hkey : adopted.key = stage.key := hadopted ▸ rfl
  have hlive' : adopted.isDeleting = false := hadopted ▸ hlive
  have houtline : Store.outline adopted = Store.outline stage := hadopted ▸ rfl
  have houtlines : S.SameOutlines (S.put adopted) :=
    Store.sameOutlines_put (hkey ▸ hfound) houtline
  let z : Site := Site.exact context adopted S hsound hlive'
  have hwired' : z.stage.IsWired z.base := hwired.put (hkey ▸ hfound) houtline
  have hnamed' (key : Key) (other : Stage) (hother : z.base.find? .stage key = some other) :
      other.spec.name ≠ "" := by
    have hsame := houtlines key
    rw [show (S.put adopted).find? .stage key = some other from hother] at hsame
    obtain ⟨before, hbefore, hspec⟩ := Option.map_eq_some_iff.mp hsame
    rw [← show before.spec = other.spec from congrArg Prod.snd hspec]
    exact hnamed key before hbefore
  have hsettles : (Stage.furnish context adopted).Settles z.development :=
    Site.settles_exact ⟨rfl, rfl⟩ hsound hlive'
  have hdom : z.Leads z.base (S.put adopted) := .refl z.sound
  have hleads : z.Leads z.base ((Stage.furnish context adopted).on (S.put adopted)).2 :=
    hsettles.develops hdom
  have hrests := hsettles.rests hdom
  have hstored : ((Stage.furnish context adopted).on (S.put adopted)).2.find? .stage adopted.key =
      some adopted := by
    rw [(Stage.spares_furnish context adopted).find?, Store.find?_put_self]
  rw [on_bind, ← hkey]
  generalize (Stage.furnish context adopted).on (S.put adopted) = furnished at hleads hrests hstored
  obtain ⟨result, T⟩ := furnished
  have hrepeat (status : Option StageStatus) {T' : Store} (hdom' : z.Leads z.base T')
      (hfound' : T'.find? .stage adopted.key = some { adopted with status := status })
      (hrests' : (Stage.furnish context adopted).Rests T' result)
      (hregistered : result = .ok () → status.any StageStatus.isRegistered = true) :=
    rests_reconcileStage_of_furnished (z := z) hcontext hlive' hwired' hnamed' hdom' hfound'
      hrests' hregistered
  cases result with
  | error e => exact hrepeat adopted.status hleads hstored hrests nofun
  | ok done =>
    show (reconcileStage context' adopted.key).Rests
      ((Stage.confirm context adopted).on T).2 ((Stage.confirm context adopted).on T).1
    rw [Stage.on_confirm context (hleads.sound.toKeyed _) hstored]
    have hreport : z.Leads T (T.put
        { adopted with status := adopted.confirmedStatus context }) :=
      Site.leads_alter hleads.sound hstored (.inr ⟨rfl, rfl, rfl⟩)
    exact hrepeat (adopted.confirmedStatus context) (hleads.trans hreport)
      (Store.find?_put_self T _) (hsettles.lasts hleads hrests hreport)
      fun _ ↦ Stage.isRegistered_confirmedStatus context adopted

/-! ### A deleting stage -/

theorem rests_release_of_free {stage : Stage}
    (hfree : stage.metadata.hasFinalizer Naming.labelCleanup = false) (context : Context)
    (S : Store) : (Stage.release context stage).Rests S (.ok .awaitChange) := by
  rw [Stage.release_of_free hfree]
  rfl

theorem rests_reconcileStage_of_release (hsound : S.Sound) {stage : Stage}
    (hfound : S.find? .stage stage.key = some stage) (hdeleting : stage.isDeleting = true) :
    (reconcileStage context' stage.key).Rests ((Stage.release context stage).on S).2
      ((Stage.release context stage).on S).1 := by
  cases hheld : stage.metadata.hasFinalizer Naming.labelCleanup with
  | false =>
    rw [(rests_release_of_free hheld context S).on]
    exact (rests_reconcileStage_of_deleting context' hfound hdeleting).mpr
      (rests_release_of_free hheld context' S)
  | true =>
    let z : Takedown := ⟨stage, S, hsound⟩
    have hsettles : (EnvironmentLabel.withdraw stage).Settles z.development :=
      EnvironmentLabel.settles_withdraw (z := z)
    have hleads := hsettles.develops (Takedown.Leads.refl hsound)
    have hrests := hsettles.rests (Takedown.Leads.refl hsound)
    have hstored := hleads.given (k := .stage) rfl stage.key
    rw [hfound] at hstored
    cases hwithdrawn : (EnvironmentLabel.withdraw stage).on S with
    | mk result T =>
      rw [hwithdrawn] at hleads hrests hstored
      cases result with
      | error e =>
        rw [Stage.on_release_of_error hheld (Stage.on_teardown_of_error context hwithdrawn)]
        exact (rests_reconcileStage_of_deleting context' hstored hdeleting).mpr
          (Stage.rests_release_of_error hheld (Stage.rests_teardown_of_error context' hrests))
      | ok done =>
        have hdown := Stage.on_teardown_of_ok context hwithdrawn
        have hkept : (T.remove context.targetKind ⟨"", stage.target⟩).find? .stage stage.key =
            some stage := by
          have hkind : Kind.stage ≠ context.targetKind :=
            context.targetKind_ne (by decide) (by decide)
          rw [Store.find?_remove_of_kind_ne T hkind, hstored]
        rw [Stage.on_release_of_ok hheld hkept hdown]
        have hkey : stage.released.key = stage.key := Object.key_removeFinalizer
        rcases Store.find?_letGo (T.remove context.targetKind ⟨"", stage.target⟩)
            stage.released with hgone | hreleased
        · exact rests_reconcileStage_of_absent context' (hkey ▸ hgone)
        · refine (rests_reconcileStage_of_deleting context' (hkey ▸ hreleased) ?_).mpr
            (rests_release_of_free stage.released_free context' _)
          exact Object.isDeleting_removeFinalizer.trans hdeleting

/-- After a reconciliation of a stage another one only reads, and comes to the same. -/
theorem rests_reconcileStage_again (hcontext : context.Matches context') (hsound : S.Sound)
    (hnamed : ∀ key stage, S.find? .stage key = some stage → stage.spec.name ≠ "") (key : Key) :
    (reconcileStage context' key).Rests ((reconcileStage context key).on S).2
      ((reconcileStage context key).on S).1 := by
  rcases on_reconcileStage_cases context key (hsound.toKeyed _) with
    ⟨habsent, hon⟩ | ⟨stage, rfl, hfound, ⟨hlive, hon⟩ | ⟨hdeleting, hon⟩⟩
  · rw [hon]
    exact rests_reconcileStage_of_absent context' habsent
  · rw [hon]
    exact rests_reconcileStage_of_provision hcontext hsound hnamed hfound hlive
  · rw [hon]
    exact rests_reconcileStage_of_release hsound hfound hdeleting

/-! ### On a bench -/

/-- Reconciling is idempotent. Be the stage or the pipeline there, being deleted or gone, and
whether the first reconciliation succeeds or not: the one right after it does no write, leaves the
bench as it found it, and comes to the same outcome or to the same failure. -/
theorem reconcile_idempotent {b : Bench} (hserving : b.IsServing) (hsound : b.store.Sound)
    (hnamed : ∀ key stage, b.store.find? .stage key = some stage → stage.spec.name ≠ "")
    (hcontext : context.Matches context') (key : Key) :
    (reconcileStage context key).IsRepeatedBy (reconcileStage context' key) b ∧
      (reconcilePipeline context key).IsRepeatedBy (reconcilePipeline context' key) b :=
  ⟨isRepeatedBy_of_rests hserving (rests_reconcileStage_again hcontext hsound hnamed key),
    isRepeatedBy_of_rests hserving (rests_reconcilePipeline_again hsound key)⟩

theorem reconcile_idempotent_withStage :
    (reconcileStage { now := ⟨0, 0⟩ } ⟨"ci", "dev"⟩).IsRepeatedBy
        (reconcileStage { now := ⟨1, 0⟩ } ⟨"ci", "dev"⟩) Bench.withStage ∧
      (reconcilePipeline { now := ⟨0, 0⟩ } ⟨"ci", "p"⟩).IsRepeatedBy
        (reconcilePipeline { now := ⟨1, 0⟩ } ⟨"ci", "p"⟩) Bench.withStage := by
  have hnamed (key : Key) (stage : Stage)
      (hfound : Bench.withStage.store.find? .stage key = some stage) : stage.spec.name ≠ "" := by
    rw [Bench.find?_withStage hfound]
    decide
  have hmatches : Context.Matches { now := ⟨0, 0⟩ } { now := ⟨1, 0⟩ } := ⟨rfl, rfl⟩
  have hrepeated (key : Key) := reconcile_idempotent Bench.isServing_withStage
    Bench.sound_withStage hnamed hmatches key
  exact ⟨(hrepeated ⟨"ci", "dev"⟩).1, (hrepeated ⟨"ci", "p"⟩).2⟩

end PipelineOperator
