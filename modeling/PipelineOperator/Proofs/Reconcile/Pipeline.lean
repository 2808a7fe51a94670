import PipelineOperator.Proofs.Cluster.Listing
import PipelineOperator.Proofs.Object.Finalizers
import PipelineOperator.Proofs.Provision.Report
import PipelineOperator.Reconcile.Pipeline

/-!
Reconciling a pipeline a second time. Each write makes the test fail that it is made under: the
finalizers are there or gone, and the status has the generation that was worked off.
-/

set_option autoImplicit false
set_option relaxedAutoImplicit false

namespace PipelineOperator

open Operation

variable {context context' : Context} {S T : Store} {key : Key} {pipeline : Pipeline}

/-! ### The first step -/

theorem rests_reconcilePipeline_of_absent (context : Context)
    (habsent : S.find? .pipeline key = none) :
    (reconcilePipeline context key).Rests S (.ok .awaitChange) := by
  unfold reconcilePipeline
  rw [rests_get_bind, habsent]
  rfl

/-- What is done for a pipeline that was found. -/
theorem reconcilePipeline_of_found (context : Context)
    (hfound : S.find? .pipeline key = some pipeline) {op : Operation Outcome}
    (hop : op = if pipeline.isDeleting then Pipeline.release pipeline
      else Pipeline.maintain context key.ns pipeline) :
    (reconcilePipeline context key).on S = op.on S ∧
      ∀ result, (reconcilePipeline context key).Rests S result ↔ op.Rests S result := by
  subst hop
  unfold reconcilePipeline
  constructor
  · rw [on_bind_of_ok (on_get ..), hfound]
  · intro result
    rw [rests_get_bind, hfound]

namespace Pipeline

/-! ### A deleting pipeline -/

theorem atomic_release (pipeline : Pipeline) : (release pipeline).Atomic := by
  refine (atomic_ask _).bind (asks_ask rfl) fun stages ↦ ?_
  cases stages with
  | cons first rest => exact fun S ↦ .inr rfl
  | nil =>
    cases hheld : pipeline.metadata.hasFinalizer Naming.ownedStages with
    | false =>
      rw [Object.removeFinalizer_of_lacks hheld]
      exact atomic_pure _
    | true =>
      rw [Object.removeFinalizer_of_has hheld]
      exact (atomic_ask _).map _

/-- A pipeline whose stages are gone, and that was let go before. -/
theorem rests_release_of_free (hstages : S.listed pipeline.metadata.namespaceOrEmpty
      (some pipeline.metadata.anyName) = [])
    (hfree : pipeline.metadata.hasFinalizer Naming.ownedStages = false) :
    (release pipeline).Rests S (.ok .awaitChange) := by
  unfold release
  rw [Object.removeFinalizer_of_lacks hfree]
  exact rests_bind.mpr (.inl ⟨_, rests_listStages.mpr rfl, hstages ▸ rfl⟩)

/-- A pipeline whose stages are gone, and that is still held. -/
theorem on_release_of_held (hfound : S.find? .pipeline pipeline.key = some pipeline)
    (hstages : S.listed pipeline.metadata.namespaceOrEmpty
      (some pipeline.metadata.anyName) = [])
    (hheld : pipeline.metadata.hasFinalizer Naming.ownedStages = true) :
    (release pipeline).on S = (.ok .awaitChange,
      S.letGo (pipeline.removeFinalizer Naming.ownedStages).2) := by
  have hkey : (pipeline.removeFinalizer Naming.ownedStages).2.key = pipeline.key :=
    Object.key_removeFinalizer
  have hreplaced : (replace (pipeline.removeFinalizer Naming.ownedStages).2).on S = _ :=
    Store.replace_eq_letGo (hkey ▸ hfound)
  unfold release
  rw [on_bind_of_ok (on_listStages ..), hstages]
  rw [Object.removeFinalizer_of_has hheld] at hreplaced ⊢
  exact on_bind_of_ok hreplaced _

/-- A deleting pipeline is waited for, or let go. -/
theorem rests_release_or_letGo (hfound : S.find? .pipeline pipeline.key = some pipeline) :
    (∃ result, (release pipeline).Rests S result) ∨
      S.listed pipeline.metadata.namespaceOrEmpty (some pipeline.metadata.anyName) = [] ∧
        (release pipeline).on S = (.ok .awaitChange,
          S.letGo (pipeline.removeFinalizer Naming.ownedStages).2) := by
  cases hstages : S.listed pipeline.metadata.namespaceOrEmpty
      (some pipeline.metadata.anyName) with
  | cons first rest =>
    refine .inl ⟨.ok (.requeue ownedStagesDelay), ?_⟩
    unfold release
    exact rests_bind.mpr (.inl ⟨_, rests_listStages.mpr rfl, hstages ▸ rfl⟩)
  | nil =>
    cases hheld : pipeline.metadata.hasFinalizer Naming.ownedStages with
    | false => exact .inl ⟨_, rests_release_of_free hstages hheld⟩
    | true => exact .inr ⟨rfl, on_release_of_held hfound hstages hheld⟩

theorem rests_reconcilePipeline_of_release
    (hfound : S.find? .pipeline pipeline.key = some pipeline)
    (hdeleting : pipeline.isDeleting = true) :
    (reconcilePipeline context' pipeline.key).Rests ((release pipeline).on S).2
      ((release pipeline).on S).1 := by
  rcases rests_release_or_letGo hfound with ⟨result, hrests⟩ | ⟨hstages, hon⟩
  · rw [hrests.on]
    exact ((reconcilePipeline_of_found context' hfound (if_pos hdeleting).symm).2 _).mpr hrests
  · rw [hon]
    have hkey : (pipeline.removeFinalizer Naming.ownedStages).2.key = pipeline.key :=
      Object.key_removeFinalizer
    rcases Store.find?_letGo S (pipeline.removeFinalizer Naming.ownedStages).2 with hgone | hleft
    · exact rests_reconcilePipeline_of_absent context' (hkey ▸ hgone)
    · have hdeleting' : (pipeline.removeFinalizer Naming.ownedStages).2.isDeleting = true :=
        Object.isDeleting_removeFinalizer.trans hdeleting
      refine ((reconcilePipeline_of_found context' (hkey ▸ hleft)
        (if_pos hdeleting').symm).2 _).mpr (rests_release_of_free ?_
          Object.hasFinalizer_removeFinalizer)
      have hsame : (S.letGo (pipeline.removeFinalizer Naming.ownedStages).2).stages = S.stages :=
        Store.table_letGo_of_ne S _ (show Kind.stage ≠ Kind.pipeline by decide)
      obtain ⟨kept, hkept⟩ := Object.removeFinalizer_eq pipeline Naming.ownedStages
      rw [Store.listed_of_stages hsame, hkept]
      exact hstages

/-! ### A live pipeline -/

/-- A pipeline under its finalizers whose generation is worked off. -/
theorem rests_maintain_of_done (context : Context) (ns : String)
    (hheld : ∀ finalizer ∈ finalizers, pipeline.metadata.hasFinalizer finalizer = true)
    (hdone : pipeline.isAhead = false) :
    (maintain context ns pipeline).Rests S (.ok .awaitChange) := by
  unfold maintain
  rw [Object.ensureFinalizers_of_has hheld]
  simp only [Bool.false_eq_true, if_false, pure_bind, hdone]
  rfl

/-- The pipeline with its generation recorded as worked off. -/
def ready (pipeline : Pipeline) (now : Instant) : Pipeline :=
  { pipeline with status := some (PipelineStatus.ready pipeline.metadata.generation now) }

theorem isAhead_ready (pipeline : Pipeline) (now : Instant) :
    (pipeline.ready now).isAhead = false := by
  show PipelineOperator.isAhead pipeline.metadata.generation pipeline.metadata.generation = false
  cases pipeline.metadata.generation with
  | none => rfl
  | some generation => simp [PipelineOperator.isAhead]

/-- A store with the folder of the pipeline's jobs, where there is a Jenkins instance. -/
def withFolder (pipeline : Pipeline) (ns : String) (s : Store) : Store :=
  if s.hasJenkins ns then (s.create pipeline.jobFolder).2 else s

theorem find?_withFolder_of_ne {k : Kind} (hkind : k ≠ .jenkinsFolder) (pipeline : Pipeline)
    (ns : String) (s : Store) (key : Key) :
    (pipeline.withFolder ns s).find? k key = s.find? k key := by
  unfold withFolder
  split
  · exact Store.find?_create_of_ne s pipeline.jobFolder fun h ↦ hkind h.1
  · rfl

/-- Working off a generation records it. -/
theorem on_setUp (context : Context) (ns : String)
    (hfound : S.find? .pipeline pipeline.key = some pipeline) :
    (setUp context ns pipeline).on S =
      (.ok (), (pipeline.withFolder ns S).put (pipeline.ready context.now)) := by
  have hreport {T : Store} (hfound : T.find? .pipeline pipeline.key = some pipeline) :
      (report pipeline (PipelineStatus.ready pipeline.metadata.generation context.now)).on T =
        (.ok (pipeline.ready context.now), T.put (pipeline.ready context.now)) := by
    have hown : T.find? .pipeline pipeline.key =
        some { pipeline with status := pipeline.status } := hfound
    exact on_report_of_own hown _
  unfold setUp withFolder
  rw [on_bind_of_ok (on_jenkinsEnabled ..)]
  cases S.hasJenkins ns with
  | true =>
    have hcreated : (create pipeline.jobFolder).on S = (.ok (S.create pipeline.jobFolder).1,
        (S.create pipeline.jobFolder).2) := rfl
    simp only [if_true]
    rw [on_bind_of_ok hcreated,
      on_bind_of_ok (hreport (Store.find?_create_of_found S pipeline.jobFolder hfound))]
    rfl
  | false =>
    simp only [Bool.false_eq_true, if_false]
    rw [on_bind_of_ok (hreport hfound)]
    rfl

theorem rests_reconcilePipeline_of_held
    (hfound : S.find? .pipeline key = some pipeline) (hlive : pipeline.isDeleting = false)
    (hheld : ∀ finalizer ∈ finalizers, pipeline.metadata.hasFinalizer finalizer = true)
    (hdone : pipeline.isAhead = false) :
    (reconcilePipeline context key).Rests S (.ok .awaitChange) := by
  refine ((reconcilePipeline_of_found context hfound ?_).2 _).mpr
    (rests_maintain_of_done context key.ns hheld hdone)
  rw [hlive]
  rfl

/-- A live pipeline is left under its finalizers and with its generation worked off. -/
theorem on_maintain (context : Context) (ns : String)
    (hfound : S.find? .pipeline pipeline.key = some pipeline)
    (hlive : pipeline.isDeleting = false) :
    ∃ T kept, ∃ left : Pipeline, (maintain context ns pipeline).on S = (.ok .awaitChange, T) ∧
      T.find? .pipeline pipeline.key = some left ∧
      (left = pipeline.withFinalizers kept ∨
        left = ready (pipeline.withFinalizers kept) context.now) ∧
      (∀ finalizer ∈ finalizers, left.metadata.hasFinalizer finalizer = true) ∧
      left.isAhead = false := by
  obtain ⟨changed, hensure, hheld, hsame⟩ := Object.ensureFinalizers_eq pipeline finalizers
  generalize pipeline.finalizersWith finalizers = kept at hensure hheld hsame
  have hreleased : (pipeline.withFinalizers kept).metadata.isReleased = false :=
    Object.isReleased_of_live (o := pipeline.withFinalizers kept) hlive
  have hstored := Store.find?_put_self S (pipeline.withFinalizers kept)
  have hon : (maintain context ns pipeline).on S = Operation.on (do
      if isAhead (pipeline.withFinalizers kept) then
        setUp context ns (pipeline.withFinalizers kept)
      return .awaitChange) (S.put (pipeline.withFinalizers kept)) := by
    unfold maintain
    simp only [hensure]
    cases changed with
    | true =>
      have hreplaced : (replace (pipeline.withFinalizers kept)).on S =
          (.ok (pipeline.withFinalizers kept), S.put (pipeline.withFinalizers kept)) :=
        Store.replace_of_found hfound hreleased
      exact on_bind_of_ok hreplaced _
    | false =>
      obtain rfl := hsame rfl
      rw [Object.withFinalizers_self, Store.put_of_find? hfound]
      simp only [Bool.false_eq_true, if_false, pure_bind]
  rw [hon]
  cases hahead : isAhead (pipeline.withFinalizers kept) with
  | false => exact ⟨_, kept, _, rfl, hstored, .inl rfl, hheld, hahead⟩
  | true =>
    simp only [if_true]
    rw [on_bind_of_ok (on_setUp context ns hstored)]
    exact ⟨_, kept, _, rfl,
      Store.find?_put_self _ (ready (pipeline.withFinalizers kept) context.now),
      .inr rfl, hheld, isAhead_ready _ _⟩

theorem rests_reconcilePipeline_of_maintain
    (hfound : S.find? .pipeline pipeline.key = some pipeline)
    (hlive : pipeline.isDeleting = false) (ns : String) :
    (reconcilePipeline context' pipeline.key).Rests ((maintain context ns pipeline).on S).2
      ((maintain context ns pipeline).on S).1 := by
  obtain ⟨T, kept, left, hon, hleft, hwhich, hheld, hdone⟩ :=
    on_maintain context ns hfound hlive
  have hlive' : left.isDeleting = false := by
    rcases hwhich with rfl | rfl
    · exact hlive
    · exact hlive
  rw [hon]
  exact rests_reconcilePipeline_of_held hleft hlive' hheld hdone

/-- What a reconciliation leaves of a pipeline. The generation of a live one is worked off, and that
of a deleting one is left as it was. -/
theorem find?_reconcilePipeline (context : Context) (hkeyed : S.KeyedAt .pipeline)
    (hfound : S.find? .pipeline key = some pipeline) {left : Pipeline}
    (hleft : ((reconcilePipeline context key).on S).2.find? .pipeline key = some left) :
    left.isDeleting = pipeline.isDeleting ∧
      left.metadata.generation = pipeline.metadata.generation ∧
      (left.observedGeneration = pipeline.observedGeneration ∨
        left.observedGeneration = pipeline.metadata.generation) ∧
      left.isAhead = (pipeline.isAhead && pipeline.isDeleting) := by
  obtain rfl : pipeline.key = key := hkeyed hfound
  rw [(reconcilePipeline_of_found context hfound rfl).1] at hleft
  cases hdeleting : pipeline.isDeleting with
  | true =>
    rw [hdeleting, if_pos rfl] at hleft
    have hleft' : left = pipeline ∨
        left = (pipeline.removeFinalizer Naming.ownedStages).2 := by
      rcases rests_release_or_letGo hfound with ⟨result, hrests⟩ | ⟨-, hon⟩
      · rw [hrests.on, hfound, Option.some.injEq] at hleft
        exact .inl hleft.symm
      · have hkey : (pipeline.removeFinalizer Naming.ownedStages).2.key = pipeline.key :=
          Object.key_removeFinalizer
        rw [hon, ← hkey] at hleft
        rcases Store.find?_letGo S (pipeline.removeFinalizer Naming.ownedStages).2 with
          hgone | hthere
        · exact nomatch hgone.symm.trans hleft
        · exact .inr (Option.some.inj (hleft.symm.trans hthere))
    obtain ⟨kept, hkept⟩ := Object.removeFinalizer_eq pipeline Naming.ownedStages
    rw [hkept] at hleft'
    rcases hleft' with rfl | rfl
    · exact ⟨hdeleting, rfl, .inl rfl, (Bool.and_true _).symm⟩
    · exact ⟨hdeleting, rfl, .inl rfl, (Bool.and_true _).symm⟩
  | false =>
    obtain ⟨T, kept, left', hon, hleft', hwhich, -, hdone⟩ :=
      on_maintain context pipeline.key.ns hfound hdeleting
    rw [hdeleting, if_neg Bool.false_ne_true, hon, hleft', Option.some.injEq] at hleft
    subst hleft
    rw [Bool.and_false]
    rcases hwhich with rfl | rfl
    · exact ⟨hdeleting, rfl, .inl rfl, hdone⟩
    · exact ⟨hdeleting, rfl, .inr rfl, hdone⟩

end Pipeline

/-- After a reconciliation of a pipeline another one only reads, and comes to the same. -/
theorem rests_reconcilePipeline_again (hsound : S.Sound) (key : Key) :
    (reconcilePipeline context' key).Rests ((reconcilePipeline context key).on S).2
      ((reconcilePipeline context key).on S).1 := by
  cases hfound : S.find? .pipeline key with
  | none =>
    rw [(rests_reconcilePipeline_of_absent context hfound).on]
    exact rests_reconcilePipeline_of_absent context' hfound
  | some pipeline =>
    obtain rfl : pipeline.key = key := hsound.keyed hfound
    rw [(reconcilePipeline_of_found context hfound rfl).1]
    cases hdeleting : pipeline.isDeleting with
    | true => exact Pipeline.rests_reconcilePipeline_of_release hfound hdeleting
    | false => exact Pipeline.rests_reconcilePipeline_of_maintain hfound hdeleting _

end PipelineOperator
