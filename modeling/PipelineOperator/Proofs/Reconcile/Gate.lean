import PipelineOperator.Proofs.Reconcile.Requests
import PipelineOperator.Proofs.Reconcile.Retry

/-!
The finalizer by which a pipeline waits for its stages. While a stage is there that is labelled with
the pipeline, no reconciliation of any stage or pipeline takes that finalizer away, whichever calls
fail (`Store.Gates.serve`, `surely_reconcileStage_gates`, `surely_reconcilePipeline_gates`). The
label is what adoption leaves on a stage. Once no stage carries it, the pipeline is let go.
-/

set_option autoImplicit false
set_option relaxedAutoImplicit false

namespace PipelineOperator

open Operation

variable {context : Context} {S T : Store} {key : Key} {name : String}

/-- A pipeline of this name waits for the stage. -/
structure Stage.IsAwaited (name : String) (stage : Stage) : Prop where
  stated : stage.metadata.ns.isSome = true
  pipeline : stage.spec.pipeline = name
  labelled : stage.metadata.label? Naming.pipelineLabel = some name

/-- The pipeline under the key is there, and has the finalizer by which it waits for stages. -/
def Store.Awaits (key : Key) (s : Store) : Prop :=
  ∃ pipeline, s.find? .pipeline key = some pipeline ∧
    pipeline.metadata.hasFinalizer Naming.ownedStages = true

/-- If the stage under the key is there, the pipeline of this name in its namespace waits for it. -/
def Store.Gates (key : Key) (name : String) (s : Store) : Prop :=
  ∀ stage : Stage, s.find? .stage key = some stage →
    stage.IsAwaited name ∧ s.Awaits ⟨key.ns, name⟩

/-- The request leaves the stage under the key waited for, and its pipeline waiting. -/
inductive Request.Honours (key : Key) (name : String) : Request → Prop where
  | other {request : Request} (hstage : request.kind ≠ .stage)
      (hpipeline : request.kind ≠ .pipeline) : Honours key name request
  | read {request : Request} (hread : request.isRead = true) : Honours key name request
  | stage (o : Stage) (hawaited : o.key = key → o.IsAwaited name) :
      Honours key name (.replace .stage o)
  | stageStatus (o : Stage) : Honours key name (.writeStatus .stage o)
  | pipeline (o : Pipeline) (hheld : o.key = ⟨key.ns, name⟩ →
      o.metadata.hasFinalizer Naming.ownedStages = true) : Honours key name (.replace .pipeline o)
  | pipelineStatus (o : Pipeline) : Honours key name (.writeStatus .pipeline o)

namespace Store

/-- Whether the pipeline waits is read from the tables of stages and pipelines. -/
theorem Gates.congr (hgates : S.Gates key name) (hstage : T.table .stage = S.table .stage)
    (hpipeline : T.table .pipeline = S.table .pipeline) : T.Gates key name := by
  unfold Gates Awaits find? at *
  rwa [hstage, hpipeline]

/-- A stage is stored. -/
theorem Gates.put_stage (hgates : S.Gates key name) {o old : Stage}
    (hfound : S.find? .stage o.key = some old) (hawaited : o.key = key → o.IsAwaited name) :
    (S.put o).Gates key name := by
  intro stage hstage
  have hpipeline : (S.put o).Awaits ⟨key.ns, name⟩ ↔ S.Awaits ⟨key.ns, name⟩ := by
    unfold Awaits
    rw [find?_put_of_kind_ne S o (by decide)]
  rw [hpipeline]
  by_cases hkey : o.key = key
  · subst hkey
    obtain rfl := Option.some.inj ((find?_put_self S o).symm.trans hstage)
    exact ⟨hawaited rfl, (hgates old hfound).2⟩
  · rw [find?_put_of_key_ne S o (Ne.symm hkey)] at hstage
    exact hgates stage hstage

/-- A pipeline is stored. -/
theorem Gates.put_pipeline (hgates : S.Gates key name) {o : Pipeline}
    (hheld : o.key = ⟨key.ns, name⟩ → S.Awaits ⟨key.ns, name⟩ →
      o.metadata.hasFinalizer Naming.ownedStages = true) :
    (S.put o).Gates key name := by
  intro stage hstage
  rw [find?_put_of_kind_ne S o (by decide)] at hstage
  obtain ⟨hawaited, hawaits⟩ := hgates stage hstage
  refine ⟨hawaited, ?_⟩
  by_cases hkey : o.key = ⟨key.ns, name⟩
  · exact ⟨o, hkey ▸ find?_put_self S o, hheld hkey hawaits⟩
  · unfold Awaits
    rwa [find?_put_of_key_ne S o (Ne.symm hkey)]

/-- Removing another object than the pipeline. -/
theorem Gates.remove (hgates : S.Gates key name) {k : Kind} {key' : Key}
    (hother : ¬ (k = .pipeline ∧ key' = ⟨key.ns, name⟩)) : (S.remove k key').Gates key name := by
  intro stage hstage
  obtain ⟨hawaited, hawaits⟩ := hgates stage (found_of_find?_remove hstage)
  refine ⟨hawaited, ?_⟩
  unfold Awaits
  rwa [find?_remove_of_ne S fun hsame ↦ hother ⟨hsame.1.symm, hsame.2.symm⟩]

theorem Gates.serve (hgates : S.Gates key name) (hkeyed : S.Keyed) {request : Request}
    (hhonours : request.Honours key name) : (Store.serve request S).2.Gates key name := by
  cases hhonours with
  | other hstage hpipeline =>
    exact hgates.congr (table_serve_of_ne S hstage.symm) (table_serve_of_ne S hpipeline.symm)
  | read hread =>
    rw [serve_of_isRead hread]
    exact hgates
  | stage o hawaited =>
    show (S.replace o).2.Gates key name
    cases hfound : S.find? .stage o.key with
    | none =>
      rw [replace, hfound]
      exact hgates
    | some old =>
      rw [replace_eq_letGo hfound, letGo]
      split
      · exact hgates.remove fun hgone ↦ absurd hgone.1 (by decide)
      · exact hgates.put_stage hfound hawaited
  | stageStatus o =>
    show (S.writeStatus o).2.Gates key name
    cases hfound : S.find? .stage o.key with
    | none =>
      rw [writeStatus, hfound]
      exact hgates
    | some old =>
      have hkey : Object.key old = o.key := hkeyed _ hfound
      rw [(hkeyed .stage).writeStatus hfound]
      refine hgates.put_stage (hkey ▸ hfound) fun hhere ↦ ?_
      obtain ⟨⟨hstated, hpipeline, hlabelled⟩, -⟩ := hgates old (hhere ▸ hkey ▸ hfound)
      exact ⟨hstated, hpipeline, hlabelled⟩
  | pipeline o hheld =>
    show (S.replace o).2.Gates key name
    cases hfound : S.find? .pipeline o.key with
    | none =>
      rw [replace, hfound]
      exact hgates
    | some old =>
      rw [replace_eq_letGo hfound, letGo]
      split
      · rename_i hreleased
        refine hgates.remove fun hgone ↦ ?_
        rw [Object.isReleased_of_hasFinalizer (hheld hgone.2)] at hreleased
        exact absurd hreleased (by decide)
      · exact hgates.put_pipeline fun hkey _ ↦ hheld hkey
  | pipelineStatus o =>
    show (S.writeStatus o).2.Gates key name
    cases hfound : S.find? .pipeline o.key with
    | none =>
      rw [writeStatus, hfound]
      exact hgates
    | some old =>
      have hkey : Object.key old = o.key := hkeyed _ hfound
      rw [(hkeyed .pipeline).writeStatus hfound]
      refine hgates.put_pipeline fun hhere hawaits ↦ ?_
      obtain ⟨pipeline, hpipeline, hheld⟩ := hawaits
      have hhere : o.key = ⟨key.ns, name⟩ := hkey ▸ hhere
      obtain rfl := Option.some.inj (hfound.symm.trans (hhere ▸ hpipeline))
      exact hheld

end Store

/-- An operation that honours the gate keeps it, whichever calls fail. -/
theorem Operation.Asks.surely_gates {α : Type} {op : Operation α}
    (hasks : op.Asks (Request.Honours key name)) (hkeyed : S.Keyed) (hgates : S.Gates key name) :
    op.Surely S (fun _ T ↦ T.Gates key name) := by
  have hkept := hasks.surely_keeps (I := fun s ↦ s.Keyed ∧ s.Gates key name)
    (fun request s hhonours hs ↦ ⟨hs.1.answer request, hs.2.serve hs.1 hhonours⟩) ⟨hkeyed, hgates⟩
  exact hkept.mono fun _ _ h ↦ h.2

/-! ### Reconciling a stage -/

namespace Request

variable {stage : Stage} {request : Request}

theorem Furnishes.honours (hfurnishes : Furnishes stage request)
    (hawaited : stage.key = key → stage.IsAwaited name) : Honours key name request := by
  cases hfurnishes with
  | read hread => exact .read hread
  | reportStatus status => exact .stageStatus _
  | reportStage status =>
    refine .stage { stage with status := some status } fun hkey ↦ ?_
    obtain ⟨hstated, hpipeline, hlabelled⟩ := hawaited hkey
    exact ⟨hstated, hpipeline, hlabelled⟩
  | _ => exact .other nofun nofun

theorem Dismantles.honours (hdismantles : Dismantles context stage request)
    (hawaited : stage.key = key → stage.IsAwaited name) : Honours key name request := by
  cases hdismantles with
  | read hread => exact .read hread
  | labelStream o =>
    exact .other (show Kind.imageStream ≠ .stage by decide)
      (show Kind.imageStream ≠ .pipeline by decide)
  | removeTarget =>
    exact .other (Ne.symm (context.targetKind_ne (by decide) (by decide)))
      (Ne.symm (context.targetKind_ne (by decide) (by decide)))
  | release =>
    obtain ⟨kept, hkept⟩ := Object.removeFinalizer_eq stage Naming.labelCleanup
    have hreleased : stage.released = Object.withFinalizers stage kept := hkept
    refine .stage stage.released fun hkey ↦ ?_
    rw [hreleased] at hkey ⊢
    obtain ⟨hstated, hpipeline, hlabelled⟩ := hawaited hkey
    exact ⟨hstated, hpipeline, hlabelled⟩

end Request

namespace Stage

variable {stage : Stage}

/-- What follows adoption honours the gate of the adopted stage. -/
theorem asks_furnish_honours (context : Context)
    (hawaited : stage.key = key → stage.IsAwaited name) :
    (furnish context stage >>= fun _ ↦ confirm context stage).Asks (Request.Honours key name) :=
  (asks_furnish_confirm context stage).mono fun _ hfurnishes ↦ hfurnishes.honours hawaited

/-- An adopted stage that states its namespace is awaited by its pipeline. -/
theorem isAwaited_withWiring {w : Wiring} (hwired : (stage.withWiring w).IsWired S)
    (hstated : stage.metadata.ns.isSome = true) :
    (stage.withWiring w).IsAwaited stage.spec.pipeline :=
  ⟨hstated, rfl, hwired.labelled⟩

theorem surely_provision_gates (context : Context) (hkeyed : S.Keyed)
    (hgates : S.Gates key name) (hfound : S.find? .stage stage.key = some stage)
    (hlive : stage.isDeleting = false) :
    (provision context stage).Surely S (fun _ T ↦ T.Gates key name) := by
  rw [provision_eq, surely_bind]
  refine (atomic_adopt stage S).mono fun r T hr ↦ ?_
  rcases hr with ⟨e, rfl, rfl⟩ | hon
  · exact hgates
  rcases on_adopt hfound hlive with ⟨e, hrests⟩ | ⟨hadopt, hwired⟩
  · obtain ⟨rfl, rfl⟩ := Prod.mk.inj (hrests.on.symm.trans hon)
    exact hgates
  obtain ⟨rfl, rfl⟩ := Prod.mk.inj (hadopt.symm.trans hon)
  have hawaited (hkey : stage.key = key) :
      (stage.withWiring (stage.wiringIn S)).IsAwaited name := by
    obtain ⟨⟨hstated, rfl, -⟩, -⟩ := hgates stage (hkey ▸ hfound)
    exact isAwaited_withWiring hwired hstated
  exact (asks_furnish_honours context hawaited).surely_gates (fun k ↦ (hkeyed k).put _)
    (hgates.put_stage hfound hawaited)

end Stage

theorem surely_reconcileStage_gates (context : Context) (key' : Key) (hkeyed : S.Keyed)
    (hgates : S.Gates key name) :
    (reconcileStage context key').Surely S (fun _ T ↦ T.Gates key name) := by
  cases hfound : S.find? .stage key' with
  | none => exact surely_reconcileStage_of_absent context hfound (fun _ ↦ hgates) hgates
  | some stage =>
    obtain rfl : stage.key = key' := hkeyed _ hfound
    cases hdeleting : stage.isDeleting with
    | true =>
      have hawaited (hkey : stage.key = key) : Stage.IsAwaited name stage :=
        (hgates stage (hkey ▸ hfound)).1
      have hasks := (Stage.asks_release context stage).mono fun _ hdismantles ↦
        hdismantles.honours hawaited
      exact surely_reconcileStage_of_deleting hfound hdeleting (fun _ ↦ hgates)
        (hasks.surely_gates hkeyed hgates)
    | false =>
      exact surely_reconcileStage_of_live hfound hdeleting (fun _ ↦ hgates)
        (Stage.surely_provision_gates context hkeyed hgates hfound hdeleting)

/-! ### Reconciling a pipeline -/

namespace Pipeline

variable {pipeline : Pipeline}

/-- What is worked off for a pipeline that has its finalizers. -/
theorem asks_setUp_honours (context : Context) (ns : String)
    (hheld : pipeline.metadata.hasFinalizer Naming.ownedStages = true) :
    (setUp context ns pipeline).Asks (Request.Honours key name) := by
  have hreport : (report pipeline (PipelineStatus.ready pipeline.metadata.generation
      context.now) >>= fun _ ↦ pure ()).Asks (Request.Honours key name) := by
    refine Asks.bind (asks_report (o := pipeline) _ (.pipelineStatus _) ?_) fun _ ↦ asks_pure _
    exact .pipeline { pipeline with status := some _ } fun _ ↦ hheld
  refine (asks_ask (.read rfl)).bind fun enabled ↦ ?_
  cases enabled with
  | false => exact hreport
  | true => exact (asks_ask (.other nofun nofun)).bind fun _ ↦ hreport

theorem surely_maintain_gates (context : Context) (ns : String) (hkeyed : S.Keyed)
    (hgates : S.Gates key name) (hfound : S.find? .pipeline pipeline.key = some pipeline)
    (hlive : pipeline.isDeleting = false) :
    (maintain context ns pipeline).Surely S (fun _ T ↦ T.Gates key name) := by
  have hrest {q : Pipeline} (hheld : q.metadata.hasFinalizer Naming.ownedStages = true) :
      Operation.Asks (Request.Honours key name) (do
        if isAhead q then setUp context ns q
        return Outcome.awaitChange) := by
    cases isAhead q with
    | false => exact asks_pure _
    | true => exact (asks_setUp_honours context ns hheld).bind fun _ ↦ asks_pure _
  obtain ⟨changed, hensure, hfinalizers, hsame⟩ := Object.ensureFinalizers_eq pipeline finalizers
  generalize Object.finalizersWith pipeline finalizers = kept at hensure hfinalizers hsame
  have hheld := hfinalizers Naming.ownedStages (by simp [finalizers])
  unfold maintain
  simp only [hensure]
  cases changed with
  | false =>
    obtain rfl := hsame rfl
    exact (hrest hheld).surely_gates hkeyed hgates
  | true =>
    have hreplaced : S.replace (Object.withFinalizers pipeline kept) =
        (.ok (Object.withFinalizers pipeline kept), S.put (Object.withFinalizers pipeline kept)) :=
      Store.replace_of_found hfound
        (Object.isReleased_of_live (o := Object.withFinalizers pipeline kept) hlive)
    show (replace (Object.withFinalizers pipeline kept) >>= fun held ↦ do
      if isAhead held then setUp context ns held
      return Outcome.awaitChange).Surely S _
    rw [surely_bind, surely_replace, hreplaced]
    exact ⟨fun _ ↦ hgates, (hrest hheld).surely_gates (fun k ↦ (hkeyed k).put _)
      (hgates.put_pipeline fun _ _ ↦ hheld)⟩

/-- A deleting pipeline loses the finalizer only when no stage carries its label. -/
theorem surely_release_gates (hgates : S.Gates key name)
    (hfound : S.find? .pipeline pipeline.key = some pipeline) :
    (release pipeline).Surely S (fun _ T ↦ T.Gates key name) := by
  refine (atomic_release pipeline S).mono ?_
  rintro r T (⟨e, -, rfl⟩ | hon)
  · exact hgates
  rcases rests_release_or_letGo hfound with ⟨result, hrests⟩ | ⟨hnone, hletGo⟩
  · obtain ⟨-, rfl⟩ := Prod.mk.inj (hrests.on.symm.trans hon)
    exact hgates
  obtain ⟨-, rfl⟩ := Prod.mk.inj (hletGo.symm.trans hon)
  have hkey : (Object.removeFinalizer pipeline Naming.ownedStages).2.key = pipeline.key :=
    Object.key_removeFinalizer
  intro stage hstage
  rw [Store.find?, Store.table_letGo_of_ne S _ (by decide)] at hstage
  obtain ⟨hawaited, hawaits⟩ := hgates stage hstage
  refine ⟨hawaited, ?_⟩
  by_cases hhere : pipeline.key = ⟨key.ns, name⟩
  · -- the stage would have been among those that the pipeline waits for
    obtain ⟨hns, hname⟩ := Key.mk.inj hhere
    have hlisted : stage ∈ S.listed pipeline.metadata.namespaceOrEmpty
        (some pipeline.metadata.anyName) := by
      refine Store.mem_listed.mpr ⟨key, hstage, hns.symm, fun name' hname' ↦ ?_, hawaited.stated⟩
      rw [← Option.some.inj hname', hname]
      exact hawaited.labelled
    rw [hnone] at hlisted
    exact absurd hlisted List.not_mem_nil
  · have helsewhere : ¬ (Kind.pipeline = .pipeline ∧ (⟨key.ns, name⟩ : Key) =
        (Object.removeFinalizer pipeline Naming.ownedStages).2.key) := by
      rw [hkey]
      exact fun h ↦ hhere h.2.symm
    unfold Store.Awaits
    rwa [Store.find?_letGo_of_ne S _ helsewhere]

end Pipeline

theorem surely_reconcilePipeline_gates (context : Context) (key' : Key) (hkeyed : S.Keyed)
    (hgates : S.Gates key name) :
    (reconcilePipeline context key').Surely S (fun _ T ↦ T.Gates key name) := by
  unfold reconcilePipeline
  rw [surely_bind, surely_get]
  refine ⟨fun _ ↦ hgates, ?_⟩
  cases hfound : S.find? .pipeline key' with
  | none => exact hgates
  | some pipeline =>
    obtain rfl : Object.key pipeline = key' := hkeyed _ hfound
    cases hdeleting : Object.isDeleting pipeline with
    | true =>
      simp only [hdeleting]
      exact Pipeline.surely_release_gates hgates hfound
    | false =>
      simp only [hdeleting]
      exact Pipeline.surely_maintain_gates context _ hkeyed hgates hfound hdeleting

/-! ### Letting go of a pipeline -/

/-- The deleting pipeline has all its finalizers but the one for its stages, in their order, and is
gone if that was the last; everything else is as it was. -/
structure Pipeline.LetsGo (pipeline : Pipeline) (S T : Store) : Prop where
  released : T.find? .pipeline pipeline.key =
    if pipeline.metadata.hasFinalizer Naming.ownedStages = false then some pipeline
    else if Object.otherFinalizers pipeline Naming.ownedStages = [] then none
    else some (Object.withFinalizers pipeline
      (some (Object.otherFinalizers pipeline Naming.ownedStages)))
  elsewhere : ∀ k key, ¬ (k = .pipeline ∧ key = pipeline.key) → T.find? k key = S.find? k key

/-- A deleting pipeline whose label no stage of its namespace carries is let go. -/
theorem reconcilePipeline_letsGo (context : Context) {pipeline : Pipeline}
    (hfound : S.find? .pipeline pipeline.key = some pipeline)
    (hdeleting : pipeline.isDeleting = true)
    (hnone : ∀ (key : Key) (stage : Stage), key.ns = pipeline.metadata.namespaceOrEmpty →
      S.find? .stage key = some stage →
      stage.metadata.label? Naming.pipelineLabel ≠ some pipeline.metadata.anyName) :
    ∃ T, (reconcilePipeline context pipeline.key).on S = (.ok .awaitChange, T) ∧
      pipeline.LetsGo S T := by
  have hlisted : S.listed pipeline.metadata.namespaceOrEmpty (some pipeline.metadata.anyName) =
      [] := by
    refine List.eq_nil_iff_forall_not_mem.mpr fun stage hstage ↦ ?_
    obtain ⟨key, hstage, hns, hlabel, -⟩ := Store.mem_listed.mp hstage
    exact hnone key stage hns hstage (hlabel _ rfl)
  have hop : Pipeline.release pipeline = if pipeline.isDeleting then Pipeline.release pipeline
      else Pipeline.maintain context (Object.key pipeline).ns pipeline := by
    rw [if_pos hdeleting]
  rw [(reconcilePipeline_of_found context hfound hop).1]
  cases hheld : pipeline.metadata.hasFinalizer Naming.ownedStages with
  | false =>
    exact ⟨S, (Pipeline.rests_release_of_free hlisted hheld).on, by rw [if_pos hheld, hfound],
      fun _ _ _ ↦ rfl⟩
  | true =>
    have hkey : (Object.removeFinalizer pipeline Naming.ownedStages).2.key = Object.key pipeline :=
      Object.key_removeFinalizer
    have hreleased := Store.find?_letGo_removeFinalizer hdeleting hheld S
    refine ⟨_, Pipeline.on_release_of_held hfound hlisted hheld, ?_, fun k key hne ↦
      Store.find?_letGo_of_ne S _ (hkey ▸ hne)⟩
    rw [hheld, if_neg (by decide)]
    exact hreleased

end PipelineOperator
