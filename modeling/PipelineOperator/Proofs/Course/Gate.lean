import PipelineOperator.Proofs.Course.Basic
import PipelineOperator.Proofs.Reconcile.Gate

/-!
The gate of a pipeline in a course on which calls fail. Stages and pipelines are reconciled in any
order, any of the calls fail, and meanwhile other clients mark stages and pipelines as deleted. A
gate that is closed stays so in every state on the way (`Bench.gates_history`), and it is closed
from the moment at which a reconciliation has stored what adopts the stage
(`Bench.Persists.gates`). A deleting pipeline that no stage is labelled with is let go.
-/

set_option autoImplicit false
set_option relaxedAutoImplicit false

namespace PipelineOperator

open Operation

/-- Something that happens to a cluster on which calls fail. -/
inductive Turn where
  /-- The operator reconciles a stage, and the calls of some numbers fail. -/
  | stage (context : Context) (faults : Nat → Option Fault) (key : Key)
  /-- The operator reconciles a pipeline, and the calls of some numbers fail. -/
  | pipeline (context : Context) (faults : Nat → Option Fault) (key : Key)
  /-- Another client marks a stage as deleted. -/
  | markedStage (key : Key)
  /-- Another client marks a pipeline as deleted. -/
  | markedPipeline (key : Key)

/-- The turn on a bench, watched call by call. -/
def Turn.trial : Turn → Bench → Trial Bench
  | stage context faults key, b => ((reconcileStage context key).attempt faults b).2
  | pipeline context faults key, b => ((reconcilePipeline context key).attempt faults b).2
  | markedStage key, b => { state := { b with store := b.store.markDeleted .stage key } }
  | markedPipeline key, b => { state := { b with store := b.store.markDeleted .pipeline key } }

namespace Bench

/-- What turns leave of a bench. -/
def afterTurns (b : Bench) (turns : List Turn) : Bench :=
  turns.foldl (fun b turn ↦ (turn.trial b).state) b

/-- Every state that a bench goes through in turns, between any two calls. -/
def history (b : Bench) : List Turn → List Bench
  | [] => []
  | turn :: rest => (turn.trial b).states ++ (turn.trial b).state.history rest

/-- Reconciling the live stage gets as far as `t`: there its metadata is stored. -/
structure Persists (b : Bench) (faults : Nat → Option Fault) (stage : Stage) (t : Trial Bench) :
    Prop where
  found : b.store.find? .stage stage.key = some stage
  live : stage.isDeleting = false
  adopted : ∃ adopted, (get .stage stage.key >>= fun _ ↦ stage.adopt).attempt faults b =
    (.ok adopted, t)

end Bench

variable {context : Context} {faults : Nat → Option Fault} {b : Bench} {t : Trial Bench}
  {S : Store} {key : Key} {name : String} {stage : Stage}

/-! ### A closed gate -/

/-- A mark on a stage or a pipeline leaves its label and its finalizers. -/
theorem Store.Gates.markDeleted (hgates : S.Gates key name) (hkeyed : S.Keyed) {k : Kind}
    (hkind : k = .stage ∨ k = .pipeline) (key' : Key) : (S.markDeleted k key').Gates key name := by
  cases hfound : S.find? k key' with
  | none => rwa [markDeleted_of_absent hfound]
  | some o =>
    obtain rfl : o.key = key' := hkeyed k hfound
    rw [markDeleted_eq_put (hkeyed k) hfound]
    rcases hkind with rfl | rfl
    · refine hgates.put_stage hfound fun hkey ↦ ?_
      obtain ⟨⟨hstated, hpipeline, hlabelled⟩, -⟩ := hgates o (hkey ▸ hfound)
      exact ⟨hstated, hpipeline, hlabelled⟩
    · refine hgates.put_pipeline fun hkey hawaits ↦ ?_
      obtain ⟨pipeline, hpipeline, hheld⟩ := hawaits
      obtain rfl := Option.some.inj (hfound.symm.trans (hkey ▸ hpipeline))
      exact hheld

/-- A closed gate stays so throughout a turn. -/
theorem Turn.gates_trial (turn : Turn) (hkeyed : b.store.Keyed) (hgates : b.store.Gates key name) :
    ∀ now ∈ (turn.trial b).states, now.store.Keyed ∧ now.store.Gates key name := by
  have hreconciled {op : Operation Outcome} (faults : Nat → Option Fault)
      (hsurely : op.Surely b.store fun _ s ↦ s.Gates key name) :
      ∀ now ∈ (op.attempt faults b).2.states, now.store.Keyed ∧ now.store.Gates key name :=
    (Surely.throughout (t := { state := b }) (I := fun s ↦ s.Keyed ∧ s.Gates key name)
      ((surely_keyed op hkeyed).and hsurely) faults).states
  have hmarked {k : Kind} (hkind : k = .stage ∨ k = .pipeline) (key' : Key) :=
    And.intro (hkeyed.markDeleted k key') (hgates.markDeleted hkeyed hkind key')
  cases turn with
  | stage context faults key' =>
    exact hreconciled faults (surely_reconcileStage_gates context key' hkeyed hgates)
  | pipeline context faults key' =>
    exact hreconciled faults (surely_reconcilePipeline_gates context key' hkeyed hgates)
  | markedStage key' => exact List.forall_mem_singleton.mpr (hmarked (.inl rfl) key')
  | markedPipeline key' => exact List.forall_mem_singleton.mpr (hmarked (.inr rfl) key')

/-- A closed gate stays so in whatever turns follow. -/
theorem Bench.gates_history (turns : List Turn) (hkeyed : b.store.Keyed)
    (hgates : b.store.Gates key name) : ∀ now ∈ b.history turns, now.store.Gates key name := by
  induction turns generalizing b with
  | nil => exact fun _ hnow ↦ absurd hnow List.not_mem_nil
  | cons turn rest ih =>
    have hkept := turn.gates_trial hkeyed hgates
    obtain ⟨hkeyed', hgates'⟩ := hkept _ (Trial.mem_states.mpr (.inr rfl))
    exact List.forall_mem_append.mpr ⟨fun now hnow ↦ (hkept now hnow).2, ih hkeyed' hgates'⟩

theorem Bench.keyed_afterTurns (turns : List Turn) (hkeyed : b.store.Keyed) :
    (b.afterTurns turns).store.Keyed := by
  induction turns generalizing b with
  | nil => exact hkeyed
  | cons turn rest ih =>
    refine ih (b := (turn.trial b).state) ?_
    cases turn with
    | stage context faults key =>
      exact (surely_keyed (reconcileStage context key) hkeyed).amid (t := { state := b }) faults
    | pipeline context faults key =>
      exact (surely_keyed (reconcilePipeline context key) hkeyed).amid (t := { state := b }) faults
    | markedStage key => exact hkeyed.markDeleted .stage key
    | markedPipeline key => exact hkeyed.markDeleted .pipeline key

/-! ### Closing the gate -/

/-- What a reconciliation that got so far has stored, and what is left of it to be done. -/
theorem Bench.Persists.amid_rest (hpersists : b.Persists faults stage t) (context : Context) :
    ∃ w : Stage.Wiring, (stage.withWiring w).IsWired b.store ∧
      t.state.store = b.store.put (stage.withWiring w) ∧
      ((reconcileStage context stage.key).attempt faults b).2 =
        ((Stage.furnish context (stage.withWiring w) >>= fun _ ↦
          Stage.confirm context (stage.withWiring w)).amid faults t).2 := by
  obtain ⟨hfound, hlive, adopted, hadopted⟩ := hpersists
  obtain ⟨reply, b', hget, hstore, hreply⟩ := amid_get .stage stage.key faults { state := b }
  have hturn : (reconcileStage context stage.key).attempt faults b = _ :=
    amid_bind (get .stage stage.key) _ faults { state := b }
  unfold attempt at hadopted
  rw [amid_bind, hget] at hadopted
  rw [hget] at hturn
  generalize hread : (⟨b', _, _⟩ : Trial Bench) = read at hadopted hturn
  have hsame : read.state.store = b.store := hread ▸ hstore
  rcases hreply with ⟨fault, rfl⟩ | rfl
  · exact absurd (congrArg Prod.fst hadopted) nofun
  have hadopt : stage.adopt.amid faults read = (.ok adopted, t) := hadopted
  have hprovision : (reconcileStage context stage.key).attempt faults b =
      (Stage.provision context stage).amid faults read := by
    rw [hturn, show b.store.find? .stage stage.key = some stage from hfound]
    simp only [hlive]
    rfl
  have hatomic := (Stage.atomic_adopt stage read.state.store).amid faults
  rw [hadopt, hsame] at hatomic
  rcases hatomic with ⟨e, he, -⟩ | hon
  · exact nomatch he
  rcases Stage.on_adopt hfound hlive with ⟨e, hrests⟩ | ⟨hput, hwired⟩
  · exact absurd (congrArg Prod.fst (hrests.on.symm.trans hon)) nofun
  obtain ⟨hsome, hleft⟩ := Prod.mk.inj (hput.symm.trans hon)
  refine ⟨stage.wiringIn b.store, hwired, hleft.symm, ?_⟩
  rw [hprovision, Stage.provision_eq, amid_bind, hadopt, ← Except.ok.inj hsome]
  rfl

/-- A gate is closed from the moment on at which the metadata of the stage is stored. -/
theorem Bench.Persists.gates (hpersists : b.Persists faults stage t)
    (hkeyed : b.store.Keyed) (hstated : stage.metadata.ns.isSome = true)
    (hawaits : t.state.store.Awaits stage.pipelineKey) (context : Context) :
    t.Throughout (fun s ↦ s.Keyed ∧ s.Gates stage.key stage.spec.pipeline)
      ((Turn.stage context faults stage.key).trial b) := by
  obtain ⟨w, hwired, hstore, hrest⟩ := hpersists.amid_rest context
  have hawaited := Stage.isAwaited_withWiring hwired hstated
  have hkeyed' : t.state.store.Keyed := by
    rw [hstore]
    exact fun k ↦ (hkeyed k).put _
  have hgates : t.state.store.Gates stage.key stage.spec.pipeline := by
    intro stored hstored
    have hput : t.state.store.find? .stage stage.key = some (stage.withWiring w) := by
      rw [hstore]
      exact Store.find?_put_self b.store (stage.withWiring w)
    obtain rfl := Option.some.inj (hput.symm.trans hstored)
    exact ⟨hawaited, hawaits⟩
  have hasks : Asks (Request.Honours stage.key stage.spec.pipeline) _ :=
    Stage.asks_furnish_honours context fun _ ↦ hawaited
  have hkept := (surely_keyed _ hkeyed').and (hasks.surely_gates hkeyed' hgates)
  show t.Throughout _ ((reconcileStage context stage.key).attempt faults b).2
  rw [hrest]
  exact hkept.throughout faults

/-- The gate of a pipeline, from any bench and whatever calls fail. From the moment at which a
reconciliation of a live stage has stored its metadata, its pipeline, if it had the finalizer for
its stages then, has it in every state that follows, be it within that reconciliation or in any
turns after it, as long as the stage is there. And a reconciliation without failing calls takes that
finalizer, and no other, off a deleting pipeline whose label no stage of its namespace carries. -/
theorem gate_in_turns (b : Bench) (hkeyed : b.store.Keyed) :
    (∀ (before after : List Turn) (context : Context) (faults : Nat → Option Fault) (stage : Stage)
      (t : Trial Bench), stage.metadata.ns.isSome = true →
        (b.afterTurns before).Persists faults stage t →
        t.state.store.Awaits stage.pipelineKey →
        ∀ now ∈ t.statesSince ((Turn.stage context faults stage.key).trial (b.afterTurns before)) ++
            (b.afterTurns (before ++ [.stage context faults stage.key])).history after,
          (now.store.find? .stage stage.key).isSome = true →
            now.store.Awaits stage.pipelineKey) ∧
      ∀ (context : Context) (pipeline : Pipeline), b.IsServing →
        b.store.find? .pipeline pipeline.key = some pipeline → pipeline.isDeleting = true →
        (∀ (key : Key) (stage : Stage), key.ns = pipeline.metadata.namespaceOrEmpty →
          b.store.find? .stage key = some stage →
          stage.metadata.label? Naming.pipelineLabel ≠ some pipeline.metadata.anyName) →
        ((reconcilePipeline context pipeline.key).onBench b).1 = .ok .awaitChange ∧
          pipeline.LetsGo b.store ((reconcilePipeline context pipeline.key).onBench b).2.store := by
  refine ⟨fun before after context faults stage t hstated hpersists hawaits now hnow hthere ↦ ?_,
    fun context pipeline hserving hfound hdeleting hnone ↦ ?_⟩
  · have hkeyed' := Bench.keyed_afterTurns before hkeyed
    have hsince := hpersists.gates hkeyed' hstated hawaits context
    have hafter : b.afterTurns (before ++ [.stage context faults stage.key]) =
        ((Turn.stage context faults stage.key).trial (b.afterTurns before)).state :=
      List.foldl_append
    have hgates : now.store.Gates stage.key stage.spec.pipeline := by
      rw [hafter] at hnow
      rcases List.mem_append.mp hnow with hwithin | hlater
      · exact (hsince.statesSince now hwithin).2
      · exact Bench.gates_history after hsince.state.1 hsince.state.2 now hlater
    obtain ⟨stored, hstored⟩ := Option.isSome_iff_exists.mp hthere
    exact (hgates stored hstored).2
  · obtain ⟨hresult, hstore, -⟩ := onBench_eq (reconcilePipeline context pipeline.key) hserving
    obtain ⟨T, hon, hletsGo⟩ := reconcilePipeline_letsGo context hfound hdeleting hnone
    rw [hresult, hstore, hon]
    exact ⟨rfl, hletsGo⟩

/-- A pipeline is put under its finalizers. -/
def Turn.ofPipeline : Turn := .pipeline { now := ⟨0, 0⟩ } (fun _ ↦ none) ⟨"ci", "p"⟩

/-- A stage is reconciled up to its sixth call, which fails. -/
def Turn.ofStage : Turn := .stage { now := ⟨0, 0⟩ }
  (fun n ↦ if n = 5 then some (.ofCause .brokenExchange) else none)
  (Fixture.stage "dev" "ci" "p" 0).key

/-- What is left of a pipeline without stages that was reconciled and then deleted. -/
def Bench.withDoomedPipeline : Bench :=
  (Bench.seedPipeline {} []).afterTurns [.ofPipeline, .markedPipeline ⟨"ci", "p"⟩]

/-- A pipeline waits for its stage, although it is deleted, and although the reconciliation of the
stage was cut short; without a stage it is let go. -/
theorem gate_in_turns_withStage :
    (Bench.withStage.afterTurns [.ofPipeline, .ofStage, .markedPipeline ⟨"ci", "p"⟩,
      .ofPipeline]).store.Awaits ⟨"ci", "p"⟩ ∧
    ∃ pipeline : Pipeline, pipeline.metadata.finalizers = some Pipeline.finalizers ∧
      pipeline.LetsGo Bench.withDoomedPipeline.store
        ((reconcilePipeline { now := ⟨0, 0⟩ } pipeline.key).onBench
          Bench.withDoomedPipeline).2.store := by
  constructor
  · have hpersists : ∃ t, (Bench.withStage.afterTurns [.ofPipeline]).Persists
        (fun n ↦ if n = 5 then some (.ofCause .brokenExchange) else none)
        (Fixture.stage "dev" "ci" "p" 0) t ∧ t.state.store.Awaits ⟨"ci", "p"⟩ := by
      refine ⟨_, ⟨rfl, rfl, _, rfl⟩, ?_⟩
      exact ⟨_, rfl, rfl⟩
    obtain ⟨t, hpersists, hawaits⟩ := hpersists
    refine (gate_in_turns Bench.withStage Bench.sound_withStage.toKeyed).1 [.ofPipeline]
      [.markedPipeline ⟨"ci", "p"⟩, .ofPipeline] { now := ⟨0, 0⟩ } _
      (Fixture.stage "dev" "ci" "p" 0) t rfl hpersists hawaits _ ?_ rfl
    refine List.mem_append_right _ ?_
    simp only [Bench.history, List.mem_append, Trial.mem_states]
    exact .inr (.inl (.inr rfl))
  · have hkeyed : Bench.withDoomedPipeline.store.Keyed :=
      Bench.keyed_afterTurns _ (Bench.sound_seeded []).toKeyed
    have hempty : Bench.withDoomedPipeline.store.stages = ∅ := rfl
    have hfound : ∃ pipeline : Pipeline,
        Bench.withDoomedPipeline.store.find? .pipeline ⟨"ci", "p"⟩ = some pipeline ∧
        pipeline.isDeleting = true ∧ pipeline.metadata.finalizers = some Pipeline.finalizers :=
      ⟨_, rfl, rfl, rfl⟩
    obtain ⟨pipeline, hfound, hdeleting, hheld⟩ := hfound
    rw [← hkeyed .pipeline hfound] at hfound
    refine ⟨pipeline, hheld, ((gate_in_turns Bench.withDoomedPipeline hkeyed).2 { now := ⟨0, 0⟩ }
      pipeline ⟨rfl, rfl, rfl⟩ hfound hdeleting fun key stage _ hstage ↦ ?_).2⟩
    rw [Store.find?, Store.table, hempty] at hstage
    exact absurd hstage (Option.some_ne_none stage).symm

end PipelineOperator
