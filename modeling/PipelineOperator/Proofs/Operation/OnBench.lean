import PipelineOperator.Cluster.Fixture
import PipelineOperator.Proofs.Operation.Clean

/-!
Operations on a bench. A bench whose switches are off serves every call: an operation comes to the
result and leaves the store that it does on the store alone (`Operation.onBench_eq`), and one that
rests on the store leaves the journal as it was (`Operation.Rests.onBench`).
-/

set_option autoImplicit false
set_option relaxedAutoImplicit false

namespace PipelineOperator

/-- None of the switches of the bench is on. -/
structure Bench.IsServing (b : Bench) : Prop where
  namespaces : b.namespacesForbidden = false
  spaces : b.spacesForbidden = false
  status : b.statusUnknown = false

theorem Bench.IsServing.refusal? {b : Bench} (hserving : b.IsServing) (request : Request) :
    b.refusal? request = none := by
  unfold Bench.refusal?
  rw [hserving.namespaces, hserving.spaces, hserving.status]
  split <;> rfl

/-- What a switch keeps from being served fails, and nothing else happens. -/
theorem Bench.answer_of_refused {b : Bench} {request : Request} {cause : Cause}
    (hrefused : b.refusal? request = some cause) :
    Bench.answer request b = (.error (.ofCause cause), b) := by
  unfold Bench.answer
  rw [hrefused]

/-- What no switch keeps from being served is answered by the store. -/
theorem Bench.answer_of_served {b : Bench} {request : Request}
    (hserved : b.refusal? request = none) :
    Bench.answer request b = (shown request (Store.answer request b.store).1,
      { b with
        store := (Store.answer request b.store).2
        journal := b.journal ++ (request.write?.filter (journals b.store)).toList }) := by
  unfold Bench.answer
  rw [hserved]

/-- A bench that serves every call answers as its store does. -/
theorem Bench.IsServing.answer {b : Bench} (hserving : b.IsServing) (request : Request) :
    Bench.answer request b = ((Store.serve request b.store).1,
      { b with
        store := (Store.serve request b.store).2
        journal := b.journal ++ (request.write?.filter (Bench.journals b.store)).toList }) :=
  answer_of_served (hserving.refusal? request)

/-- A pipeline of one application, and a new stage of it. -/
def Bench.withStage : Bench :=
  (Bench.seedPipeline {} ["cb-a"]).put (Fixture.stage "dev" "ci" "p" 0)

theorem Bench.isServing_withStage : Bench.withStage.IsServing := ⟨rfl, rfl, rfl⟩

theorem Bench.keyed_put {b : Bench} (hkeyed : b.store.Keyed) {k : Kind} {o : Object k} :
    (b.put o).store.Keyed := fun k' ↦ (hkeyed k').put o

theorem Bench.sound_put {b : Bench} (hsound : b.store.Sound) {k : Kind} {o : Object k}
    (hheld : o.metadata.isReleased = false) : (b.put o).store.Sound := hsound.put hheld

theorem Bench.sound_seeded (promoted : List String) :
    (Bench.seedPipeline {} promoted).store.Sound := by
  unfold seedPipeline
  refine sound_put (sound_put (sound_put Store.sound_empty ?_) ?_) ?_ <;> rfl

theorem Bench.sound_withStage : Bench.withStage.store.Sound := sound_put (sound_seeded _) rfl

/-- The stage of a seeded pipeline is the only one. -/
theorem Bench.find?_stage_seeded {promoted : List String} {key : Key} {stage found : Stage}
    (hfound : ((Bench.seedPipeline {} promoted).put stage).store.find? .stage key = some found) :
    found = stage := by
  have hput := Store.find?_put (seedPipeline {} promoted).store stage key
  change ((Bench.seedPipeline {} promoted).put stage).store.find? .stage key = _ at hput
  rw [hfound] at hput
  split at hput
  · exact Option.some.inj hput
  · exact nomatch hput

theorem Bench.find?_withStage {key : Key} {stage : Stage}
    (hfound : Bench.withStage.store.find? .stage key = some stage) :
    stage = Fixture.stage "dev" "ci" "p" 0 := find?_stage_seeded hfound

namespace Program

variable {α : Type}

theorem run_bench (program : Program α) {b : Bench} (hserving : b.IsServing) :
    (program.run Bench.backend b).1 = (program.run Store.backend b.store).1 ∧
      (program.run Bench.backend b).2.store = (program.run Store.backend b.store).2 ∧
      (program.run Bench.backend b).2.IsServing := by
  induction program generalizing b with
  | done value => exact ⟨rfl, rfl, hserving⟩
  | ask request next ih =>
    have hanswer : Bench.backend.answer request b = _ := hserving.answer request
    simp only [run, hanswer]
    exact ih _ ⟨hserving.namespaces, hserving.spaces, hserving.status⟩
  | observe observation next ih =>
    exact ih ⟨hserving.namespaces, hserving.spaces, hserving.status⟩

theorem Rests.run_bench {program : Program α} {b : Bench} (hserving : b.IsServing) {result : α}
    (hrests : program.Rests b.store result) :
    (program.run Bench.backend b).1 = result ∧
      (program.run Bench.backend b).2.store = b.store ∧
      (program.run Bench.backend b).2.journal = b.journal := by
  induction program generalizing b with
  | done value => exact ⟨hrests.symm, rfl, rfl⟩
  | ask request next ih =>
    obtain ⟨hread, hnext⟩ := hrests
    have hanswer : Bench.backend.answer request b = _ := hserving.answer request
    have hsame : (Store.serve request b.store).2 = b.store := Store.serve_of_isRead hread b.store
    simp only [Program.run, hanswer, hsame, Request.write?_of_isRead hread, Option.filter_none,
      Option.toList_none, List.append_nil]
    exact ih _ (b := b) hserving hnext
  | observe observation next ih =>
    exact ih (b := { b with metrics := b.metrics.observe observation })
      ⟨hserving.namespaces, hserving.spaces, hserving.status⟩ hrests

end Program

namespace Operation

variable {α : Type} {b : Bench}

/-- The operation on a bench. -/
def onBench (op : Operation α) (b : Bench) : Except Fault α × Bench := op.run.run Bench.backend b

/-- As long as the bench serves every call it is the store that counts. -/
theorem onBench_eq (op : Operation α) (hserving : b.IsServing) :
    (op.onBench b).1 = (op.on b.store).1 ∧ (op.onBench b).2.store = (op.on b.store).2 ∧
      (op.onBench b).2.IsServing := Program.run_bench op.run hserving

theorem Rests.onBench {op : Operation α} {result : Except Fault α} (hserving : b.IsServing)
    (hrests : op.Rests b.store result) :
    (op.onBench b).1 = result ∧ (op.onBench b).2.store = b.store ∧
      (op.onBench b).2.journal = b.journal := Program.Rests.run_bench hserving hrests

/-- The second operation, right after the first, does no write, leaves the bench as it found it, and
comes to the same result. -/
def IsRepeatedBy (op op' : Operation α) (b : Bench) : Prop :=
  (op'.onBench (op.onBench b).2).1 = (op.onBench b).1 ∧
    (op'.onBench (op.onBench b).2).2.store = (op.onBench b).2.store ∧
    (op'.onBench (op.onBench b).2).2.journal = (op.onBench b).2.journal

theorem isRepeatedBy_of_rests {op op' : Operation α} (hserving : b.IsServing)
    (hrests : op'.Rests (op.on b.store).2 (op.on b.store).1) : op.IsRepeatedBy op' b := by
  obtain ⟨hresult, hstore, hserving'⟩ := op.onBench_eq hserving
  rw [← hresult, ← hstore] at hrests
  exact hrests.onBench hserving'

end Operation

end PipelineOperator
