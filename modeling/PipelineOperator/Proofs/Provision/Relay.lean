import PipelineOperator.Cluster.Fixture
import PipelineOperator.Proofs.Metrics.Totals
import PipelineOperator.Provision.Chain

/-!
A chain of handlers is its list. Run on a state, it takes legs: the handlers that are reached are
the first ones of the list, each does its own work on the state that the one before left, and all
but the last that is reached succeed (`Chain.Runs`). The induction is on the chain; what is carried
along is the state in which the leg before was counted, so the counters of handlers follow from the
legs alone (`Chain.total_of_relay`). Both are put together in `Chain.serve_relaysItsList`.
-/

set_option autoImplicit false
set_option relaxedAutoImplicit false

namespace PipelineOperator

namespace Operation

variable {σ α β : Type}

/-- Runs an operation against a cluster. -/
def under (op : Operation α) (backend : Backend σ) (s : σ) : Except Fault α × σ :=
  op.run.run backend s

theorem under_bind (op : Operation α) (f : α → Operation β) (backend : Backend σ) (s : σ) :
    (op >>= f).under backend s =
      match op.under backend s with
      | (.ok a, s') => (f a).under backend s'
      | (.error e, s') => (.error e, s') := by
  unfold under
  rw [ExceptT.run_bind, Program.run_bind]
  generalize Program.run backend op.run s = result
  obtain ⟨_ | _, _⟩ := result <;> rfl

theorem under_counted (name : String) (op : Operation α) (backend : Backend σ) (s : σ) :
    (counted name op).under backend s =
      ((op.under backend s).1,
        backend.record (.handled name (op.under backend s).1.isOk) (op.under backend s).2) :=
  Program.run_bind backend op.run _ s

end Operation

namespace Chain

/-- A handler before a chain, if there is one. -/
def node (handler : Handler) : Option Chain → Chain
  | none => last handler
  | some rest => link handler rest

/-- A chain is linked from its end. -/
theorem ofHandlers_eq_node (first : Handler) (rest : List Handler) :
    ofHandlers first rest =
      node first (rest.reverse.foldl (fun next handler ↦ some (node handler next)) none) := by
  induction rest generalizing first with
  | nil => rfl
  | cons next rest ih =>
    rw [ofHandlers, ih, List.reverse_cons, List.foldl_append]
    rfl

/-- The turn of one handler: the state that it met, how it ended, and the state that it left. -/
structure Leg (σ : Type) where
  handler : Handler
  before : σ
  result : Except Fault Unit
  after : σ

variable {σ : Type} {backend : Backend σ} {stage : Stage} {s s' : σ} {legs : List (Leg σ)}

namespace Leg

/-- The handler did its own work. -/
def IsOwn (backend : Backend σ) (stage : Stage) (leg : Leg σ) : Prop :=
  (leg.handler.serve stage).under backend leg.before = (leg.result, leg.after)

/-- The state once the leg was counted. -/
def counted (backend : Backend σ) (leg : Leg σ) : σ :=
  backend.record (.handled leg.handler.name leg.result.isOk) leg.after

/-- The leg is counted under this name as ended in this way. -/
def countsAs (name : String) (well : Bool) (leg : Leg σ) : Bool :=
  decide (leg.handler.name = name ∧ leg.result.isOk = well)

/-- What the handler observes on its own, before it is counted. -/
def observed (backend : Backend σ) (stage : Stage) (leg : Leg σ) : List Observation :=
  (leg.handler.serve stage).run.observed backend leg.before

end Leg

/-- Each of the legs, the first of which meets `s`, leaves to the next the state in which it was
counted, and the last leaves `s'`. -/
def Relay (backend : Backend σ) : σ → List (Leg σ) → σ → Prop
  | s, [], s' => s = s'
  | s, leg :: rest, s' => leg.before = s ∧ Relay backend (leg.counted backend) rest s'

/-- How handlers run in their order, up to the first that fails. -/
structure Runs (backend : Backend σ) (stage : Stage) (handlers : List Handler) (s : σ)
    (legs : List (Leg σ)) (result : Except Fault Unit) (s' : σ) : Prop where
  /-- The first handlers are reached, each once and in their order. -/
  reached : legs.map Leg.handler <+: handlers
  own : ∀ leg ∈ legs, leg.IsOwn backend stage
  relay : Relay backend s legs s'
  /-- None is reached after one that failed. -/
  succeeded : ∀ leg ∈ legs.dropLast, leg.result = .ok ()
  /-- It is a success if all handlers are reached and succeed, and only then. -/
  ok_iff : result = .ok () ↔
    legs.map Leg.handler = handlers ∧ ∀ leg ∈ legs, leg.result = .ok ()
  /-- A failure is the one of the last handler that is reached. -/
  error_iff : ∀ fault, result = .error fault ↔
    ∃ leg, legs.getLast? = some leg ∧ leg.result = .error fault

/-- Of no handlers none runs. -/
theorem runs_nil (backend : Backend σ) (stage : Stage) (s : σ) :
    Runs backend stage [] s [] (.ok ()) s :=
  ⟨List.prefix_rfl, by simp, rfl, by simp, by simp, by simp⟩

/-- A leg that fails is the last one. -/
theorem runs_of_failed {leg : Leg σ} {fault : Fault} (hown : leg.IsOwn backend stage)
    (hfailed : leg.result = .error fault) (rest : List Handler) :
    Runs backend stage (leg.handler :: rest) leg.before [leg] (.error fault)
      (leg.counted backend) where
  reached := ⟨rest, rfl⟩
  own := by simpa using hown
  relay := ⟨rfl, rfl⟩
  succeeded := by simp
  ok_iff := by simp [hfailed]
  error_iff := by simp [hfailed]

/-- A leg that succeeds comes before those of the handlers that are left. -/
theorem Runs.cons {leg : Leg σ} {handlers : List Handler} {result : Except Fault Unit}
    (hown : leg.IsOwn backend stage) (hsucceeded : leg.result = .ok ())
    (hruns : Runs backend stage handlers (leg.counted backend) legs result s') :
    Runs backend stage (leg.handler :: handlers) leg.before (leg :: legs) result s' where
  reached := List.cons_prefix_cons.mpr ⟨rfl, hruns.reached⟩
  own := List.forall_mem_cons.mpr ⟨hown, hruns.own⟩
  relay := ⟨rfl, hruns.relay⟩
  succeeded := by
    cases hlegs : legs with
    | nil => simp
    | cons next rest =>
      rw [List.dropLast_cons_of_ne_nil (List.cons_ne_nil _ _), ← hlegs]
      exact List.forall_mem_cons.mpr ⟨hsucceeded, hruns.succeeded⟩
  ok_iff := by simp [hruns.ok_iff, hsucceeded]
  error_iff fault := by
    rw [hruns.error_iff fault, List.getLast?_cons]
    cases hlast : legs.getLast? <;> simp [hsucceeded]

/-- A chain runs its handlers in order. -/
theorem exists_runs (backend : Backend σ) (stage : Stage) (chain : Chain) (s : σ) :
    ∃ legs, Runs backend stage chain.handlers s legs ((chain.serve stage).under backend s).1
      ((chain.serve stage).under backend s).2 := by
  induction chain generalizing s with
  | last handler =>
    rcases hwork : (handler.serve stage).under backend s with ⟨result, t⟩
    have hserve : ((last handler).serve stage).under backend s = _ :=
      Operation.under_counted handler.name (handler.serve stage) backend s
    rw [hserve, hwork]
    cases result with
    | error fault =>
      have hown : (⟨handler, s, .error fault, t⟩ : Leg σ).IsOwn backend stage := hwork
      exact ⟨_, runs_of_failed hown rfl []⟩
    | ok done =>
      have hown : (⟨handler, s, .ok done, t⟩ : Leg σ).IsOwn backend stage := hwork
      exact ⟨_, (runs_nil backend stage _).cons hown rfl⟩
  | link handler rest ih =>
    rcases hwork : (handler.serve stage).under backend s with ⟨result, t⟩
    have hserve : ((link handler rest).serve stage).under backend s = _ :=
      Operation.under_bind (Operation.counted handler.name (handler.serve stage))
        (fun _ ↦ rest.serve stage) backend s
    rw [hserve, Operation.under_counted, hwork]
    cases result with
    | error fault =>
      have hown : (⟨handler, s, .error fault, t⟩ : Leg σ).IsOwn backend stage := hwork
      exact ⟨_, runs_of_failed hown rfl rest.handlers⟩
    | ok done =>
      have hown : (⟨handler, s, .ok done, t⟩ : Leg σ).IsOwn backend stage := hwork
      obtain ⟨legs, hruns⟩ := ih (backend.record (.handled handler.name true) t)
      exact ⟨_, hruns.cons hown rfl⟩

/-- The counters of handlers grow by one for each leg, beside what the handlers observe. -/
theorem total_of_relay {metrics : σ → Metrics} (hmeters : backend.Meters metrics) (name : String)
    (well : Bool) (hown : ∀ leg ∈ legs, leg.IsOwn backend stage)
    (hrelay : Relay backend s legs s') :
    (metrics s').total .handlers [name, Observation.outcome well] =
      (metrics s).total .handlers [name, Observation.outcome well] +
        legs.countP (Leg.countsAs name well) +
        (legs.flatMap (Leg.observed backend stage)).count (.handled name well) := by
  induction legs generalizing s with
  | nil =>
    obtain rfl := hrelay
    rfl
  | cons leg rest ih =>
    obtain ⟨rfl, hrest⟩ := hrelay
    rw [List.forall_mem_cons] at hown
    have hcounted : (metrics (leg.counted backend)).total .handlers
        [name, Observation.outcome well] = _ := hmeters.total_record _ leg.after name well
    have hserved := hmeters.total_run (leg.handler.serve stage).run leg.before name well
    have hafter : ((leg.handler.serve stage).run.run backend leg.before).2 = leg.after :=
      congrArg Prod.snd hown.1
    have hleg : (if Leg.countsAs name well leg = true then 1 else 0) =
        if Observation.handled leg.handler.name leg.result.isOk = .handled name well then 1
        else 0 := by
      simp [Leg.countsAs]
    have hobserved : ((leg.handler.serve stage).run.observed backend leg.before).count
        (.handled name well) = (leg.observed backend stage).count (.handled name well) := rfl
    rw [hafter] at hserved
    rw [ih hown.2 hrest, List.countP_cons, List.flatMap_cons, List.count_append, hcounted, hserved,
      hleg, hobserved]
    omega

/-- A chain is linked from its end and lists its handlers in order. It runs them as the list stands,
each on what the one before left, up to the first that fails, whose failure is the chain's; and the
counters of handlers grow by one for each that ran, as it ended, and by what handlers may observe of
others in their own work. -/
theorem serve_relaysItsList {metrics : σ → Metrics} (hmeters : backend.Meters metrics)
    (first : Handler) (rest : List Handler) (stage : Stage) (s : σ) :
    ofHandlers first rest =
        node first (rest.reverse.foldl (fun next handler ↦ some (node handler next)) none) ∧
      (ofHandlers first rest).names = (first :: rest).map (·.name) ∧
      ∃ legs,
        Runs backend stage (first :: rest) s legs
          (((ofHandlers first rest).serve stage).under backend s).1
          (((ofHandlers first rest).serve stage).under backend s).2 ∧
        ∀ (name : String) (well : Bool),
          (metrics (((ofHandlers first rest).serve stage).under backend s).2).total .handlers
              [name, Observation.outcome well] =
            (metrics s).total .handlers [name, Observation.outcome well] +
              legs.countP (Leg.countsAs name well) +
              (legs.flatMap (Leg.observed backend stage)).count (.handled name well) := by
  obtain ⟨legs, hruns⟩ := exists_runs backend stage (ofHandlers first rest) s
  rw [handlers_ofHandlers] at hruns
  refine ⟨ofHandlers_eq_node first rest, ?_, legs, hruns, fun name well ↦
    total_of_relay hmeters name well hruns.own hruns.relay⟩
  rw [names, handlers_ofHandlers]

/-- Handlers of one name: the first provides a namespace, the second fails, and the third would take
the namespace away. -/
def namesakes : Handler × Handler × Handler :=
  (⟨"step", fun _ ↦ do let _ ← Operation.create (Fixture.namespaceOf "ci-dev")⟩,
    ⟨"step", fun _ ↦ Operation.fail (.other "no quota")⟩,
    ⟨"step", fun _ ↦ Operation.delete .ns ⟨"", "ci-dev"⟩⟩)

/-- Of the three the last is not reached, and the two before it count under their one name. -/
theorem serve_relaysItsList_ofNamesakes :
    ∃ legs b,
      Bench.backend.Meters Bench.metrics ∧
      Runs Bench.backend (Fixture.stage "dev" "ci" "p" 0)
        [namesakes.1, namesakes.2.1, namesakes.2.2] {} legs
        (.error (.ofCause (.other "no quota"))) b ∧
      b.metrics.total .handlers ["step", "success"] =
        0 + legs.countP (Leg.countsAs "step" true) +
          (legs.flatMap (Leg.observed Bench.backend (Fixture.stage "dev" "ci" "p" 0))).count
            (.handled "step" true) ∧
      b.metrics.total .handlers ["step", "success"] = 1 ∧
      b.metrics.total .handlers ["step", "error"] = 1 ∧
      b.store.find? .ns ⟨"", "ci-dev"⟩ = some (Fixture.namespaceOf "ci-dev") := by
  obtain ⟨-, -, legs, hruns, htotal⟩ := serve_relaysItsList Bench.meters_backend namesakes.1
    [namesakes.2.1, namesakes.2.2] (Fixture.stage "dev" "ci" "p" 0) {}
  exact ⟨legs, _, Bench.meters_backend, hruns, htotal "step" true, by decide, by decide, rfl⟩

end Chain

end PipelineOperator
