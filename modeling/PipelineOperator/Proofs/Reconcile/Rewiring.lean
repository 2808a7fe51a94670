import PipelineOperator.Proofs.Operation.Trial
import PipelineOperator.Proofs.Reconcile.Wiring

/-!
Wiring a stage says whether it changed it, and what it may change is an owner, a label and an
annotation. Each is set where it is missing and at no other place (`Stage.Wires`), so that wiring
the result once more changes nothing, as long as the stage that is recorded has a name
(`Stage.wire_tellsChanges`).
-/

set_option autoImplicit false
set_option relaxedAutoImplicit false

namespace PipelineOperator

namespace Stage

open Operation

variable {s s' previous : Stage} {T : Store} {changed : Bool} {w : Wiring}

/-! ### The stage before -/

/-- The other stage is one right before: it is stored in the same namespace, which it states, and
belongs to the same pipeline, one place before. -/
structure IsAfter (T : Store) (s previous : Stage) : Prop where
  stored : ∃ name, T.find? .stage ⟨s.metadata.namespaceOrEmpty, name⟩ = some previous
  states : previous.metadata.ns.isSome = true
  pipeline : previous.spec.pipeline = s.spec.pipeline
  order : previous.spec.order.toNat + 1 = s.spec.order.toNat

theorem follows_iff : s.follows previous = true ↔
    previous.spec.pipeline = s.spec.pipeline ∧
      previous.spec.order.toNat + 1 = s.spec.order.toNat := by
  have horder : s.spec.order ≠ 0 ∧ previous.spec.order = s.spec.order - 1 ↔
      previous.spec.order.toNat + 1 = s.spec.order.toNat := by
    rw [← UInt32.toNat_inj, ne_eq, ← UInt32.toNat_inj, UInt32.toNat_sub]
    have := previous.spec.order.toNat_lt
    have := s.spec.order.toNat_lt
    simp only [UInt32.toNat_ofNat]
    omega
  rw [← horder]
  simp only [follows, Bool.and_eq_true, bne_iff_ne, beq_iff_eq]
  exact ⟨fun ⟨⟨hlater, hpipeline⟩, hbefore⟩ ↦ ⟨hpipeline, hlater, hbefore⟩,
    fun ⟨hpipeline, hlater, hbefore⟩ ↦ ⟨⟨hlater, hpipeline⟩, hbefore⟩⟩

theorem isAfter_iff : s.IsAfter T previous ↔
    previous ∈ T.listed s.metadata.namespaceOrEmpty none ∧ s.follows previous = true := by
  rw [Store.mem_listed, follows_iff]
  constructor
  · rintro ⟨⟨name, hstored⟩, hstates, hpipeline, horder⟩
    exact ⟨⟨_, hstored, rfl, nofun, hstates⟩, hpipeline, horder⟩
  · rintro ⟨⟨key, hstored, hns, -, hstates⟩, hpipeline, horder⟩
    exact ⟨⟨key.name, hns ▸ hstored⟩, hstates, hpipeline, horder⟩

theorem isAfter_of_predecessor? (hfound : s.predecessor? T = some previous) :
    s.IsAfter T previous :=
  isAfter_iff.mpr ⟨List.mem_of_find?_eq_some hfound, List.find?_some hfound⟩

theorem exists_predecessor? (hafter : s.IsAfter T previous) :
    ∃ found, s.predecessor? T = some found := by
  obtain ⟨hlisted, hfollows⟩ := isAfter_iff.mp hafter
  exact Option.isSome_iff_exists.mp (List.find?_isSome.mpr ⟨previous, hlisted, hfollows⟩)

/-- Which stages are right before does not depend on what wiring may change. -/
theorem isAfter_withWiring : (s.withWiring w).IsAfter T previous ↔ s.IsAfter T previous :=
  ⟨fun ⟨hstored, hstates, hpipeline, horder⟩ ↦ ⟨hstored, hstates, hpipeline, horder⟩,
    fun ⟨hstored, hstates, hpipeline, horder⟩ ↦ ⟨hstored, hstates, hpipeline, horder⟩⟩

/-! ### What wiring comes to -/

/-- What wiring makes of a stage, and whether it says that it changed it. -/
structure Wires (T : Store) (s : Stage) (changed : Bool) (s' : Stage) : Prop where
  unchanged : changed = false ↔ s' = s
  /-- At most the pipeline is appended, as the controlling owner, if no pipeline owned the stage. -/
  owners : s'.metadata.owners = s.metadata.owners ∨
    s.hasPipelineOwner = false ∧ ∃ pipeline owner,
      T.find? .pipeline s.pipelineKey = some pipeline ∧
        Kind.pipeline.controllerReference pipeline.metadata = some owner ∧
        s'.metadata.owners = some (s.metadata.ownerList ++ [owner])
  label : s'.metadata.label? Naming.pipelineLabel = some s.spec.pipeline
  labels : ∀ name, name ≠ Naming.pipelineLabel →
    s'.metadata.label? name = s.metadata.label? name
  /-- Where the stage before is recorded, or the stage is the first, that is left as it is. -/
  kept : s.isFirst = true ∨ s.previousName?.isSome = true →
    s'.metadata.annotations = s.metadata.annotations
  /-- Otherwise one right before is recorded if there is any. -/
  recorded : s.isFirst = false → s.previousName? = none →
    (∃ previous, s.IsAfter T previous ∧
      s'.metadata.annotation? Naming.previousStageAnnotation = some previous.spec.name) ∨
    (∀ previous, ¬ s.IsAfter T previous) ∧ s'.metadata.annotations = s.metadata.annotations
  annotations : ∀ name, name ≠ Naming.previousStageAnnotation →
    s'.metadata.annotation? name = s.metadata.annotation? name
  /-- All else is as it was. -/
  rest : { s' with metadata := { s'.metadata with
    owners := s.metadata.owners
    labels := s.metadata.labels
    annotations := s.metadata.annotations } } = s

theorem ownersIn_cases (T : Store) (s : Stage) : s.ownersIn T = s.metadata.owners ∨
    s.hasPipelineOwner = false ∧ ∃ pipeline owner,
      T.find? .pipeline s.pipelineKey = some pipeline ∧
        Kind.pipeline.controllerReference pipeline.metadata = some owner ∧
        s.ownersIn T = some (s.metadata.ownerList ++ [owner]) := by
  unfold ownersIn
  by_cases howner : s.hasPipelineOwner = true
  · exact .inl (if_pos howner)
  · rw [if_neg howner]
    cases hpipeline : T.find? .pipeline s.pipelineKey with
    | none => exact .inl rfl
    | some pipeline =>
      rw [Option.bind_some]
      cases hreference : Kind.pipeline.controllerReference pipeline.metadata with
      | none => exact .inl rfl
      | some owner =>
        exact .inr ⟨eq_false_of_ne_true howner, pipeline, owner, rfl, hreference, rfl⟩

/-- Wiring touches no other label. -/
theorem get?_labelsOf_of_ne (s : Stage) {name : String} (hname : name ≠ Naming.pipelineLabel) :
    (s.labelsOf.getD ∅).get? name = s.metadata.label? name := by
  unfold labelsOf
  split
  · rfl
  · exact SortedMap.get?_insert_of_ne _ hname _

theorem annotationsIn_of_kept (hkept : s.isFirst = true ∨ s.previousName?.isSome = true) :
    s.annotationsIn T = s.metadata.annotations := if_pos (Bool.or_eq_true_iff.mpr hkept)

theorem annotationsIn_of_lacking (hlater : s.isFirst = false) (hlacking : s.previousName? = none) :
    (∃ previous, s.IsAfter T previous ∧ s.annotationsIn T =
        some (s.metadata.annotationMap.insert Naming.previousStageAnnotation previous.spec.name)) ∨
      (∀ previous, ¬ s.IsAfter T previous) ∧ s.annotationsIn T = s.metadata.annotations := by
  unfold annotationsIn
  rw [hlater, hlacking]
  cases hfound : s.predecessor? T with
  | none =>
    refine .inr ⟨fun previous hafter ↦ ?_, rfl⟩
    obtain ⟨found, hsome⟩ := exists_predecessor? hafter
    exact nomatch hfound.symm.trans hsome
  | some previous => exact .inl ⟨previous, isAfter_of_predecessor? hfound, rfl⟩

/-- Wiring touches no other annotation. -/
theorem get?_annotationsIn_of_ne (T : Store) (s : Stage) {name : String}
    (hname : name ≠ Naming.previousStageAnnotation) :
    ((s.annotationsIn T).getD ∅).get? name = s.metadata.annotation? name := by
  unfold annotationsIn
  split
  · rfl
  · split
    · rfl
    · exact SortedMap.get?_insert_of_ne _ hname _

/-- Wiring what is wired changes nothing, as long as the stage right before has a name. -/
theorem on_wire_of_named (hnamed : ∀ previous, s.IsAfter T previous → previous.spec.name ≠ "")
    (howned : s.IsOwned T) (hlabelled : s.IsLabelled) (hrecorded : s.IsRecorded T) :
    s.wire.on T = (.ok (false, s), T) := by
  obtain ⟨changed, hwire, hunchanged⟩ := on_wire_of_wired howned hlabelled hrecorded
  obtain rfl := hunchanged fun previous hfound ↦ hnamed previous (isAfter_of_predecessor? hfound)
  exact hwire

/-- Without failing calls, wiring a stage that is no orphan comes to this, and the result is wired
already. -/
theorem wires_of_on_wire (hnamed : ∀ previous, s.IsAfter T previous → previous.spec.name ≠ "")
    (hparent : ¬ s.IsOrphan T) : ∃ changed s', s.wire.on T = (.ok (changed, s'), T) ∧
      s.Wires T changed s' ∧ s'.wire.on T = (.ok (false, s'), T) := by
  obtain ⟨changed, w, hwire, hw, howned, hlabelled, hrecorded, hunchanged⟩ := on_wire hparent
  refine ⟨changed, s.withWiring w, hwire, ?_, on_wire_of_named
    (fun previous hafter ↦ hnamed previous (isAfter_withWiring.mp hafter))
    howned hlabelled hrecorded⟩
  have hreported : changed = false ↔ s.withWiring w = s := by
    refine ⟨fun hsame ↦ hunchanged hsame ▸ rfl, fun hself ↦ ?_⟩
    rw [hself] at howned hlabelled hrecorded
    have hagain := on_wire_of_named hnamed howned hlabelled hrecorded
    rw [hwire] at hagain
    exact (Prod.mk.inj (Except.ok.inj (Prod.mk.inj hagain).1)).1
  subst hw
  exact {
    unchanged := hreported
    owners := ownersIn_cases T s
    label := hlabelled
    labels := fun name hname ↦ get?_labelsOf_of_ne s hname
    kept := annotationsIn_of_kept
    recorded := fun hlater hlacking ↦ by
      rcases annotationsIn_of_lacking hlater hlacking with ⟨previous, hafter, hset⟩ | hnone
      · refine .inl ⟨previous, hafter, ?_⟩
        show ((s.annotationsIn T).getD ∅).get? Naming.previousStageAnnotation = _
        rw [hset]
        exact SortedMap.get?_insert_self ..
      · exact .inr hnone
    annotations := fun name hname ↦ get?_annotationsIn_of_ne T s hname
    rest := rfl }

/-- Wiring that succeeds, whichever calls fail, reports a change just if it makes one, appends the
owner, sets the label and the annotation that were missing and alters nothing else; wiring the
result again reports no change. -/
theorem wire_tellsChanges {b : Bench} {faults : Nat → Option Fault}
    (hnamed : ∀ previous, s.IsAfter b.store previous → previous.spec.name ≠ "")
    (hok : (s.wire.attempt faults b).1 = .ok (changed, s')) :
    s.Wires b.store changed s' ∧ (s.wire.attempt faults b).2.state.store = b.store ∧
      (b.IsServing →
        (s'.wire.onBench (s.wire.attempt faults b).2.state).1 = .ok (false, s')) := by
  have hon : s.wire.on b.store =
      (.ok (changed, s'), (s.wire.attempt faults b).2.state.store) := by
    have hwired := Surely.amid (t := { state := b }) (atomic_wire s b.store) faults
    rcases hwired with ⟨e, herror, -⟩ | hon
    · exact nomatch hok.symm.trans herror
    · exact hon.trans (Prod.ext hok rfl)
  have hparent : ¬ s.IsOrphan b.store := fun horphan ↦
    nomatch (congrArg Prod.fst hon).symm.trans (congrArg Prod.fst (rests_wire_of_orphan horphan).on)
  obtain ⟨changed', s'', hwire, hwires, hagain⟩ := wires_of_on_wire hnamed hparent
  obtain ⟨hresult, hstore⟩ := Prod.mk.inj (hwire.symm.trans hon)
  obtain ⟨rfl, rfl⟩ := Prod.mk.inj (Except.ok.inj hresult)
  refine ⟨hwires, hstore.symm, fun hserving ↦ ?_⟩
  have hstill : (s.wire.attempt faults b).2.state.IsServing :=
    Program.isServing_hindered s.wire.run (t := { state := b }) hserving
  exact (onBench_eq _ hstill).1.trans (hstore ▸ congrArg Prod.fst hagain)

/-- A second stage gets its pipeline as owner, the label, and the first stage as the one before. -/
theorem wire_tellsChanges_afterFirst : ∃ s',
    ((Fixture.stage "qa" "ci" "p" 1).wire.attempt (fun _ ↦ none) Bench.withStage).1 =
      .ok (true, s') ∧
    s'.metadata.ownerList.map (fun owner ↦ owner.name) = ["p"] ∧
    s'.metadata.annotation? Naming.previousStageAnnotation = some "dev" ∧
    Wires Bench.withStage.store (Fixture.stage "qa" "ci" "p" 1) true s' ∧
    (s'.wire.onBench ((Fixture.stage "qa" "ci" "p" 1).wire.attempt (fun _ ↦ none)
      Bench.withStage).2.state).1 = .ok (false, s') := by
  have hwire : ∃ s', ((Fixture.stage "qa" "ci" "p" 1).wire.attempt (fun _ ↦ none)
      Bench.withStage).1 = .ok (true, s') ∧
      s'.metadata.ownerList.map (fun owner ↦ owner.name) = ["p"] ∧
      s'.metadata.annotation? Naming.previousStageAnnotation = some "dev" := ⟨_, rfl, rfl, rfl⟩
  obtain ⟨s', hok, howner, hrecorded⟩ := hwire
  have hnamed : ∀ previous, (Fixture.stage "qa" "ci" "p" 1).IsAfter Bench.withStage.store
      previous → previous.spec.name ≠ "" := by
    rintro previous ⟨⟨name, hstored⟩, -, -, -⟩
    rw [Bench.find?_withStage hstored]
    decide
  obtain ⟨hwires, -, hagain⟩ := wire_tellsChanges hnamed hok
  exact ⟨s', hok, howner, hrecorded, hwires, hagain Bench.isServing_withStage⟩

end Stage

end PipelineOperator
