import PipelineOperator.Proofs.Operation.Keeping
import PipelineOperator.Proofs.Operation.OnBench
import PipelineOperator.Proofs.Reconcile.Pipeline
import PipelineOperator.Reconcile.Fanout

/-!
Whether the stages of a pipeline hear of its edits. Two consumers follow a pipeline: its own
reconciliation, which records the generation that it worked off, and the controller of stages, which
enqueues the stages of a version that is ahead of the recorded generation. They may take their turns
in any order, and the controller may skip versions.

A version is due if the pipeline was edited and not reconciled since (`Pipeline.due`), and the
stages are enqueued for the due versions and no others (`enqueued_in_course`). So the stages hear of
an edit if a version of it is delivered before the reconciliation that works it off. If the
reconciliation comes first they do not, although a version is delivered (`enqueued_of_reconciled`).
-/

set_option autoImplicit false
set_option relaxedAutoImplicit false

namespace PipelineOperator

open Operation

/-! ### One pipeline -/

/-- The next integer of 64 bits, where there is one. -/
theorem toInt_add_one_of_lt {n : Int64} (h : n.toInt < Int64.maxValue.toInt) :
    (n + 1).toInt = n.toInt + 1 := by
  have hlow := Int64.minValue_le_toInt n
  have hmax : Int64.maxValue.toInt = 9223372036854775807 := rfl
  have hmin : Int64.minValue.toInt = -9223372036854775808 := rfl
  rw [Int64.toInt_add]
  exact Int.bmod_eq_of_le (by simp; omega) (by simp; omega)

namespace Pipeline

/-- The pipeline with another specification, which is its next generation. -/
def edited (p : Pipeline) (spec : PipelineSpec) : Pipeline :=
  { p with
    metadata := { p.metadata with generation := p.metadata.generation.map (· + 1) }
    spec := spec }

/-- Where a pipeline stands: at a generation, with none beyond it worked off, and due or not. -/
structure Stands (p : Pipeline) (n : Int) (deleting pending : Bool) : Prop where
  generation : ∃ g, p.metadata.generation = some g ∧ g.toInt = n
  observed : ∀ o, p.observedGeneration = some o → o.toInt ≤ n
  deleting : p.isDeleting = deleting
  ahead : p.isAhead = pending

variable {p : Pipeline} {n : Int} {deleting pending : Bool}

/-- An edit is a generation that was not worked off. -/
theorem Stands.edited (hstands : p.Stands n deleting pending) (hn : n < Int64.maxValue.toInt)
    (spec : PipelineSpec) : (p.edited spec).Stands (n + 1) deleting true := by
  obtain ⟨g, hg, rfl⟩ := hstands.generation
  have hnext : (p.edited spec).metadata.generation = some (g + 1) := by
    simp [Pipeline.edited, hg]
  have hsucc : (g + 1).toInt = g.toInt + 1 := toInt_add_one_of_lt hn
  refine ⟨⟨_, hnext, hsucc⟩, fun o ho ↦ ?_, hstands.deleting, ?_⟩
  · have := hstands.observed o ho
    omega
  · show PipelineOperator.isAhead (p.edited spec).metadata.generation p.observedGeneration = true
    rw [hnext]
    cases ho : p.observedGeneration with
    | none => rfl
    | some o =>
      have hle := hstands.observed o ho
      have hne : g + 1 ≠ o := by
        rintro rfl
        omega
      simpa [PipelineOperator.isAhead] using hne

/-- A reconciliation works off the generation of a live pipeline. -/
theorem Stands.reconciled (hstands : p.Stands n deleting pending) {s : Store} {key : Key}
    (hkeyed : s.KeyedAt .pipeline) (hfound : s.find? .pipeline key = some p) (context : Context)
    {left : Pipeline}
    (hleft : ((reconcilePipeline context key).on s).2.find? .pipeline key = some left) :
    left.Stands n deleting (pending && deleting) := by
  obtain ⟨hdeleting, hgeneration, hobserved, hahead⟩ :=
    find?_reconcilePipeline context hkeyed hfound hleft
  obtain ⟨g, hg, hn⟩ := hstands.generation
  refine ⟨⟨g, hgeneration.trans hg, hn⟩, fun o ho ↦ ?_, hdeleting.trans hstands.deleting, ?_⟩
  · rcases hobserved with hsame | hworked
    · exact hstands.observed o (hsame ▸ ho)
    · rw [hworked, hg, Option.some.injEq] at ho
      exact Int.le_of_eq (ho ▸ hn)
  · rw [hahead, hstands.ahead, hstands.deleting]

/-! ### Courses of one pipeline -/

/-- Something that happens to a pipeline. -/
inductive Happening where
  /-- A client gives it another specification. -/
  | edited (spec : PipelineSpec)
  /-- The operator reconciles it. -/
  | reconciled (context : Context)
  /-- The controller of stages, which knows these stages, is shown the stored version. -/
  | delivered (known : List Stage)

namespace Happening

def onBench (key : Key) : Happening → Bench → Bench
  | edited spec, b =>
    match b.store.find? .pipeline key with
    | none => b
    | some pipeline => b.put (Pipeline.edited pipeline spec)
  | reconciled context, b => ((reconcilePipeline context key).onBench b).2
  | delivered _, b => b

/-- The version that is stored afterwards is still due. The generation of a deleting pipeline is not
worked off. -/
def leavesDue (deleting due : Bool) : Happening → Bool
  | edited _ => true
  | reconciled _ => due && deleting
  | delivered _ => due

/-- The generation grows with every edit. -/
def steps : Happening → Nat
  | edited _ => 1
  | _ => 0

end Happening

/-- Whether a version is due after a course, if one was before. -/
def due (deleting : Bool) (before : Bool) (course : List Happening) : Bool :=
  course.foldl (fun due happening ↦ happening.leavesDue deleting due) before

/-- How many edits there are in a course. -/
def edits : List Happening → Nat
  | [] => 0
  | happening :: course => happening.steps + edits course

theorem edits_append (course rest : List Happening) :
    edits (course ++ rest) = edits course + edits rest := by
  induction course with
  | nil => exact (Nat.zero_add _).symm
  | cons happening course ih => simp only [List.cons_append, edits, ih, Nat.add_assoc]

/-- An edit is due as long as the pipeline is not reconciled, or if it is being deleted. -/
theorem due_of_edited {deleting before : Bool} {start between : List Happening}
    {spec : PipelineSpec}
    (hundisturbed : deleting = false → ∀ context, .reconciled context ∉ between) :
    due deleting before (start ++ .edited spec :: between) = true := by
  have hstays : ∀ later : List Happening,
      (deleting = false → ∀ context, .reconciled context ∉ later) →
        due deleting true later = true := by
    intro later hlater
    induction later with
    | nil => rfl
    | cons happening later ih =>
      have hrest : due deleting true later = true :=
        ih fun hlive context hmem ↦ hlater hlive context (List.mem_cons_of_mem _ hmem)
      have hfirst : happening.leavesDue deleting true = true := by
        cases happening with
        | edited spec => rfl
        | delivered known => rfl
        | reconciled context =>
          cases deleting with
          | true => rfl
          | false => exact absurd List.mem_cons_self (hlater rfl context)
      rw [due, List.foldl_cons, hfirst]
      exact hrest
  rw [due, List.foldl_append, List.foldl_cons]
  exact hstays between hundisturbed

end Pipeline

/-- What a course of one pipeline leaves of a bench. -/
def Bench.through (b : Bench) (key : Key) (course : List Pipeline.Happening) : Bench :=
  course.foldl (fun b happening ↦ happening.onBench key b) b

/-- The stages that are enqueued when the stored version is delivered. -/
def Bench.enqueued (b : Bench) (key : Key) (known : List Stage) : List Stage :=
  match b.store.find? .pipeline key with
  | none => []
  | some pipeline => Pipeline.stagesToEnqueue pipeline known

namespace Pipeline

variable {n : Int} {deleting pending : Bool}

/-- What is known of a pipeline in a course, on a bench that serves every call. -/
structure IsTracked (b : Bench) (key : Key) (n : Int) (deleting pending : Bool) : Prop where
  serving : b.IsServing
  keyed : b.store.Keyed
  stands : ∀ p : Pipeline, b.store.find? .pipeline key = some p → p.Stands n deleting pending

/-- What is known of a pipeline stays known, whatever happens. -/
theorem IsTracked.onBench {b : Bench} {key : Key} (htracked : IsTracked b key n deleting pending)
    (happening : Happening) (hfits : n + happening.steps ≤ Int64.maxValue.toInt) :
    IsTracked (happening.onBench key b) key (n + happening.steps) deleting
      (happening.leavesDue deleting pending) := by
  cases happening with
  | delivered known => exact (Int.add_zero n).symm ▸ htracked
  | edited spec =>
    have hn : n < Int64.maxValue.toInt := by
      simp only [Happening.steps] at hfits
      omega
    cases hfound : b.store.find? .pipeline key with
    | none =>
      have habsent : Happening.onBench key (.edited spec) b = b := by
        rw [Happening.onBench, hfound]
      rw [habsent]
      exact ⟨htracked.serving, htracked.keyed, fun p hp ↦ nomatch hfound.symm.trans hp⟩
    | some pipeline =>
      have hstored : pipeline.key = key := htracked.keyed _ hfound
      have hkey : (edited pipeline spec).key = key := hstored
      have hput : Happening.onBench key (.edited spec) b = b.put (edited pipeline spec) := by
        rw [Happening.onBench, hfound]
      have hleft : (b.put (edited pipeline spec)).store.find? .pipeline key =
          some (edited pipeline spec) := hkey ▸ Store.find?_put_self b.store _
      rw [hput]
      refine ⟨⟨htracked.serving.namespaces, htracked.serving.spaces, htracked.serving.status⟩,
        fun k ↦ (htracked.keyed k).put _, fun p hp ↦ ?_⟩
      obtain rfl := Option.some.inj (hleft.symm.trans hp)
      exact (htracked.stands pipeline hfound).edited hn spec
  | reconciled context =>
    obtain ⟨-, hstore, hserving⟩ := onBench_eq (reconcilePipeline context key) htracked.serving
    refine ⟨hserving, ?_, fun left hleft ↦ ?_⟩
    · show ((reconcilePipeline context key).onBench b).2.store.Keyed
      rw [hstore]
      exact keeps_keyed _ _ htracked.keyed
    · change ((reconcilePipeline context key).onBench b).2.store.find? .pipeline key =
        some left at hleft
      rw [hstore] at hleft
      cases hfound : b.store.find? .pipeline key with
      | none =>
        rw [(rests_reconcilePipeline_of_absent context hfound).on, hfound] at hleft
        exact nomatch hleft
      | some pipeline =>
        have hstands := (htracked.stands pipeline hfound).reconciled (htracked.keyed _) hfound
          context hleft
        simpa [Happening.steps, Happening.leavesDue] using hstands

/-- What is known of a pipeline after a course. -/
theorem IsTracked.through {b : Bench} {key : Key} (htracked : IsTracked b key n deleting pending)
    (course : List Happening) (hfits : n + edits course ≤ Int64.maxValue.toInt) :
    IsTracked (b.through key course) key (n + edits course) deleting
      (due deleting pending course) := by
  induction course generalizing b n pending with
  | nil => exact (Int.add_zero n).symm ▸ htracked
  | cons happening course ih =>
    have hsum : edits (happening :: course) = happening.steps + edits course := rfl
    have hfirst := htracked.onBench happening (by omega)
    have hrest := ih hfirst (by omega)
    rw [hsum, Int.natCast_add, ← Int.add_assoc]
    exact hrest

end Pipeline

/-- In every course the stages of a pipeline are enqueued for the versions that are due, and no
stage for any other version. So if some version is delivered after an edit and before the pipeline
is reconciled, or the pipeline is being deleted, then every stage that carries its name is enqueued,
of at most so many. -/
theorem enqueued_in_course {b : Bench} (hserving : b.IsServing) (hsound : b.store.Sound)
    {key : Key} {pipeline : Pipeline} (hfound : b.store.find? .pipeline key = some pipeline)
    {generation : Int64} (hgeneration : pipeline.metadata.generation = some generation)
    (hobserved : ∀ o, pipeline.observedGeneration = some o → o.toInt ≤ generation.toInt)
    {course before rest : List Pipeline.Happening} {known : List Stage}
    (hcourse : course = before ++ .delivered known :: rest)
    (hfits : generation.toInt + Pipeline.edits course ≤ Int64.maxValue.toInt)
    {stored : Pipeline} (hstored : (b.through key before).store.find? .pipeline key = some stored) :
    ((b.through key before).enqueued key known =
        if Pipeline.due pipeline.isDeleting pipeline.isAhead before then
          (known.filter stored.claims).take Pipeline.fanoutLimit
        else []) ∧
      ∀ start spec between, before = start ++ .edited spec :: between →
        (pipeline.isDeleting = false → ∀ context, .reconciled context ∉ between) →
        (known.filter stored.claims).length ≤ Pipeline.fanoutLimit →
        ∀ stage ∈ known, stored.claims stage = true →
          stage ∈ (b.through key before).enqueued key known := by
  have htracked : Pipeline.IsTracked b key generation.toInt pipeline.isDeleting
      pipeline.isAhead := by
    refine ⟨hserving, hsound.toKeyed, fun p hp ↦ ?_⟩
    obtain rfl := Option.some.inj (hfound.symm.trans hp)
    exact ⟨⟨generation, hgeneration, rfl⟩, hobserved, rfl, rfl⟩
  have hfits' : generation.toInt + Pipeline.edits before ≤ Int64.maxValue.toInt := by
    have hsum : Pipeline.edits course =
        Pipeline.edits before + Pipeline.edits (.delivered known :: rest) :=
      hcourse ▸ Pipeline.edits_append _ _
    omega
  have hahead := ((htracked.through before hfits').stands stored hstored).ahead
  have henqueued : (b.through key before).enqueued key known =
      if Pipeline.due pipeline.isDeleting pipeline.isAhead before then
        (known.filter stored.claims).take Pipeline.fanoutLimit
      else [] := by
    rw [Bench.enqueued, hstored]
    show (if stored.isAhead then _ else _) = _
    rw [hahead]
  refine ⟨henqueued, fun start spec between hbefore hundisturbed hlimit stage hknown hclaims ↦ ?_⟩
  rw [henqueued, hbefore, Pipeline.due_of_edited hundisturbed, if_pos rfl,
    List.take_of_length_le hlimit]
  exact List.mem_filter.mpr ⟨hknown, hclaims⟩

/-- A stage that carries the name of its pipeline. -/
def Fixture.namedStage (name ns pipeline : String) (order : UInt32) : Stage :=
  let plain := stage name ns pipeline order
  { plain with metadata := plain.metadata.setLabel Naming.pipelineLabel pipeline }

theorem enqueued_in_course_withStage :
    Fixture.namedStage "dev" "ci" "p" 0 ∈
      ((Bench.seedPipeline {} ["cb-a"]).through ⟨"ci", "p"⟩
        [.reconciled { now := ⟨0, 0⟩ }, .edited { name := "p" }]).enqueued ⟨"ci", "p"⟩
          [Fixture.namedStage "dev" "ci" "p" 0] := by
  have hfound : (Bench.seedPipeline {} ["cb-a"]).store.find? .pipeline ⟨"ci", "p"⟩ =
      some (Fixture.pipeline "p" "ci" ["img-a"] ["cb-a"] ["cb-a"]) := rfl
  have hstored : ∃ stored : Pipeline, ((Bench.seedPipeline {} ["cb-a"]).through ⟨"ci", "p"⟩
      [.reconciled { now := ⟨0, 0⟩ }, .edited { name := "p" }]).store.find? .pipeline
        ⟨"ci", "p"⟩ = some stored ∧ stored.claims (Fixture.namedStage "dev" "ci" "p" 0) = true :=
    ⟨_, rfl, rfl⟩
  obtain ⟨stored, hstored, hclaims⟩ := hstored
  have hlimit : ([Fixture.namedStage "dev" "ci" "p" 0].filter stored.claims).length ≤
      Pipeline.fanoutLimit := Nat.le_trans (List.length_filter_le _ _) (by decide)
  have hcourse : [.reconciled { now := ⟨0, 0⟩ }, .edited { name := "p" },
      .delivered [Fixture.namedStage "dev" "ci" "p" 0]] =
        [.reconciled { now := ⟨0, 0⟩ }, .edited { name := "p" }] ++
          Pipeline.Happening.delivered [Fixture.namedStage "dev" "ci" "p" 0] :: [] := rfl
  exact (enqueued_in_course ⟨rfl, rfl, rfl⟩ (Bench.sound_seeded _) hfound rfl nofun hcourse
    (by decide) hstored).2 [.reconciled { now := ⟨0, 0⟩ }] _ [] rfl
      (fun _ _ ↦ List.not_mem_nil) hlimit _ List.mem_cons_self hclaims

/-- A course in which a version is delivered after an edit, and yet the stage that carries the name
of the pipeline is not enqueued: the pipeline was reconciled before the delivery. -/
theorem enqueued_of_reconciled :
    (Fixture.pipeline "p" "ci" ["img-a"] ["cb-a"] ["cb-a"]).claims
        (Fixture.namedStage "dev" "ci" "p" 0) = true ∧
      ∀ before known rest,
        [.edited { name := "p" }, .reconciled { now := ⟨0, 0⟩ },
            .delivered [Fixture.namedStage "dev" "ci" "p" 0]] =
          before ++ .delivered known :: rest →
        known = [Fixture.namedStage "dev" "ci" "p" 0] ∧
          ((Bench.seedPipeline {} ["cb-a"]).through ⟨"ci", "p"⟩ before).enqueued ⟨"ci", "p"⟩
            known = [] := by
  refine ⟨rfl, fun before known rest hcourse ↦ ?_⟩
  match before, hcourse with
  | [], hcourse => exact nomatch hcourse
  | [_], hcourse => exact nomatch hcourse
  | [first, second], hcourse =>
    simp only [List.cons_append, List.nil_append, List.cons.injEq,
      Pipeline.Happening.delivered.injEq] at hcourse
    obtain ⟨rfl, rfl, rfl, -⟩ := hcourse
    exact ⟨rfl, rfl⟩
  | _ :: _ :: _ :: before, hcourse => simp at hcourse

end PipelineOperator
