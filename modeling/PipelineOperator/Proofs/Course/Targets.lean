import PipelineOperator.Proofs.Course.Basic

/-!
Which targets a course may cost. The name of a target leaves out the pipeline, and provisioning
takes over a place that is there. So a place that a reconciliation removes is the target of its
stage, and was provided in the course for that stage unless it was there from the start or is
shared: provided for a stage of the same name, of another pipeline (`removed_in_course`). Both
happen (`removed_in_course_of_shared`).
-/

set_option autoImplicit false
set_option relaxedAutoImplicit false

namespace PipelineOperator

open Operation

theorem Naming.targetNamespace_injective {source stage stage' : String}
    (hsame : targetNamespace source stage = targetNamespace source stage') : stage = stage' := by
  unfold targetNamespace at hsame
  rwa [String.append_right_inj] at hsame

/-- The stages have the same name and belong to different pipelines. -/
def Stage.IsNamesake (stage stage' : Stage) : Prop :=
  stage.spec.name = stage'.spec.name ∧ stage.spec.pipeline ≠ stage'.spec.pipeline

/-- Within a namespace no two stages of a pipeline have the same name. -/
def Store.TellsStages (s : Store) (ns : String) : Prop :=
  ∀ stage stage' : Stage, s.find? .stage stage.key = some stage →
    s.find? .stage stage'.key = some stage' → stage.key.ns = ns → stage'.key.ns = ns →
    stage.spec.pipeline = stage'.spec.pipeline → stage.spec.name = stage'.spec.name →
    stage.key = stage'.key

/-- In the course the object was created by provisioning the stage, live at that time, of which it
is the target. -/
def Bench.Provides (b : Bench) (course : List Happening) (stage : Stage) {k : Kind} (place : Key)
    (o : Object k) : Prop :=
  b.Reconciles course stage.key fun context now ↦
    now.store.find? .stage stage.key = some stage ∧ stage.isDeleting = false ∧
    k = context.targetKind ∧ place = ⟨"", stage.target⟩ ∧ now.store.find? k place = none ∧
    ((reconcileStage context stage.key).onBench now).2.store.find? k place = some o

section Course

variable {b : Bench} {course : List Happening} {context : Context} {key place : Key} {k : Kind}
  {o : Object k} {stage : Stage} {ns : String}

/-- A place is from the start, or was provided. -/
theorem Bench.found_or_provides (hserving : b.IsServing) (hkeyed : b.store.Keyed)
    (hk : k = .ns ∨ k = .space) (hfound : (b.after course).store.find? k place = some o) :
    b.store.find? k place = some o ∨ ∃ maker, b.Provides course maker place o := by
  induction course generalizing b with
  | nil => exact .inl hfound
  | cons happening course ih =>
    obtain ⟨hstore, hserving'⟩ := happening.onBench_store hserving
    have hkeyed' : (happening.onBench b).store.Keyed := by
      rw [hstore]
      exact Store.keyed_on happening hkeyed
    rcases ih hserving' hkeyed' hfound with hthere | ⟨maker, hprovides⟩
    · have hstage : k ≠ .stage := by rcases hk with rfl | rfl <;> decide
      have hpipeline : k ≠ .pipeline := by rcases hk with rfl | rfl <;> decide
      have hsame (h : (happening.on b.store).find? k place = b.store.find? k place) :
          b.store.find? k place = some o := by rw [← h, ← hstore, hthere]
      cases happening with
      | marked key => exact .inl (hsame (Store.find?_markDeleted_of_ne hstage ..))
      | respecified key spec => exact .inl (hsame (Store.find?_respecify_of_ne hpipeline ..))
      | reconciled context key =>
        rcases find?_place_reconcileStage hk place context key (hkeyed _) with
          h | ⟨stage, hstage, hkind, hplace, ⟨hlive, hnone⟩ | ⟨-, -, hgone⟩⟩
        · exact .inl (hsame h)
        · obtain rfl : stage.key = key := hkeyed _ hstage
          exact .inr ⟨stage, Bench.reconciles_cons.mpr
            (.inl ⟨context, rfl, hstage, hlive, hkind, hplace, hnone, hthere⟩)⟩
        · rw [hstore] at hthere
          exact nomatch hgone.symm.trans hthere
    · exact .inr ⟨maker, Bench.reconciles_cons.mpr (.inr hprovides)⟩

/-- A stage that is found in a course was there from the start. -/
theorem Bench.origin_of_found (hserving : b.IsServing) (hkeyed : b.store.Keyed)
    (hfound : (b.after course).store.find? .stage stage.key = some stage) :
    ∃ before : Stage, b.store.find? .stage before.key = some before ∧ before.key = stage.key ∧
      before.spec = stage.spec := by
  rw [(b.after_store hserving course).1] at hfound
  obtain ⟨before, hbefore, hbecomes⟩ := hkeyed.stagesLast_after course hfound
  have hkey : before.key = stage.key := hkeyed _ hbefore
  exact ⟨before, by rw [hkey, hbefore], hkey, hbecomes.spec.symm⟩

/-- Stages of a namespace that have the same target, at whatever times, are the same stage or have
the same name in different pipelines. -/
theorem Bench.eq_or_isNamesake (hserving : b.IsServing) (hkeyed : b.store.Keyed)
    (htells : b.store.TellsStages ns) {course' : List Happening} {stage' : Stage}
    (hfound : (b.after course).store.find? .stage stage.key = some stage)
    (hfound' : (b.after course').store.find? .stage stage'.key = some stage')
    (hns : stage.key.ns = ns) (hns' : stage'.key.ns = ns) (htarget : stage.target = stage'.target) :
    stage.key = stage'.key ∨ stage.IsNamesake stage' := by
  have hname : stage.spec.name = stage'.spec.name := by
    have hsource : stage.metadata.namespaceOrEmpty = stage'.metadata.namespaceOrEmpty :=
      hns.trans hns'.symm
    unfold Stage.target at htarget
    rw [hsource] at htarget
    exact Naming.targetNamespace_injective htarget
  by_cases hpipeline : stage.spec.pipeline = stage'.spec.pipeline
  · obtain ⟨before, hbefore, hkey, hspec⟩ := b.origin_of_found hserving hkeyed hfound
    obtain ⟨before', hbefore', hkey', hspec'⟩ := b.origin_of_found hserving hkeyed hfound'
    refine .inl (hkey.symm.trans ((htells before before' hbefore hbefore' ?_ ?_ ?_ ?_).trans hkey'))
    · rw [hkey, hns]
    · rw [hkey', hns']
    · rw [hspec, hspec', hpipeline]
    · rw [hspec, hspec', hname]
  · exact .inr ⟨hname, hpipeline⟩

/-- What a reconciliation costs at the end of a course in which the stages of a namespace are
reconciled, and marked for deletion, in any order: the target of its own stage, which is marked and
held by the operator. That place was there from the start, or it was provided in the course, for
this stage or for a namesake; and of the stages in the namespace only namesakes have it as their
target too. -/
theorem removed_in_course (hserving : b.IsServing) (hkeyed : b.store.Keyed)
    (htells : b.store.TellsStages ns)
    (hwithin : ∀ context' key',
      .reconciled context' key' ∈ course ++ [.reconciled context key] → key'.ns = ns)
    (hk : k = .ns ∨ k = .space) (hthere : (b.after course).store.find? k place = some o)
    (hgone : (b.after (course ++ [.reconciled context key])).store.find? k place = none) :
    ∃ stage : Stage, (b.after course).store.find? .stage key = some stage ∧
      stage.isDeleting = true ∧ stage.metadata.hasFinalizer Naming.labelCleanup = true ∧
      k = context.targetKind ∧ place = ⟨"", stage.target⟩ ∧
      (b.store.find? k place = some o ∨ ∃ maker, b.Provides course maker place o ∧
        (maker.key = key ∨ maker.IsNamesake stage)) ∧
      ∀ other : Stage, (b.after course).store.find? .stage other.key = some other →
        other.key.ns = ns → other.target = stage.target →
          other.key = key ∨ other.IsNamesake stage := by
  obtain ⟨hstore, hserving'⟩ := b.after_store hserving course
  have hkeyed' : (b.after course).store.Keyed := hstore ▸ hkeyed.after course
  have hlast : (b.after (course ++ [.reconciled context key])).store =
      ((reconcileStage context key).on (b.after course).store).2 := by
    rw [Bench.after_append]
    exact (Happening.onBench_store (.reconciled context key) hserving').1
  rw [hlast] at hgone
  have hcost := find?_place_reconcileStage hk place context key (hkeyed' _)
  rw [hgone, hthere] at hcost
  rcases hcost with h | ⟨stage, hstage, hkind, hplace, ⟨-, hnone⟩ | ⟨hdeleting, hheld, -⟩⟩
  · exact nomatch h
  · exact nomatch hnone
  obtain rfl : stage.key = key := hkeyed' _ hstage
  have hns : stage.key.ns = ns :=
    hwithin context _ (List.mem_append_right _ (List.mem_singleton_self _))
  refine ⟨stage, hstage, hdeleting, hheld, hkind, hplace, ?_, fun other hother hns' htarget ↦
    b.eq_or_isNamesake hserving hkeyed htells hother hstage hns' hns htarget⟩
  refine (b.found_or_provides hserving hkeyed hk hthere).imp_right ?_
  rintro ⟨maker, hprovides⟩
  obtain ⟨context', hin⟩ := hprovides.mem
  have hns' : maker.key.ns = ns := hwithin context' _ (List.mem_append_left _ hin)
  have ⟨before, _, _, _, hmaker, _, _, hplace', _⟩ := hprovides
  have htarget : maker.target = stage.target := congrArg Key.name (hplace'.symm.trans hplace)
  exact ⟨maker, hprovides,
    b.eq_or_isNamesake hserving hkeyed htells hmaker hstage hns' hns htarget⟩

end Course

/-- A stage is provisioned, marked for deletion, and taken down: its namespace goes, which it had
got in the course. -/
theorem removed_in_course_withStage :
    let dev := (Fixture.stage "dev" "ci" "p" 0).key
    let course := [.reconciled { now := ⟨0, 0⟩ } dev, .marked dev]
    ∃ stage : Stage, (Bench.withStage.after course).store.find? .stage dev = some stage ∧
      stage.isDeleting = true ∧ stage.metadata.hasFinalizer Naming.labelCleanup = true ∧
      Kind.ns = Context.targetKind { now := ⟨0, 0⟩ } ∧ Key.mk "" "ci-dev" = ⟨"", stage.target⟩ ∧
      (Bench.withStage.store.find? .ns ⟨"", "ci-dev"⟩ =
          some (Target.buildNamespace "ci-dev" "ci") ∨
        ∃ maker, Bench.withStage.Provides course maker ⟨"", "ci-dev"⟩
            (Target.buildNamespace "ci-dev" "ci") ∧ (maker.key = dev ∨ maker.IsNamesake stage)) ∧
      ∀ other : Stage, (Bench.withStage.after course).store.find? .stage other.key = some other →
        other.key.ns = "ci" → other.target = stage.target →
          other.key = dev ∨ other.IsNamesake stage := by
  have htells : Bench.withStage.store.TellsStages "ci" := fun one other hone hother _ _ _ _ ↦ by
    rw [Bench.find?_withStage hone, Bench.find?_withStage hother]
  refine removed_in_course Bench.isServing_withStage Bench.sound_withStage.toKeyed htells ?_
    (.inl rfl) rfl rfl
  intro context key hin
  simp only [List.cons_append, List.nil_append, List.mem_cons, Happening.reconciled.injEq,
    List.not_mem_nil, or_false, reduceCtorEq, false_or] at hin
  rcases hin with ⟨-, rfl⟩ | ⟨-, rfl⟩ <;> rfl

/-! ### What is shared -/

/-- The first stage of a pipeline, of the same name in each. -/
def Fixture.devStage (pipeline : String) : Stage :=
  let plain := Fixture.stage (pipeline ++ "-dev") "ci" pipeline 0
  { plain with spec := { plain.spec with name := "dev" } }

/-- Two pipelines of the same application, each with a first stage of the same name. -/
def Bench.withNamesakes : Bench :=
  (((Bench.seedPipeline {} ["cb-a"]).put
    (Fixture.pipeline "q" "ci" ["img-a"] ["cb-a"] ["cb-a"])).put (Fixture.devStage "p")).put
      (Fixture.devStage "q")

/-- A new stage whose target is already there. -/
def Bench.withTarget : Bench := Bench.withStage.put (Fixture.namespaceOf "ci-dev")

/-- What courses over the stages of a namespace start on. -/
structure Bench.Starts (b : Bench) (ns : String) : Prop where
  serving : b.IsServing
  keyed : b.store.Keyed
  tells : b.store.TellsStages ns
  fresh : b.store.IsFresh

theorem Bench.find?_withNamesakes {key : Key} {stage : Stage}
    (hfound : Bench.withNamesakes.store.find? .stage key = some stage) :
    stage = Fixture.devStage "q" ∨ stage = Fixture.devStage "p" := by
  unfold withNamesakes put at hfound
  rw [Store.find?_put] at hfound
  split at hfound
  · exact .inl (Option.some.inj hfound).symm
  rw [Store.find?_put] at hfound
  split at hfound
  · exact .inr (Option.some.inj hfound).symm
  · exact nomatch hfound

theorem Bench.starts_withNamesakes : Bench.withNamesakes.Starts "ci" where
  serving := ⟨rfl, rfl, rfl⟩
  keyed := (sound_put (sound_put (sound_put (sound_seeded _) rfl) rfl) rfl).toKeyed
  tells one other hone hother _ _ hpipeline _ := by
    rcases find?_withNamesakes hone with rfl | rfl <;>
      rcases find?_withNamesakes hother with rfl | rfl
    · rfl
    · exact absurd hpipeline (by decide)
    · exact absurd hpipeline (by decide)
    · rfl
  fresh stage hfound := by
    rcases find?_withNamesakes hfound with rfl | rfl <;> decide

theorem Bench.starts_withTarget : Bench.withTarget.Starts "ci" where
  serving := ⟨rfl, rfl, rfl⟩
  keyed k := (Bench.sound_withStage.toKeyed k).put _
  tells one other hone hother _ _ _ _ := by
    rw [find?_withStage hone, find?_withStage hother]
  fresh stage hfound := by
    rw [find?_withStage hfound]
    decide

/-- Two courses at the end of which a stage that is taken down costs a namespace that was not
provided for it. In the first it was provided for a namesake, which is live and loses its target; in
the second it was there before the operator came. -/
theorem removed_in_course_of_shared :
    (let stage := (Fixture.devStage "p").key
      let namesake := (Fixture.devStage "q").key
      let course := [.reconciled { now := ⟨0, 0⟩ } namesake, .reconciled { now := ⟨0, 0⟩ } stage,
        .marked stage]
      let last := course ++ [.reconciled { now := ⟨0, 0⟩ } stage]
      Bench.withNamesakes.Starts "ci" ∧
      (Bench.withNamesakes.after course).store.find? .ns ⟨"", "ci-dev"⟩ =
        some (Target.buildNamespace "ci-dev" "ci") ∧
      (Bench.withNamesakes.after last).store.find? .ns ⟨"", "ci-dev"⟩ = none ∧
      (∀ maker, Bench.withNamesakes.Provides course maker ⟨"", "ci-dev"⟩
        (Target.buildNamespace "ci-dev" "ci") → maker.key = namesake) ∧
      ∃ other : Stage, (Bench.withNamesakes.after last).store.find? .stage namesake = some other ∧
        other.isDeleting = false ∧ other.target = "ci-dev") ∧
    (let stage := (Fixture.stage "dev" "ci" "p" 0).key
      let course := [.reconciled { now := ⟨0, 0⟩ } stage, .marked stage]
      Bench.withTarget.Starts "ci" ∧
      (Bench.withTarget.after course).store.find? .ns ⟨"", "ci-dev"⟩ =
        some (Fixture.namespaceOf "ci-dev") ∧
      (Bench.withTarget.after (course ++ [.reconciled { now := ⟨0, 0⟩ } stage])).store.find? .ns
        ⟨"", "ci-dev"⟩ = none ∧
      ∀ maker, ¬ Bench.withTarget.Provides course maker ⟨"", "ci-dev"⟩
        (Fixture.namespaceOf "ci-dev")) := by
  refine ⟨⟨Bench.starts_withNamesakes, rfl, rfl, fun maker hprovides ↦ ?_, _, rfl, rfl, rfl⟩,
    Bench.starts_withTarget, rfl, rfl, fun maker hprovides ↦ ?_⟩
  · rcases Bench.reconciles_cons.mp hprovides with ⟨context, hfirst, -⟩ | hprovides
    · exact (Happening.reconciled.inj hfirst).2.symm
    -- From then on the place is taken.
    rcases Bench.reconciles_cons.mp hprovides with ⟨context, -, -, -, -, -, hnone, -⟩ | hprovides
    · exact nomatch hnone
    rcases Bench.reconciles_cons.mp hprovides with ⟨context, hmarked, -⟩ | hprovides
    · exact nomatch hmarked
    · exact (Bench.not_reconciles_nil hprovides).elim
  · rcases Bench.reconciles_cons.mp hprovides with ⟨context, -, -, -, -, -, hnone, -⟩ | hprovides
    · exact nomatch hnone
    rcases Bench.reconciles_cons.mp hprovides with ⟨context, hmarked, -⟩ | hprovides
    · exact nomatch hmarked
    · exact Bench.not_reconciles_nil hprovides

end PipelineOperator
