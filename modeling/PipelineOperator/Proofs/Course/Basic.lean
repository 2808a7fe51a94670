import PipelineOperator.Proofs.Reconcile.Streams

/-!
Courses: what happens to a cluster, one thing after another. Stages are reconciled in any order and
without failing calls, and meanwhile other clients mark stages as deleted and give pipelines new
specifications. A course on a bench that serves every call is one on its store
(`Bench.after_store`), and what every single happening keeps is kept by a course
(`Store.after_keeps`).
-/

set_option autoImplicit false
set_option relaxedAutoImplicit false

namespace PipelineOperator

open Operation

/-- Writes the specification of a pipeline, if it is there. -/
def Store.respecify (s : Store) (key : Key) (spec : PipelineSpec) : Store :=
  match s.find? .pipeline key with
  | none => s
  | some pipeline => s.put { pipeline with spec := spec }

/-- The stage as marked for deletion by another client. -/
def Stage.marked (stage : Stage) : Stage :=
  { stage with metadata := { stage.metadata with deletedAt := some Store.deletionTime } }

theorem Stage.becomes_marked (stage : Stage) : stage.Becomes stage.marked :=
  ⟨rfl, rfl, fun _ h ↦ h, fun _ ↦ rfl⟩

/-- Something that happens to a cluster. -/
inductive Happening where
  /-- The operator reconciles a stage, whatever comes of it. -/
  | reconciled (context : Context) (key : Key)
  /-- Another client marks a stage as deleted. -/
  | marked (key : Key)
  /-- Another client gives a pipeline a new specification. -/
  | respecified (key : Key) (spec : PipelineSpec)

namespace Happening

def on : Happening → Store → Store
  | reconciled context key, s => ((reconcileStage context key).on s).2
  | marked key, s => s.markDeleted .stage key
  | respecified key spec, s => s.respecify key spec

def onBench : Happening → Bench → Bench
  | reconciled context key, b => ((reconcileStage context key).onBench b).2
  | marked key, b => { b with store := b.store.markDeleted .stage key }
  | respecified key spec, b => { b with store := b.store.respecify key spec }

theorem onBench_store (happening : Happening) {b : Bench} (hserving : b.IsServing) :
    (happening.onBench b).store = happening.on b.store ∧ (happening.onBench b).IsServing := by
  cases happening with
  | reconciled context key =>
    obtain ⟨-, hstore, hserving'⟩ := onBench_eq (reconcileStage context key) hserving
    exact ⟨hstore, hserving'⟩
  | marked key => exact ⟨rfl, hserving.namespaces, hserving.spaces, hserving.status⟩
  | respecified key spec => exact ⟨rfl, hserving.namespaces, hserving.spaces, hserving.status⟩

end Happening

/-- No stage is under the finalizers of the operator. -/
def Store.IsFresh (s : Store) : Prop :=
  ∀ stage : Stage, s.find? .stage stage.key = some stage →
    ∀ finalizer ∈ Stage.finalizers, stage.metadata.hasFinalizer finalizer = false

/-- What a course leaves of a store. -/
def Store.after (s : Store) (course : List Happening) : Store :=
  course.foldl (fun s happening ↦ happening.on s) s

/-- What a course leaves of a bench. -/
def Bench.after (b : Bench) (course : List Happening) : Bench :=
  course.foldl (fun b happening ↦ happening.onBench b) b

theorem Bench.after_append (b : Bench) (course course' : List Happening) :
    b.after (course ++ course') = (b.after course).after course' := List.foldl_append

theorem Bench.after_store {b : Bench} (hserving : b.IsServing) (course : List Happening) :
    (b.after course).store = b.store.after course ∧ (b.after course).IsServing := by
  induction course generalizing b with
  | nil => exact ⟨rfl, hserving⟩
  | cons happening course ih =>
    obtain ⟨hstore, hserving'⟩ := happening.onBench_store hserving
    obtain ⟨hrest, hserving''⟩ := ih hserving'
    exact ⟨hrest.trans (congrArg (Store.after · course) hstore), hserving''⟩

/-- At some time in the course the stage under the key is reconciled, and at that time it holds of
the bench. -/
def Bench.Reconciles (b : Bench) (course : List Happening) (key : Key)
    (P : Context → Bench → Prop) : Prop :=
  ∃ before context rest, course = before ++ .reconciled context key :: rest ∧
    P context (b.after before)

theorem Bench.not_reconciles_nil {b : Bench} {key : Key} {P : Context → Bench → Prop} :
    ¬ b.Reconciles [] key P := by
  rintro ⟨before, context, rest, hcourse, -⟩
  cases before <;> exact nomatch hcourse

theorem Bench.reconciles_cons {b : Bench} {happening : Happening} {course : List Happening}
    {key : Key} {P : Context → Bench → Prop} : b.Reconciles (happening :: course) key P ↔
      (∃ context, happening = .reconciled context key ∧ P context b) ∨
        (happening.onBench b).Reconciles course key P := by
  constructor
  · rintro ⟨before, context, rest, hcourse, hthen⟩
    cases before with
    | nil => exact .inl ⟨context, (List.cons.inj hcourse).1, hthen⟩
    | cons first before =>
      obtain ⟨rfl, hrest⟩ := List.cons.inj hcourse
      exact .inr ⟨before, context, rest, hrest, hthen⟩
  · rintro (⟨context, rfl, hthen⟩ | ⟨before, context, rest, rfl, hthen⟩)
    · exact ⟨[], context, course, rfl, hthen⟩
    · exact ⟨happening :: before, context, rest, rfl, hthen⟩

theorem Bench.Reconciles.mem {b : Bench} {course : List Happening} {key : Key}
    {P : Context → Bench → Prop} (hreconciles : b.Reconciles course key P) :
    ∃ context, .reconciled context key ∈ course := by
  obtain ⟨before, context, rest, rfl, -⟩ := hreconciles
  exact ⟨context, List.mem_append_right _ (List.mem_cons_self ..)⟩

namespace Store

variable {s t : Store} {course : List Happening} {I : Store → Prop}

theorem after_append (s : Store) (course course' : List Happening) :
    s.after (course ++ course') = (s.after course).after course' := List.foldl_append

/-- What every single happening keeps is kept by the course. -/
theorem after_keeps (hkeeps : ∀ happening ∈ course, ∀ s, I s → I (happening.on s))
    (hbefore : I s) : I (s.after course) := by
  induction course generalizing s with
  | nil => exact hbefore
  | cons happening course ih =>
    exact ih (fun next hnext ↦ hkeeps next (List.mem_cons_of_mem _ hnext))
      (hkeeps happening (List.mem_cons_self ..) s hbefore)

/-! ### What others do -/

/-- Marking an object stores it with the mark. -/
theorem markDeleted_eq_put {k : Kind} (hkeyed : s.KeyedAt k) {key : Key} {o : Object k}
    (hfound : s.find? k key = some o) : s.markDeleted k key =
      s.put { o with metadata := { o.metadata with deletedAt := some deletionTime } } := by
  have hstored : o.key = key := hkeyed hfound
  have hkey : Object.key { o with
      metadata := { o.metadata with deletedAt := some deletionTime } } = key := hstored
  unfold markDeleted put
  rw [hfound, hkey]

theorem markDeleted_of_found (hkeyed : s.KeyedAt .stage) {key : Key} {stage : Stage}
    (hfound : s.find? .stage key = some stage) : s.markDeleted .stage key = s.put stage.marked :=
  markDeleted_eq_put hkeyed hfound

theorem markDeleted_of_absent {k : Kind} {key : Key} (habsent : s.find? k key = none) :
    s.markDeleted k key = s := by
  rw [markDeleted, habsent]

theorem Keyed.markDeleted (hkeyed : s.Keyed) (k : Kind) (key : Key) :
    (s.markDeleted k key).Keyed := by
  cases hfound : s.find? k key with
  | none => rwa [markDeleted_of_absent hfound]
  | some o =>
    rw [markDeleted_eq_put (hkeyed k) hfound]
    exact fun k' ↦ (hkeyed k').put _

theorem respecify_of_found {key : Key} {pipeline : Pipeline} {spec : PipelineSpec}
    (hfound : s.find? .pipeline key = some pipeline) :
    s.respecify key spec = s.put { pipeline with spec := spec } := by
  rw [respecify, hfound]

theorem respecify_of_absent {key : Key} {spec : PipelineSpec}
    (habsent : s.find? .pipeline key = none) : s.respecify key spec = s := by
  rw [respecify, habsent]

/-- Others write stages and pipelines only. -/
theorem table_markDeleted_of_ne {k : Kind} (hk : k ≠ .stage) (s : Store) (key : Key) :
    (s.markDeleted .stage key).table k = s.table k := by
  unfold markDeleted
  split
  · rfl
  · exact table_setTable_of_ne s hk _

theorem table_respecify_of_ne {k : Kind} (hk : k ≠ .pipeline) (s : Store) (key : Key)
    (spec : PipelineSpec) : (s.respecify key spec).table k = s.table k := by
  unfold respecify
  split
  · rfl
  · exact table_setTable_of_ne s hk _

theorem find?_markDeleted_of_ne {k : Kind} (hk : k ≠ .stage) (key key' : Key) :
    (s.markDeleted .stage key).find? k key' = s.find? k key' := by
  rw [find?, table_markDeleted_of_ne hk]
  rfl

theorem find?_respecify_of_ne {k : Kind} (hk : k ≠ .pipeline) (key key' : Key)
    (spec : PipelineSpec) : (s.respecify key spec).find? k key' = s.find? k key' := by
  rw [find?, table_respecify_of_ne hk]
  rfl

/-- The specification of a pipeline has no bearing on the other pipelines. -/
theorem find?_respecify_of_key_ne {key key' : Key} (hne : key' ≠ key) (hkeyed : s.KeyedAt .pipeline)
    (spec : PipelineSpec) :
    (s.respecify key spec).find? .pipeline key' = s.find? .pipeline key' := by
  cases hfound : s.find? .pipeline key with
  | none => rw [respecify_of_absent hfound]
  | some pipeline =>
    have hstored : pipeline.key = key := hkeyed hfound
    have hkey : Object.key { pipeline with spec := spec } = key := hstored
    rw [respecify_of_found hfound, find?_put_of_key_ne s _ (hkey ▸ hne)]

/-! ### What courses keep -/

theorem keyed_on (happening : Happening) (hkeyed : s.Keyed) : (happening.on s).Keyed := by
  cases happening with
  | reconciled context key => exact keeps_keyed _ s hkeyed
  | marked key => exact hkeyed.markDeleted .stage key
  | respecified key spec =>
    show (s.respecify key spec).Keyed
    cases hfound : s.find? .pipeline key with
    | none => rwa [respecify_of_absent hfound]
    | some pipeline =>
      rw [respecify_of_found hfound]
      exact fun k ↦ (hkeyed k).put _

theorem Keyed.after (hkeyed : s.Keyed) (course : List Happening) : (s.after course).Keyed :=
  after_keeps (fun happening _ _ h ↦ keyed_on happening h) hkeyed

theorem stagesLast_on (happening : Happening) (hkeyed : s.Keyed) :
    s.StagesLast (happening.on s) := by
  cases happening with
  | reconciled context key => exact stagesLast_reconcileStage context key (hkeyed _)
  | marked key =>
    show s.StagesLast (s.markDeleted .stage key)
    cases hfound : s.find? .stage key with
    | none =>
      rw [markDeleted_of_absent hfound]
      exact .refl s
    | some stage =>
      have hkey : stage.key = key := hkeyed _ hfound
      have hstored : s.find? .stage stage.key = some stage := by rw [hkey, hfound]
      rw [markDeleted_of_found (hkeyed _) hfound]
      exact stagesLast_put (by exact hstored) (Stage.becomes_marked stage)
  | respecified key spec =>
    exact (StagesLast.refl s).congr fun key' ↦ find?_respecify_of_ne (by decide) key key' spec

/-- No stage comes from nowhere in a course, and none changes what it is. -/
theorem Keyed.stagesLast_after (hkeyed : s.Keyed) (course : List Happening) :
    s.StagesLast (s.after course) := by
  have hkept : (s.after course).Keyed ∧ s.StagesLast (s.after course) := by
    refine after_keeps (I := fun t ↦ t.Keyed ∧ s.StagesLast t) (fun happening _ t ht ↦ ?_)
      ⟨hkeyed, .refl s⟩
    exact ⟨keyed_on happening ht.1, ht.2.trans (stagesLast_on happening ht.1)⟩
  exact hkept.2

/-- Whatever happens, the image streams stay. -/
theorem streamsLast_on (happening : Happening) (hkeyed : s.Keyed)
    (hstreams : s.SoundAt .imageStream) :
    (happening.on s).SoundAt .imageStream ∧ s.StreamsLast (happening.on s) := by
  cases happening with
  | reconciled context key => exact streamsLast_reconcileStage context key (hkeyed _) hstreams
  | marked key =>
    refine s.dependsOn_streams s _ (fun k hk ↦ table_markDeleted_of_ne ?_ s key)
      ⟨hstreams, .refl s⟩
    rintro rfl
    exact nomatch hk
  | respecified key spec =>
    refine s.dependsOn_streams s _ (fun k hk ↦ table_respecify_of_ne ?_ s key spec)
      ⟨hstreams, .refl s⟩
    rintro rfl
    exact nomatch hk

theorem Keyed.streamsLast_after (hkeyed : s.Keyed) (hstreams : s.SoundAt .imageStream)
    (course : List Happening) :
    (s.after course).SoundAt .imageStream ∧ s.StreamsLast (s.after course) := by
  have hkept : (s.after course).Keyed ∧ (s.after course).SoundAt .imageStream ∧
      s.StreamsLast (s.after course) := by
    refine after_keeps
      (I := fun t ↦ t.Keyed ∧ t.SoundAt .imageStream ∧ s.StreamsLast t) (fun happening _ t ht ↦ ?_)
      ⟨hkeyed, hstreams, .refl s⟩
    obtain ⟨hstreams', hlast⟩ := streamsLast_on happening ht.1 ht.2.1
    exact ⟨keyed_on happening ht.1, hstreams', ht.2.2.trans hlast⟩
  exact hkept.2

/-- A pipeline that nobody gives a new specification stays as it is. -/
theorem Keyed.find?_pipeline_after (hkeyed : s.Keyed) {key : Key}
    (hnever : ∀ spec, .respecified key spec ∉ course) :
    (s.after course).find? .pipeline key = s.find? .pipeline key := by
  have hkept : (s.after course).Keyed ∧
      (s.after course).find? .pipeline key = s.find? .pipeline key := by
    refine after_keeps (I := fun t ↦ t.Keyed ∧ t.find? .pipeline key = s.find? .pipeline key)
      (fun happening hhappening t ht ↦ ⟨keyed_on happening ht.1, ?_⟩) ⟨hkeyed, rfl⟩
    rw [← ht.2]
    cases happening with
    | reconciled context key' => exact samePipelines_reconcileStage context key' (ht.1 _) key
    | marked key' => exact find?_markDeleted_of_ne (by decide) key' key
    | respecified key' spec =>
      refine find?_respecify_of_key_ne ?_ (ht.1 _) spec
      rintro rfl
      exact hnever spec hhappening
  exact hkept.2

end Store

end PipelineOperator
