import PipelineOperator.Proofs.Cluster.Serve

/-!
What a list of stages depends on: namespaces and specifications. Stores whose stages agree in these
list stages that agree in them, in the same order, whatever else of the stages was written.
-/

set_option autoImplicit false
set_option relaxedAutoImplicit false

namespace PipelineOperator

namespace SortedMap

variable {α β γ : Type} [Ord α]

/-- The map with every value replaced by an image of it. -/
def mapValues (f : β → γ) (m : SortedMap α β) : SortedMap α γ where
  entries := m.entries.map (fun e ↦ (e.1, f e.2))
  ordered := List.pairwise_map.mpr m.ordered

theorem get?_mapValues (f : β → γ) (m : SortedMap α β) (k : α) :
    (m.mapValues f).get? k = (m.get? k).map f := by
  show getList k (m.entries.map (fun e ↦ (e.1, f e.2))) = (getList k m.entries).map f
  generalize m.entries = entries
  induction entries with
  | nil => rfl
  | cons head rest ih =>
    simp only [List.map_cons, getList]
    split
    · rfl
    · exact ih

/-- Maps whose look-ups have the same images have entries with the same images. -/
theorem mapValues_eq [Std.TransOrd α] [Std.LawfulEqOrd α] {f : β → γ} {a b : SortedMap α β}
    (hsame : ∀ k, (a.get? k).map f = (b.get? k).map f) : a.mapValues f = b.mapValues f := by
  refine ext_get? fun k ↦ ?_
  rw [get?_mapValues, get?_mapValues, hsame]

end SortedMap

namespace Store

variable {s t : Store}

/-- What lists of stages go by. -/
def outline (stage : Stage) : Option String × StageSpec := (stage.metadata.ns, stage.spec)

/-- The stages of the stores have the same namespaces and specifications. -/
def SameOutlines (s t : Store) : Prop :=
  ∀ key, (s.find? .stage key).map outline = (t.find? .stage key).map outline

theorem map_outline_listed (s : Store) (ns : String) :
    (s.listed ns none).map outline =
      (((s.stages.mapValues outline).entries.filter (fun e ↦ e.1.ns == ns)).map (·.2)).filter
        (fun o ↦ o.1.isSome) := by
  unfold listed stagesIn SortedMap.mapValues SortedMap.toList
  have hall : (s.stages.entries.filter (fun e ↦ e.1.ns == ns)).map (·.2) =
      ((s.stages.entries.filter (fun e ↦ e.1.ns == ns)).map (·.2)).filter (fun _ ↦ true) :=
    (List.filter_eq_self.mpr fun _ _ ↦ rfl).symm
  simp only [Option.all_none, ← hall, List.filter_map, List.map_map]
  rfl

theorem SameOutlines.map_listed (hsame : SameOutlines s t) (ns : String) :
    (s.listed ns none).map outline = (t.listed ns none).map outline := by
  have hmaps : s.stages.mapValues outline = t.stages.mapValues outline :=
    SortedMap.mapValues_eq hsame
  rw [map_outline_listed, map_outline_listed, hmaps]

/-- A search that goes by specifications comes to the same specification. -/
theorem SameOutlines.map_find?_listed (hsame : SameOutlines s t) (ns : String)
    (wanted : StageSpec → Bool) :
    ((s.listed ns none).find? (fun stage ↦ wanted stage.spec)).map outline =
      ((t.listed ns none).find? (fun stage ↦ wanted stage.spec)).map outline := by
  have hsearch (stages : List Stage) :
      (stages.find? (fun stage ↦ wanted stage.spec)).map outline =
        (stages.map outline).find? (fun o ↦ wanted o.2) := by
    rw [List.find?_map]
    rfl
  rw [hsearch, hsearch, hsame.map_listed]

theorem listed_of_stages (hsame : t.stages = s.stages) (ns : String) (pipeline : Option String) :
    t.listed ns pipeline = s.listed ns pipeline := by
  unfold listed stagesIn
  rw [hsame]

/-- What is listed: the stages of the namespace that state it and carry the label, if one is asked
for. -/
theorem mem_listed {ns : String} {pipeline : Option String} {stage : Stage} :
    stage ∈ s.listed ns pipeline ↔ ∃ key : Key, s.find? .stage key = some stage ∧ key.ns = ns ∧
      (∀ name, pipeline = some name →
        stage.metadata.label? Naming.pipelineLabel = some name) ∧
      stage.metadata.ns.isSome = true := by
  have hlabel : (pipeline.all fun name ↦
      stage.metadata.label? Naming.pipelineLabel == some name) = true ↔ ∀ name,
        pipeline = some name → stage.metadata.label? Naming.pipelineLabel = some name := by
    cases pipeline <;> simp
  have hentry (key : Key) : s.find? .stage key = some stage ↔ (key, stage) ∈ s.stages.toList :=
    SortedMap.get?_eq_some_iff _
  unfold listed stagesIn
  simp only [List.mem_filter, List.mem_map, beq_iff_eq, hlabel, hentry]
  constructor
  · rintro ⟨⟨⟨⟨key, _⟩, ⟨hmem, hns⟩, rfl⟩, hlabelled⟩, hstated⟩
    exact ⟨key, hmem, hns, hlabelled, hstated⟩
  · rintro ⟨key, hmem, hns, hlabelled, hstated⟩
    exact ⟨⟨⟨(key, stage), ⟨hmem, hns⟩, rfl⟩, hlabelled⟩, hstated⟩

/-- What is listed is found. -/
theorem find?_of_mem_listed {ns : String} {pipeline : Option String} {stage : Stage}
    (hlisted : stage ∈ s.listed ns pipeline) : ∃ key, s.find? .stage key = some stage := by
  obtain ⟨key, hfound, -⟩ := mem_listed.mp hlisted
  exact ⟨key, hfound⟩

end Store

end PipelineOperator
