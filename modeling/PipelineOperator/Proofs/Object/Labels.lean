import PipelineOperator.Object.Kind

/-!
Objects with and without a label. Setting a label that is there and erasing one that is not change
nothing, so both can be repeated; neither touches anything else of the object.
-/

set_option autoImplicit false
set_option relaxedAutoImplicit false

namespace PipelineOperator

namespace Object

variable {k : Kind} {o : Object k} {label : String}

/-- The object carries the label, whatever its value. -/
def hasLabel (o : Object k) (label : String) : Bool := o.metadata.labelMap.contains label

/-- The object with a label, which is left as it is if it is there. -/
def withLabel (o : Object k) (label : String) : Object k :=
  if o.hasLabel label then o else { o with metadata := o.metadata.setLabel label "" }

/-- The object without a label. -/
def withoutLabel (o : Object k) (label : String) : Object k :=
  if o.hasLabel label then { o with metadata := o.metadata.eraseLabel label } else o

theorem withLabel_of_hasLabel (hlabel : o.hasLabel label = true) : o.withLabel label = o :=
  if_pos hlabel

theorem withLabel_of_lacks (hlabel : o.hasLabel label = false) :
    o.withLabel label = { o with metadata := o.metadata.setLabel label "" } := by
  rw [withLabel, hlabel]
  rfl

theorem withoutLabel_of_lacks (hlabel : o.hasLabel label = false) : o.withoutLabel label = o := by
  rw [withoutLabel, hlabel]
  rfl

theorem withoutLabel_of_hasLabel (hlabel : o.hasLabel label = true) :
    o.withoutLabel label = { o with metadata := o.metadata.eraseLabel label } := if_pos hlabel

@[simp] theorem hasLabel_withLabel : (o.withLabel label).hasLabel label = true := by
  unfold withLabel
  by_cases hlabel : o.hasLabel label = true
  · rw [if_pos hlabel, hlabel]
  · rw [if_neg hlabel]
    show ((o.metadata.labelMap.insert label "").get? label).isSome = true
    rw [SortedMap.get?_insert_self]
    rfl

@[simp] theorem hasLabel_withoutLabel : (o.withoutLabel label).hasLabel label = false := by
  unfold withoutLabel
  by_cases hlabel : o.hasLabel label = true
  · rw [if_pos hlabel]
    show ((o.metadata.labelMap.erase label).get? label).isSome = false
    rw [SortedMap.get?_erase_self]
    rfl
  · rw [if_neg hlabel]
    simpa using hlabel

@[simp] theorem withLabel_withLabel : (o.withLabel label).withLabel label = o.withLabel label :=
  withLabel_of_hasLabel hasLabel_withLabel

theorem hasLabel_withLabel_of_ne {other : String} (hne : other ≠ label) :
    (o.withLabel label).hasLabel other = o.hasLabel other := by
  unfold withLabel
  by_cases hlabel : o.hasLabel label = true
  · rw [if_pos hlabel]
  · rw [if_neg hlabel]
    show ((o.metadata.labelMap.insert label "").get? other).isSome = _
    rw [SortedMap.get?_insert_of_ne _ hne]
    rfl

/-- Two labels can be set in either order. -/
theorem withLabel_comm (o : Object k) (label other : String) :
    (o.withLabel label).withLabel other = (o.withLabel other).withLabel label := by
  by_cases hsame : other = label
  · rw [hsame]
  have hother := hasLabel_withLabel_of_ne (o := o) hsame
  have hlabel := hasLabel_withLabel_of_ne (o := o) (Ne.symm hsame)
  cases hhas : o.hasLabel label with
  | true => rw [withLabel_of_hasLabel hhas, withLabel_of_hasLabel (hlabel.trans hhas)]
  | false =>
    cases hhas' : o.hasLabel other with
    | true => rw [withLabel_of_hasLabel hhas', withLabel_of_hasLabel (hother.trans hhas')]
    | false =>
      have hmaps : (o.metadata.labelMap.insert label "").insert other "" =
          (o.metadata.labelMap.insert other "").insert label "" := by
        refine SortedMap.ext_get? fun name ↦ ?_
        simp only [SortedMap.get?_insert]
        split <;> split <;> rfl
      rw [withLabel_of_lacks (hother.trans hhas'), withLabel_of_lacks (hlabel.trans hhas),
        withLabel_of_lacks hhas, withLabel_of_lacks hhas']
      exact congrArg (fun labels ↦
        ({ o with metadata := { o.metadata with labels := some labels } } : Object k)) hmaps

@[simp] theorem withoutLabel_withoutLabel :
    (o.withoutLabel label).withoutLabel label = o.withoutLabel label :=
  withoutLabel_of_lacks hasLabel_withoutLabel

@[simp] theorem key_withLabel : (o.withLabel label).key = o.key := by
  unfold withLabel
  split <;> rfl

@[simp] theorem key_withoutLabel : (o.withoutLabel label).key = o.key := by
  unfold withoutLabel
  split <;> rfl

@[simp] theorem spec_withLabel : (o.withLabel label).spec = o.spec := by
  unfold withLabel
  split <;> rfl

@[simp] theorem spec_withoutLabel : (o.withoutLabel label).spec = o.spec := by
  unfold withoutLabel
  split <;> rfl

@[simp] theorem isReleased_withLabel :
    (o.withLabel label).metadata.isReleased = o.metadata.isReleased := by
  unfold withLabel
  split <;> rfl

@[simp] theorem isReleased_withoutLabel :
    (o.withoutLabel label).metadata.isReleased = o.metadata.isReleased := by
  unfold withoutLabel
  split <;> rfl

/-- The second object is the first without a label: it has the other labels, and all else, of the
first. Having no labels and having an empty map of them are not told apart. -/
structure Loses (label : String) (o o' : Object k) : Prop where
  lacks : o'.metadata.label? label = none
  labels : ∀ other, other ≠ label → o'.metadata.label? other = o.metadata.label? other
  rest : { o' with metadata := { o'.metadata with labels := o.metadata.labels } } = o

theorem loses_withoutLabel (o : Object k) (label : String) :
    o.Loses label (o.withoutLabel label) := by
  cases hlabel : o.hasLabel label with
  | true =>
    rw [withoutLabel_of_hasLabel hlabel]
    exact ⟨SortedMap.get?_erase_self .., fun other hne ↦ SortedMap.get?_erase_of_ne _ hne, rfl⟩
  | false =>
    rw [withoutLabel_of_lacks hlabel]
    refine ⟨?_, fun _ _ ↦ rfl, rfl⟩
    have hnone : (o.metadata.label? label).isSome = false := hlabel
    exact Option.isNone_iff_eq_none.mp (Option.isSome_eq_false_iff.mp hnone)

/-- The objects are the same, but that one may have no labels where the other has an empty map of
them. -/
structure Matches (o o' : Object k) : Prop where
  labels : o'.metadata.labelMap = o.metadata.labelMap
  rest : { o' with metadata := { o'.metadata with labels := o.metadata.labels } } = o

theorem Matches.refl (o : Object k) : o.Matches o := ⟨rfl, rfl⟩

/-- An object that gets a label and loses it again is what it was. -/
theorem matches_withoutLabel_withLabel (hlacks : o.hasLabel label = false) :
    o.Matches ((o.withLabel label).withoutLabel label) := by
  have hset : (o.withLabel label).hasLabel label = true := hasLabel_withLabel
  have hnone : o.metadata.labelMap.get? label = none := by
    have hloses := (o.loses_withoutLabel label).lacks
    rwa [withoutLabel_of_lacks hlacks] at hloses
  rw [withLabel_of_lacks hlacks] at hset ⊢
  rw [withoutLabel_of_hasLabel hset]
  refine ⟨SortedMap.ext_get? fun other ↦ ?_, rfl⟩
  show ((o.metadata.labelMap.insert label "").erase label).get? other = _
  by_cases hsame : other = label
  · rw [hsame, SortedMap.get?_erase_self, hnone]
  · rw [SortedMap.get?_erase_of_ne _ hsame, SortedMap.get?_insert_of_ne _ hsame]

end Object

end PipelineOperator
