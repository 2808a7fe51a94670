import PipelineOperator.Proofs.Cluster.Sound

/-!
Finalizers put on objects and taken off them. Putting on what is there and taking off what is not
change nothing, and neither touches anything else of the object.
-/

set_option autoImplicit false
set_option relaxedAutoImplicit false

namespace PipelineOperator

namespace Object

variable {k : Kind} {o : Object k} {finalizer : String} {wanted : List String}

/-- The object with other finalizers. -/
def withFinalizers (o : Object k) (finalizers : Option (List String)) : Object k :=
  { o with metadata := { o.metadata with finalizers := finalizers } }

/-- What is not marked for deletion does not vanish. -/
theorem isReleased_of_live (hlive : o.isDeleting = false) : o.metadata.isReleased = false := by
  have hmetadata : o.metadata.isDeleting = false := hlive
  rw [Metadata.isReleased, hmetadata, Bool.false_and]

/-- Nor does what has a finalizer. -/
theorem isReleased_of_hasFinalizer (hheld : o.metadata.hasFinalizer finalizer = true) :
    o.metadata.isReleased = false := by
  rw [Metadata.isReleased, Bool.and_eq_false_iff]
  refine .inr (List.isEmpty_eq_false_iff_exists_mem.mpr ⟨finalizer, ?_⟩)
  exact of_decide_eq_true hheld

theorem withFinalizers_self (o : Object k) : o.withFinalizers o.metadata.finalizers = o := rfl

/-- The finalizers of the object, and after them the wanted ones that are missing. -/
def finalizersWith (o : Object k) (wanted : List String) : Option (List String) :=
  if (o.metadata.missingFinalizers wanted).isEmpty then o.metadata.finalizers
  else some (o.metadata.finalizerList ++ o.metadata.missingFinalizers wanted)

/-- The finalizers that were there come first, in their order. -/
theorem prefix_finalizersWith (o : Object k) (wanted : List String) :
    o.metadata.finalizerList <+: (o.finalizersWith wanted).getD [] := by
  unfold finalizersWith
  split
  · exact List.prefix_rfl
  · exact List.prefix_append ..

/-- All wanted finalizers are there afterwards. -/
theorem ensureFinalizers_eq (o : Object k) (wanted : List String) : ∃ changed,
    o.ensureFinalizers wanted = (changed, o.withFinalizers (o.finalizersWith wanted)) ∧
      (∀ finalizer ∈ wanted,
        (o.withFinalizers (o.finalizersWith wanted)).metadata.hasFinalizer finalizer = true) ∧
      (changed = false → o.finalizersWith wanted = o.metadata.finalizers) := by
  unfold ensureFinalizers Metadata.ensureFinalizers finalizersWith
  cases hmissing : (o.metadata.missingFinalizers wanted).isEmpty with
  | true =>
    refine ⟨false, by simp only [hmissing]; rfl, fun finalizer hwanted ↦ ?_, fun _ ↦ rfl⟩
    have hnone := List.isEmpty_iff.mp hmissing
    rw [Metadata.missingFinalizers, List.filter_eq_nil_iff] at hnone
    have hhas : o.metadata.hasFinalizer finalizer = true := by simpa using hnone finalizer hwanted
    exact hhas
  | false =>
    refine ⟨true, by simp only [hmissing]; rfl, fun finalizer hwanted ↦ ?_, nofun⟩
    show decide (finalizer ∈ o.metadata.finalizerList ++
      o.metadata.missingFinalizers wanted) = true
    rw [decide_eq_true_eq, List.mem_append]
    by_cases hhas : o.metadata.hasFinalizer finalizer = true
    · exact .inl (of_decide_eq_true hhas)
    · exact .inr (List.mem_filter.mpr ⟨hwanted, by simpa using hhas⟩)

theorem ensureFinalizers_of_has
    (hhas : ∀ finalizer ∈ wanted, o.metadata.hasFinalizer finalizer = true) :
    o.ensureFinalizers wanted = (false, o) := by
  have hmissing : o.metadata.missingFinalizers wanted = [] := by
    rw [Metadata.missingFinalizers, List.filter_eq_nil_iff]
    intro finalizer hwanted
    simp [hhas finalizer hwanted]
  unfold ensureFinalizers Metadata.ensureFinalizers
  rw [hmissing]
  rfl

theorem removeFinalizer_of_lacks (hlacks : o.metadata.hasFinalizer finalizer = false) :
    o.removeFinalizer finalizer = (false, o) := by
  simp only [removeFinalizer, Metadata.removeFinalizer, hlacks]
  rfl

theorem removeFinalizer_of_has (hhas : o.metadata.hasFinalizer finalizer = true) :
    o.removeFinalizer finalizer = (true, o.withFinalizers
      (o.metadata.finalizers.map (fun fs ↦ fs.filter (· != finalizer)))) := by
  simp only [removeFinalizer, Metadata.removeFinalizer, hhas]
  rfl

theorem removeFinalizer_eq (o : Object k) (finalizer : String) :
    ∃ kept, (o.removeFinalizer finalizer).2 = o.withFinalizers kept := by
  cases hhas : o.metadata.hasFinalizer finalizer with
  | true => exact ⟨_, by rw [removeFinalizer_of_has hhas]⟩
  | false => exact ⟨o.metadata.finalizers, by rw [removeFinalizer_of_lacks hhas]; rfl⟩

@[simp] theorem key_removeFinalizer : (o.removeFinalizer finalizer).2.key = o.key := by
  obtain ⟨kept, hkept⟩ := removeFinalizer_eq o finalizer
  rw [hkept]
  rfl

@[simp] theorem isDeleting_removeFinalizer :
    (o.removeFinalizer finalizer).2.isDeleting = o.isDeleting := by
  obtain ⟨kept, hkept⟩ := removeFinalizer_eq o finalizer
  rw [hkept]
  rfl

/-- No occurrence of the finalizer is left. -/
theorem hasFinalizer_removeFinalizer :
    (o.removeFinalizer finalizer).2.metadata.hasFinalizer finalizer = false := by
  cases hhas : o.metadata.hasFinalizer finalizer with
  | true =>
    rw [removeFinalizer_of_has hhas]
    cases hfinalizers : o.metadata.finalizers with
    | none => simp [withFinalizers, Metadata.hasFinalizer, Metadata.finalizerList]
    | some finalizers => simp [withFinalizers, Metadata.hasFinalizer, Metadata.finalizerList]
  | false => rw [removeFinalizer_of_lacks hhas, hhas]

/-- The finalizers of the object but one, in their order. -/
def otherFinalizers (o : Object k) (finalizer : String) : List String :=
  o.metadata.finalizerList.filter (· != finalizer)

/-- An object without the finalizer that it had. -/
theorem removeFinalizer_of_held (hheld : o.metadata.hasFinalizer finalizer = true) :
    (o.removeFinalizer finalizer).2 = o.withFinalizers (some (o.otherFinalizers finalizer)) := by
  rw [removeFinalizer_of_has hheld, otherFinalizers]
  cases hfinalizers : o.metadata.finalizers with
  | none =>
    rw [Metadata.hasFinalizer, Metadata.finalizerList, hfinalizers] at hheld
    exact nomatch of_decide_eq_true hheld
  | some finalizers =>
    rw [Metadata.finalizerList, hfinalizers]
    rfl

end Object

/-- Letting go of a deleting object that had the finalizer leaves it with the others, and it is gone
if there are none. -/
theorem Store.find?_letGo_removeFinalizer {k : Kind} {o : Object k} {finalizer : String}
    (hdeleting : o.isDeleting = true) (hheld : o.metadata.hasFinalizer finalizer = true)
    (s : Store) : (s.letGo (o.removeFinalizer finalizer).2).find? k o.key =
      if o.otherFinalizers finalizer = [] then none
      else some (o.withFinalizers (some (o.otherFinalizers finalizer))) := by
  have hkey : (o.removeFinalizer finalizer).2.key = o.key := Object.key_removeFinalizer
  have hreleased : (o.removeFinalizer finalizer).2.metadata.isReleased =
      (o.otherFinalizers finalizer).isEmpty := by
    have hmarked : o.metadata.deletedAt.isSome = true := hdeleting
    rw [Object.removeFinalizer_of_held hheld]
    show (o.metadata.deletedAt.isSome && _) = _
    rw [hmarked, Bool.true_and]
    rfl
  rw [Store.letGo, hreleased, ← hkey]
  by_cases hnone : o.otherFinalizers finalizer = []
  · rw [if_pos hnone, hnone]
    exact find?_remove_self ..
  · rw [if_neg hnone, if_neg (by simpa using hnone), ← Object.removeFinalizer_of_held hheld]
    exact find?_put_self ..

end PipelineOperator
