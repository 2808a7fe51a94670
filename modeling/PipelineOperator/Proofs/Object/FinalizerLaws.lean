import PipelineOperator.Cluster.Fixture
import PipelineOperator.Proofs.Object.Finalizers
import PipelineOperator.Reconcile.Stage

/-!
The laws by which finalizers are kept. Bringing an object under finalizers appends the missing ones
and is settled at once; taking one off strikes all of its occurrences; the flag tells in both cases
whether the object is another afterwards, so that it is stored just if it is. Finalizers that were
put on an object which had none of them come off again in any order (`Object.finalizers_balance`).
-/

set_option autoImplicit false
set_option relaxedAutoImplicit false

namespace PipelineOperator

namespace Object

variable {k : Kind} {o o' : Object k} {finalizer : String} {wanted order : List String}

@[simp] theorem finalizers_withFinalizers (finalizers : Option (List String)) :
    (o.withFinalizers finalizers).metadata.finalizers = finalizers := rfl

@[simp] theorem withFinalizers_withFinalizers (first second : Option (List String)) :
    (o.withFinalizers first).withFinalizers second = o.withFinalizers second := rfl

theorem hasFinalizer_iff :
    o.metadata.hasFinalizer finalizer = true ↔ finalizer ∈ o.metadata.finalizerList := by
  rw [Metadata.hasFinalizer, decide_eq_true_eq]

/-! ### Bringing an object under finalizers -/

theorem mem_missingFinalizers : finalizer ∈ o.metadata.missingFinalizers wanted ↔
    finalizer ∈ wanted ∧ finalizer ∉ o.metadata.finalizerList := by
  rw [Metadata.missingFinalizers, List.mem_filter, Bool.not_eq_true', ← Bool.not_eq_true,
    hasFinalizer_iff]

theorem finalizerList_with (o : Object k) (wanted : List String) :
    (o.finalizersWith wanted).getD [] =
      o.metadata.finalizerList ++ o.metadata.missingFinalizers wanted := by
  unfold finalizersWith
  split
  · next hnone =>
    rw [List.isEmpty_iff.mp hnone, List.append_nil]
    rfl
  · rfl

theorem ensureFinalizers_flag (o : Object k) (wanted : List String) :
    (o.ensureFinalizers wanted).1 = !(o.metadata.missingFinalizers wanted).isEmpty := by
  unfold ensureFinalizers Metadata.ensureFinalizers
  cases hmissing : (o.metadata.missingFinalizers wanted).isEmpty <;> simp [hmissing]

theorem ensureFinalizers_object (o : Object k) (wanted : List String) :
    (o.ensureFinalizers wanted).2 = o.withFinalizers (o.finalizersWith wanted) := by
  obtain ⟨changed, hensure, -⟩ := ensureFinalizers_eq o wanted
  rw [hensure]

/-- What it comes to that an object is brought under finalizers. -/
structure ComesUnder (o : Object k) (wanted : List String) (changed : Bool) (o' : Object k) :
    Prop where
  /-- The missing ones follow those that were there, in their order and once each. -/
  appended : ∃ added : List String,
    o'.metadata.finalizerList = o.metadata.finalizerList ++ added ∧
      added.Sublist wanted ∧ added.Nodup ∧
      (∀ finalizer, finalizer ∈ added ↔
        finalizer ∈ wanted ∧ finalizer ∉ o.metadata.finalizerList) ∧
      (changed = true ↔ added ≠ [])
  rest : o' = o.withFinalizers o'.metadata.finalizers
  told : changed = true ↔ o' ≠ o
  settled : o'.ensureFinalizers wanted = (false, o')

theorem comesUnder_ensureFinalizers (o : Object k) (hdistinct : wanted.Nodup) :
    o.ComesUnder wanted (o.ensureFinalizers wanted).1 (o.ensureFinalizers wanted).2 := by
  obtain ⟨changed, hensure, hheld, hsame⟩ := ensureFinalizers_eq o wanted
  have hflag : changed = !(o.metadata.missingFinalizers wanted).isEmpty := by
    rw [← ensureFinalizers_flag, hensure]
  have hlist : (o.withFinalizers (o.finalizersWith wanted)).metadata.finalizerList =
      o.metadata.finalizerList ++ o.metadata.missingFinalizers wanted := finalizerList_with o wanted
  have hadded : changed = true ↔ o.metadata.missingFinalizers wanted ≠ [] := by
    rw [hflag, Bool.not_eq_true', List.isEmpty_eq_false_iff]
  rw [hensure]
  refine ⟨⟨_, hlist, List.filter_sublist, hdistinct.filter _, fun _ ↦ mem_missingFinalizers,
    hadded⟩, rfl, ?_, ensureFinalizers_of_has hheld⟩
  constructor
  · intro hchanged hequal
    have hshorter := congrArg (fun o : Object k ↦ o.metadata.finalizerList) hequal
    rw [hlist, List.append_right_eq_self] at hshorter
    exact hadded.mp hchanged hshorter
  · intro hother
    cases hunchanged : changed with
    | true => rfl
    | false => exact absurd (by rw [hsame hunchanged, withFinalizers_self]) hother

/-! ### Taking finalizers off -/

/-- What it comes to that a finalizer is taken off an object. -/
structure LosesFinalizer (o : Object k) (finalizer : String) (changed : Bool) (o' : Object k) :
    Prop where
  /-- The others stay in their order. -/
  ordered : o'.metadata.finalizerList.Sublist o.metadata.finalizerList
  /-- Every occurrence goes, and none of another finalizer. -/
  count : ∀ other, o'.metadata.finalizerList.count other =
    if other = finalizer then 0 else o.metadata.finalizerList.count other
  rest : o' = o.withFinalizers o'.metadata.finalizers
  present : changed = true ↔ finalizer ∈ o.metadata.finalizerList
  told : changed = true ↔ o' ≠ o

theorem removeFinalizer_flag (o : Object k) (finalizer : String) :
    (o.removeFinalizer finalizer).1 = o.metadata.hasFinalizer finalizer := by
  cases hhas : o.metadata.hasFinalizer finalizer with
  | true => rw [removeFinalizer_of_has hhas]
  | false => rw [removeFinalizer_of_lacks hhas]

/-- What is left of a list of finalizers is left whether or not the one was there. -/
theorem removeFinalizer_object (o : Object k) (finalizer : String) :
    (o.removeFinalizer finalizer).2 =
      o.withFinalizers (o.metadata.finalizers.map (fun fs ↦ fs.filter (· != finalizer))) := by
  cases hhas : o.metadata.hasFinalizer finalizer with
  | true => rw [removeFinalizer_of_has hhas]
  | false =>
    have hnone : finalizer ∉ o.metadata.finalizerList := of_decide_eq_false hhas
    have hkept : o.metadata.finalizers.map (fun fs ↦ fs.filter (· != finalizer)) =
        o.metadata.finalizers := by
      unfold Metadata.finalizerList at hnone
      cases hlist : o.metadata.finalizers with
      | none => rfl
      | some finalizers =>
        rw [hlist, Option.getD_some] at hnone
        rw [Option.map_some, List.filter_eq_self.mpr]
        intro other hother
        rw [bne_iff_ne]
        rintro rfl
        exact hnone hother
    rw [removeFinalizer_of_lacks hhas, hkept, withFinalizers_self]

theorem finalizerList_removeFinalizer (o : Object k) (finalizer : String) :
    (o.removeFinalizer finalizer).2.metadata.finalizerList = o.otherFinalizers finalizer := by
  rw [removeFinalizer_object, otherFinalizers, Metadata.finalizerList, Metadata.finalizerList,
    finalizers_withFinalizers]
  cases o.metadata.finalizers <;> rfl

theorem losesFinalizer_removeFinalizer (o : Object k) (finalizer : String) :
    o.LosesFinalizer finalizer (o.removeFinalizer finalizer).1
      (o.removeFinalizer finalizer).2 := by
  have hpresent : (o.removeFinalizer finalizer).1 = true ↔
      finalizer ∈ o.metadata.finalizerList := by
    rw [removeFinalizer_flag, hasFinalizer_iff]
  refine ⟨?_, ?_, by rw [removeFinalizer_object]; rfl, hpresent, ?_⟩
  · rw [finalizerList_removeFinalizer]
    exact List.filter_sublist
  · intro other
    rw [finalizerList_removeFinalizer, otherFinalizers]
    by_cases hother : other = finalizer
    · rw [if_pos hother, List.count_eq_zero]
      simp [hother]
    · rw [if_neg hother, List.count_filter (by simpa using hother)]
  · constructor
    · intro hchanged hequal
      have hgone : (o.removeFinalizer finalizer).2.metadata.hasFinalizer finalizer = false :=
        hasFinalizer_removeFinalizer
      rw [hequal, ← removeFinalizer_flag, hchanged] at hgone
      exact Bool.noConfusion hgone
    · intro hother
      rw [removeFinalizer_flag]
      cases hlacks : o.metadata.hasFinalizer finalizer with
      | true => rfl
      | false => exact absurd (by rw [removeFinalizer_of_lacks hlacks]) hother

/-- The object with some finalizers taken off, one after another. -/
def withoutFinalizers (o : Object k) (order : List String) : Object k :=
  order.foldl (fun o finalizer ↦ (o.removeFinalizer finalizer).2) o

theorem withoutFinalizers_eq (o : Object k) (order : List String) :
    o.withoutFinalizers order =
      o.withFinalizers (o.metadata.finalizers.map (fun fs ↦ fs.filter (· ∉ order))) := by
  induction order generalizing o with
  | nil =>
    have hall (fs : List String) : fs.filter (· ∉ ([] : List String)) = fs := by simp
    simp only [withoutFinalizers, List.foldl_nil, hall, Option.map_id', withFinalizers_self]
  | cons finalizer order ih =>
    have hstep : o.withoutFinalizers (finalizer :: order) =
        ((o.removeFinalizer finalizer).2).withoutFinalizers order := rfl
    rw [hstep, ih, removeFinalizer_object, withFinalizers_withFinalizers,
      finalizers_withFinalizers, Option.map_map]
    congr 2
    funext fs
    rw [Function.comp_apply, List.filter_filter]
    congr 1
    funext other
    by_cases hother : other = finalizer <;> simp [hother]

/-- Finalizers that an object had not, put on it and taken off again, leave it as it was, but that
an absent list of finalizers has become an empty one. -/
theorem withoutFinalizers_ensureFinalizers
    (hlacking : ∀ finalizer ∈ wanted, finalizer ∉ o.metadata.finalizerList)
    (horder : order.Perm wanted) :
    ((o.ensureFinalizers wanted).2.withoutFinalizers order).metadata.finalizerList =
        o.metadata.finalizerList ∧
      ((o.ensureFinalizers wanted).2.withoutFinalizers order = o ∨
        o.metadata.finalizers = none ∧
          (o.ensureFinalizers wanted).2.withoutFinalizers order = o.withFinalizers (some [])) := by
  have hstruck : o.metadata.finalizerList.filter (· ∉ order) = o.metadata.finalizerList := by
    rw [List.filter_eq_self]
    intro finalizer hfinalizer
    rw [decide_eq_true_eq]
    exact fun hordered ↦ hlacking finalizer (horder.mem_iff.mp hordered) hfinalizer
  have hmissing : (o.metadata.missingFinalizers wanted).filter (· ∉ order) = [] := by
    rw [List.filter_eq_nil_iff]
    intro finalizer hfinalizer
    simp [horder.mem_iff, (mem_missingFinalizers.mp hfinalizer).1]
  have hrestored : (o.ensureFinalizers wanted).2.withoutFinalizers order = o.withFinalizers
      ((o.finalizersWith wanted).map (fun fs ↦ fs.filter (· ∉ order))) := by
    rw [withoutFinalizers_eq, ensureFinalizers_object, withFinalizers_withFinalizers,
      finalizers_withFinalizers]
  rw [hrestored]
  unfold finalizersWith
  split
  · unfold Metadata.finalizerList at hstruck ⊢
    cases hlist : o.metadata.finalizers with
    | none => exact ⟨rfl, .inl (by rw [Option.map_none, ← hlist, withFinalizers_self])⟩
    | some finalizers =>
      rw [hlist, Option.getD_some] at hstruck
      rw [Option.map_some, hstruck, ← hlist]
      exact ⟨rfl, .inl o.withFinalizers_self⟩
  · rw [Option.map_some, List.filter_append, hstruck, hmissing, List.append_nil]
    refine ⟨rfl, ?_⟩
    unfold Metadata.finalizerList
    cases hlist : o.metadata.finalizers with
    | none => exact .inr ⟨rfl, rfl⟩
    | some finalizers =>
      rw [Option.getD_some, ← hlist]
      exact .inl o.withFinalizers_self

/-- The laws of keeping finalizers, of whatever finalizers an object has. -/
theorem finalizers_balance (o : Object k) (hdistinct : wanted.Nodup) :
    o.ComesUnder wanted (o.ensureFinalizers wanted).1 (o.ensureFinalizers wanted).2 ∧
      (∀ finalizer, o.LosesFinalizer finalizer (o.removeFinalizer finalizer).1
        (o.removeFinalizer finalizer).2) ∧
      ((∀ finalizer ∈ wanted, finalizer ∉ o.metadata.finalizerList) →
        ∀ order : List String, order.Perm wanted →
          ((o.ensureFinalizers wanted).2.withoutFinalizers order).metadata.finalizerList =
              o.metadata.finalizerList ∧
            ((o.ensureFinalizers wanted).2.withoutFinalizers order = o ∨
              o.metadata.finalizers = none ∧
                (o.ensureFinalizers wanted).2.withoutFinalizers order =
                  o.withFinalizers (some []))) :=
  ⟨comesUnder_ensureFinalizers o hdistinct, losesFinalizer_removeFinalizer o,
    fun hlacking _ horder ↦ withoutFinalizers_ensureFinalizers hlacking horder⟩

/-- A stage that another controller holds twice comes under the operator's finalizers, and is as it
was when these are off again, the last first. -/
theorem finalizers_balance_withForeign :
    Stage.finalizers.Nodup ∧
      ∃ o : Stage, o.metadata.finalizers = some ["backup", "audit", "backup"] ∧
        o.ComesUnder Stage.finalizers true (o.ensureFinalizers Stage.finalizers).2 ∧
        o.LosesFinalizer "backup" true (o.removeFinalizer "backup").2 ∧
        ((o.ensureFinalizers Stage.finalizers).2.withoutFinalizers
          Stage.finalizers.reverse).metadata.finalizerList = ["backup", "audit", "backup"] := by
  have hdistinct : Stage.finalizers.Nodup := by decide
  let o : Stage := (Fixture.stage "dev" "ci" "p" 0).withFinalizers
    (some ["backup", "audit", "backup"])
  obtain ⟨hunder, hloses, hrestored⟩ := finalizers_balance o hdistinct
  refine ⟨hdistinct, o, rfl, hunder, hloses "backup", ?_⟩
  have hlacking : ∀ finalizer ∈ Stage.finalizers, finalizer ∉ o.metadata.finalizerList := by decide
  exact (hrestored hlacking _ (List.reverse_perm _)).1

end Object

end PipelineOperator
