import PipelineOperator.Proofs.Cluster.Listing
import PipelineOperator.Proofs.Object.Finalizers
import PipelineOperator.Proofs.Operation.Hindered
import PipelineOperator.Reconcile.Stage

/-!
Adopting a stage: wiring it to its pipeline and to the stage before it, and putting it under the
finalizers. The stage that comes out differs in these parts only (`Stage.withWiring`), is stored if
it differs, and is as adoption leaves it (`Stage.IsWired`); adopting it again changes nothing.
-/

set_option autoImplicit false
set_option relaxedAutoImplicit false

namespace PipelineOperator

namespace Metadata

theorem insert_of_get? {labels : Labels} {name value : String}
    (hvalue : labels.get? name = some value) : labels.insert name value = labels := by
  refine SortedMap.ext_get? fun name' ↦ ?_
  rw [SortedMap.get?_insert]
  by_cases hname : name' = name
  · rw [if_pos hname, hname, hvalue]
  · rw [if_neg hname]

/-- Setting an annotation to the value it has changes nothing. -/
theorem setAnnotation_of_annotation? {m : Metadata} {name value : String}
    (hvalue : m.annotation? name = some value) : m.setAnnotation name value = m := by
  obtain ⟨_, _, _, _, _, _, _, annotations, _, _, _⟩ := m
  cases annotations with
  | none => exact nomatch hvalue
  | some annotations =>
    have hvalue : annotations.get? name = some value := hvalue
    show Metadata.mk _ _ _ _ _ _ _ (some (annotations.insert name value)) _ _ _ = _
    rw [insert_of_get? hvalue]

end Metadata

namespace Stage

open Operation

variable {s : Stage} {T : Store}

/-! ### What adoption may change -/

/-- The parts of a stage that adoption may change. -/
structure Wiring where
  owners : Option (List OwnerReference)
  labels : Option Labels
  annotations : Option Labels
  finalizers : Option (List String)

def wiring (s : Stage) : Wiring where
  owners := s.metadata.owners
  labels := s.metadata.labels
  annotations := s.metadata.annotations
  finalizers := s.metadata.finalizers

def withWiring (s : Stage) (w : Wiring) : Stage :=
  { s with
    metadata := { s.metadata with
      owners := w.owners
      labels := w.labels
      annotations := w.annotations
      finalizers := w.finalizers } }

theorem withFinalizers_withWiring (s : Stage) (w : Wiring) (kept : Option (List String)) :
    Object.withFinalizers (s.withWiring w) kept = s.withWiring { w with finalizers := kept } := rfl

@[simp] theorem key_withWiring (s : Stage) (w : Wiring) :
    Object.key (s.withWiring w) = Object.key s := rfl

/-! ### Wired stages -/

/-- The stage before, as far as the store tells. -/
def predecessor? (T : Store) (s : Stage) : Option Stage :=
  (T.listed s.metadata.namespaceOrEmpty none).find? s.follows

/-- The stage before is searched for by outlines. -/
theorem map_predecessor? (s : Stage) {T' : Store} (houtlines : T.SameOutlines T') :
    (s.predecessor? T).map Store.outline = (s.predecessor? T').map Store.outline :=
  houtlines.map_find?_listed s.metadata.namespaceOrEmpty fun spec ↦
    s.spec.order != 0 && spec.pipeline == s.spec.pipeline && spec.order == s.spec.order - 1

/-- The owners of an adopted stage: a stage that no pipeline owns gets its pipeline. -/
def ownersIn (T : Store) (s : Stage) : Option (List OwnerReference) :=
  if s.hasPipelineOwner then s.metadata.owners
  else
    match (T.find? .pipeline s.pipelineKey).bind
      (fun pipeline ↦ Kind.pipeline.controllerReference pipeline.metadata) with
    | none => s.metadata.owners
    | some owner => some (s.metadata.ownerList ++ [owner])

/-- The labels of an adopted stage. -/
def labelsOf (s : Stage) : Option Labels :=
  if s.metadata.label? Naming.pipelineLabel = some s.spec.pipeline then s.metadata.labels
  else some (s.metadata.labelMap.insert Naming.pipelineLabel s.spec.pipeline)

/-- The annotations of an adopted stage: a later stage without a record gets the stage before. -/
def annotationsIn (T : Store) (s : Stage) : Option Labels :=
  if s.isFirst || s.previousName?.isSome then s.metadata.annotations
  else
    match s.predecessor? T with
    | none => s.metadata.annotations
    | some previous =>
      some (s.metadata.annotationMap.insert Naming.previousStageAnnotation previous.spec.name)

/-- What adoption makes of the parts that it may change. -/
def wiringIn (T : Store) (s : Stage) : Wiring where
  owners := s.ownersIn T
  labels := s.labelsOf
  annotations := s.annotationsIn T
  finalizers := Object.finalizersWith s finalizers

/-- What adoption makes of a stage depends on pipelines and on the outlines of stages. -/
theorem wiringIn_congr (s : Stage) {T' : Store}
    (hpipelines : ∀ key, T'.find? .pipeline key = T.find? .pipeline key)
    (houtlines : T.SameOutlines T') : s.wiringIn T' = s.wiringIn T := by
  have howners : s.ownersIn T' = s.ownersIn T := by
    unfold ownersIn
    rw [hpipelines]
  have hspecs : (s.predecessor? T').map (fun stage ↦ stage.spec) =
      (s.predecessor? T).map (fun stage ↦ stage.spec) := by
    have hsame := congrArg (Option.map Prod.snd) (s.map_predecessor? houtlines)
    rw [Option.map_map, Option.map_map] at hsame
    exact hsame.symm
  have hannotations : s.annotationsIn T' = s.annotationsIn T := by
    unfold annotationsIn
    cases hbefore : s.predecessor? T with
    | none =>
      rw [hbefore, Option.map_none, Option.map_eq_none_iff] at hspecs
      rw [hspecs]
    | some previous =>
      rw [hbefore] at hspecs
      obtain ⟨previous', hbefore', hspec⟩ := Option.map_eq_some_iff.mp hspecs
      simp only [hbefore', hspec]
  unfold wiringIn
  rw [howners, hannotations]

/-- No pipeline owns the stage, and the one that should does not exist. -/
def IsOrphan (T : Store) (s : Stage) : Prop :=
  s.hasPipelineOwner = false ∧ T.find? .pipeline s.pipelineKey = none

/-- A pipeline owns the stage, or the one that should cannot be referred to. -/
def IsOwned (T : Store) (s : Stage) : Prop :=
  s.hasPipelineOwner = true ∨ ∃ pipeline, T.find? .pipeline s.pipelineKey = some pipeline ∧
    Kind.pipeline.controllerReference pipeline.metadata = none

def IsLabelled (s : Stage) : Prop :=
  s.metadata.label? Naming.pipelineLabel = some s.spec.pipeline

/-- The stage before is recorded, or there is none to be recorded. -/
def IsRecorded (T : Store) (s : Stage) : Prop :=
  s.isFirst = true ∨ s.previousName?.isSome = true ∨ ∀ previous, s.predecessor? T = some previous →
    s.metadata.annotation? Naming.previousStageAnnotation = some previous.spec.name

/-- The stage is as adoption leaves it. -/
structure IsWired (T : Store) (s : Stage) : Prop where
  owned : s.IsOwned T
  labelled : s.IsLabelled
  recorded : s.IsRecorded T
  held : ∀ finalizer ∈ finalizers, s.metadata.hasFinalizer finalizer = true

/-- The part of a stage in which runs may differ has no bearing on the wiring. -/
theorem IsWired.withStatus (hwired : s.IsWired T) (status : Option StageStatus) :
    IsWired T { s with status := status } :=
  ⟨hwired.owned, hwired.labelled, hwired.recorded, hwired.held⟩

/-- Wiring depends on pipelines and on the outlines of stages. -/
theorem IsWired.transport {T' : Store} (hwired : s.IsWired T)
    (hpipelines : ∀ key, T'.find? .pipeline key = T.find? .pipeline key)
    (houtlines : T.SameOutlines T') : s.IsWired T' := by
  obtain ⟨howned, hlabelled, hrecorded, hheld⟩ := hwired
  refine ⟨?_, hlabelled, ?_, hheld⟩
  · rcases howned with howner | ⟨pipeline, hfound, hnone⟩
    · exact .inl howner
    · exact .inr ⟨pipeline, (hpipelines _).trans hfound, hnone⟩
  · rcases hrecorded with hfirst | hname | hprevious
    · exact .inl hfirst
    · exact .inr (.inl hname)
    · refine .inr (.inr fun previous' hprevious' ↦ ?_)
      have hsame := s.map_predecessor? houtlines
      rw [hprevious'] at hsame
      obtain ⟨previous, hfound, houtline⟩ := Option.map_eq_some_iff.mp hsame
      have hspec : previous.spec = previous'.spec := congrArg Prod.snd houtline
      rw [hprevious previous hfound, hspec]

/-! ### The steps of wiring -/

theorem on_wireOwner (hparent : ¬ s.IsOrphan T) : ∃ changed,
    s.wireOwner.on T = (.ok (changed, s.withWiring { s.wiring with owners := s.ownersIn T }), T) ∧
      IsOwned T (s.withWiring { s.wiring with owners := s.ownersIn T }) ∧
      (changed = false → s.ownersIn T = s.metadata.owners) := by
  unfold wireOwner ownersIn
  cases howner : s.hasPipelineOwner with
  | true => exact ⟨false, rfl, .inl howner, fun _ ↦ rfl⟩
  | false =>
    unfold parent
    simp only [Bool.false_eq_true, if_false, on_require_bind]
    cases hpipeline : T.find? .pipeline s.pipelineKey with
    | none => exact absurd ⟨howner, hpipeline⟩ hparent
    | some pipeline =>
      simp only [Option.bind_some]
      cases hreference : Kind.pipeline.controllerReference pipeline.metadata with
      | none => exact ⟨false, rfl, .inr ⟨pipeline, hpipeline, hreference⟩, fun _ ↦ rfl⟩
      | some owner =>
        refine ⟨true, rfl, .inl ?_, fun hsame ↦ absurd hsame.symm Bool.false_ne_true⟩
        have hkind : owner.kind = Kind.pipeline.name := by
          obtain ⟨name, -, hname⟩ := Option.bind_eq_some_iff.mp hreference
          obtain ⟨uid, -, huid⟩ := Option.bind_eq_some_iff.mp hname
          exact Option.some.inj huid ▸ rfl
        show (s.metadata.ownerList ++ [owner]).any (fun o ↦ o.kind == Kind.pipeline.name) = true
        simp [hkind]

theorem wireLabel_eq (s : Stage) : ∃ changed,
    s.wireLabel = (changed, s.withWiring { s.wiring with labels := s.labelsOf }) ∧
      IsLabelled (s.withWiring { s.wiring with labels := s.labelsOf }) ∧
      (changed = false → s.labelsOf = s.metadata.labels) := by
  unfold wireLabel labelsOf
  by_cases hlabel : s.metadata.label? Naming.pipelineLabel = some s.spec.pipeline
  · rw [if_pos hlabel, if_pos hlabel]
    exact ⟨false, rfl, hlabel, fun _ ↦ rfl⟩
  · rw [if_neg hlabel, if_neg hlabel]
    refine ⟨true, rfl, ?_, nofun⟩
    exact SortedMap.get?_insert_self s.metadata.labelMap Naming.pipelineLabel s.spec.pipeline

theorem on_wirePrevious (s : Stage) (T : Store) : ∃ changed,
    s.wirePrevious.on T =
        (.ok (changed, s.withWiring { s.wiring with annotations := s.annotationsIn T }), T) ∧
      IsRecorded T (s.withWiring { s.wiring with annotations := s.annotationsIn T }) ∧
      (changed = false → s.annotationsIn T = s.metadata.annotations) := by
  unfold wirePrevious annotationsIn
  cases hfirst : s.isFirst with
  | true => exact ⟨false, rfl, .inl hfirst, fun _ ↦ rfl⟩
  | false =>
    cases hname : s.previousName?.isSome with
    | true => exact ⟨false, rfl, .inr (.inl hname), fun _ ↦ rfl⟩
    | false =>
      have hsearch : s.findPrevious.on T = (.ok (s.predecessor? T), T) := by
        unfold findPrevious
        rw [hfirst]
        rfl
      simp only [Bool.or_self, Bool.false_eq_true, if_false, on_bind_of_ok hsearch]
      cases hprevious : s.predecessor? T with
      | none => exact ⟨false, rfl, .inr (.inr fun previous h ↦ nomatch hprevious.symm.trans h),
          fun _ ↦ rfl⟩
      | some previous =>
        refine ⟨true, rfl, .inr (.inr fun previous' h ↦ ?_), nofun⟩
        obtain rfl := Option.some.inj (hprevious.symm.trans h)
        exact SortedMap.get?_insert_self s.metadata.annotationMap Naming.previousStageAnnotation
          previous.spec.name

theorem asks_wireOwner (s : Stage) {allowed : Request → Prop}
    (hpipeline : ∀ key, allowed (.get .pipeline key)) : s.wireOwner.Asks allowed := by
  unfold wireOwner
  split
  · exact asks_pure _
  · refine (asks_require (hpipeline _)).bind fun pipeline ↦ ?_
    split
    · exact asks_pure _
    · exact asks_pure _

theorem asks_wire (s : Stage) {allowed : Request → Prop}
    (hpipeline : ∀ key, allowed (.get .pipeline key))
    (hlist : ∀ ns, allowed (.listStages ns none)) : s.wire.Asks allowed := by
  have hprevious (s : Stage) : s.wirePrevious.Asks allowed := by
    unfold wirePrevious
    split
    · exact asks_pure _
    · refine Asks.bind ?_ fun previous ↦ ?_
      · unfold findPrevious
        split
        · exact asks_pure _
        · exact (asks_ask (hlist _)).bind fun _ ↦ asks_pure _
      · split
        · exact asks_pure _
        · exact asks_pure _
  exact (asks_wireOwner s hpipeline).bind fun owned ↦ (hprevious _).bind fun recorded ↦
    asks_pure _

/-- An orphan cannot be wired. -/
theorem rests_wire_of_orphan (horphan : s.IsOrphan T) : s.wire.Rests T
    (.error (.ofCause (.pipelineNotFound s.metadata.namespaceOrEmpty s.spec.pipeline))) := by
  have howner : s.wireOwner.Rests T
      (.error (.ofCause (.pipelineNotFound s.metadata.namespaceOrEmpty s.spec.pipeline))) := by
    unfold wireOwner parent
    rw [horphan.1]
    simp only [Bool.false_eq_true, if_false, rests_require_bind, horphan.2]
  exact rests_bind.mpr (.inr ⟨_, howner, rfl⟩)

/-- Any other stage becomes wired but for its finalizers. -/
theorem on_wire (hparent : ¬ s.IsOrphan T) : ∃ changed w,
    s.wire.on T = (.ok (changed, s.withWiring w), T) ∧
      w = { s.wiringIn T with finalizers := s.metadata.finalizers } ∧
      IsOwned T (s.withWiring w) ∧ IsLabelled (s.withWiring w) ∧ IsRecorded T (s.withWiring w) ∧
      (changed = false → w = s.wiring) := by
  unfold wire
  obtain ⟨owned, howner, hisOwned, hsameOwners⟩ := on_wireOwner hparent
  obtain ⟨labelled, hlabel, hisLabelled, hsameLabels⟩ :=
    wireLabel_eq (s.withWiring { s.wiring with owners := s.ownersIn T })
  obtain ⟨recorded, hprevious, hisRecorded, hsameAnnotations⟩ :=
    on_wirePrevious (s.withWiring { s.wiring with owners := s.ownersIn T, labels := s.labelsOf }) T
  refine ⟨owned || labelled || recorded,
    { s.wiringIn T with finalizers := s.metadata.finalizers }, ?_, rfl, hisOwned, hisLabelled,
    hisRecorded, fun hunchanged ↦ ?_⟩
  · rw [on_bind_of_ok howner]
    simp only [hlabel]
    exact on_bind_of_ok hprevious _
  · simp only [Bool.or_eq_false_iff] at hunchanged
    obtain ⟨⟨howned, hlabelled⟩, hrecorded⟩ := hunchanged
    have howners : s.ownersIn T = s.metadata.owners := hsameOwners howned
    have hlabels : s.labelsOf = s.metadata.labels := hsameLabels hlabelled
    have hannotations : s.annotationsIn T = s.metadata.annotations := hsameAnnotations hrecorded
    unfold wiringIn wiring
    rw [howners, hlabels, hannotations]

theorem atomic_wire (s : Stage) : s.wire.Atomic := by
  have howner (s : Stage) : s.wireOwner.Atomic := by
    unfold wireOwner
    split
    · exact atomic_pure _
    · have hreads : s.parent.Asks (fun request ↦ request.isRead = true) := asks_require rfl
      refine (atomic_require _ _).bind hreads fun pipeline ↦ ?_
      split
      · exact atomic_pure _
      · exact atomic_pure _
  have hprevious (s : Stage) : s.wirePrevious.Atomic := by
    unfold wirePrevious findPrevious
    cases s.isFirst with
    | true => exact atomic_pure _
    | false =>
      cases s.previousName?.isSome with
      | true => exact atomic_pure _
      | false =>
        simp only [Bool.or_self, Bool.false_eq_true, if_false, bind_assoc, pure_bind]
        refine (atomic_ask _).bind (asks_ask rfl) fun stages ↦ ?_
        split
        · exact atomic_pure _
        · exact atomic_pure _
  exact (howner s).bind (asks_wireOwner s fun _ ↦ rfl) fun owned ↦ (hprevious _).map _

/-! ### Adoption -/

theorem rests_adopt_of_orphan (horphan : s.IsOrphan T) : (adopt s).Rests T
    (.error (.ofCause (.pipelineNotFound s.metadata.namespaceOrEmpty s.spec.pipeline))) :=
  rests_bind.mpr (.inr ⟨_, rests_wire_of_orphan horphan, rfl⟩)

/-- A live stage that is no orphan is stored as it is to be. -/
theorem on_adopt_of_not_orphan (hfound : T.find? .stage s.key = some s)
    (hlive : s.isDeleting = false) (hparent : ¬ s.IsOrphan T) :
    (adopt s).on T = (.ok (s.withWiring (s.wiringIn T)), T.put (s.withWiring (s.wiringIn T))) ∧
      IsWired T (s.withWiring (s.wiringIn T)) := by
  unfold adopt
  obtain ⟨wired, w, hwire, hw, howned, hlabelled, hrecorded, hsame⟩ := on_wire hparent
  obtain ⟨held, hensure, hheld, hsameKept⟩ :=
    Object.ensureFinalizers_eq (s.withWiring w) finalizers
  have hwiring : Object.withFinalizers (s.withWiring w)
      (Object.finalizersWith (s.withWiring w) finalizers) = s.withWiring (s.wiringIn T) := by
    subst hw
    rfl
  rw [hwiring] at hensure hheld
  have hwired : IsWired T (s.withWiring (s.wiringIn T)) := by
    subst hw
    exact ⟨howned, hlabelled, hrecorded, hheld⟩
  refine ⟨?_, hwired⟩
  rw [on_bind_of_ok hwire]
  simp only [hensure]
  cases hchanged : wired || held with
  | true =>
    have hreleased : (s.withWiring (s.wiringIn T)).metadata.isReleased = false :=
      Object.isReleased_of_live (o := s.withWiring (s.wiringIn T)) hlive
    exact Store.replace_of_found (o := s.withWiring (s.wiringIn T)) hfound hreleased
  | false =>
    rw [Bool.or_eq_false_iff] at hchanged
    obtain rfl := hsame hchanged.1
    have hself : s.withWiring (s.wiringIn T) = s := by
      rw [← hwiring, hsameKept hchanged.2]
      rfl
    rw [hself, Store.put_of_find? hfound]
    rfl

/-- Adopting a live stage fails before anything is written, or stores the stage as it is to be. -/
theorem on_adopt (hfound : T.find? .stage s.key = some s)
    (hlive : s.isDeleting = false) :
    (∃ e, (adopt s).Rests T (.error e)) ∨
      (adopt s).on T =
        (.ok (s.withWiring (s.wiringIn T)), T.put (s.withWiring (s.wiringIn T))) ∧
      IsWired T (s.withWiring (s.wiringIn T)) := by
  by_cases horphan : s.IsOrphan T
  · exact .inl ⟨_, rests_adopt_of_orphan horphan⟩
  · exact .inr (on_adopt_of_not_orphan hfound hlive horphan)

/-- Wiring what is wired comes to the same stage, and to no change if the stage before has a
name. -/
theorem on_wire_of_wired (howned : s.IsOwned T) (hlabelled : s.IsLabelled)
    (hrecorded : s.IsRecorded T) : ∃ changed,
    s.wire.on T = (.ok (changed, s), T) ∧
      ((∀ previous, s.predecessor? T = some previous → previous.spec.name ≠ "") →
        changed = false) := by
  have howner : s.wireOwner.on T = (.ok (false, s), T) := by
    unfold wireOwner
    cases howner : s.hasPipelineOwner with
    | true => rfl
    | false =>
      rcases howned with hcontra | ⟨pipeline, hpipeline, hreference⟩
      · exact nomatch howner.symm.trans hcontra
      · unfold parent
        simp only [Bool.false_eq_true, if_false, on_require_bind, hpipeline, hreference]
        rfl
  have hlabel : s.wireLabel = (false, s) := if_pos hlabelled
  have hprevious : ∃ changed, s.wirePrevious.on T = (.ok (changed, s), T) ∧
      ((∀ previous, s.predecessor? T = some previous → previous.spec.name ≠ "") →
        changed = false) := by
    unfold wirePrevious
    cases hskip : s.isFirst || s.previousName?.isSome with
    | true => exact ⟨false, rfl, fun _ ↦ rfl⟩
    | false =>
      rw [Bool.or_eq_false_iff] at hskip
      have hsearch : s.findPrevious.on T = (.ok (s.predecessor? T), T) := by
        unfold findPrevious
        rw [hskip.1]
        rfl
      simp only [Bool.false_eq_true, if_false, on_bind_of_ok hsearch]
      cases hprevious : s.predecessor? T with
      | none => exact ⟨false, rfl, fun _ ↦ rfl⟩
      | some previous =>
        rcases hrecorded with hcontra | hcontra | hrecorded
        · exact nomatch hskip.1.symm.trans hcontra
        · exact nomatch hskip.2.symm.trans hcontra
        · have hentry := hrecorded previous hprevious
          refine ⟨true, ?_, fun hnamed ↦ ?_⟩
          · simp only [Metadata.setAnnotation_of_annotation? hentry]
            rfl
          · -- a recorded name that is not empty would have been seen
            have hname : s.previousName?.isSome = true := by
              unfold previousName?
              rw [hentry, Option.filter_some_pos (by simpa using hnamed previous rfl)]
              rfl
            exact nomatch hskip.2.symm.trans hname
  obtain ⟨changed, hprevious, hunchanged⟩ := hprevious
  refine ⟨changed, ?_, hunchanged⟩
  unfold wire
  rw [on_bind_of_ok howner]
  simp only [hlabel]
  rw [on_bind_of_ok hprevious]
  rfl

theorem on_adopt_of_wired (hsound : T.Sound) (hfound : T.find? .stage s.key = some s)
    (hwired : s.IsWired T) : (adopt s).on T = (.ok s, T) := by
  obtain ⟨changed, hwire, -⟩ :=
    on_wire_of_wired hwired.owned hwired.labelled hwired.recorded
  unfold adopt
  rw [on_bind_of_ok hwire]
  simp only [Object.ensureFinalizers_of_has hwired.held]
  cases changed with
  | false => rfl
  | true =>
    show (replace s).on T = (.ok s, T)
    rw [on_replace, Store.replace_of_found hfound (hsound.held hfound),
      Store.put_of_find? hfound]

theorem rests_adopt_of_wired (hwired : s.IsWired T)
    (hnamed : ∀ previous, s.predecessor? T = some previous → previous.spec.name ≠ "") :
    (adopt s).Rests T (.ok s) := by
  obtain ⟨changed, hwire, hunchanged⟩ :=
    on_wire_of_wired hwired.owned hwired.labelled hwired.recorded
  obtain rfl := hunchanged hnamed
  have hreads : s.wire.Asks (fun request ↦ request.isRead = true) :=
    asks_wire s (fun _ ↦ rfl) fun _ ↦ rfl
  have hrests := hreads.rests T
  rw [hwire] at hrests
  refine rests_bind.mpr (.inl ⟨_, hrests, ?_⟩)
  simp only [Object.ensureFinalizers_of_has hwired.held]
  rfl

end Stage

end PipelineOperator
