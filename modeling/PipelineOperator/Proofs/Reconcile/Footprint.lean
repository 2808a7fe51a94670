import PipelineOperator.Proofs.Provision.Keeping
import PipelineOperator.Proofs.Reconcile.Furnishing
import PipelineOperator.Proofs.Reconcile.Teardown

/-!
What a reconciliation without failing calls leaves behind, whether or not it succeeds. No stage but
its own is written, and that one keeps what it is (`stagesLast_reconcileStage`); a place comes and
goes only with a stage whose target it is (`find?_place_reconcileStage`); and of everything but
stages it keeps whatever its handlers keep (`keeps_reconcileStage`).
-/

set_option autoImplicit false
set_option relaxedAutoImplicit false

namespace PipelineOperator

open Operation

variable {S : Store} {I : Store → Prop} {kinds : Kind → Prop} {context : Context} {stage : Stage}
  {key : Key}

namespace Stage

/-! ### What the steps keep -/

/-- A stage that may be provisioned: it is the first, or the one before it is recorded. -/
def IsReady (stage : Stage) : Prop := stage.isFirst = true ∨ stage.previousName?.isSome = true

theorem requirePrevious_of_isReady (hready : stage.IsReady) : stage.requirePrevious = pure () := by
  unfold requirePrevious previousName
  rcases hready with hfirst | hprevious
  · rw [if_pos hfirst]
  · obtain ⟨previous, hprevious⟩ := Option.isSome_iff_exists.mp hprevious
    rw [hprevious]
    cases stage.isFirst <;> rfl

theorem requirePrevious_of_not_isReady (hready : ¬ stage.IsReady) : stage.requirePrevious =
    fail (.previousStageNotFound stage.spec.name stage.spec.pipeline stage.spec.order) := by
  rw [IsReady, not_or, Bool.not_eq_true, Bool.not_eq_true, Option.isSome_eq_false_iff,
    Option.isNone_iff_eq_none] at hready
  unfold requirePrevious previousName
  rw [hready.1, hready.2]
  rfl

theorem keeps_furnish (hchain : stage.IsReady →
      ((Chain.creation context stage.spec.trigger).serve stage).Keeps I) :
    (furnish context stage).Keeps I := by
  unfold furnish
  by_cases hready : stage.IsReady
  · rw [requirePrevious_of_isReady hready]
    exact (keeps_pure ()).bind fun _ ↦ hchain hready
  · rw [requirePrevious_of_not_isReady hready]
    exact fun s hbefore ↦ hbefore

theorem keeps_confirm (hI : Store.DependsOn kinds I) (hstage : ¬ kinds .stage) :
    (confirm context stage).Keeps I := by
  unfold confirm
  split
  · exact ((asks_report _ (fun hk ↦ absurd hk hstage) fun hk ↦ absurd hk hstage).keeps_of_reads
      hI).bind fun _ ↦ keeps_pure _
  · exact keeps_pure _

/-- Provisioning keeps what its handlers keep for the stage as adopted. -/
theorem keeps_provision (hI : Store.DependsOn kinds I) (hstage : ¬ kinds .stage)
    (hfound : S.find? .stage stage.key = some stage) (hlive : stage.isDeleting = false)
    (hchain : (stage.withWiring (stage.wiringIn S)).IsReady →
      ((Chain.creation context stage.spec.trigger).serve
        (stage.withWiring (stage.wiringIn S))).Keeps I)
    (hbefore : I S) : I ((provision context stage).on S).2 := by
  rcases on_adopt hfound hlive with ⟨e, hadopt⟩ | ⟨hadopt, -⟩
  · rw [(rests_provision_of_error hadopt).on]
    exact hbefore
  · rw [on_provision_of_ok hadopt]
    refine ((keeps_furnish hchain).bind fun _ ↦ keeps_confirm hI hstage) _ (hI S _ ?_ hbefore)
    refine fun k hk ↦ Store.table_setTable_of_ne S ?_ _
    rintro rfl
    exact hstage hk

theorem keeps_release (hI : Store.DependsOn kinds I) (hstage : ¬ kinds .stage)
    (hhandlers : stage.metadata.hasFinalizer Naming.labelCleanup = true →
      (EnvironmentLabel.withdraw stage).Keeps I ∧
        ((Handler.removeTarget context).serve stage).Keeps I) :
    (release context stage).Keeps I := by
  cases hheld : stage.metadata.hasFinalizer Naming.labelCleanup with
  | false =>
    rw [release_of_free hheld]
    exact keeps_pure _
  | true =>
    obtain ⟨hwithdraw, hremove⟩ := hhandlers hheld
    have hchain : ((Chain.teardown context).serve stage).Keeps I := by
      refine Chain.keeps_serve fun handler hhandler ↦ ?_
      rcases Chain.mem_handlers_teardown.mp hhandler with rfl | rfl
      · exact hwithdraw
      · exact hremove
    rw [release_of_held hheld]
    refine hchain.bind fun _ ↦ Keeps.bind ?_ fun _ ↦ keeps_pure _
    exact (asks_ask fun hk ↦ absurd hk hstage).keeps_of_reads hI

end Stage

/-- A reconciliation keeps what the handlers keep that it runs, if that does not depend on stages.
-/
theorem keeps_reconcileStage (hI : Store.DependsOn kinds I) (hstage : ¬ kinds .stage)
    (hkeyed : S.KeyedAt .stage)
    (hlive : ∀ stage : Stage, S.find? .stage key = some stage → stage.isDeleting = false →
      (stage.withWiring (stage.wiringIn S)).IsReady →
        ((Chain.creation context stage.spec.trigger).serve
          (stage.withWiring (stage.wiringIn S))).Keeps I)
    (hdeleting : ∀ stage : Stage, S.find? .stage key = some stage → stage.isDeleting = true →
      stage.metadata.hasFinalizer Naming.labelCleanup = true →
        (EnvironmentLabel.withdraw stage).Keeps I ∧
          ((Handler.removeTarget context).serve stage).Keeps I)
    (hbefore : I S) : I ((reconcileStage context key).on S).2 := by
  rcases on_reconcileStage_cases context key hkeyed with
    ⟨-, hon⟩ | ⟨stage, rfl, hfound, ⟨hmarked, hon⟩ | ⟨hmarked, hon⟩⟩
  · rw [hon]
    exact hbefore
  · rw [hon]
    exact Stage.keeps_provision hI hstage hfound hmarked (hlive stage hfound hmarked) hbefore
  · rw [hon]
    exact Stage.keeps_release hI hstage (hdeleting stage hfound hmarked) S hbefore

/-! ### Stages -/

namespace Stage

/-- What becomes of a stage: it stays where it is and what it is, what was recorded on it stays, and
a mark for deletion is not taken back. -/
structure Becomes (before after : Stage) : Prop where
  ns : after.metadata.ns = before.metadata.ns
  spec : after.spec = before.spec
  previous : ∀ name, before.previousName? = some name → after.previousName? = some name
  deleting : before.isDeleting = true → after.isDeleting = true

theorem Becomes.refl (stage : Stage) : stage.Becomes stage := ⟨rfl, rfl, fun _ h ↦ h, fun h ↦ h⟩

theorem Becomes.trans {before between after : Stage} (hfirst : before.Becomes between)
    (hsecond : between.Becomes after) : before.Becomes after where
  ns := hsecond.ns.trans hfirst.ns
  spec := hsecond.spec.trans hfirst.spec
  previous name h := hsecond.previous name (hfirst.previous name h)
  deleting h := hsecond.deleting (hfirst.deleting h)

/-- Adoption records a stage before only where none is recorded. -/
theorem becomes_withWiring (T : Store) (stage : Stage) :
    stage.Becomes (stage.withWiring (stage.wiringIn T)) := by
  refine ⟨rfl, rfl, fun name hname ↦ ?_, fun h ↦ h⟩
  have hannotations : stage.annotationsIn T = stage.metadata.annotations := by
    unfold annotationsIn
    rw [hname, Option.isSome_some, Bool.or_true]
    rfl
  have hsame : (stage.withWiring (stage.wiringIn T)).previousName? = stage.previousName? := by
    show ((Metadata.annotationMap { stage.metadata with
      annotations := stage.annotationsIn T }).get? Naming.previousStageAnnotation).filter _ = _
    rw [hannotations]
    rfl
  rw [hsame, hname]

theorem Becomes.namespaceOrEmpty {after : Stage} (hbecomes : stage.Becomes after) :
    after.metadata.namespaceOrEmpty = stage.metadata.namespaceOrEmpty := by
  unfold Metadata.namespaceOrEmpty
  rw [hbecomes.ns]

theorem Becomes.isFirst {after : Stage} (hbecomes : stage.Becomes after) :
    after.isFirst = stage.isFirst := by
  unfold Stage.isFirst
  rw [hbecomes.spec]

theorem Becomes.label {after : Stage} (hbecomes : stage.Becomes after) :
    after.label = stage.label := by
  unfold Stage.label
  rw [hbecomes.spec]

theorem becomes_released (stage : Stage) : stage.Becomes stage.released := by
  obtain ⟨kept, hkept⟩ := Object.removeFinalizer_eq stage Naming.labelCleanup
  have hreleased : stage.released = Object.withFinalizers stage kept := hkept
  rw [hreleased]
  exact ⟨rfl, rfl, fun _ h ↦ h, fun h ↦ h⟩

/-- What comes of a provisioning: it fails with nothing written; or it has adopted the stage and
written no other, and fails; or its chain is done and the status of the stage is confirmed. -/
theorem on_provision_cases (context : Context) (hkeyed : S.KeyedAt .stage)
    (hfound : S.find? .stage stage.key = some stage) (hlive : stage.isDeleting = false) :
    (∃ e, (provision context stage).on S = (.error e, S)) ∨
    ∃ U, (∀ key, U.find? .stage key =
        (S.put (stage.withWiring (stage.wiringIn S))).find? .stage key) ∧
      ((∃ e, (provision context stage).on S = (.error e, U)) ∨
        (furnish context (stage.withWiring (stage.wiringIn S))).on
          (S.put (stage.withWiring (stage.wiringIn S))) = (.ok (), U) ∧
        ∃ outcome status, (provision context stage).on S =
          (.ok outcome, U.put { stage.withWiring (stage.wiringIn S) with status := status })) := by
  rcases on_adopt hfound hlive with ⟨e, hadopt⟩ | ⟨hadopt, -⟩
  · exact .inl ⟨e, (rests_provision_of_error hadopt).on⟩
  rw [on_provision_of_ok hadopt]
  generalize stage.withWiring (stage.wiringIn S) = adopted
  have hspares := (spares_furnish context adopted).find? (S.put adopted)
  cases hfurnish : (furnish context adopted).on (S.put adopted) with
  | mk r U =>
    rw [hfurnish] at hspares
    refine .inr ⟨U, hspares, ?_⟩
    cases r with
    | error e => exact .inl ⟨e, on_bind_of_error hfurnish _⟩
    | ok done =>
      have hstored : U.find? .stage adopted.key = some adopted :=
        (hspares _).trans (Store.find?_put_self S adopted)
      have hkeyedU : U.KeyedAt .stage := fun key o h ↦ hkeyed.put adopted ((hspares key) ▸ h)
      exact .inr ⟨rfl, _, _, (on_bind_of_ok hfurnish _).trans (on_confirm context hkeyedU hstored)⟩

/-- Provisioning changes nothing, or stores its stage as adopted with a status. -/
theorem find?_stage_provision (hkeyed : S.KeyedAt .stage)
    (hfound : S.find? .stage stage.key = some stage) (hlive : stage.isDeleting = false) :
    ((provision context stage).on S).2 = S ∨
      ∃ status, ∀ key, ((provision context stage).on S).2.find? .stage key =
        (S.put { stage.withWiring (stage.wiringIn S) with status := status }).find? .stage key := by
  rcases on_provision_cases context hkeyed hfound hlive with
    ⟨e, hon⟩ | ⟨U, hadopted, ⟨e, hon⟩ | ⟨-, outcome, status, hon⟩⟩
  · exact .inl (congrArg Prod.snd hon)
  · rw [hon]
    exact .inr ⟨(stage.withWiring (stage.wiringIn S)).status, hadopted⟩
  · rw [hon]
    refine .inr ⟨status, fun key ↦ ?_⟩
    have hkey : Object.key { stage.withWiring (stage.wiringIn S) with status := status } =
      (stage.withWiring (stage.wiringIn S)).key := rfl
    simp only [Store.find?_put, hkey, hadopted]
    split <;> rfl

/-- Releasing leaves the stages as they were, or lets go of its own. -/
theorem find?_stage_release (hfound : S.find? .stage stage.key = some stage) :
    (∀ key, ((release context stage).on S).2.find? .stage key = S.find? .stage key) ∨
      ∀ key, ((release context stage).on S).2.find? .stage key =
        (S.letGo stage.released).find? .stage key := by
  cases hheld : stage.metadata.hasFinalizer Naming.labelCleanup with
  | false =>
    rw [release_of_free hheld]
    exact .inl fun _ ↦ rfl
  | true =>
    have hspares : ((Chain.teardown context).serve stage).Spares .stage := by
      refine Chain.spares_serve fun handler hhandler ↦ ?_
      rcases Chain.mem_handlers_teardown.mp hhandler with rfl | rfl
      · exact (EnvironmentLabel.asks_withdraw (fun _ ↦ nofun) (fun _ ↦ nofun) fun _ ↦ nofun).spares
      · exact Handler.spares_removeTarget nofun nofun
    have hsame := hspares.find? S
    cases hdown : ((Chain.teardown context).serve stage).on S with
    | mk r U =>
      rw [hdown] at hsame
      cases r with
      | error e =>
        rw [on_release_of_error hheld hdown]
        exact .inl hsame
      | ok done =>
        rw [on_release_of_ok hheld ((hsame _).trans hfound) hdown]
        refine .inr fun key ↦ ?_
        unfold Store.letGo
        split
        · simp only [Store.find?_remove, hsame]
        · simp only [Store.find?_put, hsame]

end Stage

namespace Store

variable {s t u : Store} {stage written : Stage}

/-- Every stage of the second store has become of one of the first. -/
def StagesLast (s t : Store) : Prop :=
  ∀ ⦃key : Key⦄ ⦃after : Stage⦄, t.find? .stage key = some after →
    ∃ before : Stage, s.find? .stage key = some before ∧ before.Becomes after

theorem StagesLast.refl (s : Store) : s.StagesLast s :=
  fun _ after hfound ↦ ⟨after, hfound, .refl after⟩

theorem StagesLast.trans (hfirst : s.StagesLast t) (hsecond : t.StagesLast u) :
    s.StagesLast u := by
  intro key after hfound
  obtain ⟨between, hbetween, hbecomes⟩ := hsecond hfound
  obtain ⟨before, hbefore, hbecomes'⟩ := hfirst hbetween
  exact ⟨before, hbefore, hbecomes'.trans hbecomes⟩

/-- Stores in which the same stages are found count as the same. -/
theorem StagesLast.congr (hlast : s.StagesLast t)
    (hsame : ∀ key, u.find? .stage key = t.find? .stage key) : s.StagesLast u :=
  fun key _ hfound ↦ hlast ((hsame key).symm.trans hfound)

theorem stagesLast_put (hfound : s.find? .stage written.key = some stage)
    (hbecomes : stage.Becomes written) : s.StagesLast (s.put written) := by
  intro key after hafter
  rw [find?_put] at hafter
  split at hafter
  · next hhere =>
    obtain rfl := Option.some.inj hafter
    exact ⟨stage, hhere ▸ hfound, hbecomes⟩
  · exact ⟨after, hafter, .refl after⟩

theorem stagesLast_remove (key : Key) : s.StagesLast (s.remove .stage key) :=
  fun _ after hafter ↦ ⟨after, found_of_find?_remove hafter, .refl after⟩

end Store

/-- No stage comes from nowhere in a reconciliation, and none changes what it is. -/
theorem stagesLast_reconcileStage (context : Context) (key : Key) (hkeyed : S.KeyedAt .stage) :
    S.StagesLast ((reconcileStage context key).on S).2 := by
  rcases on_reconcileStage_cases context key hkeyed with
    ⟨-, hon⟩ | ⟨stage, -, hfound, ⟨hmarked, hon⟩ | ⟨-, hon⟩⟩
  · rw [hon]
    exact .refl S
  · rw [hon]
    rcases Stage.find?_stage_provision hkeyed hfound hmarked with hsame | ⟨status, hput⟩
    · rw [hsame]
      exact .refl S
    · have hwiring := Stage.becomes_withWiring S stage
      have hbecomes : Stage.Becomes stage
          { Stage.withWiring stage (Stage.wiringIn S stage) with status := status } :=
        ⟨hwiring.ns, hwiring.spec, hwiring.previous, hwiring.deleting⟩
      exact (Store.stagesLast_put (by exact hfound) hbecomes).congr hput
  · rw [hon]
    rcases Stage.find?_stage_release hfound with hsame | hletGo
    · exact (Store.StagesLast.refl S).congr hsame
    · have hkey : (Stage.released stage).key = stage.key := Object.key_removeFinalizer
      refine Store.StagesLast.congr ?_ hletGo
      unfold Store.letGo
      split
      · exact Store.stagesLast_remove _
      · exact Store.stagesLast_put (hkey ▸ hfound) (Stage.becomes_released stage)

/-! ### Places -/

section Places

variable {k : Kind} {place : Key}

/-- What is found at the place is what was there in the store, unless the place is the target of
that name: then it may also be something that has the property. -/
def Store.LeavesPlace (S : Store) (context : Context) (target : String) (place : Key)
    (P : Option (Object k) → Prop) (found : Option (Object k)) : Prop :=
  found = S.find? k place ∨ k = context.targetKind ∧ place = ⟨"", target⟩ ∧ P found

/-- A target is created where there is none. -/
theorem keeps_secure_place {k' : Kind} (o : Object k') {target : String}
    (hkind : k' = context.targetKind) (hkey : o.key = ⟨"", target⟩) :
    (secure o).Keeps (fun t ↦ S.LeavesPlace context target place
      (fun _ ↦ S.find? k place = none) (t.find? k place)) := by
  intro s hs
  rw [on_secure]
  show S.LeavesPlace context target place _ ((s.create o).2.find? k place)
  by_cases hhere : k = k' ∧ place = o.key
  · obtain ⟨rfl, rfl⟩ := hhere
    by_cases hnone : S.find? k o.key = none
    · exact .inr ⟨hkind, hkey, hnone⟩
    · obtain ⟨stored, hstored⟩ := Option.ne_none_iff_exists'.mp hnone
      have hthere : s.find? k o.key = some stored :=
        (hs.resolve_right fun h ↦ hnone h.2.2).trans hstored
      exact .inl ((Store.find?_create_of_found s o hthere).trans hstored.symm)
  · rw [Store.find?_create_of_ne s o hhere]
    exact hs

theorem Handler.keeps_target_place (stage : Stage) : ((target context).serve stage).Keeps
    (fun t ↦ S.LeavesPlace context stage.target place
      (fun _ ↦ S.find? k place = none) (t.find? k place)) := by
  intro s hs
  rw [on_target]
  split
  · next hkiosk =>
    have hkind : .space = context.targetKind := by rw [Context.targetKind, if_pos hkiosk]
    exact keeps_secure_place (Target.buildSpace ..) hkind rfl s hs
  · next hkiosk =>
    have hkind : .ns = context.targetKind := by rw [Context.targetKind, if_neg hkiosk]
    exact keeps_secure_place (Target.buildNamespace ..) hkind rfl s hs

theorem Handler.keeps_removeTarget_place {P : Option (Object k) → Prop} (hnone : P none) :
    ((removeTarget context).serve stage).Keeps
      (fun t ↦ S.LeavesPlace context stage.target place P (t.find? k place)) := by
  intro s hs
  rw [serve_removeTarget, on_delete]
  show S.LeavesPlace context stage.target place P ((s.remove _ _).find? k place)
  by_cases hhere : k = context.targetKind ∧ place = ⟨"", stage.target⟩
  · obtain ⟨rfl, rfl⟩ := hhere
    rw [Store.find?_remove_self]
    exact .inr ⟨rfl, rfl, hnone⟩
  · rw [Store.find?_remove_of_ne s hhere]
    exact hs

namespace Stage

/-- A place appears in a provisioning only if it is the target of the stage. -/
theorem find?_place_provision (context : Context) (hk : k = .ns ∨ k = .space)
    (hfound : S.find? .stage stage.key = some stage) (hlive : stage.isDeleting = false) :
    S.LeavesPlace context stage.target place (fun _ ↦ S.find? k place = none)
      (((provision context stage).on S).2.find? k place) := by
  have hfollowed : ∀ k', k' = k → k'.IsFollowed := by
    rintro _ rfl
    exact .inr (.inr hk)
  have hstage : ¬ .stage = k := by rcases hk with rfl | rfl <;> nofun
  have hstream : ¬ .imageStream = k := by rcases hk with rfl | rfl <;> nofun
  have hI (target : String) := Store.dependsOn_find? place
    (S.LeavesPlace context target place (fun _ : Option (Object k) ↦ S.find? k place = none))
  have hhandlers (adopted : Stage) := Chain.keeps_creation (hI adopted.target) hfollowed
    ((VerifiedStreams.asks_serve (fun _ _ ↦ rfl) (fun _ _ ↦ rfl) (fun _ _ ↦ rfl)
      fun _ hcontra ↦ absurd hcontra hstream).keeps_of_reads (hI _))
    (Handler.keeps_target_place adopted) fun _ ↦
      (EnvironmentLabel.asks_serve (fun _ _ ↦ rfl) (fun _ _ ↦ rfl)
        fun _ hcontra ↦ absurd hcontra hstream).keeps_of_reads (hI _)
  exact keeps_provision (hI _) hstage hfound hlive
    (fun _ ↦ Chain.keeps_serve (hhandlers (stage.withWiring (stage.wiringIn S)))) (.inl rfl)

/-- A place vanishes in a release only if it is the target of the stage, and the stage was held. -/
theorem find?_place_release (context : Context) (hk : k = .ns ∨ k = .space) (S : Store) :
    S.LeavesPlace context stage.target place
      (fun found ↦ found = none ∧ stage.metadata.hasFinalizer Naming.labelCleanup = true)
      (((release context stage).on S).2.find? k place) := by
  have hstage : ¬ .stage = k := by rcases hk with rfl | rfl <;> nofun
  have hstream : ¬ .imageStream = k := by rcases hk with rfl | rfl <;> nofun
  have hI := Store.dependsOn_find? place (S.LeavesPlace context stage.target place
    (fun found : Option (Object k) ↦
      found = none ∧ stage.metadata.hasFinalizer Naming.labelCleanup = true))
  refine keeps_release hI hstage (fun hheld ↦ ⟨?_, ?_⟩) S (.inl rfl)
  · exact (EnvironmentLabel.asks_withdraw (fun _ _ ↦ rfl) (fun _ _ ↦ rfl)
      fun _ hcontra ↦ absurd hcontra hstream).keeps_of_reads hI
  · exact Handler.keeps_removeTarget_place ⟨rfl, hheld⟩

end Stage

end Places

/-- What a reconciliation does to places: it may provide the target of a live stage where there is
none, and it may remove the target of a deleting stage that the operator holds. -/
theorem find?_place_reconcileStage {k : Kind} (hk : k = .ns ∨ k = .space) (place : Key)
    (context : Context) (key : Key) (hkeyed : S.KeyedAt .stage) :
    ((reconcileStage context key).on S).2.find? k place = S.find? k place ∨
      ∃ stage : Stage, S.find? .stage key = some stage ∧ k = context.targetKind ∧
        place = ⟨"", stage.target⟩ ∧
        (stage.isDeleting = false ∧ S.find? k place = none ∨
          stage.isDeleting = true ∧ stage.metadata.hasFinalizer Naming.labelCleanup = true ∧
            ((reconcileStage context key).on S).2.find? k place = none) := by
  rcases on_reconcileStage_cases context key hkeyed with
    ⟨-, hon⟩ | ⟨stage, rfl, hfound, ⟨hmarked, hon⟩ | ⟨hmarked, hon⟩⟩
  · rw [hon]
    exact .inl rfl
  · rw [hon]
    refine (Stage.find?_place_provision context hk hfound hmarked).imp_right ?_
    rintro ⟨hkind, hplace, hnone⟩
    exact ⟨stage, hfound, hkind, hplace, .inl ⟨hmarked, hnone⟩⟩
  · rw [hon]
    refine (Stage.find?_place_release context hk S).imp_right ?_
    rintro ⟨hkind, hplace, hnone, hheld⟩
    exact ⟨stage, hfound, hkind, hplace, .inr ⟨hmarked, hheld, hnone⟩⟩

end PipelineOperator
