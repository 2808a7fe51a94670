import PipelineOperator.Proofs.Reconcile.Inputs

/-!
Two stages of one namespace, reconciled one after the other. They may share input streams, the
target and what lies in it, and the one may deploy from streams of the other. If no verified stream
can be one of both, and both succeed in either order, then the order does not matter
(`reconcileStage_comm`).

What a reconciliation makes of each object is told by `Stage.Effect`. So there are four effects to
compare, the sides of a square (`Square`): for every object both ways through the square leave the
same. The heart of it are the streams. A stream that the one stage builds is not built by the other,
so the other has all that it needs without it (`Square.absent_of_created`), takes the same
codebases before and after (`Square.takes_iff`), and does not deploy from it.
-/

set_option autoImplicit false
set_option relaxedAutoImplicit false

namespace PipelineOperator

open Operation

variable {context : Context} {S T X Y XY YX : Store} {k : Kind} {key : Key}

/-! ### Clusters that differ in dates -/

namespace StageStatus

def undated (s : StageStatus) : StageStatus := { s with lastTimeUpdated := none }

theorem undated_registered (now now' : Instant) :
    (registered now).undated = (registered now').undated := by
  simp only [undated, registered]

end StageStatus

/-- The stage without the date of its status. -/
def Stage.undated (s : Stage) : Stage := { s with status := s.status.map StageStatus.undated }

/-- The date is all of a confirmed status that depends on the time. -/
theorem Stage.undated_confirmedStatus (s : Stage) (now now' : Instant) :
    Stage.undated { s with status := s.confirmedStatus { context with now := now } } =
      Stage.undated { s with status := s.confirmedStatus { context with now := now' } } := by
  unfold confirmedStatus undated
  cases s.isRegistered with
  | true => rw [if_pos rfl, if_pos rfl]
  | false =>
    simp only [Bool.false_eq_true, if_false, Option.map_some]
    rw [StageStatus.undated_registered now now']

/-- The stores differ at most in the dates of the statuses of two stages. -/
structure Store.SameButDates (first second : Key) (s t : Store) : Prop where
  stages : ∀ key, (s.find? .stage key).map Stage.undated = (t.find? .stage key).map Stage.undated
  others : ∀ k key, (k = .stage → key ≠ first ∧ key ≠ second) → s.find? k key = t.find? k key

/-! ### What a stage is provisioned with -/

namespace Stage

variable {stage stage' : Stage} {pipeline pipeline' : Pipeline} {before after after' : ImageStream}

theorem Relabels.spec (h : stage.Relabels pipeline T key before after) :
    after.spec = before.spec := by
  by_cases hdeploys : stage.DeploysFrom pipeline T key
  · rw [h.1 hdeploys, Object.spec_withLabel]
  · rw [h.2 hdeploys]

/-- What becomes of a stream depends on the store only as far as the stage deploys from it. -/
theorem Relabels.congr (h : stage.Relabels pipeline S key before after)
    (hsame : stage.DeploysFrom pipeline S key ↔ stage.DeploysFrom pipeline T key) :
    stage.Relabels pipeline T key before after :=
  ⟨fun hdeploys ↦ h.1 (hsame.mpr hdeploys), fun hspared ↦ h.2 ((not_congr hsame).mpr hspared)⟩

theorem Relabels.unique (h : stage.Relabels pipeline S key before after)
    (h' : stage.Relabels pipeline S key before after') : after = after' := by
  by_cases hdeploys : stage.DeploysFrom pipeline S key
  · rw [h.1 hdeploys, h'.1 hdeploys]
  · rw [h.2 hdeploys, h'.2 hdeploys]

/-- Two stages that label a stream one after the other may do so in either order. -/
theorem Relabels.comm {byX byY byXY byYX : ImageStream}
    (hbyX : stage.Relabels pipeline S key before byX)
    (hbyXY : stage'.Relabels pipeline' T key byX byXY)
    (hbyY : stage'.Relabels pipeline' T key before byY)
    (hbyYX : stage.Relabels pipeline S key byY byYX) : byXY = byYX := by
  by_cases hx : stage.DeploysFrom pipeline S key
  · rw [hbyX.1 hx] at hbyXY
    rw [hbyYX.1 hx]
    by_cases hy : stage'.DeploysFrom pipeline' T key
    · rw [hbyXY.1 hy, hbyY.1 hy, Object.withLabel_comm]
    · rw [hbyXY.2 hy, hbyY.2 hy]
  · rw [hbyX.2 hx] at hbyXY
    rw [hbyYX.2 hx]
    exact hbyXY.unique hbyY

/-- The objects in and around the target that a stage is equipped with, as they are built. -/
def Equips (context : Context) (stage : Stage) : (k : Kind) → Object k → Prop
  | .ns, o => context.kiosk = false ∧
      o = Target.buildNamespace stage.target stage.metadata.namespaceOrEmpty
  | .space, o => context.kiosk = true ∧
      o = Target.buildSpace stage.target stage.metadata.namespaceOrEmpty
  | .role, o => o = Access.viewRole stage.target
  | .roleBinding, o => o ∈ Access.desiredBindings stage.metadata.namespaceOrEmpty stage.target
      context.platform
  | _, _ => False

/-- Stages of one namespace are equipped with the same objects where they share any. -/
theorem Equips.eq {o o' : Object k} (h : stage.Equips context k o)
    (h' : stage'.Equips context k o')
    (hns : stage'.metadata.namespaceOrEmpty = stage.metadata.namespaceOrEmpty)
    (hkey : o'.key = o.key) : o' = o := by
  cases k
  case ns =>
    obtain ⟨-, rfl⟩ := h
    obtain ⟨-, rfl⟩ := h'
    have htarget : stage'.target = stage.target := congrArg Key.name hkey
    rw [htarget, hns]
  case space =>
    obtain ⟨-, rfl⟩ := h
    obtain ⟨-, rfl⟩ := h'
    have htarget : stage'.target = stage.target := congrArg Key.name hkey
    rw [htarget, hns]
  case role =>
    obtain rfl := h
    obtain rfl := h'
    have htarget : stage'.target = stage.target := congrArg Key.ns hkey
    rw [htarget]
  case roleBinding =>
    have htarget : stage'.target = stage.target := by
      rw [← Access.ns_of_mem_desiredBindings h, ← Access.ns_of_mem_desiredBindings h', hkey]
    unfold Equips at h'
    rw [hns, htarget] at h'
    exact Access.eq_of_key_eq h h' hkey
  all_goals exact h.elim

end Stage

/-- A stage as it is adopted, its pipeline, and the registry of its images. -/
structure Outfit where
  stage : Stage
  pipeline : Pipeline
  registry : Component

namespace Outfit

/-- The verified stream of a codebase as it is built for the stage. -/
def verified (x : Outfit) (codebase : String) : ImageStream :=
  VerifiedStreams.build x.stage (VerifiedStreams.name x.stage codebase) codebase
    (Naming.verifiedImage x.registry.spec.url x.stage.metadata.namespaceOrEmpty)

/-- Provisioning the stage at some time makes the second store of the first. -/
structure Provisions (context : Context) (x : Outfit) (S T : Store) : Prop where
  effect : ∃ now, x.stage.Effect { context with now } x.pipeline x.registry S T
  draws : S.DrawsFrom x.stage x.pipeline T

namespace Provisions

variable {x : Outfit} {before after : ImageStream} {name codebase : String}

theorem inputs (h : x.Provisions context S T) (hname : name ∈ x.pipeline.spec.inputStreams) :
    ∃ codebase, x.stage.Takes x.pipeline T name codebase :=
  have ⟨_, heffect⟩ := h.effect
  heffect.inputs name hname

theorem kept (h : x.Provisions context S T) (hbefore : S.find? .imageStream key = some before) :
    ∃ after, T.find? .imageStream key = some after ∧
      x.stage.Relabels x.pipeline T key before after :=
  have ⟨_, heffect⟩ := h.effect
  heffect.kept key before hbefore

theorem built (h : x.Provisions context S T) (htakes : x.stage.Takes x.pipeline T name codebase)
    (habsent : S.find? .imageStream (VerifiedStreams.key x.stage codebase) = none) :
    ∃ after, T.find? .imageStream (VerifiedStreams.key x.stage codebase) = some after ∧
      x.stage.Relabels x.pipeline T (VerifiedStreams.key x.stage codebase) (x.verified codebase)
        after :=
  have ⟨_, heffect⟩ := h.effect
  heffect.built name codebase htakes habsent

/-- A new stream is the verified stream of a codebase that the stage takes. -/
theorem created (h : x.Provisions context S T) (habsent : S.find? .imageStream key = none)
    (hafter : T.find? .imageStream key = some after) :
    ∃ name codebase, x.stage.Takes x.pipeline T name codebase ∧
      key = VerifiedStreams.key x.stage codebase ∧
      x.stage.Relabels x.pipeline T key (x.verified codebase) after := by
  obtain ⟨now, heffect⟩ := h.effect
  obtain ⟨name, codebase, htakes, rfl⟩ := heffect.verified key after habsent hafter
  obtain ⟨after', hafter', hrelabels⟩ := h.built htakes habsent
  obtain rfl := Option.some.inj (hafter.symm.trans hafter')
  exact ⟨name, codebase, htakes, rfl, hrelabels⟩

/-- There is a stream wherever the stage deploys from. -/
theorem found_of_deploysFrom (h : x.Provisions context S T)
    (hdeploys : x.stage.DeploysFrom x.pipeline T key) :
    ∃ stream, T.find? .imageStream key = some stream := by
  obtain ⟨now, heffect⟩ := h.effect
  obtain ⟨hauto, name, codebase, htakes, hsource⟩ := hdeploys
  obtain ⟨key', stream, hsource', hfound, -⟩ := heffect.labelled hauto name codebase htakes
  obtain rfl := hsource.unique hsource'
  exact ⟨stream, hfound⟩

theorem equipped (h : x.Provisions context S T) {o : Object k}
    (hequips : x.stage.Equips context k o) :
    T.find? k o.key = some ((S.find? k o.key).getD o) := by
  obtain ⟨now, heffect⟩ := h.effect
  cases k
  case ns =>
    obtain ⟨hkiosk, rfl⟩ := hequips
    exact heffect.namespaces hkiosk
  case space =>
    obtain ⟨hkiosk, rfl⟩ := hequips
    exact heffect.spaces hkiosk
  case role =>
    obtain rfl := hequips
    exact heffect.role
  case roleBinding => exact (heffect.bindings o hequips).2
  all_goals exact hequips.elim

/-- What the stage is not equipped with stays, as far as it is neither a stream nor of the key of
the stage. -/
theorem beside (h : x.Provisions context S T) (hstream : k ≠ .imageStream)
    (hkey : k = .stage ∨ k = .jenkinsJob → key ≠ x.stage.key)
    (hequips : ∀ o : Object k, x.stage.Equips context k o → key ≠ o.key) :
    T.find? k key = S.find? k key := by
  obtain ⟨now, heffect⟩ := h.effect
  refine heffect.elsewhere k key hstream fun htouches ↦ ?_
  cases k
  case stage => exact hkey (.inl rfl) htouches
  case jenkinsJob => exact hkey (.inr rfl) htouches
  case ns => exact hequips _ ⟨htouches.1, rfl⟩ htouches.2
  case space => exact hequips _ ⟨htouches.1, rfl⟩ htouches.2
  case role => exact hequips _ rfl htouches
  case roleBinding =>
    obtain ⟨b, hb, hsame⟩ := htouches
    exact hequips b hb hsame
  all_goals exact htouches.elim

theorem job (h : x.Provisions context S T) : T.find? .jenkinsJob x.stage.key =
    some (StageJob.brought S x.stage (StageJob.desired S x.stage x.pipeline)) := by
  obtain ⟨now, heffect⟩ := h.effect
  obtain ⟨config, hconfig, hjob⟩ := heffect.job
  rw [(StageJob.rests_config S x.stage x.pipeline).on] at hconfig
  obtain rfl := Except.ok.inj (congrArg Prod.fst hconfig)
  rw [hjob, StageJob.brought_eq]

end Provisions

end Outfit

/-! ### The square -/

/-- Two stages of one namespace that were provisioned in either order. -/
structure Square (context : Context) (x y : Outfit) (S X Y XY YX : Store) : Prop where
  left : x.Provisions context S X
  right : y.Provisions context S Y
  leftThenRight : y.Provisions context X XY
  rightThenLeft : x.Provisions context Y YX
  ns : y.stage.metadata.namespaceOrEmpty = x.stage.metadata.namespaceOrEmpty
  distinct : y.stage.key ≠ x.stage.key
  /-- No verified stream can be one of both. -/
  apart : ∀ name codebase name' codebase', x.stage.Takes x.pipeline S name codebase →
    y.stage.Takes y.pipeline S name' codebase' →
      VerifiedStreams.key y.stage codebase' ≠ VerifiedStreams.key x.stage codebase

namespace Square

variable {x y : Outfit} {stream : ImageStream} {name codebase codebase' : String}

theorem swap (h : Square context x y S X Y XY YX) : Square context y x S Y X YX XY where
  left := h.right
  right := h.left
  leftThenRight := h.rightThenLeft
  rightThenLeft := h.leftThenRight
  ns := h.ns.symm
  distinct := h.distinct.symm
  apart name codebase name' codebase' hright hleft :=
    (h.apart name' codebase' name codebase hleft hright).symm

/-! #### Streams -/

/-- What the one stage builds the other does not. -/
theorem absent_of_created (h : Square context x y S X Y XY YX)
    (habsent : S.find? .imageStream key = none) (hX : X.find? .imageStream key = some stream) :
    Y.find? .imageStream key = none := by
  obtain ⟨name, codebase, htakes, hkey, -⟩ := h.left.created habsent hX
  cases hY : Y.find? .imageStream key with
  | none => rfl
  | some stream' =>
    obtain ⟨name', codebase', htakes', hkey', -⟩ := h.right.created habsent hY
    obtain ⟨before, hbefore⟩ := h.left.draws.takes name codebase htakes
    obtain ⟨before', hbefore'⟩ := h.right.draws.takes name' codebase' htakes'
    exact absurd (hkey'.symm.trans hkey)
      (h.apart before codebase before' codebase' hbefore hbefore')

/-- The input streams of a stage are of the same codebases in either order. -/
theorem codebase_unique (h : Square context x y S X Y XY YX)
    (htakes : y.stage.Takes y.pipeline XY name codebase)
    (htakes' : y.stage.Takes y.pipeline Y name codebase') : codebase = codebase' := by
  obtain ⟨-, input, hinput, rfl⟩ := htakes
  obtain ⟨-, input', hinput', rfl⟩ := htakes'
  cases hS : S.find? .imageStream ⟨y.stage.metadata.namespaceOrEmpty, name⟩ with
  | some before =>
    obtain ⟨between, hX, hbetween⟩ := h.left.kept hS
    obtain ⟨after, hXY, hafter⟩ := h.leftThenRight.kept hX
    obtain ⟨after', hY, hafter'⟩ := h.right.kept hS
    obtain rfl := Option.some.inj (hinput.symm.trans hXY)
    obtain rfl := Option.some.inj (hinput'.symm.trans hY)
    rw [hafter.spec, hbetween.spec, hafter'.spec]
  | none =>
    have hX := h.swap.absent_of_created hS hinput'
    obtain ⟨-, codebase, -, hkey, hbuilt⟩ := h.leftThenRight.created hX hinput
    obtain ⟨-, codebase', -, hkey', hbuilt'⟩ := h.right.created hS hinput'
    obtain rfl : codebase = codebase' :=
      Naming.verifiedStream_injective (congrArg Key.name (hkey.symm.trans hkey'))
    rw [hbuilt.spec, hbuilt'.spec]

theorem takes_iff (h : Square context x y S X Y XY YX) :
    y.stage.Takes y.pipeline XY name codebase ↔ y.stage.Takes y.pipeline Y name codebase := by
  constructor
  · intro htakes
    obtain ⟨codebase', htakes'⟩ := h.right.inputs htakes.1
    exact h.codebase_unique htakes htakes' ▸ htakes'
  · intro htakes'
    obtain ⟨codebase, htakes⟩ := h.leftThenRight.inputs htakes'.1
    exact h.codebase_unique htakes htakes' ▸ htakes

theorem deploysFrom_iff (h : Square context x y S X Y XY YX) :
    y.stage.DeploysFrom y.pipeline XY key ↔ y.stage.DeploysFrom y.pipeline Y key := by
  unfold Stage.DeploysFrom
  simp only [h.takes_iff]

/-- A stream that the one stage builds is left alone by the other, and built likewise after it. -/
theorem find?_of_created (h : Square context x y S X Y XY YX)
    (habsent : S.find? .imageStream key = none) (hX : X.find? .imageStream key = some stream) :
    XY.find? .imageStream key = some stream ∧ YX.find? .imageStream key = some stream := by
  have hY := h.absent_of_created habsent hX
  constructor
  · obtain ⟨after, hXY, hafter⟩ := h.leftThenRight.kept hX
    have hspared : ¬ y.stage.DeploysFrom y.pipeline XY key := fun hdeploys ↦ by
      obtain ⟨stream', hfound⟩ := h.right.found_of_deploysFrom (h.deploysFrom_iff.mp hdeploys)
      exact nomatch hY.symm.trans hfound
    rw [hXY, hafter.2 hspared]
  · obtain ⟨name, codebase, htakes, rfl, hbuilt⟩ := h.left.created habsent hX
    obtain ⟨after, hYX, hafter⟩ := h.rightThenLeft.built (h.swap.takes_iff.mpr htakes) hY
    rw [hYX, (hafter.congr h.swap.deploysFrom_iff).unique hbuilt]

/-- Where neither stage builds a stream there is none. -/
theorem find?_of_absent (h : Square context x y S X Y XY YX)
    (habsent : S.find? .imageStream key = none) (hX : X.find? .imageStream key = none)
    (hY : Y.find? .imageStream key = none) : XY.find? .imageStream key = none := by
  cases hXY : XY.find? .imageStream key with
  | none => rfl
  | some stream =>
    obtain ⟨name, codebase, htakes, rfl, -⟩ := h.leftThenRight.created hX hXY
    obtain ⟨after, hafter, -⟩ := h.right.built (h.takes_iff.mp htakes) habsent
    exact nomatch hY.symm.trans hafter

/-- A stream that was there gets the same labels in either order. -/
theorem find?_of_kept (h : Square context x y S X Y XY YX)
    (hS : S.find? .imageStream key = some stream) :
    XY.find? .imageStream key = YX.find? .imageStream key := by
  obtain ⟨byX, hX, hbyX⟩ := h.left.kept hS
  obtain ⟨byXY, hXY, hbyXY⟩ := h.leftThenRight.kept hX
  obtain ⟨byY, hY, hbyY⟩ := h.right.kept hS
  obtain ⟨byYX, hYX, hbyYX⟩ := h.rightThenLeft.kept hY
  have hsame : byXY = byYX :=
    hbyX.comm (hbyXY.congr h.deploysFrom_iff) hbyY (hbyYX.congr h.swap.deploysFrom_iff)
  rw [hXY, hYX, hsame]

theorem find?_stream (h : Square context x y S X Y XY YX) (key : Key) :
    XY.find? .imageStream key = YX.find? .imageStream key := by
  cases hS : S.find? .imageStream key with
  | some stream => exact h.find?_of_kept hS
  | none =>
    cases hX : X.find? .imageStream key with
    | some stream =>
      obtain ⟨hXY, hYX⟩ := h.find?_of_created hS hX
      rw [hXY, hYX]
    | none =>
      cases hY : Y.find? .imageStream key with
      | some stream =>
        obtain ⟨hYX, hXY⟩ := h.swap.find?_of_created hS hY
        rw [hXY, hYX]
      | none => rw [h.find?_of_absent hS hX hY, h.swap.find?_of_absent hS hY hX]

/-! #### Everything else -/

/-- What a stage is equipped with is the same in either order, also where the other stage is
equipped with it. -/
theorem find?_of_equipped (h : Square context x y S X Y XY YX) {o : Object k}
    (hequips : x.stage.Equips context k o) : XY.find? k o.key = YX.find? k o.key := by
  rw [h.rightThenLeft.equipped hequips]
  by_cases hshared : ∃ o' : Object k, y.stage.Equips context k o' ∧ o'.key = o.key
  · obtain ⟨o', hequips', hkey⟩ := hshared
    obtain rfl := hequips.eq hequips' h.ns hkey
    rw [h.leftThenRight.equipped hequips', h.left.equipped hequips, h.right.equipped hequips']
  · have hbeside {s t : Store} (hprovisions : y.Provisions context s t) :
        t.find? k o.key = s.find? k o.key := by
      refine hprovisions.beside ?_ ?_ fun o' hequips' hkey ↦ hshared ⟨o', hequips', hkey.symm⟩
      · rintro rfl
        exact hequips
      · rintro (rfl | rfl) <;> exact hequips.elim
    rw [hbeside h.leftThenRight, h.left.equipped hequips, hbeside h.right]

/-- The job of a stage is the same in either order. -/
theorem find?_job (h : Square context x y S X Y XY YX) :
    XY.find? .jenkinsJob x.stage.key = YX.find? .jenkinsJob x.stage.key := by
  have hbeside {s t : Store} (hprovisions : y.Provisions context s t) :
      t.find? .jenkinsJob x.stage.key = s.find? .jenkinsJob x.stage.key :=
    hprovisions.beside (by decide) (fun _ ↦ h.distinct.symm) fun _ hcontra ↦ hcontra.elim
  have hgiven (k : Kind) (hk : k = .codebase ∨ k = .gitServer) (key : Key) :
      Y.find? k key = S.find? k key := by
    rcases hk with rfl | rfl
    · exact h.right.beside (by decide) (by simp) fun _ hcontra ↦ hcontra.elim
    · exact h.right.beside (by decide) (by simp) fun _ hcontra ↦ hcontra.elim
  have hbrought (config : String) :
      StageJob.brought Y x.stage config = StageJob.brought S x.stage config := by
    unfold StageJob.brought
    rw [hbeside h.right]
  rw [hbeside h.leftThenRight, h.left.job, h.rightThenLeft.job, hbrought,
    StageJob.desired_congr (hgiven _ (.inl rfl)) (hgiven _ (.inr rfl))]

/-- The stages are stored alike in either order, but for the time of it. -/
theorem find?_stage (h : Square context x y S X Y XY YX) :
    (XY.find? .stage x.stage.key).map Stage.undated =
      (YX.find? .stage x.stage.key).map Stage.undated := by
  obtain ⟨now, hleft⟩ := h.left.effect
  obtain ⟨now', hthen⟩ := h.rightThenLeft.effect
  have hbeside : XY.find? .stage x.stage.key = X.find? .stage x.stage.key :=
    h.leftThenRight.beside (by decide) (fun _ ↦ h.distinct.symm) fun _ hcontra ↦ hcontra.elim
  rw [hbeside, hleft.registered.1, hthen.registered.1, Option.map_some, Option.map_some,
    Stage.undated_confirmedStatus]

/-- What is neither a stream nor of a stage is left alone in either order. -/
theorem find?_beside (h : Square context x y S X Y XY YX) (hstream : k ≠ .imageStream)
    (hkeys : k = .stage ∨ k = .jenkinsJob → key ≠ x.stage.key ∧ key ≠ y.stage.key)
    (hx : ∀ o : Object k, x.stage.Equips context k o → key ≠ o.key)
    (hy : ∀ o : Object k, y.stage.Equips context k o → key ≠ o.key) :
    XY.find? k key = YX.find? k key := by
  rw [h.leftThenRight.beside hstream (fun hk ↦ (hkeys hk).2) hy,
    h.left.beside hstream (fun hk ↦ (hkeys hk).1) hx,
    h.rightThenLeft.beside hstream (fun hk ↦ (hkeys hk).1) hx,
    h.right.beside hstream (fun hk ↦ (hkeys hk).2) hy]

/-- Both ways through the square lead to the same. -/
theorem sameButDates (h : Square context x y S X Y XY YX) :
    XY.SameButDates x.stage.key y.stage.key YX := by
  have hothers (k : Kind) (key : Key)
      (hkey : k = .stage → key ≠ x.stage.key ∧ key ≠ y.stage.key) :
      XY.find? k key = YX.find? k key := by
    by_cases hstream : k = .imageStream
    · subst hstream
      exact h.find?_stream key
    by_cases hjob : k = .jenkinsJob ∧ (key = x.stage.key ∨ key = y.stage.key)
    · obtain ⟨rfl, rfl | rfl⟩ := hjob
      · exact h.find?_job
      · exact h.swap.find?_job.symm
    by_cases hx : ∃ o : Object k, x.stage.Equips context k o ∧ key = o.key
    · obtain ⟨o, hequips, rfl⟩ := hx
      exact h.find?_of_equipped hequips
    by_cases hy : ∃ o : Object k, y.stage.Equips context k o ∧ key = o.key
    · obtain ⟨o, hequips, rfl⟩ := hy
      exact (h.swap.find?_of_equipped hequips).symm
    refine h.find?_beside hstream ?_ (fun o ho hkey ↦ hx ⟨o, ho, hkey⟩)
      fun o ho hkey ↦ hy ⟨o, ho, hkey⟩
    rintro (rfl | rfl)
    · exact hkey rfl
    · exact not_or.mp fun hkeys ↦ hjob ⟨rfl, hkeys⟩
  refine ⟨fun key ↦ ?_, hothers⟩
  by_cases hx : key = x.stage.key
  · rw [hx]
    exact h.find?_stage
  by_cases hy : key = y.stage.key
  · rw [hy]
    exact h.swap.find?_stage.symm
  · rw [hothers .stage key fun _ ↦ ⟨hx, hy⟩]

end Square

/-! ### Reconciling in either order -/

namespace Stage

variable {stage : Stage} {now : Instant} {outcome : Outcome}

/-- The stage is to have a verified stream of that name: for the codebase of an input stream of its
pipeline. -/
def Verifies (stage : Stage) (s : Store) (name : String) : Prop :=
  ∃ pipeline, s.find? .pipeline stage.pipelineKey = some pipeline ∧
    ∃ input codebase, stage.Takes pipeline s input codebase ∧
      name = VerifiedStreams.name stage codebase

/-- A reconciliation that succeeds provisions the stage as it is adopted. -/
theorem exists_provisions (hsound : S.Sound) (hfound : S.find? .stage stage.key = some stage)
    (hlive : stage.isDeleting = false)
    (hok : (reconcileStage { context with now } stage.key).on S = (.ok outcome, T)) :
    ∃ pipeline registry, S.find? .pipeline stage.pipelineKey = some pipeline ∧
      S.find? .component ⟨stage.metadata.namespaceOrEmpty, Naming.registryComponent⟩ =
        some registry ∧
      Outfit.Provisions context ⟨stage.withWiring (stage.wiringIn S), pipeline, registry⟩ S T ∧
      T.Sound := by
  have hprovision := (on_reconcileStage_of_live _ hfound hlive).symm.trans hok
  rcases on_adopt hfound hlive with ⟨e, hadopt⟩ | ⟨hadopt, -⟩
  · rw [(rests_provision_of_error hadopt).on] at hprovision
    exact nomatch congrArg Prod.fst hprovision
  rw [on_provision_of_ok hadopt] at hprovision
  obtain ⟨_, U, hfurnished, hconfirmed⟩ := exists_of_on_bind hprovision
  have hadoptedLive : (stage.withWiring (stage.wiringIn S)).isDeleting = false := hlive
  obtain ⟨-, -, hleads⟩ := leads_of_confirmed hsound hadoptedLive hfurnished hconfirmed
  obtain ⟨pipeline, registry, hpipeline, hregistry, heffect⟩ :=
    effect_of_furnished hsound hadoptedLive hfurnished hconfirmed
  have hdraws := drawsFrom_reconcileStage { context with now } hsound hfound hlive hpipeline
  rw [hok] at hdraws
  exact ⟨pipeline, registry, hpipeline, hregistry, ⟨⟨now, heffect⟩, hdraws⟩, hleads.sound⟩

/-- After another stage was provisioned, a stage is provisioned with the same, and as it would have
been adopted before. -/
theorem provisions_after {other : Stage} {x : Outfit} (hfirst : x.Provisions context S X)
    (hsound : X.Sound) (hother : S.find? .stage x.stage.key = some other)
    (houtline : Store.outline x.stage = Store.outline other)
    (hfound : S.find? .stage stage.key = some stage) (hlive : stage.isDeleting = false)
    (hdistinct : stage.key ≠ x.stage.key)
    (hok : (reconcileStage { context with now } stage.key).on X = (.ok outcome, T))
    {pipeline : Pipeline} (hpipeline : S.find? .pipeline stage.pipelineKey = some pipeline)
    {registry : Component} (hregistry : S.find? .component
      ⟨stage.metadata.namespaceOrEmpty, Naming.registryComponent⟩ = some registry) :
    Outfit.Provisions context ⟨stage.withWiring (stage.wiringIn S), pipeline, registry⟩ X T := by
  have hgiven (k : Kind) (hk : k = .pipeline ∨ k = .component) (key : Key) :
      X.find? k key = S.find? k key := by
    rcases hk with rfl | rfl
    · exact hfirst.beside (by decide) (by simp) fun _ hcontra ↦ hcontra.elim
    · exact hfirst.beside (by decide) (by simp) fun _ hcontra ↦ hcontra.elim
  have hstages (key : Key) (hkey : key ≠ x.stage.key) :
      X.find? .stage key = S.find? .stage key :=
    hfirst.beside (by decide) (fun _ ↦ hkey) fun _ hcontra ↦ hcontra.elim
  have houtlines : S.SameOutlines X := by
    intro key
    by_cases hkey : key = x.stage.key
    · obtain ⟨now, heffect⟩ := hfirst.effect
      rw [hkey, hother, heffect.registered.1]
      exact congrArg some houtline.symm
    · rw [hstages key hkey]
  obtain ⟨pipeline', registry', hpipeline', hregistry', hprovisions, -⟩ :=
    exists_provisions hsound ((hstages _ hdistinct).trans hfound) hlive hok
  rw [hgiven _ (.inl rfl), hpipeline, Option.some.injEq] at hpipeline'
  rw [hgiven _ (.inr rfl), hregistry, Option.some.injEq] at hregistry'
  rwa [stage.wiringIn_congr (hgiven _ (.inl rfl)) houtlines, ← hpipeline', ← hregistry']
    at hprovisions

end Stage

/-- Two live stages of one namespace that cannot have a verified stream in common, reconciled with
success in either order and at any times: the clusters that are left differ at most in the dates of
the two statuses. -/
theorem reconcileStage_comm (context : Context)
    {b left right leftThenRight rightThenLeft : Bench} (hserving : b.IsServing)
    (hsound : b.store.Sound) {first second : Stage}
    (hfirst : b.store.find? .stage first.key = some first)
    (hsecond : b.store.find? .stage second.key = some second)
    (hfirstLive : first.isDeleting = false) (hsecondLive : second.isDeleting = false)
    (hns : second.metadata.namespaceOrEmpty = first.metadata.namespaceOrEmpty)
    (hdistinct : second.key ≠ first.key)
    (hapart : ∀ name, first.Verifies b.store name → ¬ second.Verifies b.store name)
    {t₁ t₂ t₃ t₄ : Instant} {o₁ o₂ o₃ o₄ : Outcome}
    (hleft : (reconcileStage { context with now := t₁ } first.key).onBench b = (.ok o₁, left))
    (hleftThenRight : (reconcileStage { context with now := t₂ } second.key).onBench left =
      (.ok o₂, leftThenRight))
    (hright : (reconcileStage { context with now := t₃ } second.key).onBench b = (.ok o₃, right))
    (hrightThenLeft : (reconcileStage { context with now := t₄ } first.key).onBench right =
      (.ok o₄, rightThenLeft)) :
    leftThenRight.store.SameButDates first.key second.key rightThenLeft.store := by
  have hon {b b' : Bench} {context : Context} {key : Key} {o : Outcome} (hserving : b.IsServing)
      (hok : (reconcileStage context key).onBench b = (.ok o, b')) :
      (reconcileStage context key).on b.store = (.ok o, b'.store) ∧ b'.IsServing := by
    obtain ⟨hresult, hstore, hserving'⟩ := onBench_eq (reconcileStage context key) hserving
    rw [hok] at hresult hstore hserving'
    exact ⟨Prod.ext hresult.symm hstore.symm, hserving'⟩
  obtain ⟨hX, hservingX⟩ := hon hserving hleft
  obtain ⟨hY, hservingY⟩ := hon hserving hright
  obtain ⟨p, r, hp, hr, hprovisionsX, hsoundX⟩ :=
    Stage.exists_provisions hsound hfirst hfirstLive hX
  obtain ⟨q, r', hq, hr', hprovisionsY, hsoundY⟩ :=
    Stage.exists_provisions hsound hsecond hsecondLive hY
  have hprovisionsXY := Stage.provisions_after hprovisionsX hsoundX hfirst rfl hsecond hsecondLive
    hdistinct (hon hservingX hleftThenRight).1 hq hr'
  have hprovisionsYX := Stage.provisions_after hprovisionsY hsoundY hsecond rfl hfirst hfirstLive
    hdistinct.symm (hon hservingY hrightThenLeft).1 hp hr
  have hsquare : Square context ⟨_, p, r⟩ ⟨_, q, r'⟩ b.store left.store right.store
      leftThenRight.store rightThenLeft.store :=
    ⟨hprovisionsX, hprovisionsY, hprovisionsXY, hprovisionsYX, hns, hdistinct,
      fun name codebase name' codebase' htakes htakes' hkey ↦
        hapart _ ⟨p, hp, name, codebase, htakes, rfl⟩
          ⟨q, hq, name', codebase', htakes', congrArg Key.name hkey.symm⟩⟩
  exact hsquare.sameButDates

/-- A stage of another pipeline with the target and the input stream of the first. -/
def Fixture.sibling : Stage :=
  let plain := stage "dev" "ci" "q" 0
  { plain with metadata := { plain.metadata with name := some "q-dev" } }

def Bench.withSiblings : Bench :=
  (Bench.withStage.put (Fixture.pipeline "q" "ci" ["img-a"] ["cb-a"] [])).put Fixture.sibling

/-- Two first stages that deploy to one target from one stream, and label it both. -/
theorem reconcileStage_comm_withSiblings :
    let left := (reconcileStage { now := ⟨0, 0⟩ } ⟨"ci", "dev"⟩).onBench Bench.withSiblings
    let leftThenRight := (reconcileStage { now := ⟨1, 0⟩ } ⟨"ci", "q-dev"⟩).onBench left.2
    let right := (reconcileStage { now := ⟨2, 0⟩ } ⟨"ci", "q-dev"⟩).onBench Bench.withSiblings
    let rightThenLeft := (reconcileStage { now := ⟨3, 0⟩ } ⟨"ci", "dev"⟩).onBench right.2
    leftThenRight.1 = .ok .awaitChange ∧ rightThenLeft.1 = .ok .awaitChange ∧
      leftThenRight.2.store.SameButDates ⟨"ci", "dev"⟩ ⟨"ci", "q-dev"⟩ rightThenLeft.2.store := by
  intro left leftThenRight right rightThenLeft
  have hsound : Bench.withSiblings.store.Sound :=
    Bench.sound_put (Bench.sound_put Bench.sound_withStage rfl) rfl
  have hfirst : Bench.withSiblings.store.find? .stage (Fixture.stage "dev" "ci" "p" 0).key =
      some (Fixture.stage "dev" "ci" "p" 0) := rfl
  have hsecond : Bench.withSiblings.store.find? .stage Fixture.sibling.key =
      some Fixture.sibling := rfl
  have hapart (name : String)
      (hfirst : (Fixture.stage "dev" "ci" "p" 0).Verifies Bench.withSiblings.store name) :
      ¬ Fixture.sibling.Verifies Bench.withSiblings.store name := by
    rintro ⟨-, -, -, codebase', -, hname'⟩
    obtain ⟨-, -, -, codebase, -, hname⟩ := hfirst
    have hsame := congrArg String.toList (hname.symm.trans hname')
    simp [VerifiedStreams.name, Naming.verifiedStream, Fixture.stage, Fixture.sibling] at hsame
  have hleft : left = (.ok .awaitChange, left.2) := Prod.ext rfl rfl
  have hleftThenRight : leftThenRight = (.ok .awaitChange, leftThenRight.2) := Prod.ext rfl rfl
  have hright : right = (.ok .awaitChange, right.2) := Prod.ext rfl rfl
  have hrightThenLeft : rightThenLeft = (.ok .awaitChange, rightThenLeft.2) := Prod.ext rfl rfl
  exact ⟨congrArg Prod.fst hleftThenRight, congrArg Prod.fst hrightThenLeft,
    reconcileStage_comm { now := ⟨0, 0⟩ } ⟨rfl, rfl, rfl⟩ hsound hfirst hsecond rfl rfl rfl
      (by decide) hapart hleft hleftThenRight hright hrightThenLeft⟩

end PipelineOperator
