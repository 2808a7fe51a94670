import PipelineOperator.Proofs.Operation.Creating
import PipelineOperator.Proofs.Provision.Access

/-!
The access rights of an environment, complete and no more than that. The names of the bindings
differ whatever the source namespace is called (`Access.nodup_desiredBindings`), so none of them
masks another, and each grants its role to accounts and groups of that namespace only
(`Access.IsConfined`). As the role and the bindings are created in their order where they are
missing, this tells what providing access makes of a cluster (`Access.serve_materializes`).
-/

set_option autoImplicit false
set_option relaxedAutoImplicit false

namespace PipelineOperator

open Operation

variable {S : Store} {platform : Platform} {stage : Stage} {source target : String}

namespace Access

/-! ### The role and the bindings -/

/-- The role and the bindings of the environment of a stage, in the order in which they are
provided. -/
def desired (platform : Platform) (stage : Stage) : List (Sigma Object) :=
  ⟨.role, viewRole stage.target⟩ ::
    (desiredBindings stage.metadata.namespaceOrEmpty stage.target platform).map
      (fun b ↦ ⟨.roleBinding, b⟩)

theorem serve_eq_forM (platform : Platform) (stage : Stage) :
    serve platform stage = (desired platform stage).forM (fun o ↦ secure o.2) := by
  have hbindings {bindings : List RoleBinding} (hmem : ∀ b ∈ bindings,
      b ∈ desiredBindings stage.metadata.namespaceOrEmpty stage.target platform) :
      bindings.forM (fun b ↦ do let _ ← ensureBinding b; pure ()) =
        (bindings.map (fun b ↦ (⟨.roleBinding, b⟩ : Sigma Object))).forM (fun o ↦ secure o.2) := by
    induction bindings with
    | nil => rfl
    | cons b bindings ih =>
      have hfirst := ensureBinding_eq (hmem b (List.mem_cons_self ..))
      have hrest := ih fun b' hb' ↦ hmem b' (List.mem_cons_of_mem _ hb')
      show (do let _ ← ensureBinding b; pure () : Operation Unit) >>= (fun _ ↦ bindings.forM _) =
        secure b >>= fun _ ↦ _
      rw [hfirst, hrest]
  rw [serve_eq, hbindings fun b hb ↦ hb]
  rfl

/-- The bindings have different names, whatever the namespace is called. -/
theorem nodup_desiredBindings (source target : String) (platform : Platform) :
    ((desiredBindings source target platform).map (fun b ↦ b.metadata.name)).Nodup := by
  have hfixed : Naming.deploymentsViewerBinding ≠ Naming.jenkinsAdminBinding := by decide
  have hviewer : Naming.viewBinding source ≠ Naming.deploymentsViewerBinding :=
    viewBinding_ne (by decide)
  have hadmin : Naming.viewBinding source ≠ Naming.jenkinsAdminBinding :=
    viewBinding_ne (by decide)
  cases platform with
  | kubernetes => simpa [desiredBindings, Platform.isOpenShift, binding, metadata] using hfixed
  | openShift =>
    simp [desiredBindings, Platform.isOpenShift, binding, metadata, hfixed, hviewer.symm,
      hadmin.symm]

/-- The role and the bindings are stored in different places. -/
theorem nodup_desired (platform : Platform) (stage : Stage) :
    ((desired platform stage).map Object.place).Nodup := by
  have hnames := nodup_desiredBindings stage.metadata.namespaceOrEmpty stage.target platform
  rw [desired, List.map_cons, List.map_map, List.nodup_cons]
  constructor
  · intro hmem
    obtain ⟨b, -, hplace⟩ := List.mem_map.mp hmem
    exact nomatch congrArg Prod.fst hplace
  · rw [List.Nodup, List.pairwise_map] at hnames ⊢
    refine hnames.imp_of_mem fun {b b'} hb hb' hne hplace ↦ hne ?_
    rw [name_of_mem_desiredBindings hb, name_of_mem_desiredBindings hb',
      show b.key = b'.key from congrArg Prod.snd hplace]

theorem ns_of_mem_desired {o : Sigma Object} (ho : o ∈ desired platform stage) :
    o.2.key.ns = stage.target := by
  rcases List.mem_cons.mp ho with rfl | hbinding
  · rfl
  · obtain ⟨b, hb, rfl⟩ := List.mem_map.mp hbinding
    exact ns_of_mem_desiredBindings hb

/-- A service account of the source namespace or, on OpenShift, a group whose name begins with that
of the namespace. -/
def Admits (platform : Platform) (source : String) (subject : Subject) : Prop :=
  subject.kind = "ServiceAccount" ∧ subject.ns = some source ∨
    platform = .openShift ∧ subject.kind = "Group" ∧ ∃ suffix, subject.name = source ++ suffix

/-- The binding grants its role to nobody else, and is none that only OpenShift has. -/
structure IsConfined (platform : Platform) (source : String) (b : RoleBinding) : Prop where
  subjects : ∀ subject ∈ b.spec.subjects.getD [], Admits platform source subject
  named : platform = .kubernetes → b.metadata.name ≠ some (Naming.viewBinding source)

theorem isConfined_of_mem {b : RoleBinding} (hb : b ∈ desiredBindings source target platform) :
    IsConfined platform source b := by
  have haccount (name : String) : Admits platform source (serviceAccount name source) :=
    .inl ⟨rfl, rfl⟩
  cases platform with
  | kubernetes =>
    have hviewer : Naming.viewBinding source ≠ Naming.deploymentsViewerBinding :=
      viewBinding_ne (by decide)
    have hadmin : Naming.viewBinding source ≠ Naming.jenkinsAdminBinding :=
      viewBinding_ne (by decide)
    simp only [desiredBindings, Platform.isOpenShift, List.mem_append, List.mem_cons,
      List.not_mem_nil, or_false] at hb
    rcases hb with (rfl | rfl) | hnone
    · refine ⟨fun subject hsubject ↦ ?_, fun _ hname ↦ hviewer (Option.some.inj hname).symm⟩
      exact List.mem_singleton.mp hsubject ▸ haccount _
    · refine ⟨fun subject hsubject ↦ ?_, fun _ hname ↦ hadmin (Option.some.inj hname).symm⟩
      exact List.mem_singleton.mp hsubject ▸ haccount _
    · exact absurd hnone List.not_mem_nil
  | openShift =>
    have hgroup (suffix : String) : Admits .openShift source (groupSubject (source ++ suffix)) :=
      .inr ⟨rfl, rfl, suffix, rfl⟩
    have hnamed {b : RoleBinding} (hplatform : Platform.openShift = .kubernetes) :
        b.metadata.name ≠ some (Naming.viewBinding source) := Platform.noConfusion hplatform
    simp only [desiredBindings, Platform.isOpenShift, List.mem_append, List.mem_cons,
      List.not_mem_nil, or_false] at hb
    rcases hb with (rfl | rfl) | hview
    · refine ⟨fun subject hsubject ↦ ?_, hnamed⟩
      exact List.mem_singleton.mp hsubject ▸ haccount _
    · refine ⟨fun subject hsubject ↦ ?_, hnamed⟩
      rcases List.mem_cons.mp hsubject with rfl | hsubject
      · exact haccount _
      · obtain ⟨group, hmem, rfl⟩ := List.mem_map.mp hsubject
        rcases List.mem_cons.mp hmem with rfl | hmem
        · exact hgroup _
        · exact List.mem_singleton.mp hmem ▸ hgroup _
    · obtain rfl := List.mem_singleton.mp hview
      refine ⟨fun subject hsubject ↦ ?_, hnamed⟩
      exact List.mem_singleton.mp hsubject ▸ hgroup _

/-! ### Providing access -/

/-- What providing access makes of a store, wherever calls fail. -/
structure Materializes (platform : Platform) (stage : Stage) (S : Store) (r : Except Fault Unit)
    (T : Store) : Prop where
  /-- After a success the role and all bindings are there, in the target of the stage. -/
  complete : r = .ok () → ∀ o ∈ desired platform stage,
    o.2.key.ns = stage.target ∧ ∃ stored, T.find? o.1 o.2.key = some stored
  /-- What was there is as it was. -/
  kept : ∀ k key (o : Object k), S.find? k key = some o → T.find? k key = some o
  /-- What was not there is one of the role and the bindings. -/
  built : ∀ k key (o : Object k), S.find? k key = none → T.find? k key = some o →
    key.ns = stage.target ∧ o.key = key ∧ ⟨k, o⟩ ∈ desired platform stage
  confined : ∀ key (b : RoleBinding), S.find? .roleBinding key = none →
    T.find? .roleBinding key = some b →
      IsConfined platform stage.metadata.namespaceOrEmpty b

theorem materializes_putAll {created : List (Sigma Object)} {r : Except Fault Unit}
    (hbegins : created <+: S.missing (desired platform stage))
    (hall : r = .ok () → created = S.missing (desired platform stage)) :
    Materializes platform stage S r (S.putAll created) := by
  have hkept (k : Kind) (key : Key) (o : Object k) (hfound : S.find? k key = some o) :
      (S.putAll created).find? k key = some o := by
    refine (Store.find?_putAll_of_ne ?_).trans hfound
    rintro o' ho' ⟨rfl, rfl⟩
    exact nomatch (Store.mem_missing.mp (hbegins.subset ho')).2.symm.trans hfound
  have hbuilt (k : Kind) (key : Key) (o : Object k) (habsent : S.find? k key = none)
      (hfound : (S.putAll created).find? k key = some o) :
      key.ns = stage.target ∧ o.key = key ∧ ⟨k, o⟩ ∈ desired platform stage := by
    rcases Store.found_or_mem_of_find?_putAll hfound with hbefore | ⟨rfl, hmem⟩
    · exact nomatch habsent.symm.trans hbefore
    · have hdesired := (Store.mem_missing.mp (hbegins.subset hmem)).1
      exact ⟨ns_of_mem_desired hdesired, rfl, hdesired⟩
  refine ⟨fun hok o ho ↦ ⟨ns_of_mem_desired ho, ?_⟩, hkept, hbuilt,
    fun key b habsent hfound ↦ ?_⟩
  · cases hthere : S.find? o.1 o.2.key with
    | some stored => exact ⟨stored, hkept _ _ _ hthere⟩
    | none =>
      rw [hall hok]
      exact Store.exists_find?_putAll_of_mem (Store.mem_missing.mpr ⟨ho, hthere⟩)
  · obtain ⟨-, -, hdesired⟩ := hbuilt _ _ _ habsent hfound
    rcases List.mem_cons.mp hdesired with hrole | hbinding
    · exact nomatch congrArg Sigma.fst hrole
    · obtain ⟨b', hb', hsame⟩ := List.mem_map.mp hbinding
      obtain rfl := eq_of_heq (Sigma.mk.inj hsame).2
      exact isConfined_of_mem hb'

/-- The bindings of an environment have different names, whatever its source namespace is called.
Providing access creates the role and the bindings that are missing, in their order, and all of them
unless a call fails; the bindings that it creates are confined to the source namespace. -/
theorem serve_materializes (platform : Platform) (stage : Stage) (b : Bench) :
    (∀ source target,
      ((desiredBindings source target platform).map (fun b ↦ b.metadata.name)).Nodup) ∧
    (∀ faults, ∃ created,
      created <+: b.store.missing (desired platform stage) ∧
      b.Creates created ((serve platform stage).attempt faults b).2.state ∧
      Materializes platform stage b.store ((serve platform stage).attempt faults b).1
        ((serve platform stage).attempt faults b).2.state.store) ∧
    (b.IsServing → ((serve platform stage).onBench b).1 = .ok ()) := by
  refine ⟨fun source target ↦ nodup_desiredBindings source target platform, fun faults ↦ ?_,
    fun hserving ↦ ?_⟩
  · obtain ⟨r, t, created, hon, hbegins, hcreates, hall⟩ :=
      amid_forM_secure (nodup_desired platform stage) faults { state := b }
    rw [← serve_eq_forM] at hon
    unfold attempt
    rw [hon]
    refine ⟨created, hbegins, hcreates, ?_⟩
    rw [hcreates.store]
    exact materializes_putAll hbegins hall
  · rw [(onBench_eq _ hserving).1, serve_eq_forM, on_forM_secure]

/-- On a bench where every call is served, the environment of the first stage gets the role and all
of its bindings. -/
theorem serve_materializes_withStage :
    ((serve .openShift (Fixture.stage "dev" "ci" "p" 0)).onBench Bench.withStage).1 = .ok () ∧
    ∃ t : Trial Bench, (serve .openShift (Fixture.stage "dev" "ci" "p" 0)).attempt (fun _ ↦ none)
        Bench.withStage = (.ok (), t) ∧
      ∀ o ∈ desired .openShift (Fixture.stage "dev" "ci" "p" 0), o.2.key.ns = "ci-dev" ∧
        ∃ stored, t.state.store.find? o.1 o.2.key = some stored := by
  obtain ⟨-, hattempt, hserved⟩ :=
    serve_materializes .openShift (Fixture.stage "dev" "ci" "p" 0) Bench.withStage
  obtain ⟨created, -, -, hmaterializes⟩ := hattempt (fun _ ↦ none)
  exact ⟨hserved Bench.isServing_withStage, _, Prod.ext rfl rfl, hmaterializes.complete rfl⟩

end Access

end PipelineOperator
