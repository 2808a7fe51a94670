import PipelineOperator.Proofs.Provision.Site

/-!
Providing access settles and absorbs failures: the role and the bindings are built where they are
missing and never touched again. The bindings of an environment lie under different keys.
-/

set_option autoImplicit false
set_option relaxedAutoImplicit false

namespace PipelineOperator

namespace Access

open Operation

variable {z : Site} {stage : Stage} {platform : Platform} {source target : String} {s t : Store}

theorem viewRole_eq (stage : Stage) : viewRole stage.target = {
    metadata := {
      name := some "admin-console-view-deployments"
      ns := some (stage.metadata.namespaceOrEmpty ++ "-" ++ stage.spec.name)
      labels := some (SortedMap.ofList [
        ("app.kubernetes.io/managed-by", "edp-cd-pipeline-operator")]) }
    spec := {
      rules := some [{
        apiGroups := some ["apps"]
        resources := some ["deployments"]
        verbs := ["get", "list"] }] } } := rfl

/-- The bindings of an environment are built in its target, under names of their own. -/
theorem eq_binding_of_mem {b : RoleBinding} (hb : b ∈ desiredBindings source target platform) :
    ∃ name role subjects, b = binding name target role subjects := by
  simp only [desiredBindings, List.mem_append, List.mem_cons, List.not_mem_nil, or_false] at hb
  rcases hb with (rfl | rfl) | hview
  · exact ⟨_, _, _, rfl⟩
  · exact ⟨_, _, _, rfl⟩
  · split at hview
    · exact ⟨_, _, _, List.mem_singleton.mp hview⟩
    · exact absurd hview List.not_mem_nil

/-- A binding is looked for where it is built. -/
theorem key_of_mem_desiredBindings {b : RoleBinding}
    (hb : b ∈ desiredBindings source target platform) : properKey b.metadata = b.key := by
  obtain ⟨name, role, subjects, rfl⟩ := eq_binding_of_mem hb
  rfl

/-- The bindings of an environment lie in its target. -/
theorem ns_of_mem_desiredBindings {b : RoleBinding}
    (hb : b ∈ desiredBindings source target platform) : b.key.ns = target := by
  obtain ⟨name, role, subjects, rfl⟩ := eq_binding_of_mem hb
  rfl

theorem name_of_mem_desiredBindings {b : RoleBinding}
    (hb : b ∈ desiredBindings source target platform) : b.metadata.name = some b.key.name := by
  obtain ⟨name, role, subjects, rfl⟩ := eq_binding_of_mem hb
  rfl

theorem viewBinding_ne {name : String} (hlast : name.toList.getLast? ≠ some 'w') :
    Naming.viewBinding source ≠ name := by
  intro hsame
  refine hlast (hsame ▸ ?_)
  simp [Naming.viewBinding]

/-- The bindings of an environment lie under different keys. -/
theorem eq_of_key_eq {b b' : RoleBinding} (hb : b ∈ desiredBindings source target platform)
    (hb' : b' ∈ desiredBindings source target platform) (hkey : b'.key = b.key) : b' = b := by
  have hfixed : Naming.deploymentsViewerBinding ≠ Naming.jenkinsAdminBinding := by decide
  have hviewer : Naming.viewBinding source ≠ Naming.deploymentsViewerBinding :=
    viewBinding_ne (by decide)
  have hadmin : Naming.viewBinding source ≠ Naming.jenkinsAdminBinding :=
    viewBinding_ne (by decide)
  have hname : b'.metadata.anyName = b.metadata.anyName := congrArg Key.name hkey
  simp only [desiredBindings, List.mem_append, List.mem_cons, List.not_mem_nil, or_false]
    at hb hb'
  rcases hb with (rfl | rfl) | hb
  · rcases hb' with (rfl | rfl) | hb'
    · rfl
    · exact absurd hname.symm hfixed
    · split at hb'
      · obtain rfl := List.mem_singleton.mp hb'
        exact absurd hname hviewer
      · exact absurd hb' List.not_mem_nil
  · rcases hb' with (rfl | rfl) | hb'
    · exact absurd hname hfixed
    · rfl
    · split at hb'
      · obtain rfl := List.mem_singleton.mp hb'
        exact absurd hname hadmin
      · exact absurd hb' List.not_mem_nil
  · split at hb
    · next hopen =>
      obtain rfl := List.mem_singleton.mp hb
      rcases hb' with (rfl | rfl) | hb'
      · exact absurd hname.symm hviewer
      · exact absurd hname.symm hadmin
      · rw [if_pos hopen] at hb'
        exact List.mem_singleton.mp hb'
    · exact absurd hb List.not_mem_nil

theorem serve_eq (platform : Platform) (stage : Stage) :
    serve platform stage = secure (viewRole stage.target) >>= fun _ ↦
      (desiredBindings stage.metadata.namespaceOrEmpty stage.target platform).forM
        (fun b ↦ do let _ ← ensureBinding b; pure ()) := by
  unfold serve secure
  rw [bind_assoc]
  rfl

theorem ensureBinding_eq {b : RoleBinding} (hb : b ∈ desiredBindings source target platform) :
    (do let _ ← ensureBinding b; pure () : Operation Unit) = secure b := by
  unfold ensureBinding secure
  rw [key_of_mem_desiredBindings hb]

theorem builds_viewRole (s : Store) : z.Builds s .role (viewRole z.stage.target) := rfl

theorem settles_serve : (serve z.context.platform z.stage).Settles z.development := by
  rw [serve_eq]
  refine (Site.settles_secure rfl builds_viewRole).seq (settles_forM fun b hb ↦ ?_)
  rw [ensureBinding_eq hb]
  exact Site.settles_secure rfl fun s ↦ hb

theorem absorbs_serve {hidden : Kind → Prop} (hrole : ¬ hidden .role)
    (hbinding : ¬ hidden .roleBinding) :
    (serve z.context.platform z.stage).Absorbs z.development hidden := by
  have hrole : (secure (viewRole z.stage.target)).Absorbs z.development hidden :=
    (Site.settles_secure rfl builds_viewRole).absorbs (atomic_secure _) (asks_secure hrole hrole)
  rw [serve_eq]
  refine hrole.seq (absorbs_forM fun b hb ↦ ?_)
  rw [ensureBinding_eq hb]
  have hsettles : (secure b).Settles z.development := Site.settles_secure rfl fun s ↦ hb
  exact hsettles.absorbs (atomic_secure _) (asks_secure hbinding hbinding)

theorem asks_serve {allowed : Request → Prop} (hrole : ∀ key, allowed (.get .role key))
    (hbinding : ∀ key, allowed (.get .roleBinding key))
    (hcreateRole : ∀ o : Role, allowed (.create .role o))
    (hcreateBinding : ∀ o : RoleBinding, allowed (.create .roleBinding o)) :
    (serve platform stage).Asks allowed := by
  rw [serve_eq]
  refine (asks_secure (hrole _) (hcreateRole _)).bind fun _ ↦ asks_forM fun b hb ↦ ?_
  rw [ensureBinding_eq hb]
  exact asks_secure (hbinding _) (hcreateBinding _)

/-- Where serving rests, the role and the bindings are there. -/
theorem found_of_rests_serve (hrests : (serve platform stage).Rests s (.ok ())) :
    (∃ role, s.find? .role (viewRole stage.target).key = some role) ∧
      ∀ b ∈ desiredBindings stage.metadata.namespaceOrEmpty stage.target platform,
        ∃ stored, s.find? .roleBinding b.key = some stored := by
  rw [serve_eq, rests_bind] at hrests
  rcases hrests with ⟨a, hrole, hbindings⟩ | ⟨e, -, hcontra⟩
  · refine ⟨(rests_secure.mp hrole).1, fun b hb ↦ ?_⟩
    have hstep := rests_forM.mp hbindings b hb
    rw [ensureBinding_eq hb] at hstep
    exact (rests_secure.mp hstep).1
  · exact nomatch hcontra

end Access

end PipelineOperator
