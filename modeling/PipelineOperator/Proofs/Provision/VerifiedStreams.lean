import PipelineOperator.Proofs.Provision.Site

/-!
Providing verified streams settles and absorbs failures. Each step looks an input stream up and
builds the verified stream that belongs to it unless there is one; it writes at most once, so a
failing call has left nothing behind.
-/

set_option autoImplicit false
set_option relaxedAutoImplicit false

namespace PipelineOperator

namespace VerifiedStreams

variable {stage : Stage} {image inputName : String} {s t : Store} {z : Site}

/-- Where the verified stream of a codebase lies. -/
def key (stage : Stage) (codebase : String) : Key :=
  ⟨stage.metadata.namespaceOrEmpty,
    stage.spec.pipeline ++ "-" ++ stage.spec.name ++ "-" ++ codebase ++ "-verified"⟩

/-! ### The stream that is built -/

theorem build_eq (stage : Stage) (url codebase : String) :
    build stage (name stage codebase) codebase
        (Naming.verifiedImage url stage.metadata.namespaceOrEmpty) = {
      metadata := {
        name := some
          (stage.spec.pipeline ++ "-" ++ stage.spec.name ++ "-" ++ codebase ++ "-verified")
        ns := stage.metadata.ns
        labels := some (SortedMap.ofList [
          ("app.edp.epam.com/pipeline-name", stage.spec.pipeline),
          ("app.kubernetes.io/managed-by", "edp-cd-pipeline-operator")])
        owners := none }
      spec := {
        codebase := codebase
        imageName := url ++ "/" ++ stage.metadata.namespaceOrEmpty } } := rfl

theorem label?_build (stage : Stage) (name codebase image : String) :
    (build stage name codebase image).metadata.label? "app.edp.epam.com/pipeline-name" =
      some stage.spec.pipeline := SortedMap.get?_ofList_pair (by decide) ..

/-! ### Providing it -/

theorem on_provide_of_absent
    (habsent : s.find? .imageStream ⟨stage.metadata.namespaceOrEmpty, inputName⟩ = none) :
    (provide stage image inputName).on s =
      (.error (.ofCause (.inputStreamNotFound stage.metadata.namespaceOrEmpty inputName)), s) := by
  unfold provide input
  rw [Operation.on_require_bind, habsent]

theorem on_provide_of_found {input : ImageStream}
    (hinput : s.find? .imageStream ⟨stage.metadata.namespaceOrEmpty, inputName⟩ = some input) :
    (provide stage image inputName).on s =
      (.ok (), (s.create (build stage (name stage input.spec.codebase) input.spec.codebase
        image)).2) := by
  unfold provide VerifiedStreams.input
  rw [Operation.on_require_bind, hinput]
  exact Operation.on_secure ..

/-- Nothing is written if the input stream is missing, or the verified stream is there. -/
theorem rests_provide {result : Except Fault Unit} :
    (provide stage image inputName).Rests s result ↔
      match s.find? .imageStream ⟨stage.metadata.namespaceOrEmpty, inputName⟩ with
      | some input =>
        (∃ verified, s.find? .imageStream (key stage input.spec.codebase) = some verified) ∧
          result = .ok ()
      | none =>
        result =
          .error (.ofCause (.inputStreamNotFound stage.metadata.namespaceOrEmpty inputName)) := by
  unfold provide input
  rw [Operation.rests_require_bind]
  cases s.find? .imageStream ⟨stage.metadata.namespaceOrEmpty, inputName⟩ with
  | none => exact Iff.rfl
  | some input => exact Operation.rests_secure

theorem atomic_provide : (provide stage image inputName).Atomic :=
  (Operation.atomic_require _ _).bind (Operation.asks_require rfl) fun _ ↦
    Operation.atomic_secure _

theorem asks_provide {allowed : Request → Prop}
    (hget : ∀ key, allowed (.get .imageStream key))
    (hcreate : ∀ o : ImageStream, allowed (.create .imageStream o)) :
    (provide stage image inputName).Asks allowed :=
  (Operation.asks_require (hget _)).bind fun input ↦
    Operation.asks_secure (o := build stage (name stage input.spec.codebase) input.spec.codebase
      image) (hget _) (hcreate _)

theorem asks_serve {allowed : Request → Prop} (hpipeline : ∀ key, allowed (.get .pipeline key))
    (hcomponent : ∀ key, allowed (.get .component key))
    (hget : ∀ key, allowed (.get .imageStream key))
    (hcreate : ∀ o : ImageStream, allowed (.create .imageStream o)) :
    (serve stage).Asks allowed := by
  refine (Operation.asks_require (hpipeline _)).bind fun pipeline ↦ ?_
  split
  · exact Operation.asks_fail _
  · refine Operation.Asks.bind ?_ fun _ ↦ Operation.asks_forM fun _ _ ↦ asks_provide hget hcreate
    exact (Operation.asks_require (hcomponent _)).bind fun _ ↦ Operation.asks_pure _

/-- What there is where serving rests. -/
theorem found_of_rests_serve (hrests : (serve stage).Rests s (.ok ())) :
    ∃ pipeline registry, s.find? .pipeline stage.pipelineKey = some pipeline ∧
      s.find? .component ⟨stage.metadata.namespaceOrEmpty, Naming.registryComponent⟩ =
        some registry ∧
      ∀ name ∈ pipeline.spec.inputStreams, ∃ input : ImageStream,
        s.find? .imageStream ⟨stage.metadata.namespaceOrEmpty, name⟩ = some input ∧
        ∃ verified, s.find? .imageStream (key stage input.spec.codebase) = some verified := by
  unfold serve Stage.parent at hrests
  rw [Operation.rests_require_bind] at hrests
  cases hpipeline : s.find? .pipeline stage.pipelineKey with
  | none =>
    rw [hpipeline] at hrests
    exact nomatch hrests
  | some pipeline =>
    simp only [hpipeline] at hrests
    split at hrests
    · exact nomatch hrests
    · unfold registry at hrests
      rw [bind_assoc, Operation.rests_require_bind] at hrests
      cases hregistry : s.find? .component
          ⟨stage.metadata.namespaceOrEmpty, Naming.registryComponent⟩ with
      | none =>
        rw [hregistry] at hrests
        exact nomatch hrests
      | some registry =>
        simp only [hregistry] at hrests
        refine ⟨pipeline, registry, rfl, rfl, fun name hname ↦ ?_⟩
        have hstep := rests_provide.mp (Operation.rests_forM.mp hrests name hname)
        cases hinput : s.find? .imageStream ⟨stage.metadata.namespaceOrEmpty, name⟩ with
        | none =>
          rw [hinput] at hstep
          exact nomatch hstep
        | some input =>
          rw [hinput] at hstep
          exact ⟨input, rfl, hstep.1⟩

/-- A step for an input stream of the pipeline, with the pipeline's registry. -/
theorem settles_provide {pipeline : Pipeline} {registry : Component}
    (hpipeline : z.pipeline? = some pipeline) (hregistry : z.registry? = some registry)
    (hname : inputName ∈ pipeline.spec.inputStreams) :
    (provide z.stage (Naming.verifiedImage registry.spec.url z.ns) inputName).Settles
      z.development := by
  constructor
  · intro s hdom
    have hsound : s.Sound := hdom.sound
    cases hinput : s.find? .imageStream ⟨z.stage.metadata.namespaceOrEmpty, inputName⟩ with
    | none =>
      rw [on_provide_of_absent hinput]
      exact .refl hsound
    | some input =>
      rw [on_provide_of_found hinput]
      have hcodebase : z.codebaseAt s inputName = some input.spec.codebase :=
        Option.map_eq_some_iff.mpr ⟨input, hinput, rfl⟩
      have hbuilds : z.Builds s .imageStream (z.verified registry input.spec.codebase) :=
        ⟨pipeline, registry, inputName, _, ⟨hpipeline, hname, hcodebase⟩, hregistry, rfl⟩
      exact Site.leads_secure hsound hbuilds
  · intro s hdom
    cases hinput : s.find? .imageStream ⟨z.stage.metadata.namespaceOrEmpty, inputName⟩ with
    | none =>
      rw [on_provide_of_absent hinput, rests_provide, hinput]
    | some input =>
      rw [on_provide_of_found hinput, rests_provide, Store.find?_create_of_found s _ hinput]
      exact ⟨Store.find?_create_self s (build ..), rfl⟩
  · intro s t hdom hrests hleads
    rw [rests_provide] at hrests ⊢
    cases hinput : s.find? .imageStream ⟨z.stage.metadata.namespaceOrEmpty, inputName⟩ with
    | none =>
      rw [hinput] at hrests
      exact nomatch hrests
    | some input =>
      rw [hinput] at hrests
      obtain ⟨⟨verified, hverified⟩, -⟩ := hrests
      obtain ⟨input', hinput', -⟩ := hleads.found hinput
      have hcodebase := hleads.codebaseAt inputName input.spec.codebase
        (Option.map_eq_some_iff.mpr ⟨input, hinput, rfl⟩)
      obtain ⟨input'', hinput'', hsame⟩ := Option.map_eq_some_iff.mp hcodebase
      obtain rfl : input' = input'' := Option.some.inj (hinput'.symm.trans hinput'')
      obtain ⟨verified', hverified', -⟩ := hleads.found hverified
      rw [hinput']
      refine ⟨⟨verified', ?_⟩, rfl⟩
      rw [show input'.spec.codebase = input.spec.codebase from hsame, hverified']

theorem settles_serve : (serve z.stage).Settles z.development := by
  refine Operation.settles_require_bind (fun hdom ↦ Site.Leads.pipeline hdom)
    fun pipeline hpipeline ↦ ?_
  split
  · exact Operation.settles_fail _
  · unfold registry
    rw [bind_assoc]
    refine Operation.settles_require_bind (fun hdom ↦ Site.Leads.registry hdom)
      fun registry hregistry ↦ ?_
    exact Operation.settles_forM fun name hname ↦
      settles_provide hpipeline hregistry hname

theorem absorbs_serve {hidden : Kind → Prop} (hhidden : ¬ hidden .imageStream) :
    (serve z.stage).Absorbs z.development hidden := by
  refine Operation.absorbs_require_bind (fun hdom ↦ Site.Leads.pipeline hdom)
    fun pipeline hpipeline ↦ ?_
  split
  · exact Operation.absorbs_fail _
  · unfold registry
    rw [bind_assoc]
    refine Operation.absorbs_require_bind (fun hdom ↦ Site.Leads.registry hdom)
      fun registry hregistry ↦ ?_
    exact Operation.absorbs_forM fun name hname ↦
      (settles_provide hpipeline hregistry hname).absorbs atomic_provide
        (asks_provide (fun _ ↦ hhidden) (fun _ ↦ hhidden))

end VerifiedStreams

end PipelineOperator
