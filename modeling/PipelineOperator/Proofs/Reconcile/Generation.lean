import PipelineOperator.Proofs.Operation.Trial
import PipelineOperator.Proofs.Reconcile.Pipeline

/-!
A generation of a pipeline is recorded only when its work is done. The record is the last write of a
reconciliation, after the finalizers and the folder (`Pipeline.surely_setUp_recorded`), so wherever
calls fail the pipeline has either the status that it had or all that the generation asks for
(`Pipeline.IsWorkedOff`). A generation that is not recorded is worked off by the next attempt on
which no call fails (`reconcilePipeline_recordsWork`).
-/

set_option autoImplicit false
set_option relaxedAutoImplicit false

namespace PipelineOperator

open Operation

variable {context : Context} {S T U : Store} {pipeline left : Pipeline} {ns : String}
  {r : Except Fault Outcome}

namespace Pipeline

/-- All that the present generation of the pipeline asks for is there, and recorded. -/
structure IsWorkedOff (pipeline : Pipeline) (s : Store) : Prop where
  observed : pipeline.observedGeneration = pipeline.metadata.generation
  held : pipeline.metadata.hasFinalizer "foregroundDeletion" = true ∧
    pipeline.metadata.hasFinalizer "ownedStages" = true
  folder : s.hasJenkins pipeline.key.ns = true → ∃ folder : JenkinsFolder,
    s.find? .jenkinsFolder ⟨pipeline.key.ns, Naming.jobFolder pipeline.key.name⟩ = some folder

/-- What an attempt at a live pipeline makes of it and of what it depends on, wherever calls
fail. -/
structure Attempted (pipeline left : Pipeline) (S : Store) (r : Except Fault Outcome) (T : Store) :
    Prop where
  stored : T.find? .pipeline pipeline.key = some left
  /-- Besides finalizers and status the pipeline is as it was. -/
  rest : { Object.withFinalizers left pipeline.metadata.finalizers with
    status := pipeline.status } = pipeline
  /-- The finalizers are kept in their order, and others come after them. -/
  finalizers : pipeline.metadata.finalizerList <+: left.metadata.finalizerList
  failed : r.isOk = false → left.status = pipeline.status
  recorded : left.status ≠ pipeline.status → left.IsWorkedOff T
  completed : r.isOk = true → pipeline.isAhead = true → left.IsWorkedOff T
  /-- Jenkins instances and folders stay. -/
  jenkins : T.jenkins = S.jenkins
  folders : ∀ key folder, S.find? .jenkinsFolder key = some folder →
    T.find? .jenkinsFolder key = some folder

/-! ### One attempt -/

theorem jenkins_withFolder (pipeline : Pipeline) (ns : String) (s : Store) :
    (pipeline.withFolder ns s).jenkins = s.jenkins := by
  unfold withFolder Store.create
  split
  · split <;> rfl
  · rfl

theorem folder_withFolder {s : Store} (hjenkins : s.hasJenkins ns = true) (pipeline : Pipeline) :
    ∃ folder : JenkinsFolder,
      (pipeline.withFolder ns s).find? .jenkinsFolder pipeline.jobFolder.key = some folder := by
  rw [withFolder, if_pos hjenkins]
  exact Store.find?_create_self s pipeline.jobFolder

theorem folders_withFolder (pipeline : Pipeline) (ns : String) {s : Store} {key : Key}
    {folder : JenkinsFolder} (hfound : s.find? .jenkinsFolder key = some folder) :
    (pipeline.withFolder ns s).find? .jenkinsFolder key = some folder := by
  unfold withFolder
  split
  · exact Store.find?_create_of_found s pipeline.jobFolder hfound
  · exact hfound

/-- The record is written after the folder, or not at all. -/
theorem surely_setUp_recorded (context : Context) (ns : String)
    (hfound : T.find? .pipeline pipeline.key = some pipeline)
    (hlive : pipeline.isDeleting = false) :
    (setUp context ns pipeline).Surely T (fun r U ↦
      ((∃ e, r = .error e) ∧ (U = T ∨ U = pipeline.withFolder ns T)) ∨
        r = .ok () ∧ U = (pipeline.withFolder ns T).put (pipeline.ready context.now)) := by
  have hreport {U : Store} (hfound : U.find? .pipeline pipeline.key = some pipeline) :
      (report pipeline (PipelineStatus.ready pipeline.metadata.generation context.now) >>=
        fun _ ↦ pure ()).Surely U (fun r V ↦ ((∃ e, r = .error e) ∧ V = U) ∨
          r = .ok () ∧ V = U.put (pipeline.ready context.now)) := by
    have hown : U.find? .pipeline pipeline.key =
        some { pipeline with status := pipeline.status } := hfound
    rw [surely_bind]
    refine (surely_report_of_held (Object.isReleased_of_live hlive) hown _).mono ?_
    rintro r V (⟨⟨e, rfl⟩, rfl⟩ | ⟨rfl, rfl⟩)
    · exact .inl ⟨⟨e, rfl⟩, rfl⟩
    · exact .inr ⟨rfl, rfl⟩
  have hreads : (jenkinsEnabled ns).Atomic := atomic_ask _
  unfold setUp withFolder
  rw [surely_bind]
  refine (hreads T).mono ?_
  rintro r U (⟨e, rfl, rfl⟩ | hon)
  · exact .inl ⟨⟨e, rfl⟩, .inl rfl⟩
  obtain ⟨rfl, rfl⟩ := Prod.mk.inj ((on_jenkinsEnabled ns T).symm.trans hon)
  cases T.hasJenkins ns with
  | false =>
    refine (hreport hfound).mono fun r U hr ↦ ?_
    exact hr.imp_left fun h ↦ ⟨h.1, .inl h.2⟩
  | true =>
    simp only [if_true]
    rw [surely_bind, surely_create]
    refine ⟨fun fault ↦ .inl ⟨⟨fault, rfl⟩, .inl rfl⟩, ?_⟩
    refine (hreport (Store.find?_create_of_found T pipeline.jobFolder hfound)).mono fun r U hr ↦ ?_
    exact hr.imp_left fun h ↦ ⟨h.1, .inr h.2⟩

/-- The pipeline under the operator's finalizers. -/
def adopted (pipeline : Pipeline) : Pipeline :=
  Object.withFinalizers pipeline (Object.finalizersWith pipeline finalizers)

theorem held_adopted (pipeline : Pipeline) :
    pipeline.adopted.metadata.hasFinalizer "foregroundDeletion" = true ∧
      pipeline.adopted.metadata.hasFinalizer "ownedStages" = true := by
  obtain ⟨-, -, hheld, -⟩ := Object.ensureFinalizers_eq pipeline finalizers
  exact ⟨hheld _ (.head _), hheld _ (.tail _ (.head _))⟩

/-- The stores in which maintaining a live pipeline can end. -/
theorem surely_maintain_recorded (context : Context) (ns : String)
    (hfound : S.find? .pipeline pipeline.key = some pipeline)
    (hlive : pipeline.isDeleting = false) :
    (maintain context ns pipeline).Surely S (fun r T ↦
      ((∃ e, r = .error e) ∧ (T = S ∨ T = S.put pipeline.adopted ∨
        T = pipeline.adopted.withFolder ns (S.put pipeline.adopted))) ∨
      r = .ok .awaitChange ∧ (pipeline.isAhead = false ∧ T = S.put pipeline.adopted ∨
        T = (pipeline.adopted.withFolder ns (S.put pipeline.adopted)).put
          (pipeline.adopted.ready context.now))) := by
  have hstored := Store.find?_put_self S pipeline.adopted
  have hrest : Surely (do
      if isAhead pipeline.adopted then setUp context ns pipeline.adopted
      return Outcome.awaitChange) (S.put pipeline.adopted) (fun r T ↦
        ((∃ e, r = .error e) ∧ (T = S.put pipeline.adopted ∨
          T = pipeline.adopted.withFolder ns (S.put pipeline.adopted))) ∨
        r = .ok .awaitChange ∧ (pipeline.isAhead = false ∧ T = S.put pipeline.adopted ∨
          T = (pipeline.adopted.withFolder ns (S.put pipeline.adopted)).put
            (pipeline.adopted.ready context.now))) := by
    cases hahead : isAhead pipeline.adopted with
    | false => exact .inr ⟨rfl, .inl ⟨hahead, rfl⟩⟩
    | true =>
      simp only [if_true, surely_bind]
      refine (surely_setUp_recorded context ns hstored hlive).mono ?_
      rintro r U (⟨⟨e, rfl⟩, hwhich⟩ | ⟨rfl, rfl⟩)
      · exact .inl ⟨⟨e, rfl⟩, hwhich⟩
      · exact .inr ⟨rfl, .inr rfl⟩
  obtain ⟨changed, hensure, -, hsame⟩ := Object.ensureFinalizers_eq pipeline finalizers
  unfold maintain
  simp only [hensure]
  cases changed with
  | false =>
    have hadopted : pipeline.adopted = pipeline := by
      rw [adopted, hsame rfl, Object.withFinalizers_self]
    rw [hadopted, Store.put_of_find? hfound] at hrest ⊢
    exact hrest.mono fun r T hr ↦ hr.imp_left fun h ↦ ⟨h.1, .inr h.2⟩
  | true =>
    have hreplaced : S.replace pipeline.adopted =
        (.ok pipeline.adopted, S.put pipeline.adopted) :=
      Store.replace_of_found hfound (Object.isReleased_of_live (o := pipeline.adopted) hlive)
    show (replace pipeline.adopted >>= fun held ↦ do
      if isAhead held then setUp context ns held
      return Outcome.awaitChange).Surely S _
    rw [surely_bind, surely_replace, hreplaced]
    refine ⟨fun fault ↦ .inl ⟨⟨fault, rfl⟩, .inl rfl⟩, hrest.mono fun r T hr ↦ ?_⟩
    exact hr.imp_left fun h ↦ ⟨h.1, .inr h.2⟩

/-- Where no status was written. -/
theorem Attempted.of_kept (kept : Option (List String))
    (hstored : T.find? .pipeline pipeline.key = some (Object.withFinalizers pipeline kept))
    (hbegins : pipeline.metadata.finalizerList <+: kept.getD [])
    (hdone : r.isOk = true → pipeline.isAhead = false) (hjenkins : T.jenkins = S.jenkins)
    (hfolders : ∀ key folder, S.find? .jenkinsFolder key = some folder →
      T.find? .jenkinsFolder key = some folder) :
    pipeline.Attempted (Object.withFinalizers pipeline kept) S r T where
  stored := hstored
  rest := rfl
  finalizers := hbegins
  failed _ := rfl
  recorded hchanged := absurd rfl hchanged
  completed hok hahead := nomatch (hdone hok).symm.trans hahead
  jenkins := hjenkins
  folders := hfolders

/-- Where the status was written. -/
theorem Attempted.of_ready (now : Instant) {outcome : Outcome} :
    pipeline.Attempted (pipeline.adopted.ready now) S (.ok outcome)
      ((pipeline.adopted.withFolder pipeline.key.ns (S.put pipeline.adopted)).put
        (pipeline.adopted.ready now)) := by
  have hdone : (pipeline.adopted.ready now).IsWorkedOff
      ((pipeline.adopted.withFolder pipeline.key.ns (S.put pipeline.adopted)).put
        (pipeline.adopted.ready now)) := by
    refine ⟨rfl, held_adopted pipeline, fun hjenkins ↦ ?_⟩
    have hjenkins' : (S.put pipeline.adopted).hasJenkins pipeline.key.ns = true := by
      rwa [Store.hasJenkins, ← jenkins_withFolder pipeline.adopted pipeline.key.ns]
    obtain ⟨folder, hfolder⟩ := folder_withFolder hjenkins' pipeline.adopted
    exact ⟨folder, (Store.find?_put_of_kind_ne _ _ (by decide) _).trans hfolder⟩
  refine ⟨Store.find?_put_self _ (pipeline.adopted.ready now), rfl,
    Object.prefix_finalizersWith pipeline Pipeline.finalizers,
    fun hfailed ↦ absurd hfailed.symm Bool.false_ne_true, fun _ ↦ hdone, fun _ _ ↦ hdone, ?_,
    fun key folder hfound ↦ ?_⟩
  · exact jenkins_withFolder pipeline.adopted pipeline.key.ns (S.put pipeline.adopted)
  · rw [Store.find?_put_of_kind_ne _ _ (by decide)]
    refine folders_withFolder pipeline.adopted pipeline.key.ns ?_
    rw [Store.find?_put_of_kind_ne _ _ (by decide), hfound]

theorem surely_reconcilePipeline_attempted (context : Context)
    (hfound : S.find? .pipeline pipeline.key = some pipeline)
    (hlive : pipeline.isDeleting = false) :
    (reconcilePipeline context pipeline.key).Surely S
      (fun r T ↦ ∃ left, pipeline.Attempted left S r T) := by
  have huntouched (e : Fault) : pipeline.Attempted pipeline S (.error e) S :=
    .of_kept pipeline.metadata.finalizers hfound (List.prefix_refl _) nofun rfl fun _ _ ↦ id
  have hadopted {T : Store} {r : Except Fault Outcome}
      (hdone : r.isOk = true → pipeline.isAhead = false)
      (hwhich : T = S.put pipeline.adopted ∨
        T = pipeline.adopted.withFolder pipeline.key.ns (S.put pipeline.adopted)) :
      pipeline.Attempted pipeline.adopted S r T := by
    have hbegins := Object.prefix_finalizersWith pipeline finalizers
    have hstored := Store.find?_put_self S pipeline.adopted
    have hfolders (key : Key) (folder : JenkinsFolder)
        (hfolder : S.find? .jenkinsFolder key = some folder) :
        (S.put pipeline.adopted).find? .jenkinsFolder key = some folder := by
      rw [Store.find?_put_of_kind_ne _ _ (by decide), hfolder]
    rcases hwhich with rfl | rfl
    · exact .of_kept _ hstored hbegins hdone rfl hfolders
    · refine .of_kept _ ?_ hbegins hdone (jenkins_withFolder ..) fun key folder hfolder ↦
        folders_withFolder _ _ (hfolders key folder hfolder)
      exact (find?_withFolder_of_ne (by decide) ..).trans hstored
  unfold reconcilePipeline
  rw [surely_bind, surely_get, hfound]
  refine ⟨fun fault ↦ ⟨pipeline, huntouched fault⟩, ?_⟩
  simp only [hlive, Bool.false_eq_true, if_false]
  refine (surely_maintain_recorded context pipeline.key.ns hfound hlive).mono ?_
  rintro r T (⟨⟨e, rfl⟩, rfl | hwhich⟩ | ⟨rfl, ⟨hdone, rfl⟩ | rfl⟩)
  · exact ⟨pipeline, huntouched e⟩
  · exact ⟨pipeline.adopted, hadopted nofun hwhich⟩
  · exact ⟨pipeline.adopted, hadopted (fun _ ↦ hdone) (.inl rfl)⟩
  · exact ⟨_, .of_ready context.now⟩

/-! ### One attempt after another -/

theorem Attempted.key (hattempted : pipeline.Attempted left S r T) :
    Object.key left = Object.key pipeline := by
  rw [← hattempted.rest]
  rfl

theorem Attempted.isDeleting (hattempted : pipeline.Attempted left S r T) :
    Object.isDeleting left = Object.isDeleting pipeline := by
  rw [← hattempted.rest]
  rfl

theorem Attempted.generation (hattempted : pipeline.Attempted left S r T) :
    left.metadata.generation = pipeline.metadata.generation := by
  rw [← hattempted.rest]
  rfl

/-- Work that was done stays done. -/
theorem Attempted.workedOff (hattempted : pipeline.Attempted left S r T)
    (hdone : pipeline.IsWorkedOff S) : left.IsWorkedOff T := by
  by_cases hstatus : left.status = pipeline.status
  · have hkept {finalizer : String} (hheld : pipeline.metadata.hasFinalizer finalizer = true) :
        left.metadata.hasFinalizer finalizer = true :=
      decide_eq_true (hattempted.finalizers.subset (of_decide_eq_true hheld))
    refine ⟨?_, hdone.held.imp hkept hkept, fun hjenkins ↦ ?_⟩
    · rw [observedGeneration, hstatus, hattempted.generation]
      exact hdone.observed
    · rw [hattempted.key, Store.hasJenkins, hattempted.jenkins] at hjenkins
      obtain ⟨folder, hfolder⟩ := hdone.folder hjenkins
      exact ⟨folder, hattempted.key ▸ hattempted.folders _ folder hfolder⟩
  · exact hattempted.recorded hstatus

/-- The work for the generation of the pipeline is done, or it is still known that it is to be
done. -/
structure Pends (pipeline : Pipeline) (s : Store) (left : Pipeline) : Prop where
  stored : s.find? .pipeline pipeline.key = some left
  key : Object.key left = Object.key pipeline
  live : Object.isDeleting left = false
  pends : left.isAhead = true ∨ left.IsWorkedOff s

theorem Pends.attempted {left' : Pipeline} (hpends : pipeline.Pends S left)
    (hattempted : left.Attempted left' S r T) : pipeline.Pends T left' := by
  refine ⟨hpends.key ▸ hattempted.stored, hattempted.key.trans hpends.key,
    hattempted.isDeleting.trans hpends.live, ?_⟩
  by_cases hstatus : left'.status = left.status
  · refine hpends.pends.imp (fun hahead ↦ ?_) hattempted.workedOff
    rwa [isAhead, observedGeneration, hstatus, hattempted.generation]
  · exact .inr (hattempted.recorded hstatus)

theorem Pends.surely (hpends : pipeline.Pends S left) (context : Context) :
    (reconcilePipeline context pipeline.key).Surely S
      (fun _ T ↦ ∃ left', pipeline.Pends T left') := by
  have hstored : S.find? .pipeline (Object.key left) = some left := hpends.key ▸ hpends.stored
  rw [← hpends.key]
  refine (surely_reconcilePipeline_attempted context hstored hpends.live).mono ?_
  rintro r T ⟨left', hattempted⟩
  exact ⟨left', hpends.attempted hattempted⟩

/-- Without failing calls the work is done. -/
theorem Pends.on (hpends : pipeline.Pends S left) (context : Context) :
    ∃ (left' : Pipeline) (T : Store),
      (reconcilePipeline context pipeline.key).on S = (.ok .awaitChange, T) ∧
      T.find? .pipeline pipeline.key = some left' ∧ left'.IsWorkedOff T := by
  have hstored : S.find? .pipeline (Object.key left) = some left := hpends.key ▸ hpends.stored
  have hmaintains : (reconcilePipeline context (Object.key left)).on S =
      (maintain context (Object.key left).ns left).on S := by
    refine (reconcilePipeline_of_found context hstored ?_).1
    rw [hpends.live]
    rfl
  obtain ⟨T, -, -, hon, -⟩ := on_maintain context (Object.key left).ns hstored hpends.live
  obtain ⟨left', hattempted⟩ :=
    (surely_reconcilePipeline_attempted context hstored hpends.live).on
  rw [hmaintains, hon] at hattempted
  rw [← hpends.key]
  refine ⟨left', T, hmaintains.trans hon, hattempted.stored, ?_⟩
  rcases hpends.pends with hahead | hdone
  · exact hattempted.completed rfl hahead
  · exact hattempted.workedOff hdone

end Pipeline

end PipelineOperator
