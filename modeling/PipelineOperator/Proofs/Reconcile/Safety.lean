import PipelineOperator.Proofs.Operation.OnBench
import PipelineOperator.Proofs.Operation.Trial
import PipelineOperator.Proofs.Reconcile.Requests

/-!
What the finalizers of a stage are good for. In a trial of a reconciliation, whichever calls fail,
nothing but the stage is written unless it is stored under its finalizers, and the one that holds
the labels goes only after the whole chain of the teardown (`reconcileStage_isSafe`). Adoption is
the only step of provisioning that writes the metadata of the stage, and the last write of a release
the only one that does so there; all between respects them (`Request.Respects`).
-/

set_option autoImplicit false
set_option relaxedAutoImplicit false

namespace PipelineOperator

open Operation

variable {context : Context} {stage : Stage} {s : Store} {faults : Nat → Option Fault}
  {t : Trial Bench}

/-! ### Stages that keep their metadata -/

/-- The stage is stored with its metadata. -/
def Store.Keeps (stage : Stage) (s : Store) : Prop :=
  ∃ stored, s.find? .stage stage.key = some stored ∧ stored.metadata = stage.metadata

/-- The request writes no stage, or the stage with the metadata it has. -/
def Request.Respects (stage : Stage) (request : Request) : Prop :=
  request.kind ≠ .stage ∨ request.isRead = true ∨ ∃ o : Stage, o.metadata = stage.metadata ∧
    (request = .writeStatus .stage o ∨ request = .replace .stage o)

theorem Store.Keeps.serve (hheld : stage.metadata.isReleased = false) (hkeeps : s.Keeps stage)
    {request : Request} (hrespects : request.Respects stage) :
    (Store.serve request s).2.Keeps stage := by
  obtain ⟨stored, hfound, hmetadata⟩ := hkeeps
  rcases hrespects with hkind | hread | ⟨o, ho, hrequest⟩
  · refine ⟨stored, ?_, hmetadata⟩
    rw [Store.find?, Store.table_serve_of_ne s (Ne.symm hkind)]
    exact hfound
  · rw [Store.serve_of_isRead hread]
    exact ⟨stored, hfound, hmetadata⟩
  · have hkey : o.key = stage.key := congrArg (fun m ↦ (⟨m.namespaceOrEmpty, m.anyName⟩ : Key)) ho
    rcases hrequest with rfl | rfl
    · refine ⟨{ stored with status := o.status }, ?_, hmetadata⟩
      show (s.writeStatus o).2.find? .stage stage.key = _
      rw [Store.writeStatus, hkey, hfound]
      simp only [Store.find?, Store.table_setTable_self, SortedMap.get?_insert_self]
    · have hreplaced : s.replace o = (.ok o, s.put o) :=
        Store.replace_of_found (hkey ▸ hfound) (ho ▸ hheld)
      refine ⟨o, ?_, ho⟩
      show (s.replace o).2.find? .stage stage.key = some o
      rw [hreplaced, ← hkey]
      exact Store.find?_put_self s o

/-- What is put to the cluster for an adopted stage respects it. -/
theorem Request.Furnishes.respects {request : Request} (hfurnishes : Furnishes stage request) :
    request.Respects stage := by
  cases hfurnishes with
  | read hread => exact .inr (.inl hread)
  | reportStatus status =>
    exact .inr (.inr ⟨{ stage with status := some status }, rfl, .inl rfl⟩)
  | reportStage status =>
    exact .inr (.inr ⟨{ stage with status := some status }, rfl, .inr rfl⟩)
  | _ => exact .inl nofun

theorem EnvironmentLabel.silent_previousStream (stage : Stage) (codebase : String) :
    (previousStream stage codebase).Silent := by
  unfold previousStream Stage.previousName
  cases stage.previousName? with
  | none => exact silent_fail _
  | some previous => exact silent_require _ _

namespace Handler

theorem asks_withdrawLabel (stage : Stage) :
    (withdrawLabel.serve stage).Asks (fun request ↦ request.kind ≠ .stage) :=
  EnvironmentLabel.asks_withdraw (fun _ ↦ nofun) (fun _ ↦ nofun) fun _ ↦ nofun

theorem asks_removeTarget (context : Context) (stage : Stage) :
    ((removeTarget context).serve stage).Asks (fun request ↦ request.kind ≠ .stage) := by
  rw [serve_removeTarget]
  have hkind : Kind.stage ≠ context.targetKind := context.targetKind_ne (by decide) (by decide)
  exact asks_ask hkind.symm

theorem silent_withdrawLabel (stage : Stage) : (withdrawLabel.serve stage).Silent := by
  have hremove (stream : ImageStream) : (EnvironmentLabel.remove stage.label stream).Silent := by
    unfold EnvironmentLabel.remove
    split
    · exact (silent_ask _).bind fun _ ↦ silent_pure ()
    · exact silent_pure ()
  refine (silent_ask _).bind fun found ↦ ?_
  cases found with
  | none => exact silent_pure ()
  | some pipeline =>
    refine silent_forM fun inputName _ ↦ (silent_ask _).bind fun found ↦ ?_
    cases found with
    | none => exact silent_pure ()
    | some input =>
      show (EnvironmentLabel.clean stage pipeline input).Silent
      unfold EnvironmentLabel.clean
      split
      · exact hremove input
      · refine (EnvironmentLabel.silent_previousStream stage _).bind fun verified ↦
          (hremove verified).bind fun _ ↦ ?_
        split
        · exact silent_pure ()
        · exact hremove input

theorem silent_removeTarget (context : Context) (stage : Stage) :
    ((removeTarget context).serve stage).Silent := by
  rw [serve_removeTarget]
  exact silent_ask _

end Handler

namespace Chain

/-- A chain of handlers that observe nothing themselves tells how far it came. -/
theorem observed_serve {chain : Chain}
    (hsilent : ∀ handler ∈ chain.handlers, (handler.serve stage).Silent)
    (faults : Nat → Option Fault) (t : Trial Bench) :
    (((chain.serve stage).amid faults t).1 = .ok () ∧
      ((chain.serve stage).amid faults t).2.observed =
        t.observed ++ chain.names.map (Observation.handled · true)) ∨
      ∃ e, ((chain.serve stage).amid faults t).1 = .error e := by
  induction chain generalizing t with
  | last handler =>
    obtain ⟨hresult, hobserved⟩ :=
      observed_counted (hsilent handler (List.mem_singleton_self _)) handler.name faults t
    cases hfirst : ((handler.serve stage).amid faults t).1 with
    | error e => exact .inr ⟨e, hresult.trans hfirst⟩
    | ok done =>
      rw [hfirst] at hresult hobserved
      exact .inl ⟨hresult, hobserved⟩
  | link handler rest ih =>
    obtain ⟨hresult, hobserved⟩ :=
      observed_counted (hsilent handler (List.mem_cons_self ..)) handler.name faults t
    have hserve : (serve stage (link handler rest)).amid faults t = _ :=
      amid_bind (counted handler.name (handler.serve stage)) (fun _ ↦ rest.serve stage) faults t
    rw [hserve]
    generalize (counted handler.name (handler.serve stage)).amid faults t = first at *
    obtain ⟨result, t'⟩ := first
    change result = _ at hresult
    change t'.observed = _ at hobserved
    cases result with
    | error e => exact .inr ⟨e, rfl⟩
    | ok done =>
      rw [← hresult] at hobserved
      have hrest := ih (t := t') fun next hnext ↦ hsilent next (List.mem_cons_of_mem _ hnext)
      rw [hobserved, List.append_assoc] at hrest
      exact hrest

end Chain

/-! ### What a trial of a reconciliation shows -/

/-- The request writes another object than the stage under the key. -/
def Request.WritesBeside (key : Key) (request : Request) : Prop :=
  ∃ w, request.write? = some w ∧ ¬ (w.kind = .stage ∧ w.key = key)

/-- The request would change the metadata that the stage under the key has in the store. -/
def Request.Rewrites (key : Key) (s : Store) (request : Request) : Prop :=
  ∃ written stored : Stage, request = .replace .stage written ∧ s.find? .stage key = some stored ∧
    written.metadata ≠ stored.metadata

/-- The stage under the key has the finalizer that is there for its labels. -/
def Store.Holds (key : Key) (s : Store) : Prop :=
  ∃ stage, s.find? .stage key = some stage ∧
    stage.metadata.hasFinalizer Naming.labelCleanup = true

/-- The stage under the key has the finalizers that its present handling needs. -/
def Store.Guards (key : Key) (s : Store) : Prop :=
  ∃ stage : Stage, s.find? .stage key = some stage ∧
    stage.metadata.hasFinalizer Naming.labelCleanup = true ∧
    (stage.isDeleting = false →
      stage.metadata.hasFinalizer Naming.foregroundDeletion = true)

theorem Store.Keeps.holds (hkeeps : s.Keeps stage)
    (hheld : stage.metadata.hasFinalizer Naming.labelCleanup = true) : s.Holds stage.key := by
  obtain ⟨stored, hfound, hmetadata⟩ := hkeeps
  exact ⟨stored, hfound, hmetadata ▸ hheld⟩

theorem Store.Keeps.guards (hkeeps : s.Keeps stage)
    (hheld : ∀ finalizer ∈ Stage.finalizers, stage.metadata.hasFinalizer finalizer = true) :
    s.Guards stage.key := by
  obtain ⟨stored, hfound, hmetadata⟩ := hkeeps
  refine ⟨stored, hfound, ?_, fun _ ↦ ?_⟩
  · rw [hmetadata]
    exact hheld _ (by simp [Stage.finalizers])
  · rw [hmetadata]
    exact hheld _ (by simp [Stage.finalizers])

theorem Store.Keeps.guards_of_deleting (hkeeps : s.Keeps stage)
    (hdeleting : stage.isDeleting = true)
    (hheld : stage.metadata.hasFinalizer Naming.labelCleanup = true) : s.Guards stage.key := by
  obtain ⟨stored, hfound, hmetadata⟩ := hkeeps
  refine ⟨stored, hfound, hmetadata ▸ hheld, fun hlive ↦ ?_⟩
  have hdeleting' : stored.metadata.isDeleting = true := hmetadata ▸ hdeleting
  exact nomatch hdeleting'.symm.trans hlive

/-- A request that only reads, or that is about the stage, writes nothing else. -/
theorem Request.not_writesBeside {request : Request} {key : Key}
    (hrequest : request.isRead = true ∨ ∃ o : Stage, o.key = key ∧ request = .replace .stage o) :
    ¬ request.WritesBeside key := by
  rintro ⟨w, hwrite, hbeside⟩
  rcases hrequest with hread | ⟨o, rfl, rfl⟩
  · exact nomatch (write?_of_isRead hread).symm.trans hwrite
  · obtain rfl := Option.some.inj hwrite
    exact hbeside ⟨rfl, rfl⟩

/-- A request that respects the metadata of the stage does not change it. -/
theorem Request.Respects.not_rewrites {request : Request} (hrespects : request.Respects stage)
    (hkeeps : s.Keeps stage) : ¬ request.Rewrites stage.key s := by
  rintro ⟨written, stored, rfl, hstored, hne⟩
  obtain ⟨kept, hkept, hmetadata⟩ := hkeeps
  obtain rfl := Option.some.inj (hkept.symm.trans hstored)
  rcases hrespects with hkind | hread | ⟨o, ho, hsame | hsame⟩
  · exact absurd rfl hkind
  · exact nomatch hread
  · exact nomatch hsame
  · injection hsame with _ hsame
    subst hsame
    exact absurd (ho.trans hmetadata.symm) hne

/-- Nor does a request that only reads. -/
theorem Request.not_rewrites_of_isRead {request : Request} {key : Key}
    (hread : request.isRead = true) : ¬ request.Rewrites key s := by
  rintro ⟨written, stored, rfl, -⟩
  exact nomatch hread

namespace Stage

/-- Wiring in a trial reads only, and comes to what it comes to without failing calls unless it
fails. -/
theorem amid_wire (stage : Stage) (faults : Nat → Option Fault) (t : Trial Bench) :
    Trial.Since (fun request ↦ request.isRead = true) (fun s ↦ s = t.state.store) t
        ((wire stage).amid faults t).2 ∧
      ((∃ e, ((wire stage).amid faults t).1 = .error e) ∨ ∃ changed w,
        ((wire stage).amid faults t).1 = .ok (changed, stage.withWiring w) ∧
          (changed = false → w = stage.wiring)) := by
  refine ⟨Asks.amid (asks_wire stage (fun _ ↦ rfl) fun _ ↦ rfl)
    (fun request s hread hs ↦ (Store.serve_of_isRead hread s).trans hs) rfl faults, ?_⟩
  rcases (atomic_wire stage t.state.store).amid faults with ⟨e, herror, -⟩ | hon
  · exact .inl ⟨e, herror⟩
  by_cases horphan : stage.IsOrphan t.state.store
  · exact .inl ⟨_, congrArg Prod.fst (hon.symm.trans (rests_wire_of_orphan horphan).on)⟩
  · obtain ⟨changed, w, hwire, -, -, -, -, hunchanged⟩ := on_wire horphan
    exact .inr ⟨changed, w, congrArg Prod.fst (hon.symm.trans hwire), hunchanged⟩

/-- Adoption in a trial: before the stage is stored as adopted nothing has changed, and when that
fails nothing follows. -/
theorem amid_adopt (hfound : t.state.store.find? .stage stage.key = some stage)
    (hlive : stage.isDeleting = false) (faults : Nat → Option Fault) :
    ∃ new, ((adopt stage).amid faults t).2.calls = t.calls ++ new ∧
      (∀ call ∈ new, call.state.store = t.state.store ∧
        ¬ call.request.WritesBeside stage.key) ∧
      ((∃ e, ((adopt stage).amid faults t).1 = .error e ∧
          ((adopt stage).amid faults t).2.state.store = t.state.store) ∨
        ∃ w, ((adopt stage).amid faults t).1 = .ok (stage.withWiring w) ∧
          (∀ finalizer ∈ finalizers,
            (stage.withWiring w).metadata.hasFinalizer finalizer = true) ∧
          ((adopt stage).amid faults t).2.state.store.Keeps (stage.withWiring w) ∧
          ∀ call ∈ new, call.failed = true →
            ¬ call.request.Rewrites stage.key call.state.store) := by
  obtain ⟨⟨⟨reads, hcalls, hreads⟩, hsame⟩, hwire⟩ := amid_wire stage faults t
  have hidle (call : Call Bench) (hcall : call ∈ reads) :
      call.state.store = t.state.store ∧ ¬ call.request.WritesBeside stage.key :=
    ⟨(hreads call hcall).2, Request.not_writesBeside (.inl (hreads call hcall).1)⟩
  have hkept (call : Call Bench) (hcall : call ∈ reads) :
      ¬ call.request.Rewrites stage.key call.state.store :=
    Request.not_rewrites_of_isRead (hreads call hcall).1
  unfold adopt
  rw [amid_bind]
  generalize (wire stage).amid faults t = first at *
  obtain ⟨result, t'⟩ := first
  rcases hwire with ⟨e, rfl⟩ | ⟨wired, w, rfl, hunchanged⟩
  · exact ⟨reads, hcalls, hidle, .inl ⟨e, rfl, hsame⟩⟩
  obtain ⟨held, hensure, hheld, hsameKept⟩ :=
    Object.ensureFinalizers_eq (stage.withWiring w) finalizers
  generalize Object.finalizersWith (stage.withWiring w) finalizers = kept
    at hensure hheld hsameKept
  rw [withFinalizers_withWiring] at hensure hheld
  simp only [hensure]
  cases hchanged : wired || held with
  | false =>
    rw [Bool.or_eq_false_iff] at hchanged
    obtain rfl := hunchanged hchanged.1
    obtain rfl : kept = stage.metadata.finalizers := hsameKept hchanged.2
    refine ⟨reads, hcalls, hidle, .inr ⟨stage.wiring, rfl, hheld, ⟨stage, ?_, rfl⟩,
      fun call hcall _ ↦ hkept call hcall⟩⟩
    exact (congrArg (Store.find? · .stage stage.key) hsame).trans hfound
  | true =>
    simp only [if_true]
    generalize hadopted : stage.withWiring { w with finalizers := kept } = adopted at hheld ⊢
    have hkey : adopted.key = stage.key := hadopted ▸ key_withWiring ..
    have hreleased : adopted.metadata.isReleased = false := by
      rw [← hadopted]
      exact Object.isReleased_of_live (o := stage.withWiring { w with finalizers := kept }) hlive
    have hfound' : t'.state.store.find? .stage adopted.key = some stage :=
      hkey ▸ (congrArg (Store.find? · .stage stage.key) hsame).trans hfound
    obtain ⟨reply, b, hreplace, hserved⟩ := amid_replace adopted faults t'
    rw [hreplace]
    refine ⟨reads ++ [⟨.replace .stage adopted, t'.state, !reply.isOk⟩], ?_, ?_, ?_⟩
    · exact (congrArg (· ++ _) hcalls).trans (List.append_assoc ..)
    · refine List.forall_mem_append.mpr ⟨hidle, List.forall_mem_singleton.mpr ⟨hsame, ?_⟩⟩
      exact Request.not_writesBeside (.inr ⟨adopted, hkey, rfl⟩)
    · rcases hserved stage hfound' hreleased with ⟨⟨fault, rfl⟩, hstore⟩ | ⟨rfl, hstore⟩
      · exact .inl ⟨fault, rfl, hstore.trans hsame⟩
      · refine .inr ⟨{ w with finalizers := kept }, congrArg _ hadopted.symm, ?_, ⟨adopted, ?_, ?_⟩,
          ?_⟩
        · rwa [hadopted]
        · rw [hadopted, hstore]
          exact Store.find?_put_self t'.state.store adopted
        · rw [hadopted]
        · exact List.forall_mem_append.mpr ⟨fun call hcall _ ↦ hkept call hcall,
            List.forall_mem_singleton.mpr nofun⟩

end Stage

/-- In the trial the stage was never without the finalizers that it needed. -/
structure Trial.IsSafe (stage : Stage) (teardown : Chain) (t : Trial Bench) : Prop where
  /-- Other objects are written only while the stage is stored under its finalizers. -/
  guarded : ∀ call ∈ t.calls, call.request.WritesBeside stage.key →
    call.state.store.Guards stage.key
  /-- If a live stage cannot be stored as adopted, no other object is written. -/
  adopted : stage.isDeleting = false →
    (∃ call ∈ t.calls, call.failed = true ∧
      call.request.Rewrites stage.key call.state.store) →
    ∀ call ∈ t.calls, ¬ call.request.WritesBeside stage.key
  /-- The finalizer for the labels disappears only from a deleting stage, after every handler of the
  teardown has succeeded. -/
  released : t.states.Pairwise (fun before after ↦
    before.store.Holds stage.key → ¬ after.store.Holds stage.key →
      stage.isDeleting = true ∧ t.observed = teardown.names.map (Observation.handled · true))
  /-- If a handler of the teardown fails, the stage keeps its finalizers. -/
  kept : stage.isDeleting = true → (∃ handler, Observation.handled handler false ∈ t.observed) →
    ∀ b ∈ t.states, ∃ stored, b.store.find? .stage stage.key = some stored ∧
      stored.metadata.finalizers = stage.metadata.finalizers

namespace Trial

variable {teardown : Chain} {b : Bench}

/-- While first nothing changes, and then the stage has the finalizer, it does not disappear. -/
theorem pairwise_holds {first last : List Bench} {key : Key} {P : Prop}
    (hsame : ∀ b ∈ first, b.store = s) (hholds : ∀ b ∈ last, b.store.Holds key) :
    (first ++ last).Pairwise
      (fun before after ↦ before.store.Holds key → ¬ after.store.Holds key → P) := by
  rw [List.pairwise_append]
  refine ⟨?_, ?_, fun _ _ after hafter _ hlost ↦ absurd (hholds after hafter) hlost⟩
  · refine List.pairwise_of_forall_mem_list fun before hbefore after hafter hheld hlost ↦ ?_
    rw [hsame before hbefore] at hheld
    rw [hsame after hafter] at hlost
    exact absurd hheld hlost
  · exact List.pairwise_of_forall_mem_list fun _ _ after hafter _ hlost ↦
      absurd (hholds after hafter) hlost

/-- Where nothing is written at all there is nothing to be feared. -/
theorem isSafe_of_idle (hfound : s.find? .stage stage.key = some stage)
    (hcalls : ∀ call ∈ t.calls, call.state.store = s ∧ ¬ call.request.WritesBeside stage.key)
    (hstate : t.state.store = s) : t.IsSafe stage teardown := by
  have hsame (b : Bench) (hb : b ∈ t.states) : b.store = s := by
    rcases mem_states.mp hb with ⟨call, hcall, rfl⟩ | rfl
    · exact (hcalls call hcall).1
    · exact hstate
  refine ⟨fun call hcall hbeside ↦ absurd hbeside (hcalls call hcall).2,
    fun _ _ call hcall ↦ (hcalls call hcall).2, ?_, fun _ _ b hb ↦ ⟨stage, ?_, rfl⟩⟩
  · rw [← List.append_nil t.states]
    exact pairwise_holds hsame nofun
  · rw [hsame b hb, hfound]

/-- Where a deleting stage keeps its metadata it keeps its finalizers. -/
theorem isSafe_of_keeps (hdeleting : stage.isDeleting = true)
    (hheld : stage.metadata.hasFinalizer Naming.labelCleanup = true)
    (hstates : ∀ b ∈ t.states, b.store.Keeps stage) : t.IsSafe stage teardown := by
  refine ⟨fun call hcall _ ↦ ?_, fun hlive ↦ (nomatch hdeleting.symm.trans hlive), ?_,
    fun _ _ b hb ↦ ?_⟩
  · exact (hstates _ (mem_states.mpr (.inl ⟨call, hcall, rfl⟩))).guards_of_deleting hdeleting hheld
  · refine List.pairwise_of_forall_mem_list fun before _ after hafter _ hlost ↦ ?_
    exact absurd ((hstates after hafter).holds hheld) hlost
  · obtain ⟨stored, hfound, hmetadata⟩ := hstates b hb
    exact ⟨stored, hfound, hmetadata ▸ rfl⟩

end Trial

namespace Stage

variable {b : Bench}

/-- A live stage is adopted, and keeps its metadata from then on. -/
theorem isSafe_of_provision (hfound : t.state.store.find? .stage stage.key = some stage)
    (hlive : stage.isDeleting = false)
    (hcalls : ∀ call ∈ t.calls, call.state.store = t.state.store ∧
      call.request.isRead = true) (teardown : Chain) :
    ((provision context stage).amid faults t).2.IsSafe stage teardown := by
  have hstart (call : Call Bench) (hcall : call ∈ t.calls) :
      call.state.store = t.state.store ∧ ¬ call.request.WritesBeside stage.key :=
    ⟨(hcalls call hcall).1, Request.not_writesBeside (.inl (hcalls call hcall).2)⟩
  obtain ⟨new, hnew, hidle, hadopt⟩ := amid_adopt hfound hlive faults
  rw [provision_eq, amid_bind]
  generalize (adopt stage).amid faults t = first at *
  obtain ⟨result, t'⟩ := first
  change t'.calls = _ at hnew
  have hidle' : ∀ call ∈ t'.calls, call.state.store = t.state.store ∧
      ¬ call.request.WritesBeside stage.key := by
    rw [hnew]
    exact List.forall_mem_append.mpr ⟨hstart, hidle⟩
  rcases hadopt with ⟨e, rfl, hsame⟩ | ⟨w, rfl, hheld, hkeeps, hserved⟩
  · exact Trial.isSafe_of_idle hfound hidle' hsame
  have hreleased : (stage.withWiring w).metadata.isReleased = false :=
    Object.isReleased_of_live (o := stage.withWiring w) hlive
  have hasks := (asks_furnish_confirm context (stage.withWiring w)).mono
    fun _ hfurnishes ↦ hfurnishes.respects
  obtain ⟨⟨more, hmore, hrespects⟩, hend⟩ := hasks.amid
    (fun request s hrequest hs ↦ hs.serve hreleased hrequest) hkeeps faults
  change ((furnish context (stage.withWiring w) >>= fun _ ↦
    confirm context (stage.withWiring w)).amid faults t').2.IsSafe stage teardown
  generalize ((furnish context (stage.withWiring w) >>= fun _ ↦
    confirm context (stage.withWiring w)).amid faults t').2 = t'' at *
  have hguards {s : Store} (hs : s.Keeps (stage.withWiring w)) : s.Guards stage.key :=
    hs.guards hheld
  refine ⟨?_, fun _ hfailure ↦ ?_, ?_, fun hdeleting ↦ (nomatch hlive.symm.trans hdeleting)⟩
  · rw [hmore]
    refine List.forall_mem_append.mpr ⟨fun call hcall hbeside ↦ ?_, fun call hcall _ ↦ ?_⟩
    · exact absurd hbeside (hidle' call hcall).2
    · exact hguards (hrespects call hcall).2
  · -- a call that would have changed the metadata was served, since more calls came after it
    obtain ⟨call, hcall, hfailed, hrewrites⟩ := hfailure
    rw [hmore, hnew, List.mem_append, List.mem_append] at hcall
    rcases hcall with (hcall | hcall) | hcall
    · exact absurd hrewrites (Request.not_rewrites_of_isRead (hcalls call hcall).2)
    · exact absurd hrewrites (hserved call hcall hfailed)
    · obtain ⟨hrespect, hkept⟩ := hrespects call hcall
      exact absurd hrewrites (hrespect.not_rewrites hkept)
  · rw [Trial.states, hmore, List.map_append, List.append_assoc]
    refine Trial.pairwise_holds (s := t.state.store) (fun b hb ↦ ?_) fun b hb ↦ ?_
    · obtain ⟨call, hcall, rfl⟩ := List.mem_map.mp hb
      exact (hidle' call hcall).1
    · have hkept : b.store.Keeps (stage.withWiring w) := by
        rw [List.mem_append, List.mem_map, List.mem_singleton] at hb
        rcases hb with ⟨call, hcall, rfl⟩ | rfl
        · exact (hrespects call hcall).2
        · exact hend
      exact hkept.holds (hheld _ (List.mem_cons_of_mem _ (List.mem_singleton_self _)))

/-- The chain of the teardown in a trial: the stage keeps its metadata, and when the chain comes to
its end every handler has succeeded. -/
theorem amid_teardown (hfound : t.state.store.find? .stage stage.key = some stage)
    (hheld : stage.metadata.hasFinalizer Naming.labelCleanup = true)
    (hcalls : ∀ call ∈ t.calls, call.state.store = t.state.store)
    {result : Except Fault Unit} {t' : Trial Bench}
    (hrun : ((Chain.teardown context).serve stage).amid faults t = (result, t')) :
    (∀ b ∈ t'.states, b.store.Keeps stage) ∧
      (result = .ok () → t'.observed =
        t.observed ++ (Chain.teardown context).names.map (Observation.handled · true)) := by
  have hhandlers (handler : Handler) (hhandler : handler ∈ (Chain.teardown context).handlers) :
      (handler.serve stage).Asks (fun request ↦ request.kind ≠ .stage) ∧
        (handler.serve stage).Silent := by
    rcases Chain.mem_handlers_teardown.mp hhandler with rfl | rfl
    · exact ⟨Handler.asks_withdrawLabel stage, Handler.silent_withdrawLabel stage⟩
    · exact ⟨Handler.asks_removeTarget context stage, Handler.silent_removeTarget context stage⟩
  have hreleased : stage.metadata.isReleased = false := Object.isReleased_of_hasFinalizer hheld
  have hstart : t.state.store.Keeps stage := ⟨stage, hfound, rfl⟩
  obtain ⟨⟨more, hmore, hkept⟩, hend⟩ := Asks.amid
    (Chain.asks_serve fun handler hhandler ↦ (hhandlers handler hhandler).1)
    (fun request s hrequest hs ↦ hs.serve hreleased (.inl hrequest)) hstart faults
  have hchain := Chain.observed_serve
    (fun handler hhandler ↦ (hhandlers handler hhandler).2) faults t
  rw [hrun] at hmore hend hchain
  refine ⟨fun b hb ↦ ?_, fun hok ↦ ?_⟩
  · rcases Trial.mem_states.mp hb with ⟨call, hcall, rfl⟩ | rfl
    · rw [hmore, List.mem_append] at hcall
      rcases hcall with hcall | hcall
      · exact ⟨stage, (hcalls call hcall) ▸ hfound, rfl⟩
      · exact (hkept call hcall).2
    · exact hend
  · rcases hchain with ⟨-, hnames⟩ | ⟨e, hcontra⟩
    · exact hnames
    · exact nomatch hok.symm.trans hcontra

/-- A deleting stage keeps its metadata until the chain has succeeded. -/
theorem isSafe_of_release (hfound : t.state.store.find? .stage stage.key = some stage)
    (hdeleting : stage.isDeleting = true)
    (hcalls : ∀ call ∈ t.calls, call.state.store = t.state.store ∧
      call.request.isRead = true) (hobserved : t.observed = []) :
    ((release context stage).amid faults t).2.IsSafe stage (Chain.teardown context) := by
  cases hheld : stage.metadata.hasFinalizer Naming.labelCleanup with
  | false =>
    rw [release_of_free hheld]
    exact Trial.isSafe_of_idle hfound (fun call hcall ↦ ⟨(hcalls call hcall).1,
      Request.not_writesBeside (.inl (hcalls call hcall).2)⟩) rfl
  | true =>
    rw [release_of_held hheld, amid_bind]
    cases hrun : ((Chain.teardown context).serve stage).amid faults t with
    | mk result t' =>
    obtain ⟨hkeeps, hnames⟩ := amid_teardown hfound hheld (fun call h ↦ (hcalls call h).1) hrun
    cases result with
    | error e => exact Trial.isSafe_of_keeps hdeleting hheld hkeeps
    | ok done =>
      have hnames : t'.observed = (Chain.teardown context).names.map (.handled · true) := by
        rw [hnames rfl, hobserved, List.nil_append]
      obtain ⟨reply, b, hreplace, -⟩ := amid_replace stage.released faults t'
      have hlast : ((replace stage.released >>= fun _ ↦ pure Outcome.awaitChange).amid faults
          t').2 = ⟨b, t'.calls ++ [⟨.replace .stage stage.released, t'.state, !reply.isOk⟩],
            t'.observed⟩ := by
        rw [amid_bind, hreplace]
        cases reply <;> rfl
      show ((replace stage.released >>= fun _ ↦
        pure Outcome.awaitChange).amid faults t').2.IsSafe _ _
      rw [hlast]
      refine ⟨List.forall_mem_append.mpr ⟨fun call hcall _ ↦ ?_, ?_⟩,
        fun hlive ↦ (nomatch hdeleting.symm.trans hlive), ?_, fun _ hfailed ↦ ?_⟩
      · have hstate : call.state ∈ t'.states := Trial.mem_states.mpr (.inl ⟨call, hcall, rfl⟩)
        exact (hkeeps _ hstate).guards_of_deleting hdeleting hheld
      · refine List.forall_mem_singleton.mpr fun hbeside ↦ absurd hbeside ?_
        exact Request.not_writesBeside
          (.inr ⟨stage.released, Object.key_removeFinalizer, rfl⟩)
      · exact List.pairwise_of_forall_mem_list fun _ _ _ _ _ _ ↦ ⟨hdeleting, hnames⟩
      · obtain ⟨handler, hhandler⟩ := hfailed
        rw [hnames, List.mem_map] at hhandler
        obtain ⟨name, -, hname⟩ := hhandler
        exact nomatch hname

end Stage

/-- Whichever calls of a reconciliation fail, the finalizers of the stage do their work. -/
theorem reconcileStage_isSafe (context : Context) (faults : Nat → Option Fault) {b : Bench}
    {stage : Stage} (hfound : b.store.find? .stage stage.key = some stage) :
    ((reconcileStage context stage.key).attempt faults b).2.IsSafe stage
      (Chain.teardown context) := by
  unfold reconcileStage attempt
  obtain ⟨reply, b', hget, hstore, hreply⟩ := amid_get .stage stage.key faults { state := b }
  rw [amid_bind, hget]
  have hcalls : ∀ call ∈ [Call.mk (.get .stage stage.key) b (!reply.isOk)],
      call.state.store = b'.store ∧ call.request.isRead = true :=
    List.forall_mem_singleton.mpr ⟨hstore.symm, rfl⟩
  have hfound' : b'.store.find? .stage stage.key = some stage := hstore ▸ hfound
  rcases hreply with ⟨fault, rfl⟩ | rfl
  · exact Trial.isSafe_of_idle hfound' (fun call hcall ↦ ⟨(hcalls call hcall).1,
      Request.not_writesBeside (.inl (hcalls call hcall).2)⟩) rfl
  · simp only [hfound, List.nil_append]
    cases hdeleting : stage.isDeleting with
    | true => exact Stage.isSafe_of_release hfound' hdeleting hcalls rfl
    | false => exact Stage.isSafe_of_provision hfound' hdeleting hcalls _

theorem reconcileStage_isSafe_withStage :
    ((reconcileStage { now := ⟨0, 0⟩ } (Fixture.stage "dev" "ci" "p" 0).key).attempt
      (fun n ↦ if n = 3 then some (.ofCause .brokenExchange) else none) Bench.withStage).2.IsSafe
        (Fixture.stage "dev" "ci" "p" 0) (Chain.teardown { now := ⟨0, 0⟩ }) := by
  have hstored : Bench.withStage.store.find? .stage (Fixture.stage "dev" "ci" "p" 0).key =
      some (Fixture.stage "dev" "ci" "p" 0) :=
    Store.find?_put_self _ (Fixture.stage "dev" "ci" "p" 0)
  exact reconcileStage_isSafe _ _ hstored

end PipelineOperator
