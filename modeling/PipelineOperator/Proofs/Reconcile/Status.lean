import PipelineOperator.Proofs.Reconcile.Requests
import PipelineOperator.Proofs.Reconcile.Retry
import PipelineOperator.Proofs.Reconcile.Safety

/-!
What the status of a stage tells. A reconciliation of a live stage that succeeds leaves it
registered. One that fails leaves the status alone, unless the target could not be provided: then
the status tells of that failure, or is the old one because neither write of it came through, and
the failure itself is returned in any case (`reconcileStage_tellsTruth`). Only the provision of the
target and the report at the end write a status; all other handlers say nothing about stages.
-/

set_option autoImplicit false
set_option relaxedAutoImplicit false

namespace PipelineOperator

open Operation

variable {context : Context} {stage adopted : Stage} {s : Store} {faults : Nat → Option Fault}
  {t t' t'' : Trial Bench} {I J : Store → Prop}

/-- The stage under the key is there and has the status. -/
def Store.Shows (key : Key) (status : Option StageStatus) (s : Store) : Prop :=
  ∃ stored : Stage, s.find? .stage key = some stored ∧ stored.status = status

/-- If the stage under the key is there, it has the status. -/
def Store.ShowsOnly (key : Key) (status : Option StageStatus) (s : Store) : Prop :=
  ∀ status', s.Shows key status' → status' = status

theorem Store.Shows.unique {key : Key} {status status' : Option StageStatus}
    (hshows : s.Shows key status) (hshows' : s.Shows key status') : status = status' := by
  obtain ⟨stored, hfound, rfl⟩ := hshows
  obtain ⟨stored', hfound', rfl⟩ := hshows'
  obtain rfl := Option.some.inj (hfound.symm.trans hfound')
  rfl

/-- An operation that asks nothing about stages leaves the stage under a key as it is. -/
theorem Operation.Asks.amid_stored {α : Type} {op : Operation α} {key : Key} {o : Option Stage}
    (hasks : op.Asks (fun request ↦ request.kind ≠ .stage))
    (hstored : t.state.store.find? .stage key = o) (faults : Nat → Option Fault) :
    Trial.Throughout (fun s ↦ s.find? .stage key = o) t (op.amid faults t).2 := by
  have hkept (request : Request) (s : Store) (hkind : request.kind ≠ .stage)
      (hs : s.find? .stage key = o) : (Store.serve request s).2.find? .stage key = o := by
    rw [Store.find?, Store.table_serve_of_ne s (Ne.symm hkind)]
    exact hs
  exact (hasks.amid hkept hstored faults).mono (fun _ _ ↦ trivial) fun _ ↦ id

/-! ### Reports -/

/-- The last two calls were both ways to write the object for the sake of its status, and have
failed. -/
def Trial.EndsUnreported {k : Kind} (told : Object k) (t : Trial Bench) : Prop :=
  ∃ before b b', t.calls =
    before ++ [⟨.writeStatus k told, b, true⟩, ⟨.replace k told, b', true⟩]

/-- A report comes through in one of two ways, or both have failed and nothing has changed. -/
theorem Operation.amid_report {k : Kind} {o stored : Object k}
    (hfound : t.state.store.find? k o.key = some stored) (hheld : o.metadata.isReleased = false)
    (status : k.Status) (faults : Nat → Option Fault) :
    (∃ new, ((report o status).amid faults t).2.calls = t.calls ++ new ∧
        ∀ call ∈ new, call.state.store = t.state.store) ∧
      ((∃ told, ((report o status).amid faults t).1 = .ok told) ∧
          (∃ told : Object k, told.status = some status ∧
            ((report o status).amid faults t).2.state.store.find? k o.key = some told) ∨
        (∃ e, ((report o status).amid faults t).1 = .error e) ∧
          ((report o status).amid faults t).2.state.store = t.state.store ∧
          ((report o status).amid faults t).2.EndsUnreported
            { o with status := some status }) := by
  let told : Object k := { o with status := some status }
  have hfound : t.state.store.find? k told.key = some stored := hfound
  obtain ⟨reply, b, hanswer, hserved⟩ := Bench.hindered_answer faults (.writeStatus k told) t
  have hwrite : (writeStatus told).amid faults t = _ := hanswer
  unfold report
  rw [amid_tryCatch, hwrite]
  rcases hserved with ⟨fault, rfl, hsame⟩ | ⟨rfl, hstore⟩
  · obtain ⟨reply, b', hreplace, hserved⟩ := amid_replace told faults
      ⟨b, t.calls ++ [⟨.writeStatus k told, t.state, true⟩], t.observed⟩
    have hcalls (calls : List (Call Bench)) (first second : Call Bench) :
        (calls ++ [first]) ++ [second] = calls ++ [first, second] := List.append_assoc ..
    simp only [Except.isOk, Except.toBool, Bool.not_false] at hreplace ⊢
    rw [hreplace]
    refine ⟨⟨_, hcalls .., ?_⟩, ?_⟩
    · exact List.forall_mem_cons.mpr ⟨rfl, List.forall_mem_singleton.mpr hsame⟩
    rcases hserved stored (hsame ▸ hfound) hheld with ⟨⟨fault', rfl⟩, hsame'⟩ | ⟨rfl, hstore⟩
    · exact .inr ⟨⟨fault', rfl⟩, hsame'.trans hsame, t.calls, t.state, b, hcalls ..⟩
    · refine .inl ⟨⟨told, rfl⟩, told, rfl, ?_⟩
      rw [hstore]
      exact Store.find?_put_self b.store told
  · obtain ⟨written, hwritten, hlater⟩ := Store.writeStatus_of_found hfound
    have hserve : Store.serve (.writeStatus k told) t.state.store = (.ok _, written) := hwritten
    rw [hserve] at hstore ⊢
    refine ⟨⟨_, rfl, List.forall_mem_singleton.mpr rfl⟩,
      .inl ⟨⟨_, rfl⟩, { stored with status := some status }, rfl, ?_⟩⟩
    exact (congrArg (Store.find? · k told.key) hstore).trans hlater

theorem Operation.silent_report (stage : Stage) (status : StageStatus) :
    (report stage status).Silent :=
  (silent_ask _).tryCatch fun _ ↦ silent_ask _

theorem Operation.amid_reportFailure (now : Instant) (stage : Stage) (action : String)
    (fault : Fault) (faults : Nat → Option Fault) (t : Trial Bench) :
    (reportFailure now stage action fault).amid faults t =
      (.ok (), ((report stage (StageStatus.failed action fault.message now)).amid faults t).2) := by
  unfold reportFailure bestEffort
  rw [amid_tryCatch, amid_bind]
  generalize (report stage (StageStatus.failed action fault.message now)).amid faults t = reported
  obtain ⟨e | told, t'⟩ := reported <;> rfl

/-- Confirming either leaves the stage registered, or fails and leaves it as it is. -/
theorem Stage.amid_confirm (context : Context)
    (hstored : t.state.store.find? .stage adopted.key = some adopted)
    (hheld : adopted.metadata.isReleased = false) (faults : Nat → Option Fault) :
    ((∃ outcome, ((confirm context adopted).amid faults t).1 = .ok outcome) ∧
        ∃ status, status.IsRegistration ∧
          ((confirm context adopted).amid faults t).2.state.store.Shows adopted.key
            (some status)) ∨
      (∃ e, ((confirm context adopted).amid faults t).1 = .error e) ∧
        Trial.Throughout (fun s ↦ s.find? .stage adopted.key = some adopted) t
          ((confirm context adopted).amid faults t).2 := by
  unfold confirm
  cases hregistered : adopted.isRegistered with
  | true =>
    obtain ⟨status, hstatus, hregistered⟩ := (Option.any_eq_true ..).mp hregistered
    exact .inl ⟨⟨_, rfl⟩, status, StageStatus.isRegistered_iff.mp hregistered, adopted, hstored,
      hstatus⟩
  | false =>
    obtain ⟨⟨new, hcalls, hsame⟩, hreported⟩ :=
      amid_report hstored hheld (StageStatus.registered context.now) faults
    simp only [Bool.not_false, if_true, amid_bind]
    generalize (report adopted (StageStatus.registered context.now)).amid faults t = reported at *
    obtain ⟨result, t'⟩ := reported
    rcases hreported with ⟨⟨told, rfl⟩, told', hstatus, hfound⟩ | ⟨⟨e, rfl⟩, hstore, -⟩
    · exact .inl ⟨⟨_, rfl⟩, _, StageStatus.isRegistration_registered context.now, told', hfound,
        hstatus⟩
    · have hstored' : t'.state.store.find? .stage adopted.key = some adopted := hstore ▸ hstored
      exact .inr ⟨⟨e, rfl⟩, Trial.throughout_of_calls hcalls hsame hstored hstored'⟩

/-! ### The target -/

/-- How providing the target is called in a report. -/
def Context.targetAction (context : Context) : String :=
  if context.kiosk then "create_space" else "create_namespace"

/-- The status of a stage whose target could not be provided. It tells all that was being done, from
the outermost on, and the cause. -/
def Context.unprovided (context : Context) (fault : Fault) : StageStatus where
  available := false
  lastTimeUpdated := some context.now.withOffset
  status := "failed"
  username := "system"
  action := if context.kiosk then "create_space" else "create_namespace"
  result := "error"
  detailedMessage := some (String.intercalate ": "
    (fault.attempts.map Attempt.message ++ [fault.cause.message]))
  value := "failed"

theorem StageStatus.failed_eq_unprovided (context : Context) (fault : Fault) :
    failed context.targetAction fault.message context.now = context.unprovided fault := rfl

/-- In the trial a call about the target failed with the fault. At its end the status tells of that,
or is the old one and both ways to write it have failed. -/
structure Trial.TellsUnprovided (context : Context) (stage : Stage) (faults : Nat → Option Fault)
    (fault : Fault) (t : Trial Bench) : Prop where
  failing : ∃ number request, request.kind = context.targetKind ∧
    t.Fails faults number request fault
  told : t.state.store.Shows stage.key (some (context.unprovided fault)) ∨
    t.state.store.Shows stage.key stage.status ∧ ∃ told : Stage, told.key = stage.key ∧
      told.status = some (context.unprovided fault) ∧ t.EndsUnreported told

namespace Handler

theorem serve_target (context : Context) (stage : Stage) : ∃ o : Object context.targetKind,
    (target context).serve stage = Target.provide context.now stage context.targetKind
      context.targetAction (ensure o.key o) := by
  unfold target Context.targetKind Context.targetAction
  cases context.kiosk with
  | true => exact ⟨Target.buildSpace stage.target stage.metadata.namespaceOrEmpty, rfl⟩
  | false => exact ⟨Target.buildNamespace stage.target stage.metadata.namespaceOrEmpty, rfl⟩

/-- Providing the target succeeds without a word about the stage, or fails with the failure of a
call and reports that. -/
theorem amid_target (context : Context)
    (hstored : t.state.store.find? .stage adopted.key = some adopted)
    (hheld : adopted.metadata.isReleased = false) (faults : Nat → Option Fault) :
    (((target context).serve adopted).amid faults t).1 = .ok () ∧
        Trial.Throughout (fun s ↦ s.find? .stage adopted.key = some adopted) t
          (((target context).serve adopted).amid faults t).2 ∨
      ∃ fault, (((target context).serve adopted).amid faults t).1 =
          .error (fault.during (.providing context.targetKind adopted.target)) ∧
        (((target context).serve adopted).amid faults t).2.TellsUnprovided context adopted faults
          fault ∧
        Trial.Throughout (fun s ↦ s.Shows adopted.key adopted.status ∨
            s.Shows adopted.key (some (context.unprovided fault))) t
          (((target context).serve adopted).amid faults t).2 := by
  obtain ⟨o, hserve⟩ := serve_target context adopted
  have hkind : context.targetKind ≠ .stage :=
    Ne.symm (context.targetKind_ne (by decide) (by decide))
  have hasks : (ensure o.key o).Asks (fun request ↦ request.kind ≠ .stage) :=
    asks_ensure hkind hkind
  have hkept := hasks.amid_stored hstored faults
  have hfailing {fault : Fault} (herror : ((ensure o.key o).amid faults t).1 = .error fault) :=
    fails_of_amid_ensure herror
  rw [hserve]
  unfold Target.provide
  rw [amid_tryCatch, amid_bind]
  generalize (ensure o.key o).amid faults t = ensured at hkept hfailing ⊢
  obtain ⟨result, t'⟩ := ensured
  cases result with
  | ok creation => exact .inl ⟨rfl, hkept⟩
  | error fault =>
    obtain ⟨number, request, hrequest, hfails⟩ := hfailing rfl
    have hbefore : Trial.Throughout (fun s ↦ s.Shows adopted.key adopted.status ∨
        s.Shows adopted.key (some (context.unprovided fault))) t t' :=
      hkept.mono fun s hs ↦ .inl ⟨adopted, hs, rfl⟩
    obtain ⟨⟨new, hcalls, hsame⟩, hreported⟩ :=
      amid_report hkept.state hheld (context.unprovided fault) faults
    have hfailure : (reportFailure context.now adopted context.targetAction fault).amid faults t' =
        (.ok (), ((report adopted (context.unprovided fault)).amid faults t').2) := by
      rw [amid_reportFailure, StageStatus.failed_eq_unprovided]
    simp only [amid_bind, hfailure]
    refine .inr ⟨fault, rfl, ?_⟩
    show Trial.TellsUnprovided context adopted faults fault
        ((report adopted (context.unprovided fault)).amid faults t').2 ∧
      Trial.Throughout _ t ((report adopted (context.unprovided fault)).amid faults t').2
    generalize (report adopted (context.unprovided fault)).amid faults t' = reported at *
    obtain ⟨result, t''⟩ := reported
    have htold : t''.state.store.Shows adopted.key (some (context.unprovided fault)) ∨
        t''.state.store.Shows adopted.key adopted.status ∧ t''.EndsUnreported
          { adopted with status := some (context.unprovided fault) } := by
      rcases hreported with ⟨-, told, hstatus, hfound⟩ | ⟨-, hstore, hunreported⟩
      · exact .inl ⟨told, hfound, hstatus⟩
      · exact .inr ⟨⟨adopted, hstore ▸ hkept.state, rfl⟩, hunreported⟩
    have hlater : Trial.Throughout (fun s ↦ s.Shows adopted.key adopted.status ∨
        s.Shows adopted.key (some (context.unprovided fault))) t' t'' :=
      Trial.throughout_of_calls hcalls hsame hbefore.state (htold.symm.imp And.left id)
    refine ⟨⟨⟨number, request, hrequest, hfails.later hlater⟩, ?_⟩, hbefore.trans hlater⟩
    exact htold.imp id fun ⟨hshows, hunreported⟩ ↦
      ⟨hshows, { adopted with status := some (context.unprovided fault) }, rfl, rfl, hunreported⟩

end Handler

/-! ### The chain of handlers -/

/-- The handler asks nothing about stages, and observes nothing itself. -/
structure Handler.IsDiscreet (stage : Stage) (handler : Handler) : Prop where
  asks : (handler.serve stage).Asks (fun request ↦ request.kind ≠ .stage)
  silent : (handler.serve stage).Silent

namespace Handler

theorem isDiscreet_verifiedStreams (stage : Stage) : verifiedStreams.IsDiscreet stage where
  asks := VerifiedStreams.asks_serve (fun _ ↦ nofun) (fun _ ↦ nofun) (fun _ ↦ nofun) fun _ ↦ nofun
  silent := by
    refine (silent_require _ _).bind fun pipeline ↦ ?_
    split
    · exact silent_fail _
    · refine ((silent_require _ _).bind fun _ ↦ silent_pure _).bind fun _ ↦
        silent_forM fun _ _ ↦ ?_
      exact (silent_require _ _).bind fun _ ↦ (silent_ensure _ _).bind fun _ ↦ silent_pure ()

theorem isDiscreet_access (context : Context) (stage : Stage) :
    (access context).IsDiscreet stage where
  asks := Access.asks_serve (fun _ ↦ nofun) (fun _ ↦ nofun) (fun _ ↦ nofun) fun _ ↦ nofun
  silent := (silent_ensure _ _).bind fun _ ↦ silent_forM fun _ _ ↦
    (silent_ensure _ _).bind fun _ ↦ silent_pure ()

theorem isDiscreet_job (stage : Stage) : job.IsDiscreet stage where
  asks := StageJob.asks_serve (fun _ ↦ nofun) (fun _ ↦ nofun) (fun _ ↦ nofun) (fun _ ↦ nofun)
    (fun _ ↦ nofun) fun _ _ ↦ nofun
  silent := by
    have hlibrary : (StageJob.resolveLibrary stage).Silent := by
      unfold StageJob.resolveLibrary
      split
      · refine Silent.tryCatch ?_ fun _ ↦ silent_pure _
        refine Silent.bind ?_ fun _ ↦ silent_pure _
        refine (silent_require _ _).bind fun codebase ↦ (silent_require _ _).bind fun server ↦ ?_
        split
        · exact silent_fail _
        · exact silent_pure _
      · exact silent_pure _
    refine (silent_require _ _).bind fun pipeline ↦
      (hlibrary.bind fun _ ↦ silent_pure _).bind fun config ↦ (silent_ask _).bind fun found ↦ ?_
    cases found with
    | none => exact (silent_ask _).bind fun _ ↦ silent_pure ()
    | some existing =>
      show (if existing.spec.job.config = config then pure ()
        else setJobConfig stage.key config : Operation Unit).Silent
      split
      · exact silent_pure ()
      · exact silent_ask _

theorem isDiscreet_environmentLabel (stage : Stage) : environmentLabel.IsDiscreet stage where
  asks := EnvironmentLabel.asks_serve (fun _ ↦ nofun) (fun _ ↦ nofun) fun _ ↦ nofun
  silent := by
    have hset (stream : ImageStream) : (EnvironmentLabel.set stage.label stream).Silent := by
      unfold EnvironmentLabel.set
      split
      · exact silent_pure ()
      · exact (silent_ask _).bind fun _ ↦ silent_pure ()
    refine (silent_require _ _).bind fun pipeline ↦ silent_forM fun _ _ ↦
      (silent_require _ _).bind fun input ↦ ?_
    split
    · exact hset input
    · exact (EnvironmentLabel.silent_previousStream stage _).bind hset

theorem silent_target (context : Context) (stage : Stage) :
    ((target context).serve stage).Silent := by
  obtain ⟨o, hserve⟩ := serve_target context stage
  rw [hserve]
  refine ((silent_ensure _ _).bind fun _ ↦ silent_pure ()).tryCatch fun fault ↦ Silent.bind ?_
    fun _ ↦ trivial
  exact ((silent_report stage _).bind fun _ ↦ silent_pure ()).tryCatch fun _ ↦ silent_pure ()

end Handler

/-- The handler was counted as failed. -/
def Trial.HasFailed (handler : Handler) (t : Trial Bench) : Prop :=
  .handled handler.name false ∈ t.observed

theorem Trial.hasFailed_target : t.HasFailed (.target context) ↔
    .handled (if context.kiosk then "put_tenant" else "put_namespace") false ∈ t.observed := by
  unfold HasFailed Handler.target
  cases context.kiosk <;> rfl

theorem Trial.HasFailed.of_append {handler : Handler} {name : String} {succeeded : Bool}
    (hobserved : t'.observed = t.observed ++ [.handled name succeeded])
    (hfailed : t'.HasFailed handler) :
    t.HasFailed handler ∨ handler.name = name ∧ succeeded = false := by
  unfold HasFailed at hfailed
  rw [hobserved] at hfailed
  rcases List.mem_append.mp hfailed with hbefore | hnew
  · exact .inl hbefore
  · obtain ⟨hname, hsucceeded⟩ := Observation.handled.inj (List.mem_singleton.mp hnew)
    exact .inr ⟨hname, hsucceeded.symm⟩

namespace Stage

/-- How an adopted stage was provisioned in a trial: to the end, up to a failure of which nothing is
said about the stage, or up to the target, which is reported. -/
inductive Furnished (context : Context) (adopted : Stage) (faults : Nat → Option Fault)
    (t : Trial Bench) : Except Fault Unit → Trial Bench → Prop where
  | done {t' : Trial Bench}
      (hkept : Trial.Throughout (fun s ↦ s.find? .stage adopted.key = some adopted) t t')
      (hsucceeded : ∀ handler, t'.HasFailed handler → t.HasFailed handler) :
      Furnished context adopted faults t (.ok ()) t'
  | stopped {fault : Fault} {t' : Trial Bench}
      (hkept : Trial.Throughout (fun s ↦ s.find? .stage adopted.key = some adopted) t t')
      (hother : t'.HasFailed (.target context) → t.HasFailed (.target context)) :
      Furnished context adopted faults t (.error fault) t'
  | unprovided {fault : Fault} {t' : Trial Bench}
      (hkept : Trial.Throughout (fun s ↦ s.Shows adopted.key adopted.status ∨
        s.Shows adopted.key (some (context.unprovided fault))) t t')
      (htells : t'.TellsUnprovided context adopted faults fault)
      (hfailed : t'.HasFailed (.target context)) :
      Furnished context adopted faults t
        (.error (fault.during (.providing context.targetKind adopted.target))) t'

namespace Furnished

variable {result : Except Fault Unit}

theorem trans (hfirst : Furnished context adopted faults t (.ok ()) t')
    (hrest : Furnished context adopted faults t' result t'') :
    Furnished context adopted faults t result t'' := by
  obtain ⟨hkept, hsucceeded⟩ := hfirst
  cases hrest with
  | done hkept' hsucceeded' =>
    exact .done (hkept.trans hkept') fun handler h ↦ hsucceeded handler (hsucceeded' handler h)
  | stopped hkept' hother => exact .stopped (hkept.trans hkept') fun h ↦ hsucceeded _ (hother h)
  | unprovided hkept' htells hfailed =>
    exact .unprovided ((hkept.mono fun s hs ↦ .inl ⟨adopted, hs, rfl⟩).trans hkept') htells hfailed

/-- Nothing but the target is ever told of on the stage. -/
theorem counted_discreet {handler : Handler} (hdiscreet : handler.IsDiscreet adopted)
    (hname : handler.name ≠ (Handler.target context).name)
    (hstored : t.state.store.find? .stage adopted.key = some adopted) :
    Furnished context adopted faults t
      ((counted handler.name (handler.serve adopted)).amid faults t).1
      ((counted handler.name (handler.serve adopted)).amid faults t).2 := by
  have hkept := hdiscreet.asks.amid_stored hstored faults
  have hobserved := (observed_counted hdiscreet.silent handler.name faults t).2
  rw [amid_counted] at hobserved ⊢
  generalize (handler.serve adopted).amid faults t = served at hkept hobserved ⊢
  obtain ⟨fault | done, t'⟩ := served
  · refine .stopped (hkept.record faults _) fun hfailed ↦ ?_
    exact (hfailed.of_append hobserved).resolve_right fun h ↦ hname h.1.symm
  · refine .done (hkept.record faults _) fun other hfailed ↦ ?_
    exact (hfailed.of_append hobserved).resolve_right nofun

theorem counted_target (hheld : adopted.metadata.isReleased = false)
    (hstored : t.state.store.find? .stage adopted.key = some adopted) :
    Furnished context adopted faults t
      ((counted (Handler.target context).name
        ((Handler.target context).serve adopted)).amid faults t).1
      ((counted (Handler.target context).name
        ((Handler.target context).serve adopted)).amid faults t).2 := by
  have hprovided := Handler.amid_target context hstored hheld faults
  have hobserved := (observed_counted (Handler.silent_target context adopted)
    (Handler.target context).name faults t).2
  rw [amid_counted] at hobserved ⊢
  generalize ((Handler.target context).serve adopted).amid faults t = served
    at hprovided hobserved ⊢
  obtain ⟨result, t'⟩ := served
  rcases hprovided with ⟨rfl, hkept⟩ | ⟨fault, rfl, htells, hkept⟩
  · refine .done (hkept.record faults _) fun other hfailed ↦ ?_
    exact (hfailed.of_append hobserved).resolve_right nofun
  · refine .unprovided (hkept.record faults _) ⟨htells.failing, htells.told⟩ ?_
    exact List.mem_append_right _ (List.mem_singleton_self _)

/-- A chain in which all handlers but the one for the target are discreet. -/
theorem serve {chain : Chain} (hheld : adopted.metadata.isReleased = false)
    (hhandlers : ∀ handler ∈ chain.handlers, handler = .target context ∨
      handler.IsDiscreet adopted ∧ handler.name ≠ (Handler.target context).name)
    (hstored : t.state.store.find? .stage adopted.key = some adopted) :
    Furnished context adopted faults t ((chain.serve adopted).amid faults t).1
      ((chain.serve adopted).amid faults t).2 := by
  have hcounted {handler : Handler} {t : Trial Bench} (hhandler : handler = .target context ∨
      handler.IsDiscreet adopted ∧ handler.name ≠ (Handler.target context).name)
      (hstored : t.state.store.find? .stage adopted.key = some adopted) :
      Furnished context adopted faults t
        ((counted handler.name (handler.serve adopted)).amid faults t).1
        ((counted handler.name (handler.serve adopted)).amid faults t).2 := by
    rcases hhandler with rfl | ⟨hdiscreet, hname⟩
    · exact counted_target hheld hstored
    · exact counted_discreet hdiscreet hname hstored
  induction chain generalizing t with
  | last handler => exact hcounted (hhandlers handler (List.mem_singleton_self _)) hstored
  | link handler rest ih =>
    have hfirst := hcounted (hhandlers handler (List.mem_cons_self ..)) hstored
    have hserve : (Chain.serve adopted (.link handler rest)).amid faults t = _ :=
      amid_bind (counted handler.name (handler.serve adopted)) (fun _ ↦ rest.serve adopted)
        faults t
    rw [hserve]
    generalize (counted handler.name (handler.serve adopted)).amid faults t = served at hfirst ⊢
    obtain ⟨fault | done, t'⟩ := served
    · exact hfirst
    · obtain ⟨hkept, -⟩ := id hfirst
      exact hfirst.trans (ih (fun next hnext ↦ hhandlers next (List.mem_cons_of_mem _ hnext))
        hkept.state)

end Furnished

/-- Furnishing an adopted stage in a trial. -/
theorem furnished_furnish (context : Context) (hheld : adopted.metadata.isReleased = false)
    (hstored : t.state.store.find? .stage adopted.key = some adopted)
    (faults : Nat → Option Fault) :
    Furnished context adopted faults t ((furnish context adopted).amid faults t).1
      ((furnish context adopted).amid faults t).2 := by
  have hname : Handler.verifiedStreams.name ≠ (Handler.target context).name ∧
      (Handler.access context).name ≠ (Handler.target context).name ∧
      Handler.job.name ≠ (Handler.target context).name ∧
      Handler.environmentLabel.name ≠ (Handler.target context).name := by
    unfold Handler.target
    cases context.kiosk <;> simp [Handler.verifiedStreams, Handler.access, Handler.job,
      Handler.environmentLabel]
  unfold furnish
  rcases requirePrevious_eq adopted with hprevious | hprevious
  · rw [hprevious]
    refine Furnished.serve hheld (fun handler hhandler ↦ ?_) hstored
    rcases Chain.mem_handlers_creation.mp hhandler with rfl | rfl | rfl | rfl | ⟨-, rfl⟩
    · exact .inr ⟨Handler.isDiscreet_verifiedStreams adopted, hname.1⟩
    · exact .inl rfl
    · exact .inr ⟨Handler.isDiscreet_access context adopted, hname.2.1⟩
    · exact .inr ⟨Handler.isDiscreet_job adopted, hname.2.2.1⟩
    · exact .inr ⟨Handler.isDiscreet_environmentLabel adopted, hname.2.2.2⟩
  · rw [hprevious]
    exact .stopped (.refl hstored) id

/-! ### Adoption and the reconciliation as a whole -/

theorem silent_adopt (stage : Stage) : (adopt stage).Silent := by
  have howner : (wireOwner stage).Silent := by
    unfold wireOwner
    split
    · exact silent_pure _
    · refine (silent_require _ _).bind fun pipeline ↦ ?_
      split
      · exact silent_pure _
      · exact silent_pure _
  have hprevious (stage : Stage) : (wirePrevious stage).Silent := by
    have hsearch : (findPrevious stage).Silent := by
      unfold findPrevious
      split
      · exact silent_pure _
      · exact (silent_ask _).bind fun _ ↦ silent_pure _
    unfold wirePrevious
    split
    · exact silent_pure _
    · refine hsearch.bind fun previous ↦ ?_
      split
      · exact silent_pure _
      · exact silent_pure _
  have hwire : (wire stage).Silent := howner.bind fun _ ↦ (hprevious _).bind fun _ ↦ silent_pure _
  refine hwire.bind fun (wired, stage) ↦ ?_
  obtain ⟨held, hensure, -⟩ := Object.ensureFinalizers_eq stage finalizers
  simp only [hensure]
  split
  · exact silent_ask _
  · exact silent_pure _

/-- Adoption does not touch the status. -/
theorem amid_adopt_status (hfound : t.state.store.find? .stage stage.key = some stage)
    (hlive : stage.isDeleting = false) (faults : Nat → Option Fault) :
    Trial.Throughout (fun s ↦ s.Shows stage.key stage.status) t
        ((adopt stage).amid faults t).2 ∧
      ((∃ e, ((adopt stage).amid faults t).1 = .error e) ∨ ∃ w,
        ((adopt stage).amid faults t).1 = .ok (stage.withWiring w) ∧
          ((adopt stage).amid faults t).2.state.store.find? .stage stage.key =
            some (stage.withWiring w)) := by
  obtain ⟨new, hcalls, hidle, -⟩ := amid_adopt hfound hlive faults
  have hsame (call : Call Bench) (hcall : call ∈ new) : call.state.store = t.state.store :=
    (hidle call hcall).1
  have hstart : t.state.store.Shows stage.key stage.status := ⟨stage, hfound, rfl⟩
  have hthroughout := Trial.throughout_of_calls hcalls hsame hstart
  have hended := (atomic_adopt stage t.state.store).amid faults
  generalize (adopt stage).amid faults t = adopting at *
  obtain ⟨result, t'⟩ := adopting
  rcases hended with ⟨e, rfl, hstore⟩ | hon
  · exact ⟨hthroughout (hstore ▸ hstart), .inl ⟨e, rfl⟩⟩
  rcases on_adopt hfound hlive with ⟨e, hrests⟩ | ⟨hadopted, -⟩
  · obtain ⟨rfl, hstore⟩ := Prod.mk.inj (hon.symm.trans hrests.on)
    exact ⟨hthroughout (hstore ▸ hstart), .inl ⟨e, rfl⟩⟩
  · obtain ⟨rfl, hstore⟩ := Prod.mk.inj (hon.symm.trans hadopted)
    have hstored : t'.state.store.find? .stage stage.key =
        some (stage.withWiring (stage.wiringIn t.state.store)) := by
      rw [hstore]
      exact Store.find?_put_self _ (stage.withWiring _)
    exact ⟨hthroughout ⟨_, hstored, rfl⟩, .inr ⟨_, rfl, hstored⟩⟩

theorem silent_confirm (context : Context) (stage : Stage) : (confirm context stage).Silent := by
  unfold confirm
  split
  · exact (silent_report stage _).bind fun _ ↦ silent_pure _
  · exact silent_pure _

end Stage

/-- What the status of a live stage tells in a trial of its reconciliation that came to the
result. -/
structure Trial.TellsTruth (context : Context) (stage : Stage) (faults : Nat → Option Fault)
    (result : Except Fault Outcome) (t : Trial Bench) : Prop where
  /-- Success leaves the stage registered. -/
  registered : ∀ outcome, result = .ok outcome →
    ∃ status, status.IsRegistration ∧ t.state.store.Shows stage.key (some status)
  /-- Failure leaves the status as it was, unless the target could not be provided. -/
  unchanged : ∀ fault, result = .error fault →
    .handled (if context.kiosk then "put_tenant" else "put_namespace") false ∉ t.observed →
    ∀ b ∈ t.states, b.store.Shows stage.key stage.status
  /-- That the target could not be provided is what comes out, whatever becomes of the report, and
  no status but the old one and the one that tells of it is ever seen. -/
  unprovided :
    .handled (if context.kiosk then "put_tenant" else "put_namespace") false ∈ t.observed →
    ∃ fault, result = .error (fault.during (.providing context.targetKind stage.target)) ∧
      t.TellsUnprovided context stage faults fault ∧
      ∀ b ∈ t.states, b.store.Shows stage.key stage.status ∨
        b.store.Shows stage.key (some (context.unprovided fault))
  /-- Where a handler failed the reconciliation does, and the stage never becomes registered. -/
  unregistered : ∀ handler, t.HasFailed handler → (∃ fault, result = .error fault) ∧
    ∀ b ∈ t.states, ∀ status, b.store.Shows stage.key (some status) →
      some status = stage.status ∨ status.status = "failed"

/-- A failure of which nothing was said about the stage. -/
theorem Trial.TellsTruth.of_error {b : Bench} {fault : Fault}
    (hkept : Throughout (fun s ↦ s.Shows stage.key stage.status) { state := b } t)
    (hprovided : ¬ t.HasFailed (.target context)) :
    t.TellsTruth context stage faults (.error fault) where
  registered _ hcontra := nomatch hcontra
  unchanged _ _ _ := hkept.states
  unprovided hfailed := absurd (hasFailed_target.mpr hfailed) hprovided
  unregistered _ _ := ⟨⟨fault, rfl⟩, fun b hb _ hshows ↦ .inl (hshows.unique (hkept.states b hb))⟩

/-- A failure that comes of the target. -/
theorem Trial.TellsTruth.of_unprovided {b : Bench} {fault : Fault}
    (hstates : Throughout (fun s ↦ s.Shows stage.key stage.status ∨
      s.Shows stage.key (some (context.unprovided fault))) { state := b } t)
    (htells : t.TellsUnprovided context stage faults fault)
    (hfailed : t.HasFailed (.target context)) :
    t.TellsTruth context stage faults
      (.error (fault.during (.providing context.targetKind stage.target))) where
  registered _ hcontra := nomatch hcontra
  unchanged _ _ hprovided := absurd (hasFailed_target.mp hfailed) hprovided
  unprovided _ := ⟨fault, rfl, htells, hstates.states⟩
  unregistered _ _ := by
    refine ⟨⟨_, rfl⟩, fun b hb status hshows ↦ ?_⟩
    rcases hstates.states b hb with hold | hfailure
    · exact .inl (hshows.unique hold)
    · exact .inr (Option.some.inj (hshows.unique hfailure) ▸ rfl)

/-- A success, after which the stage is registered. -/
theorem Trial.TellsTruth.of_ok {outcome : Outcome} {status : StageStatus}
    (hregistered : status.IsRegistration)
    (hshows : t.state.store.Shows stage.key (some status))
    (hprovided : ∀ handler, ¬ t.HasFailed handler) :
    t.TellsTruth context stage faults (.ok outcome) where
  registered _ _ := ⟨status, hregistered, hshows⟩
  unchanged _ hcontra := nomatch hcontra
  unprovided hfailed := absurd (hasFailed_target.mpr hfailed) (hprovided _)
  unregistered handler hfailed := absurd hfailed (hprovided handler)

/-- A live stage in a trial that has only read it so far. -/
theorem Stage.tellsTruth_provision {b : Bench} (context : Context)
    (hread : Trial.Throughout (fun s ↦ s.Shows stage.key stage.status) { state := b } t)
    (hobserved : t.observed = [])
    (hfound : t.state.store.find? .stage stage.key = some stage)
    (hlive : stage.isDeleting = false) (faults : Nat → Option Fault) :
    ((provision context stage).amid faults t).2.TellsTruth context stage faults
      ((provision context stage).amid faults t).1 := by
  have hnone {t' : Trial Bench} (hsame : t'.observed = t.observed) (handler : Handler) :
      ¬ t'.HasFailed handler := by
    unfold Trial.HasFailed
    rw [hsame, hobserved]
    exact List.not_mem_nil
  obtain ⟨hkept, hresult⟩ := amid_adopt_status hfound hlive faults
  have hsilent := (silent_adopt stage).amid faults t
  rw [provision_eq, amid_bind]
  generalize (adopt stage).amid faults t = adopting at hkept hresult hsilent ⊢
  obtain ⟨result, t₁⟩ := adopting
  rcases hresult with ⟨fault, rfl⟩ | ⟨w, rfl, hstored⟩
  · exact .of_error (hread.trans hkept) (hnone hsilent _)
  have hheld : (stage.withWiring w).metadata.isReleased = false :=
    Object.isReleased_of_live (o := stage.withWiring w) hlive
  have hfurnished := furnished_furnish context hheld hstored faults
  show Trial.TellsTruth context stage faults
    ((furnish context (stage.withWiring w) >>= fun _ ↦
      confirm context (stage.withWiring w)).amid faults t₁).1
    ((furnish context (stage.withWiring w) >>= fun _ ↦
      confirm context (stage.withWiring w)).amid faults t₁).2
  rw [amid_bind]
  generalize (furnish context (stage.withWiring w)).amid faults t₁ = furnishing at hfurnished ⊢
  obtain ⟨result, t₂⟩ := furnishing
  cases hfurnished with
  | stopped hkept' hother =>
    refine .of_error ((hread.trans hkept).trans (hkept'.mono fun s hs ↦ ⟨_, hs, rfl⟩)) ?_
    exact fun hfailed ↦ hnone hsilent _ (hother hfailed)
  | unprovided hkept' htells hfailed =>
    exact .of_unprovided (((hread.trans hkept).mono fun s hs ↦ .inl hs).trans hkept')
      ⟨htells.failing, htells.told⟩ hfailed
  | done hkept' hsucceeded =>
    have hconfirmed := amid_confirm context hkept'.state hheld faults
    have hsame := (silent_confirm context (stage.withWiring w)).amid faults t₂
    have hsucceeded' (handler : Handler) :
        ¬ ((confirm context (stage.withWiring w)).amid faults t₂).2.HasFailed handler := by
      intro hfailed
      unfold Trial.HasFailed at hfailed
      rw [hsame] at hfailed
      exact hnone hsilent handler (hsucceeded handler hfailed)
    show Trial.TellsTruth context stage faults
      ((confirm context (stage.withWiring w)).amid faults t₂).1
      ((confirm context (stage.withWiring w)).amid faults t₂).2
    generalize (confirm context (stage.withWiring w)).amid faults t₂ = confirming
      at hconfirmed hsucceeded' ⊢
    obtain ⟨result, t₃⟩ := confirming
    rcases hconfirmed with ⟨⟨outcome, rfl⟩, status, hregistered, hshows⟩ | ⟨⟨fault, rfl⟩, hlast⟩
    · exact .of_ok hregistered hshows hsucceeded'
    · have hlater : Trial.Throughout (Store.Shows stage.key stage.status) t₁ t₃ :=
        (hkept'.trans hlast).mono fun s hs ↦ ⟨_, hs, rfl⟩
      exact .of_error ((hread.trans hkept).trans hlater) (hsucceeded' _)

/-- Whichever calls fail, a deleting stage keeps its status. -/
theorem Stage.throughout_release (context : Context)
    (hstatus : t.state.store.ShowsOnly stage.key stage.status) (faults : Nat → Option Fault) :
    Trial.Throughout (Store.ShowsOnly stage.key stage.status) t
      ((release context stage).amid faults t).2 := by
  refine ((asks_release context stage).amid ?_ hstatus faults).mono (fun _ _ ↦ trivial) fun _ ↦ id
  intro request s hdismantles hs status ⟨stored, hfound, hstored⟩
  have hother (hkind : request.kind ≠ .stage) : status = stage.status := by
    rw [Store.find?, Store.table_serve_of_ne s (Ne.symm hkind)] at hfound
    exact hs status ⟨stored, hfound, hstored⟩
  cases hdismantles with
  | read hread =>
    rw [Store.serve_of_isRead hread] at hfound
    exact hs status ⟨stored, hfound, hstored⟩
  | labelStream o => exact hother (show Kind.imageStream ≠ .stage by decide)
  | removeTarget => exact hother (Ne.symm (context.targetKind_ne (by decide) (by decide)))
  | release =>
    change (s.replace stage.released).2.find? .stage stage.key = some stored at hfound
    have hkey : stage.released.key = stage.key := Object.key_removeFinalizer
    cases hbefore : s.find? .stage stage.released.key with
    | none =>
      rw [Store.replace, hbefore] at hfound
      exact hs status ⟨stored, hfound, hstored⟩
    | some old =>
      rw [Store.replace_eq_letGo hbefore, ← hkey] at hfound
      rcases Store.find?_letGo s stage.released with hgone | hleft
      · exact absurd (hfound.symm.trans hgone) (Option.some_ne_none stored)
      · obtain rfl := Option.some.inj (hleft.symm.trans hfound)
        obtain ⟨kept, hkept⟩ := Object.removeFinalizer_eq stage Naming.labelCleanup
        have hreleased : stage.released = Object.withFinalizers stage kept := hkept
        rw [← hstored, hreleased]
        rfl

/-- Whichever calls of a reconciliation fail, the status of the stage tells the truth, and that of a
deleting stage does not change. -/
theorem reconcileStage_tellsTruth (context : Context) (faults : Nat → Option Fault) {b : Bench}
    {stage : Stage} (hfound : b.store.find? .stage stage.key = some stage) :
    (stage.isDeleting = false →
      ((reconcileStage context stage.key).attempt faults b).2.TellsTruth context stage faults
        ((reconcileStage context stage.key).attempt faults b).1) ∧
    (stage.isDeleting = true →
      ∀ b' ∈ ((reconcileStage context stage.key).attempt faults b).2.states,
        b'.store.ShowsOnly stage.key stage.status) := by
  unfold reconcileStage attempt
  obtain ⟨reply, b', hget, hstore, hreply⟩ := amid_get .stage stage.key faults { state := b }
  rw [amid_bind, hget]
  have hshows : b.store.Shows stage.key stage.status := ⟨stage, hfound, rfl⟩
  have hread (I : Store → Prop) (hstart : I b.store) : Trial.Throughout I { state := b }
      ⟨b', [] ++ [Call.mk (.get .stage stage.key) b (!reply.isOk)], []⟩ :=
    Trial.throughout_of_calls rfl (List.forall_mem_singleton.mpr rfl) hstart (hstore ▸ hstart)
  have hold := hread (Store.ShowsOnly stage.key stage.status) fun _ h ↦ h.unique hshows
  have hfound' : b'.store.find? .stage stage.key = some stage := hstore ▸ hfound
  rcases hreply with ⟨fault, rfl⟩ | rfl
  · exact ⟨fun _ ↦ .of_error (hread _ hshows) List.not_mem_nil, fun _ ↦ hold.states⟩
  · simp only [hfound]
    refine ⟨fun hlive ↦ ?_, fun hdeleting ↦ ?_⟩
    · simp only [hlive]
      exact Stage.tellsTruth_provision context (hread _ hshows) rfl hfound' hlive faults
    · simp only [hdeleting]
      exact (hold.trans (Stage.throughout_release context hold.state faults)).states

/-- The namespace cannot be created, and its status not be written on its own. -/
theorem reconcileStage_tellsTruth_withStage :
    ((reconcileStage { now := ⟨0, 0⟩ } (Fixture.stage "dev" "ci" "p" 0).key).attempt
      (fun n ↦ if n = 9 ∨ n = 10 then some (.ofCause .brokenExchange) else none)
        Bench.withStage).2.TellsTruth { now := ⟨0, 0⟩ } (Fixture.stage "dev" "ci" "p" 0)
          (fun n ↦ if n = 9 ∨ n = 10 then some (.ofCause .brokenExchange) else none)
          ((reconcileStage { now := ⟨0, 0⟩ } (Fixture.stage "dev" "ci" "p" 0).key).attempt
            (fun n ↦ if n = 9 ∨ n = 10 then some (.ofCause .brokenExchange) else none)
              Bench.withStage).1 ∧
    ((reconcileStage { now := ⟨0, 0⟩ } (Fixture.stage "dev" "ci" "p" 0).key).attempt
      (fun n ↦ if n = 9 ∨ n = 10 then some (.ofCause .brokenExchange) else none)
        Bench.withStage).2.state.store.Shows ⟨"ci", "dev"⟩ (some {
          available := false
          lastTimeUpdated := some "1970-01-01T00:00:00+00:00"
          status := "failed"
          username := "system"
          action := "create_namespace"
          result := "error"
          detailedMessage := some "client error"
          value := "failed" }) := by
  have hstored : Bench.withStage.store.find? .stage (Fixture.stage "dev" "ci" "p" 0).key =
      some (Fixture.stage "dev" "ci" "p" 0) :=
    Store.find?_put_self _ (Fixture.stage "dev" "ci" "p" 0)
  exact ⟨(reconcileStage_tellsTruth _ _ hstored).1 rfl, _, rfl, rfl⟩

end PipelineOperator
