import PipelineOperator.Proofs.Operation.Hindered
import PipelineOperator.Proofs.Operation.OnBench

/-!
Trials of an operation: a run on a bench where calls fail at will, watched call by call. What is
known of the requests of an operation bounds the states that its calls meet
(`Operation.Asks.amid`), and what every outcome meets is met by the outcome of a trial
(`Operation.Surely.amid`). A bench whose switches are on only adds to the calls that fail.
-/

set_option autoImplicit false
set_option relaxedAutoImplicit false

namespace PipelineOperator

/-- A call, the state that it met, and whether it failed. -/
structure Call (σ : Type) where
  request : Request
  state : σ
  failed : Bool

/-- A state, with the calls and the observations that led to it. -/
structure Trial (σ : Type) where
  state : σ
  calls : List (Call σ) := []
  observed : List Observation := []

/-- The cluster on which the calls of some numbers fail, and have no effect then. -/
def Backend.hindered {σ : Type} (backend : Backend σ) (faults : Nat → Option Fault) :
    Backend (Trial σ) where
  answer request t :=
    let (reply, state) : Except Fault request.Reply × σ :=
      match faults t.calls.length with
      | some fault => (.error fault, t.state)
      | none => backend.answer request t.state
    (reply, { t with state, calls := t.calls ++ [⟨request, t.state, !reply.isOk⟩] })
  record observation t :=
    { t with
      state := backend.record observation t.state
      observed := t.observed ++ [observation] }

/-- The states that a trial went through: those its calls met, and the last one. -/
def Trial.states {σ : Type} (t : Trial σ) : List σ := t.calls.map Call.state ++ [t.state]

theorem Trial.mem_states {σ : Type} {t : Trial σ} {b : σ} :
    b ∈ t.states ↔ (∃ call ∈ t.calls, call.state = b) ∨ b = t.state := by
  simp [states]

/-- The states that a trial went through since an earlier moment of it. -/
def Trial.statesSince {σ : Type} (earlier t : Trial σ) : List σ :=
  (t.calls.drop earlier.calls.length).map Call.state ++ [t.state]

/-! ### One call -/

/-- A call on a bench either fails without effect or is served, and its write is in the journal. -/
theorem Bench.answer_cases (request : Request) (b : Bench) :
    (∃ fault, Bench.answer request b = (.error fault, b)) ∨
      Bench.answer request b = ((Store.serve request b.store).1,
        { b with
          store := (Store.serve request b.store).2
          journal := b.journal ++ (request.write?.filter (Bench.journals b.store)).toList }) := by
  cases hserved : b.refusal? request with
  | some cause => exact .inl ⟨_, answer_of_refused hserved⟩
  | none => exact .inr (answer_of_served hserved)

theorem Bench.answer_store (request : Request) (b : Bench) :
    (∃ fault, (Bench.answer request b).1 = .error fault ∧
        (Bench.answer request b).2.store = b.store) ∨
      (Bench.answer request b).1 = (Store.serve request b.store).1 ∧
        (Bench.answer request b).2.store = (Store.serve request b.store).2 := by
  rcases Bench.answer_cases request b with ⟨fault, hrefused⟩ | hserved
  · exact .inl ⟨fault, by rw [hrefused], by rw [hrefused]⟩
  · exact .inr ⟨by rw [hserved], by rw [hserved]⟩

/-- A call in a trial either fails without effect or is served, and is written down. -/
theorem Bench.hindered_answer (faults : Nat → Option Fault) (request : Request)
    (t : Trial Bench) : ∃ (reply : Except Fault request.Reply) (b : Bench),
      (Bench.backend.hindered faults).answer request t =
        (reply, ⟨b, t.calls ++ [⟨request, t.state, !reply.isOk⟩], t.observed⟩) ∧
      ((∃ fault, reply = .error fault ∧ b.store = t.state.store) ∨
        reply = (Store.serve request t.state.store).1 ∧
          b.store = (Store.serve request t.state.store).2) := by
  cases hfault : faults t.calls.length with
  | some fault =>
    refine ⟨.error fault, t.state, ?_, .inl ⟨fault, rfl, rfl⟩⟩
    simp only [Backend.hindered, hfault]
  | none =>
    refine ⟨(Bench.answer request t.state).1, (Bench.answer request t.state).2, ?_,
      Bench.answer_store request t.state⟩
    simp only [Backend.hindered, hfault]
    rfl

/-! ### Runs -/

/-- The trial `t'` came out of `t` by calls that asked for nothing but such requests, and every
state from there on meets the condition. -/
structure Trial.Since (allowed : Request → Prop) (I : Store → Prop) (t t' : Trial Bench) :
    Prop where
  calls : ∃ new, t'.calls = t.calls ++ new ∧
    ∀ call ∈ new, allowed call.request ∧ I call.state.store
  state : I t'.state.store

theorem Trial.Since.trans {allowed : Request → Prop} {I : Store → Prop} {t t' t'' : Trial Bench}
    (hfirst : Trial.Since allowed I t t') (hsecond : Trial.Since allowed I t' t'') :
    Trial.Since allowed I t t'' := by
  obtain ⟨new, hnew, hmet⟩ := hfirst.calls
  obtain ⟨more, hmore, hmet'⟩ := hsecond.calls
  refine ⟨⟨new ++ more, ?_, List.forall_mem_append.mpr ⟨hmet, hmet'⟩⟩, hsecond.state⟩
  rw [hmore, hnew, List.append_assoc]

theorem Trial.Since.mono {allowed allowed' : Request → Prop} {I J : Store → Prop}
    {t t' : Trial Bench} (hsince : Trial.Since allowed I t t')
    (hallowed : ∀ request, allowed request → allowed' request) (hweaker : ∀ s, I s → J s) :
    Trial.Since allowed' J t t' := by
  obtain ⟨new, hnew, hmet⟩ := hsince.calls
  exact ⟨⟨new, hnew, fun call hcall ↦ (hmet call hcall).imp (hallowed _) (hweaker _)⟩,
    hweaker _ hsince.state⟩

/-- Every state from the one trial to the other meets the condition. -/
def Trial.Throughout (I : Store → Prop) (t t' : Trial Bench) : Prop :=
  Trial.Since (fun _ ↦ True) I t t'

namespace Trial

variable {I J : Store → Prop} {t t' t'' : Trial Bench}

theorem Throughout.trans (hfirst : Throughout I t t') (hsecond : Throughout I t' t'') :
    Throughout I t t'' := Since.trans hfirst hsecond

theorem Throughout.mono (hthroughout : Throughout I t t') (hweaker : ∀ s, I s → J s) :
    Throughout J t t' := Since.mono hthroughout (fun _ ↦ id) hweaker

theorem Throughout.states {b : Bench} (hthroughout : Throughout I { state := b } t) :
    ∀ b' ∈ t.states, I b'.store := by
  intro b' hb'
  obtain ⟨new, hnew, hmet⟩ := hthroughout.calls
  have hcalls : t.calls = new := hnew
  rcases mem_states.mp hb' with ⟨call, hcall, rfl⟩ | rfl
  · exact (hmet call (hcalls ▸ hcall)).2
  · exact hthroughout.state

theorem Throughout.statesSince (hthroughout : Throughout I t t') :
    ∀ b ∈ Trial.statesSince t t', I b.store := by
  intro b hb
  obtain ⟨new, hnew, hmet⟩ := hthroughout.calls
  rw [Trial.statesSince, hnew, List.drop_left] at hb
  rcases List.mem_append.mp hb with hin | hlast
  · obtain ⟨call, hcall, rfl⟩ := List.mem_map.mp hin
    exact (hmet call hcall).2
  · rw [List.mem_singleton.mp hlast]
    exact hthroughout.state

theorem Throughout.refl (hstart : I t.state.store) : Throughout I t t :=
  ⟨⟨[], (List.append_nil _).symm, fun _ hcall ↦ (nomatch hcall)⟩, hstart⟩

/-- What is written down has no bearing on the states. -/
theorem Throughout.record (hthroughout : Throughout I t t') (faults : Nat → Option Fault)
    (observation : Observation) :
    Throughout I t ((Bench.backend.hindered faults).record observation t') :=
  ⟨hthroughout.calls, hthroughout.state⟩

/-- Where every call since then met the store of the start. -/
theorem throughout_of_calls {new : List (Call Bench)} (hcalls : t'.calls = t.calls ++ new)
    (hsame : ∀ call ∈ new, call.state.store = t.state.store) (hstart : I t.state.store)
    (hend : I t'.state.store) : Throughout I t t' :=
  ⟨⟨new, hcalls, fun call hcall ↦ ⟨trivial, (hsame call hcall).symm ▸ hstart⟩⟩, hend⟩

end Trial

/-- The call of this number put the request to the cluster, and failed with the fault. -/
def Trial.Fails (faults : Nat → Option Fault) (t : Trial Bench) (number : Nat)
    (request : Request) (fault : Fault) : Prop :=
  ∃ b, t.calls[number]? = some ⟨request, b, true⟩ ∧
    (faults number = some fault ∨
      faults number = none ∧ (Bench.answer request b).1 = .error fault)

theorem Trial.Fails.later {faults : Nat → Option Fault} {t t' : Trial Bench} {number : Nat}
    {request : Request} {fault : Fault} (hfails : t.Fails faults number request fault)
    {allowed : Request → Prop} {I : Store → Prop} (hsince : Trial.Since allowed I t t') :
    t'.Fails faults number request fault := by
  obtain ⟨b, hcall, hfault⟩ := hfails
  obtain ⟨new, hnew, -⟩ := hsince.calls
  have hnumber : number < t.calls.length := (List.getElem?_eq_some_iff.mp hcall).1
  exact ⟨b, by rw [hnew, List.getElem?_append_left hnumber, hcall], hfault⟩

namespace Program

variable {α β : Type} {faults : Nat → Option Fault} {t : Trial Bench}

theorem Surely.hindered {program : Program α} {Q : α → Store → Prop}
    (hsurely : program.Surely t.state.store Q) :
    Q (program.run (Bench.backend.hindered faults) t).1
      (program.run (Bench.backend.hindered faults) t).2.state.store := by
  induction program generalizing t with
  | done value => exact hsurely
  | ask request next ih =>
    obtain ⟨reply, b, hanswer, hserved⟩ := Bench.hindered_answer faults request t
    simp only [Program.run, hanswer]
    refine ih reply ?_
    rcases hserved with ⟨fault, rfl, hstore⟩ | ⟨rfl, hstore⟩
    · exact hstore ▸ hsurely.1 fault
    · exact hstore ▸ hsurely.2
  | observe observation next ih => exact ih hsurely

theorem Asks.hindered {allowed : Request → Prop} {I : Store → Prop} {program : Program α}
    (hasks : program.Asks allowed)
    (hkept : ∀ request s, allowed request → I s → I (Store.serve request s).2)
    (hstart : I t.state.store) :
    Trial.Since allowed I t (program.run (Bench.backend.hindered faults) t).2 := by
  induction program generalizing t with
  | done value => exact ⟨⟨[], (List.append_nil _).symm, fun _ h ↦ (nomatch h)⟩, hstart⟩
  | ask request next ih =>
    obtain ⟨reply, b, hanswer, hserved⟩ := Bench.hindered_answer faults request t
    simp only [Program.run, hanswer]
    have hleft : I b.store := by
      rcases hserved with ⟨fault, -, hstore⟩ | ⟨-, hstore⟩
      · exact hstore ▸ hstart
      · exact hstore ▸ hkept request _ hasks.1 hstart
    obtain ⟨⟨new, hnew, hmet⟩, hend⟩ := ih reply (hasks.2 reply)
      (t := ⟨b, t.calls ++ [⟨request, t.state, !reply.isOk⟩], t.observed⟩) hleft
    refine ⟨⟨⟨request, t.state, !reply.isOk⟩ :: new, ?_, ?_⟩, hend⟩
    · rw [hnew, List.append_assoc, List.singleton_append]
    · exact List.forall_mem_cons.mpr ⟨⟨hasks.1, hstart⟩, hmet⟩
  | observe observation next ih =>
    obtain ⟨⟨new, hnew, hmet⟩, hend⟩ :=
      ih hasks (t := (Bench.backend.hindered faults).record observation t) hstart
    exact ⟨⟨new, hnew, hmet⟩, hend⟩

/-- What every outcome meets is met by every state on the way: it is the last one if all calls from
there on fail. -/
theorem Surely.throughout {I : Store → Prop} {program : Program α}
    (hsurely : program.Surely t.state.store (fun _ s ↦ I s)) :
    Trial.Throughout I t (program.run (Bench.backend.hindered faults) t).2 := by
  induction program generalizing t with
  | done value => exact .refl hsurely
  | ask request next ih =>
    obtain ⟨value, hstart⟩ := Surely.now hsurely
    obtain ⟨reply, b, hanswer, hserved⟩ := Bench.hindered_answer faults request t
    simp only [Program.run, hanswer]
    have hnext : (next reply).Surely b.store (fun _ s ↦ I s) := by
      rcases hserved with ⟨fault, rfl, hstore⟩ | ⟨rfl, hstore⟩
      · exact hstore ▸ hsurely.1 fault
      · exact hstore ▸ hsurely.2
    have hrest := ih reply
      (t := ⟨b, t.calls ++ [⟨request, t.state, !reply.isOk⟩], t.observed⟩) hnext
    refine .trans ?_ hrest
    obtain ⟨value, hserving⟩ := Surely.now hnext
    exact Trial.throughout_of_calls rfl (List.forall_mem_singleton.mpr rfl) hstart hserving
  | observe observation next ih =>
    have hrest := ih (t := (Bench.backend.hindered faults).record observation t) hsurely
    exact ⟨hrest.calls, hrest.state⟩

/-- The program makes no observation. -/
def Silent : Program α → Prop
  | done _ => True
  | ask _ next => ∀ reply, (next reply).Silent
  | observe _ _ => False

theorem Silent.bind {program : Program α} {f : α → Program β} (hprogram : program.Silent)
    (hnext : ∀ a, (f a).Silent) : (program >>= f).Silent := by
  show (program.bind f).Silent
  induction program with
  | done value => exact hnext value
  | ask request next ih => exact fun reply ↦ ih reply (hprogram reply)
  | observe observation next ih => exact hprogram.elim

theorem Silent.hindered {program : Program α} (hsilent : program.Silent) :
    (program.run (Bench.backend.hindered faults) t).2.observed = t.observed := by
  induction program generalizing t with
  | done value => rfl
  | ask request next ih =>
    obtain ⟨reply, b, hanswer, -⟩ := Bench.hindered_answer faults request t
    simp only [Program.run, hanswer]
    exact ih reply (hsilent reply)
  | observe observation next ih => exact hsilent.elim

end Program

namespace Operation

variable {α β : Type} {k : Kind} {faults : Nat → Option Fault} {t t' : Trial Bench}

/-- The operation in a trial that stands at `t`. -/
def amid (op : Operation α) (faults : Nat → Option Fault) (t : Trial Bench) :
    Except Fault α × Trial Bench := op.run.run (Bench.backend.hindered faults) t

/-- A trial of the operation: the calls of some numbers fail, and have no effect then. -/
def attempt (op : Operation α) (faults : Nat → Option Fault) (b : Bench) :
    Except Fault α × Trial Bench := op.amid faults { state := b }

theorem amid_bind (op : Operation α) (f : α → Operation β) (faults : Nat → Option Fault)
    (t : Trial Bench) : (op >>= f).amid faults t =
      match op.amid faults t with
      | (.ok a, t') => (f a).amid faults t'
      | (.error e, t') => (.error e, t') := by
  unfold amid
  rw [ExceptT.run_bind, Program.run_bind]
  generalize Program.run (Bench.backend.hindered faults) op.run t = result
  obtain ⟨_ | _, _⟩ := result <;> rfl

theorem amid_tryCatch (op : Operation α) (f : Fault → Operation α) (faults : Nat → Option Fault)
    (t : Trial Bench) : (tryCatch op f).amid faults t =
      match op.amid faults t with
      | (.ok a, t') => (.ok a, t')
      | (.error e, t') => (f e).amid faults t' := by
  unfold amid
  rw [ExceptT.run_tryCatch, Program.run_bind]
  generalize Program.run (Bench.backend.hindered faults) op.run t = result
  obtain ⟨_ | _, _⟩ := result <;> rfl

theorem fails_of_amid_ask {request : Request} {fault : Fault}
    (herror : ((ask request).amid faults t).1 = .error fault) :
    ((ask request).amid faults t).2.Fails faults t.calls.length request fault := by
  have hcall : (ask request).amid faults t = (Bench.backend.hindered faults).answer request t := rfl
  rw [hcall] at herror ⊢
  cases hfault : faults t.calls.length with
  | some fault' =>
    simp only [Backend.hindered, hfault] at herror ⊢
    obtain rfl := Except.error.inj herror
    exact ⟨t.state, List.getElem?_concat_length .., .inl hfault⟩
  | none =>
    simp only [Backend.hindered, hfault] at herror ⊢
    have hreply : (Bench.answer request t.state).1 = .error fault := herror
    refine ⟨t.state, ?_, .inr ⟨hfault, hreply⟩⟩
    show (t.calls ++ [⟨request, t.state, !(Bench.answer request t.state).1.isOk⟩])[_]? = _
    rw [hreply]
    exact List.getElem?_concat_length ..

/-- Where an object could not be ensured, a call about its kind has failed. -/
theorem fails_of_amid_ensure {key : Key} {o : Object k} {fault : Fault}
    (herror : ((ensure key o).amid faults t).1 = .error fault) : ∃ number request,
      request.kind = k ∧ ((ensure key o).amid faults t).2.Fails faults number request fault := by
  have hget {e : Fault} (he : ((ask (.get k key)).amid faults t).1 = .error e) :=
    fails_of_amid_ask he
  unfold ensure get at herror ⊢
  rw [amid_bind] at herror ⊢
  generalize (ask (.get k key)).amid faults t = first at hget herror ⊢
  obtain ⟨result, t'⟩ := first
  cases result with
  | error e =>
    obtain rfl := Except.error.inj herror
    exact ⟨_, _, rfl, hget rfl⟩
  | ok found =>
    cases found with
    | some stored => exact nomatch herror
    | none => exact ⟨_, .create k o, rfl, fails_of_amid_ask herror⟩

/-- A read in a trial. -/
theorem amid_get (k : Kind) (key : Key) (faults : Nat → Option Fault) (t : Trial Bench) :
    ∃ (reply : Except Fault (Option (Object k))) (b : Bench),
      (get k key).amid faults t =
        (reply, ⟨b, t.calls ++ [⟨.get k key, t.state, !reply.isOk⟩], t.observed⟩) ∧
      b.store = t.state.store ∧
      ((∃ fault, reply = .error fault) ∨ reply = .ok (t.state.store.find? k key)) := by
  obtain ⟨reply, b, hanswer, hserved⟩ := Bench.hindered_answer faults (.get k key) t
  refine ⟨reply, b, hanswer, ?_⟩
  rcases hserved with ⟨fault, rfl, hstore⟩ | ⟨rfl, hstore⟩
  · exact ⟨hstore, .inl ⟨fault, rfl⟩⟩
  · exact ⟨hstore, .inr rfl⟩

/-- An update in a trial. Where the object is stored, and the update does not let go of it, the
update either fails without effect or is stored. -/
theorem amid_replace (o : Object k) (faults : Nat → Option Fault) (t : Trial Bench) :
    ∃ (reply : Except Fault (Object k)) (b : Bench),
      (replace o).amid faults t =
        (reply, ⟨b, t.calls ++ [⟨.replace k o, t.state, !reply.isOk⟩], t.observed⟩) ∧
      ∀ stored, t.state.store.find? k o.key = some stored → o.metadata.isReleased = false →
        (∃ fault, reply = .error fault) ∧ b.store = t.state.store ∨
          reply = .ok o ∧ b.store = t.state.store.put o := by
  obtain ⟨reply, b, hanswer, hserved⟩ := Bench.hindered_answer faults (.replace k o) t
  refine ⟨reply, b, hanswer, fun stored hfound hheld ↦ ?_⟩
  have hreplaced : Store.serve (.replace k o) t.state.store = (.ok o, t.state.store.put o) :=
    Store.replace_of_found hfound hheld
  rw [hreplaced] at hserved
  rcases hserved with ⟨fault, rfl, hstore⟩ | ⟨rfl, hstore⟩
  · exact .inl ⟨⟨fault, rfl⟩, hstore⟩
  · exact .inr ⟨rfl, hstore⟩

theorem Surely.amid {op : Operation α} {Q : Except Fault α → Store → Prop}
    (hsurely : op.Surely t.state.store Q) (faults : Nat → Option Fault) :
    Q (op.amid faults t).1 (op.amid faults t).2.state.store := Program.Surely.hindered hsurely

theorem Surely.throughout {I : Store → Prop} {op : Operation α}
    (hsurely : op.Surely t.state.store (fun _ s ↦ I s)) (faults : Nat → Option Fault) :
    Trial.Throughout I t (op.amid faults t).2 := Program.Surely.throughout hsurely

theorem Asks.amid {allowed : Request → Prop} {I : Store → Prop} {op : Operation α}
    (hasks : op.Asks allowed)
    (hkept : ∀ request s, allowed request → I s → I (Store.serve request s).2)
    (hstart : I t.state.store) (faults : Nat → Option Fault) :
    Trial.Since allowed I t (op.amid faults t).2 :=
  Program.Asks.hindered hasks hkept hstart

/-- The operation makes no observation. -/
def Silent (op : Operation α) : Prop := op.run.Silent

theorem silent_pure (a : α) : (pure a : Operation α).Silent := trivial

theorem silent_fail (cause : Cause) : (fail cause : Operation α).Silent := trivial

theorem silent_ask (request : Request) : (ask request).Silent := fun _ ↦ trivial

theorem Silent.bind {op : Operation α} {f : α → Operation β} (hop : op.Silent)
    (hnext : ∀ a, (f a).Silent) : (op >>= f).Silent := by
  unfold Silent
  rw [ExceptT.run_bind]
  refine Program.Silent.bind hop fun result ↦ ?_
  cases result with
  | ok a => exact hnext a
  | error e => exact trivial

theorem Silent.tryCatch {op : Operation α} {f : Fault → Operation α} (hop : op.Silent)
    (hcatch : ∀ e, (f e).Silent) : (tryCatch op f).Silent := by
  unfold Silent
  rw [ExceptT.run_tryCatch]
  refine Program.Silent.bind hop fun result ↦ ?_
  cases result with
  | ok a => exact trivial
  | error e => exact hcatch e

theorem silent_ensure (key : Key) (o : Object k) : (ensure key o).Silent := by
  refine (silent_ask _).bind fun found ↦ ?_
  cases found with
  | some o => exact silent_pure _
  | none => exact silent_ask _

theorem silent_require (key : Key) (missing : Cause) : (require k key missing).Silent := by
  refine (silent_ask _).bind fun found ↦ ?_
  cases found with
  | some o => exact silent_pure o
  | none => exact silent_fail missing

theorem silent_forM {l : List α} {f : α → Operation PUnit} (hf : ∀ a ∈ l, (f a).Silent) :
    (l.forM f).Silent := by
  induction l with
  | nil => exact silent_pure _
  | cons a l ih =>
    exact (hf a (List.mem_cons_self ..)).bind fun _ ↦
      ih fun b hb ↦ hf b (List.mem_cons_of_mem _ hb)

/-- A counted operation comes to the same, and how it came out is written down. -/
theorem amid_counted (handler : String) (op : Operation α) (faults : Nat → Option Fault)
    (t : Trial Bench) : (counted handler op).amid faults t =
      ((op.amid faults t).1, (Bench.backend.hindered faults).record
        (.handled handler (op.amid faults t).1.isOk) (op.amid faults t).2) :=
  Program.run_bind (Bench.backend.hindered faults) op.run _ t

theorem Silent.amid {op : Operation α} (hsilent : op.Silent) (faults : Nat → Option Fault)
    (t : Trial Bench) : (op.amid faults t).2.observed = t.observed :=
  Program.Silent.hindered hsilent

/-- What a counted operation adds to the observations is how it came out. -/
theorem observed_counted {op : Operation α} (hsilent : op.Silent) (handler : String)
    (faults : Nat → Option Fault) (t : Trial Bench) :
    ((counted handler op).amid faults t).1 = (op.amid faults t).1 ∧
      ((counted handler op).amid faults t).2.observed =
        t.observed ++ [.handled handler (op.amid faults t).1.isOk] := by
  rw [amid_counted]
  exact ⟨rfl, congrArg (· ++ _) (hsilent.amid faults t)⟩

/-! ### One attempt after another -/

/-- The bench after attempts at an operation, each at its time and with its failing calls. -/
def attempts (op : Instant → Operation α) : List (Instant × (Nat → Option Fault)) → Bench → Bench
  | [], b => b
  | (now, faults) :: rest, b => attempts op rest ((op now).attempt faults b).2.state

end Operation

theorem Program.isServing_hindered {α : Type} (program : Program α) {faults : Nat → Option Fault}
    {t : Trial Bench} (hserving : t.state.IsServing) :
    (program.run (Bench.backend.hindered faults) t).2.state.IsServing := by
  induction program generalizing t with
  | done value => exact hserving
  | ask request next ih =>
    refine ih _ ?_
    cases hfault : faults t.calls.length with
    | some fault => simpa only [Backend.hindered, hfault]
    | none =>
      show (Bench.answer request t.state).2.IsServing
      rw [hserving.answer]
      exact ⟨hserving.namespaces, hserving.spaces, hserving.status⟩
  | observe observation next ih =>
    exact ih (t := (Bench.backend.hindered faults).record observation t)
      ⟨hserving.namespaces, hserving.spaces, hserving.status⟩

namespace Operation

/-- What every attempt keeps up is there after the last one. -/
theorem attempts_induction {α : Type} {I : Store → Prop} {op : Instant → Operation α}
    (hstep : ∀ now s, I s → (op now).Surely s (fun _ s' ↦ I s'))
    (attempts : List (Instant × (Nat → Option Fault))) {b : Bench} (hserving : b.IsServing)
    (hstart : I b.store) :
    (Operation.attempts op attempts b).IsServing ∧ I (Operation.attempts op attempts b).store := by
  induction attempts generalizing b with
  | nil => exact ⟨hserving, hstart⟩
  | cons attempt rest ih =>
    exact ih (Program.isServing_hindered _ hserving)
      (Surely.amid (t := { state := b }) (hstep attempt.1 b.store hstart) _)

end Operation

end PipelineOperator
