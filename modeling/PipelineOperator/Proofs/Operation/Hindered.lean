import PipelineOperator.Proofs.Operation.Clean

/-!
Operations on a cluster on which any call may fail without effect. `Operation.Surely` is the
condition that every outcome meets, whichever calls fail; it goes through the steps of an operation
as a weakest precondition does. Many operations are atomic: when a call fails, nothing has been
done, and otherwise the outcome is that of the run without failures (`Operation.Atomic`).
-/

set_option autoImplicit false
set_option relaxedAutoImplicit false

namespace PipelineOperator

/-- Every outcome of the program meets the condition, whichever calls fail without effect. -/
def Program.Surely {α : Type} : Program α → Store → (α → Store → Prop) → Prop
  | done value, s, Q => Q value s
  | ask request next, s, Q =>
    (∀ fault, (next (.error fault)).Surely s Q) ∧
      (next (Store.serve request s).1).Surely (Store.serve request s).2 Q
  | observe _ next, s, Q => next.Surely s Q

theorem Program.surely_bind {α β : Type} {program : Program α} {f : α → Program β} {s : Store}
    {Q : β → Store → Prop} :
    (program >>= f).Surely s Q ↔ program.Surely s (fun a s' ↦ (f a).Surely s' Q) := by
  show (program.bind f).Surely s Q ↔ _
  induction program generalizing s with
  | done value => exact Iff.rfl
  | ask request next ih =>
    simp only [Program.bind, Program.Surely, ih]
  | observe observation next ih => exact ih

theorem Program.Surely.mono {α : Type} {program : Program α} {s : Store}
    {Q Q' : α → Store → Prop} (hsurely : program.Surely s Q)
    (hweaker : ∀ a s', Q a s' → Q' a s') : program.Surely s Q' := by
  induction program generalizing s with
  | done value => exact hweaker value s hsurely
  | ask request next ih =>
    exact ⟨fun fault ↦ ih _ (hsurely.1 fault), ih _ hsurely.2⟩
  | observe observation next ih => exact ih hsurely

/-- When no call fails, the outcome is that of the run without failures. -/
theorem Program.Surely.run {α : Type} {program : Program α} {s : Store}
    {Q : α → Store → Prop} (hsurely : program.Surely s Q) :
    Q (program.run Store.backend s).1 (program.run Store.backend s).2 := by
  induction program generalizing s with
  | done value => exact hsurely
  | ask request next ih => exact ih _ hsurely.2
  | observe observation next ih => exact ih hsurely

/-- The outcome may be the present state, as it is when all calls fail. -/
theorem Program.Surely.now {α : Type} {program : Program α} {s : Store}
    {Q : α → Store → Prop} (hsurely : program.Surely s Q) : ∃ a, Q a s := by
  induction program with
  | done value => exact ⟨value, hsurely⟩
  | ask request next ih => exact ih (.error (.ofCause .brokenExchange)) (hsurely.1 _)
  | observe observation next ih => exact ih hsurely

theorem Program.Surely.and {α : Type} {program : Program α} {s : Store}
    {Q Q' : α → Store → Prop} (hsurely : program.Surely s Q) (hsurely' : program.Surely s Q') :
    program.Surely s (fun a s' ↦ Q a s' ∧ Q' a s') := by
  induction program generalizing s with
  | done value => exact ⟨hsurely, hsurely'⟩
  | ask request next ih =>
    exact ⟨fun fault ↦ ih _ (hsurely.1 fault) (hsurely'.1 fault), ih _ hsurely.2 hsurely'.2⟩
  | observe observation next ih => exact ih hsurely hsurely'

/-- What each of its requests keeps, the program keeps, whichever calls fail. -/
theorem Program.Asks.surely_keeps {α : Type} {allowed : Request → Prop} {I : Store → Prop}
    {program : Program α} (hasks : program.Asks allowed)
    (hkept : ∀ request s, allowed request → I s → I (Store.serve request s).2) {s : Store}
    (hstart : I s) : program.Surely s (fun _ s' ↦ I s') := by
  induction program generalizing s with
  | done value => exact hstart
  | ask request next ih =>
    exact ⟨fun fault ↦ ih _ (hasks.2 _) hstart, ih _ (hasks.2 _) (hkept request s hasks.1 hstart)⟩
  | observe observation next ih => exact ih hasks hstart

/-- Keys are kept by every program. -/
theorem Program.surely_keyed {α : Type} (program : Program α) {s : Store} (hkeyed : s.Keyed) :
    program.Surely s (fun _ s' ↦ s'.Keyed) := by
  induction program generalizing s with
  | done value => exact hkeyed
  | ask request next ih => exact ⟨fun fault ↦ ih _ hkeyed, ih _ (hkeyed.answer request)⟩
  | observe observation next ih => exact ih hkeyed

/-- Reads leave the store as it is, whether they fail or not. -/
theorem Program.Asks.surely {α : Type} {program : Program α}
    (hreads : program.Asks (fun request ↦ request.isRead = true)) (s : Store) :
    program.Surely s (fun _ s' ↦ s' = s) :=
  hreads.surely_keeps (fun _ s' hread hs ↦ (Store.serve_of_isRead hread s').trans hs) rfl

namespace Operation

variable {α β : Type} {k : Kind} {s : Store} {Q Q' : Except Fault α → Store → Prop}

/-- Every outcome of the operation meets the condition, whichever calls fail without effect. -/
def Surely (op : Operation α) (s : Store) (Q : Except Fault α → Store → Prop) : Prop :=
  op.run.Surely s Q

theorem Surely.mono {op : Operation α} (hsurely : op.Surely s Q)
    (hweaker : ∀ r s', Q r s' → Q' r s') : op.Surely s Q' :=
  Program.Surely.mono hsurely hweaker

theorem Surely.on {op : Operation α} (hsurely : op.Surely s Q) : Q (op.on s).1 (op.on s).2 :=
  Program.Surely.run hsurely

theorem Asks.surely {op : Operation α} (hreads : op.Asks (fun request ↦ request.isRead = true))
    (s : Store) : op.Surely s (fun _ s' ↦ s' = s) := Program.Asks.surely hreads s

theorem Surely.and {op : Operation α} (hsurely : op.Surely s Q) (hsurely' : op.Surely s Q') :
    op.Surely s (fun r s' ↦ Q r s' ∧ Q' r s') := Program.Surely.and hsurely hsurely'

theorem Asks.surely_keeps {op : Operation α} {allowed : Request → Prop} {I : Store → Prop}
    (hasks : op.Asks allowed)
    (hkept : ∀ request s, allowed request → I s → I (Store.serve request s).2) (hstart : I s) :
    op.Surely s (fun _ s' ↦ I s') := Program.Asks.surely_keeps hasks hkept hstart

theorem surely_keyed (op : Operation α) (hkeyed : s.Keyed) :
    op.Surely s (fun _ s' ↦ s'.Keyed) := Program.surely_keyed op.run hkeyed

@[simp] theorem surely_pure {a : α} : (pure a : Operation α).Surely s Q ↔ Q (.ok a) s := Iff.rfl

@[simp] theorem surely_throw {f : Fault} :
    (throw f : Operation α).Surely s Q ↔ Q (.error f) s := Iff.rfl

@[simp] theorem surely_fail {cause : Cause} :
    (fail cause : Operation α).Surely s Q ↔ Q (.error (.ofCause cause)) s := Iff.rfl

@[simp] theorem surely_get {key : Key} {Q : Except Fault (Option (Object k)) → Store → Prop} :
    (get k key).Surely s Q ↔ (∀ fault, Q (.error fault) s) ∧ Q (.ok (s.find? k key)) s := Iff.rfl

@[simp] theorem surely_create {o : Object k} {Q : Except Fault Creation → Store → Prop} :
    (create o).Surely s Q ↔ (∀ fault, Q (.error fault) s) ∧ Q (.ok (s.create o).1) (s.create o).2 :=
  Iff.rfl

@[simp] theorem surely_replace {o : Object k} {Q : Except Fault (Object k) → Store → Prop} :
    (replace o).Surely s Q ↔
      (∀ fault, Q (.error fault) s) ∧ Q (s.replace o).1 (s.replace o).2 := Iff.rfl

@[simp] theorem surely_writeStatus {o : Object k} {Q : Except Fault (Object k) → Store → Prop} :
    (writeStatus o).Surely s Q ↔
      (∀ fault, Q (.error fault) s) ∧ Q (s.writeStatus o).1 (s.writeStatus o).2 := Iff.rfl

@[simp] theorem surely_setJobConfig {key : Key} {config : String}
    {Q : Except Fault Unit → Store → Prop} :
    (setJobConfig key config).Surely s Q ↔ (∀ fault, Q (.error fault) s) ∧
      Q (s.setJobConfig key config).1 (s.setJobConfig key config).2 := Iff.rfl

@[simp] theorem surely_delete {key : Key} {Q : Except Fault Unit → Store → Prop} :
    (delete k key).Surely s Q ↔ (∀ fault, Q (.error fault) s) ∧ Q (.ok ()) (s.remove k key) :=
  Iff.rfl

theorem surely_bind {op : Operation α} {f : α → Operation β}
    {Q : Except Fault β → Store → Prop} :
    (op >>= f).Surely s Q ↔ op.Surely s (fun r s' ↦
      match r with
      | .ok a => (f a).Surely s' Q
      | .error e => Q (.error e) s') := by
  unfold Surely
  rw [ExceptT.run_bind, Program.surely_bind]
  constructor
  · intro h
    refine Program.Surely.mono h fun r s' hr ↦ ?_
    cases r <;> exact hr
  · intro h
    refine Program.Surely.mono h fun r s' hr ↦ ?_
    cases r <;> exact hr

theorem surely_tryCatch {op : Operation α} {f : Fault → Operation α} :
    (tryCatch op f).Surely s Q ↔ op.Surely s (fun r s' ↦
      match r with
      | .ok a => Q (.ok a) s'
      | .error e => (f e).Surely s' Q) := by
  unfold Surely
  rw [ExceptT.run_tryCatch, Program.surely_bind]
  constructor
  · intro h
    refine Program.Surely.mono h fun r s' hr ↦ ?_
    cases r <;> exact hr
  · intro h
    refine Program.Surely.mono h fun r s' hr ↦ ?_
    cases r <;> exact hr

@[simp] theorem surely_counted {handler : String} {op : Operation α} :
    (counted handler op).Surely s Q ↔ op.Surely s Q := by
  show Program.Surely (op.run >>= _) s Q ↔ _
  rw [Program.surely_bind]
  exact Iff.rfl

/-! ### Atomic operations -/

/-- When a call of the operation fails, it has had no effect; otherwise the outcome is that of the
run without failures. -/
def Atomic (op : Operation α) : Prop :=
  ∀ s, op.Surely s (fun r s' ↦ (∃ e, r = .error e ∧ s' = s) ∨ op.on s = (r, s'))

theorem atomic_pure (a : α) : (pure a : Operation α).Atomic := fun _ ↦ .inr rfl

theorem atomic_fail (cause : Cause) : (fail cause : Operation α).Atomic := fun _ ↦ .inr rfl

theorem atomic_ask (request : Request) : (ask request).Atomic := fun _ ↦
  ⟨fun fault ↦ .inl ⟨fault, rfl, rfl⟩, .inr rfl⟩

/-- Steps that come before everything that has an effect. -/
theorem Atomic.bind {op : Operation α} {f : α → Operation β} (hop : op.Atomic)
    (hreads : op.Asks (fun request ↦ request.isRead = true)) (hnext : ∀ a, (f a).Atomic) :
    (op >>= f).Atomic := by
  intro s
  rw [surely_bind]
  refine (hop s).mono fun r s' hr ↦ ?_
  rcases hr with ⟨e, rfl, rfl⟩ | hon
  · exact .inl ⟨e, rfl, rfl⟩
  · have hsame : (op.on s).2 = s := hreads.on_snd s
    rw [hon] at hsame
    obtain rfl : s' = s := hsame
    cases r with
    | error e => exact .inl ⟨e, rfl, rfl⟩
    | ok a =>
      rw [on_bind_of_ok hon]
      exact hnext a s'

/-- What is done with the result has no effect. -/
theorem Atomic.map {op : Operation α} (hop : op.Atomic) (f : α → β) :
    (op >>= fun a ↦ pure (f a)).Atomic := by
  intro s
  rw [surely_bind]
  refine (hop s).mono fun r s' hr ↦ ?_
  rcases hr with ⟨e, rfl, rfl⟩ | hon
  · exact .inl ⟨e, rfl, rfl⟩
  · cases r with
    | error e => exact .inr (on_bind_of_error hon _)
    | ok a => exact .inr (on_bind_of_ok hon _)

/-- The usual first step of an atomic operation. -/
theorem atomic_get_bind {key : Key} {f : Option (Object k) → Operation β}
    (hnext : ∀ found, (f found).Atomic) : (get k key >>= f).Atomic :=
  (atomic_ask (.get k key)).bind (asks_ask rfl) hnext

theorem atomic_require (key : Key) (missing : Cause) : (require k key missing).Atomic := by
  refine atomic_get_bind fun found ↦ ?_
  cases found with
  | some o => exact atomic_pure o
  | none => exact atomic_fail missing

theorem atomic_ensure (key : Key) (o : Object k) : (ensure key o).Atomic := by
  refine atomic_get_bind fun found ↦ ?_
  cases found with
  | some o => exact atomic_pure _
  | none => exact atomic_ask _

theorem atomic_secure (o : Object k) : (secure o).Atomic := (atomic_ensure _ _).map _

end Operation

end PipelineOperator
