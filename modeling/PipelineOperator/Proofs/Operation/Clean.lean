import PipelineOperator.Proofs.Cluster.Serve

/-!
Operations on a cluster that serves every call. `Operation.on` is such a run, and the lemmas beside
it say how it goes through the steps of an operation. `Operation.Rests` says more: that the
operation only reads, so that the run leaves no trace. `Operation.Asks` bounds the requests of an
operation whatever the replies are; an operation that keeps to some kinds neither sees nor touches
the tables of the others (`Operation.Asks.agreeOff`).
-/

set_option autoImplicit false
set_option relaxedAutoImplicit false

namespace PipelineOperator

/-- A store that serves every request, and counts nothing. -/
def Store.backend : Backend Store where
  answer := Store.serve
  record _ s := s

namespace Operation

variable {α β : Type} {k : Kind} {s : Store}

/-! ### Runs without a failing call -/

/-- The operation on a store whose calls are all served. -/
def on (op : Operation α) (s : Store) : Except Fault α × Store := op.run.run Store.backend s

@[simp] theorem on_pure (a : α) (s : Store) : (pure a : Operation α).on s = (.ok a, s) := rfl

@[simp] theorem on_throw (f : Fault) (s : Store) :
    (throw f : Operation α).on s = (.error f, s) := rfl

@[simp] theorem on_fail (cause : Cause) (s : Store) :
    (fail cause : Operation α).on s = (.error (.ofCause cause), s) := rfl

@[simp] theorem on_ask (request : Request) (s : Store) :
    (ask request).on s = Store.serve request s := rfl

@[simp] theorem on_get (key : Key) (s : Store) :
    (get k key).on s = (.ok (s.find? k key), s) := rfl

@[simp] theorem on_create (o : Object k) (s : Store) :
    (create o).on s = (.ok (s.create o).1, (s.create o).2) := rfl

@[simp] theorem on_replace (o : Object k) (s : Store) : (replace o).on s = s.replace o := rfl

@[simp] theorem on_writeStatus (o : Object k) (s : Store) :
    (writeStatus o).on s = s.writeStatus o := rfl

@[simp] theorem on_setJobConfig (key : Key) (config : String) (s : Store) :
    (setJobConfig key config).on s = s.setJobConfig key config := rfl

@[simp] theorem on_delete (key : Key) (s : Store) :
    (delete k key).on s = (.ok (), s.remove k key) := rfl

@[simp] theorem on_listStages (ns : String) (pipeline : Option String) (s : Store) :
    (listStages ns pipeline).on s = (.ok (s.listed ns pipeline), s) := rfl

@[simp] theorem on_jenkinsEnabled (ns : String) (s : Store) :
    (jenkinsEnabled ns).on s = (.ok (s.hasJenkins ns), s) := rfl

@[simp] theorem on_observe (observation : Observation) (s : Store) :
    (observe observation).on s = (.ok (), s) := rfl

theorem on_bind (op : Operation α) (f : α → Operation β) (s : Store) :
    (op >>= f).on s =
      match op.on s with
      | (.ok a, s') => (f a).on s'
      | (.error e, s') => (.error e, s') := by
  unfold on
  rw [ExceptT.run_bind, Program.run_bind]
  generalize Program.run Store.backend op.run s = result
  obtain ⟨_ | _, _⟩ := result <;> rfl

theorem on_bind_of_ok {op : Operation α} {a : α} {s' : Store} (hop : op.on s = (.ok a, s'))
    (f : α → Operation β) : (op >>= f).on s = (f a).on s' := by
  rw [on_bind, hop]

theorem on_bind_of_error {op : Operation α} {e : Fault} {s' : Store}
    (hop : op.on s = (.error e, s')) (f : α → Operation β) :
    (op >>= f).on s = (.error e, s') := by
  rw [on_bind, hop]

/-- Where a sequence succeeded, so did its parts. -/
theorem exists_of_on_bind {op : Operation α} {f : α → Operation β} {b : β} {t : Store}
    (hok : (op >>= f).on s = (.ok b, t)) :
    ∃ a s', op.on s = (.ok a, s') ∧ (f a).on s' = (.ok b, t) := by
  rw [on_bind] at hok
  generalize op.on s = first at hok
  obtain ⟨e | a, s'⟩ := first
  · exact nomatch congrArg Prod.fst hok
  · exact ⟨a, s', rfl, hok⟩

theorem on_tryCatch (op : Operation α) (f : Fault → Operation α) (s : Store) :
    (tryCatch op f).on s =
      match op.on s with
      | (.ok a, s') => (.ok a, s')
      | (.error e, s') => (f e).on s' := by
  unfold on
  rw [ExceptT.run_tryCatch, Program.run_bind]
  generalize Program.run Store.backend op.run s = result
  obtain ⟨_ | _, _⟩ := result <;> rfl

@[simp] theorem on_counted (handler : String) (op : Operation α) (s : Store) :
    (counted handler op).on s = op.on s := by
  show Program.run Store.backend (op.run >>= _) s = _
  rw [Program.run_bind]
  rfl

/-! ### Operations that only read -/

end Operation

/-- The program puts no request but reads to the store, and comes to that result. -/
def Program.Rests {α : Type} : Program α → Store → α → Prop
  | done value, _, result => result = value
  | ask request next, s, result =>
    request.isRead = true ∧ (next (Store.serve request s).1).Rests s result
  | observe _ next, s, result => next.Rests s result

theorem Program.rests_bind {α β : Type} {program : Program α} {f : α → Program β} {s : Store}
    {result : β} : (program >>= f).Rests s result ↔
      ∃ a, program.Rests s a ∧ (f a).Rests s result := by
  show (program.bind f).Rests s result ↔ _
  induction program with
  | done value =>
    simp only [Program.bind, Program.Rests, exists_eq_left]
  | ask request next ih =>
    simp only [Program.bind, Program.Rests, ih]
    constructor
    · rintro ⟨hread, a, ha, hf⟩
      exact ⟨a, ⟨hread, ha⟩, hf⟩
    · rintro ⟨a, ⟨hread, ha⟩, hf⟩
      exact ⟨hread, a, ha, hf⟩
  | observe observation next ih => exact ih

/-- A program that rests leaves the store as it was. -/
theorem Program.Rests.run {α : Type} {program : Program α} {s : Store} {result : α}
    (hrests : program.Rests s result) : program.run Store.backend s = (result, s) := by
  induction program with
  | done value => exact hrests ▸ rfl
  | ask request next ih =>
    obtain ⟨hread, hnext⟩ := hrests
    have hsame : (Store.backend.answer request s).2 = s := Store.serve_of_isRead hread s
    simp only [Program.run, hsame]
    exact ih _ hnext
  | observe observation next ih => exact ih hrests

namespace Operation

variable {α β : Type} {k : Kind} {s : Store}

/-- The operation only reads the store, and comes to that result. -/
def Rests (op : Operation α) (s : Store) (result : Except Fault α) : Prop :=
  op.run.Rests s result

theorem Rests.on {op : Operation α} {result : Except Fault α} (hrests : op.Rests s result) :
    op.on s = (result, s) := Program.Rests.run hrests

theorem Rests.unique {op : Operation α} {r r' : Except Fault α} (hrests : op.Rests s r)
    (hrests' : op.Rests s r') : r = r' :=
  congrArg Prod.fst (hrests.on.symm.trans hrests'.on)

@[simp] theorem rests_pure {a : α} {result : Except Fault α} :
    (pure a : Operation α).Rests s result ↔ result = .ok a := Iff.rfl

@[simp] theorem rests_throw {f : Fault} {result : Except Fault α} :
    (throw f : Operation α).Rests s result ↔ result = .error f := Iff.rfl

@[simp] theorem rests_fail {cause : Cause} {result : Except Fault α} :
    (fail cause : Operation α).Rests s result ↔ result = .error (.ofCause cause) := Iff.rfl

@[simp] theorem rests_get {key : Key} {result : Except Fault (Option (Object k))} :
    (get k key).Rests s result ↔ result = .ok (s.find? k key) := by
  show (true = true ∧ result = _) ↔ _
  rw [eq_self, true_and]
  rfl

@[simp] theorem rests_listStages {ns : String} {pipeline : Option String}
    {result : Except Fault (List Stage)} :
    (listStages ns pipeline).Rests s result ↔ result = .ok (s.listed ns pipeline) := by
  show (true = true ∧ result = _) ↔ _
  rw [eq_self, true_and]
  rfl

@[simp] theorem rests_observe {observation : Observation} {result : Except Fault Unit} :
    (observe observation).Rests s result ↔ result = .ok () := Iff.rfl

theorem rests_bind {op : Operation α} {f : α → Operation β} {result : Except Fault β} :
    (op >>= f).Rests s result ↔
      (∃ a, op.Rests s (.ok a) ∧ (f a).Rests s result) ∨
        ∃ e, op.Rests s (.error e) ∧ result = .error e := by
  unfold Rests
  rw [ExceptT.run_bind, Program.rests_bind]
  constructor
  · rintro ⟨_ | _, hop, hnext⟩
    · exact .inr ⟨_, hop, hnext⟩
    · exact .inl ⟨_, hop, hnext⟩
  · rintro (⟨a, hop, hnext⟩ | ⟨e, hop, hnext⟩)
    · exact ⟨.ok a, hop, hnext⟩
    · exact ⟨.error e, hop, hnext⟩

/-- The usual first step: a read, after which the operation goes on. -/
theorem rests_get_bind {key : Key} {f : Option (Object k) → Operation β}
    {result : Except Fault β} :
    (get k key >>= f).Rests s result ↔ (f (s.find? k key)).Rests s result := by
  simp [rests_bind]

theorem rests_tryCatch {op : Operation α} {f : Fault → Operation α}
    {result : Except Fault α} :
    (tryCatch op f).Rests s result ↔
      (∃ a, op.Rests s (.ok a) ∧ result = .ok a) ∨
        ∃ e, op.Rests s (.error e) ∧ (f e).Rests s result := by
  unfold Rests
  rw [ExceptT.run_tryCatch, Program.rests_bind]
  constructor
  · rintro ⟨_ | _, hop, hnext⟩
    · exact .inr ⟨_, hop, hnext⟩
    · exact .inl ⟨_, hop, hnext⟩
  · rintro (⟨a, hop, hnext⟩ | ⟨e, hop, hnext⟩)
    · exact ⟨.ok a, hop, hnext⟩
    · exact ⟨.error e, hop, hnext⟩

/-- A loop rests with success where every step does. -/
theorem rests_forM {l : List α} {f : α → Operation PUnit} :
    (l.forM f).Rests s (.ok ()) ↔ ∀ a ∈ l, (f a).Rests s (.ok ()) := by
  induction l with
  | nil => exact ⟨fun _ _ ha ↦ (nomatch ha), fun _ ↦ rfl⟩
  | cons a l ih =>
    show (f a >>= fun _ ↦ l.forM f).Rests s (.ok ()) ↔ _
    rw [rests_bind, List.forall_mem_cons]
    constructor
    · rintro (⟨_, hfirst, hrest⟩ | ⟨e, -, hcontra⟩)
      · exact ⟨hfirst, ih.mp hrest⟩
      · exact nomatch hcontra
    · rintro ⟨hfirst, hrest⟩
      exact .inl ⟨(), hfirst, ih.mpr hrest⟩

@[simp] theorem rests_counted {handler : String} {op : Operation α}
    {result : Except Fault α} : (counted handler op).Rests s result ↔ op.Rests s result := by
  show Program.Rests (op.run >>= _) s result ↔ _
  rw [Program.rests_bind]
  constructor
  · rintro ⟨a, hop, hnext⟩
    exact (hnext : result = a) ▸ hop
  · intro hop
    exact ⟨result, hop, rfl⟩

/-! ### Objects that have to be there -/

theorem on_require (key : Key) (missing : Cause) (s : Store) :
    (require k key missing).on s =
      match s.find? k key with
      | some o => (.ok o, s)
      | none => (.error (.ofCause missing), s) := by
  unfold require
  rw [on_bind_of_ok (on_get ..)]
  cases s.find? k key <;> rfl

theorem rests_require_bind {key : Key} {missing : Cause} {f : Object k → Operation β}
    {result : Except Fault β} :
    (require k key missing >>= f).Rests s result ↔
      match s.find? k key with
      | some o => (f o).Rests s result
      | none => result = .error (.ofCause missing) := by
  unfold require
  rw [bind_assoc, rests_get_bind]
  cases s.find? k key <;> exact Iff.rfl

theorem on_require_bind (key : Key) (missing : Cause) (f : Object k → Operation β) (s : Store) :
    (require k key missing >>= f).on s =
      match s.find? k key with
      | some o => (f o).on s
      | none => (.error (.ofCause missing), s) := by
  rw [on_bind, on_require]
  cases s.find? k key <;> rfl

theorem exists_of_on_require_bind {key : Key} {missing : Cause} {f : Object k → Operation β} {b : β}
    {t : Store} (hok : (require k key missing >>= f).on s = (.ok b, t)) :
    ∃ o, s.find? k key = some o ∧ (f o).on s = (.ok b, t) := by
  rw [on_require_bind] at hok
  cases hfound : s.find? k key with
  | none =>
    rw [hfound] at hok
    exact nomatch congrArg Prod.fst hok
  | some o =>
    rw [hfound] at hok
    exact ⟨o, rfl, hok⟩

/-- Creates the object unless there is one under its key. -/
def secure (o : Object k) : Operation Unit := do
  let _ ← ensure o.key o

theorem on_secure (o : Object k) (s : Store) : (secure o).on s = (.ok (), (s.create o).2) := by
  unfold secure ensure
  rw [bind_assoc, on_bind_of_ok (on_get ..)]
  cases hfound : s.find? k o.key with
  | some stored =>
    rw [Store.create_of_found hfound]
    rfl
  | none => exact on_bind_of_ok (on_create ..) _

/-- Something is written unless the object was there. -/
theorem rests_secure {o : Object k} {result : Except Fault Unit} :
    (secure o).Rests s result ↔
      (∃ stored, s.find? k o.key = some stored) ∧ result = .ok () := by
  unfold secure ensure
  rw [bind_assoc, rests_get_bind]
  cases hfound : s.find? k o.key with
  | some stored => exact ⟨fun hrests ↦ ⟨⟨stored, rfl⟩, hrests⟩, fun h ↦ h.2⟩
  | none =>
    constructor
    · intro hrests
      exact nomatch hrests.1
    · rintro ⟨⟨stored, hstored⟩, -⟩
      exact nomatch hstored

@[simp] theorem rests_replace {o : Object k} {result : Except Fault (Object k)} :
    (replace o).Rests s result ↔ False := ⟨fun hrests ↦ (nomatch hrests.1), False.elim⟩

@[simp] theorem rests_setJobConfig {key : Key} {config : String} {result : Except Fault Unit} :
    (setJobConfig key config).Rests s result ↔ False :=
  ⟨fun hrests ↦ (nomatch hrests.1), False.elim⟩

end Operation

/-! ### What an operation asks for -/

/-- Whatever the replies, the program asks for nothing but such requests. -/
def Program.Asks {α : Type} (allowed : Request → Prop) : Program α → Prop
  | done _ => True
  | ask request next => allowed request ∧ ∀ reply, (next reply).Asks allowed
  | observe _ next => next.Asks allowed

theorem Program.Asks.bind {α β : Type} {allowed : Request → Prop} {program : Program α}
    {f : α → Program β} (hprogram : program.Asks allowed) (hnext : ∀ a, (f a).Asks allowed) :
    (program >>= f).Asks allowed := by
  show (program.bind f).Asks allowed
  induction program with
  | done value => exact hnext value
  | ask request next ih => exact ⟨hprogram.1, fun reply ↦ ih reply (hprogram.2 reply)⟩
  | observe observation next ih => exact ih hprogram

theorem Program.Asks.mono {α : Type} {allowed allowed' : Request → Prop} {program : Program α}
    (hprogram : program.Asks allowed) (hallowed : ∀ request, allowed request → allowed' request) :
    program.Asks allowed' := by
  induction program with
  | done value => trivial
  | ask request next ih =>
    exact ⟨hallowed request hprogram.1, fun reply ↦ ih reply (hprogram.2 reply)⟩
  | observe observation next ih => exact ih hprogram

/-- A program that asks about no object of some kinds comes to the same result on stores that only
differ there, and does the same to them. -/
theorem Program.Asks.agreeOff {α : Type} {kinds : Kind → Prop} {program : Program α}
    (hprogram : program.Asks (fun request ↦ ¬ kinds request.kind)) {s t : Store}
    (hagree : Store.AgreeOff kinds s t) :
    (program.run Store.backend s).1 = (program.run Store.backend t).1 ∧
      Store.AgreeOff kinds (program.run Store.backend s).2 (program.run Store.backend t).2 := by
  induction program generalizing s t with
  | done value => exact ⟨rfl, hagree⟩
  | ask request next ih =>
    obtain ⟨hreply, hleft⟩ := hagree.serve hprogram.1
    have hnext := ih (Store.serve request s).1 (hprogram.2 _) hleft
    simp only [Program.run]
    show (Program.run _ (next (Store.serve request s).1) _).1 =
      (Program.run _ (next (Store.serve request t).1) _).1 ∧ Store.AgreeOff kinds
        (Program.run _ (next (Store.serve request s).1) _).2
        (Program.run _ (next (Store.serve request t).1) _).2
    rw [← hreply]
    exact hnext
  | observe observation next ih => exact ih hprogram hagree

/-- A program that asks for nothing but reads leaves the store as it is. -/
theorem Program.Asks.run_snd {α : Type} {program : Program α}
    (hprogram : program.Asks (fun request ↦ request.isRead = true)) (s : Store) :
    (program.run Store.backend s).2 = s := by
  induction program generalizing s with
  | done value => rfl
  | ask request next ih =>
    exact (ih (Store.serve request s).1 (hprogram.2 _) _).trans
      (Store.serve_of_isRead hprogram.1 s)
  | observe observation next ih => exact ih hprogram s

/-- A program that asks for nothing but reads rests everywhere. -/
theorem Program.Asks.rests {α : Type} {program : Program α}
    (hprogram : program.Asks (fun request ↦ request.isRead = true)) (s : Store) :
    program.Rests s (program.run Store.backend s).1 := by
  induction program generalizing s with
  | done value => rfl
  | ask request next ih =>
    have hsame : (Store.backend.answer request s).2 = s := Store.serve_of_isRead hprogram.1 s
    refine ⟨hprogram.1, ?_⟩
    have hnext := ih (Store.serve request s).1 (hprogram.2 _) s
    simp only [Program.run, hsame]
    exact hnext
  | observe observation next ih => exact ih hprogram s

/-- A program leaves the tables of the kinds alone about which it asks nothing. -/
theorem Program.Asks.table {α : Type} {k : Kind} {program : Program α}
    (hprogram : program.Asks (fun request ↦ k ≠ request.kind)) (s : Store) :
    (program.run Store.backend s).2.table k = s.table k := by
  induction program generalizing s with
  | done value => rfl
  | ask request next ih =>
    exact (ih (Store.serve request s).1 (hprogram.2 _) _).trans
      (Store.table_serve_of_ne s hprogram.1)
  | observe observation next ih => exact ih hprogram s

namespace Operation

variable {α β : Type} {k : Kind} {allowed : Request → Prop}

/-- Whatever the replies, the operation asks for nothing but such requests. -/
def Asks (allowed : Request → Prop) (op : Operation α) : Prop := op.run.Asks allowed

theorem asks_pure (a : α) : (pure a : Operation α).Asks allowed := trivial

theorem asks_fail (cause : Cause) : (fail cause : Operation α).Asks allowed := trivial

theorem asks_throw (f : Fault) : (throw f : Operation α).Asks allowed := trivial

theorem asks_ask {request : Request} (hrequest : allowed request) :
    (ask request).Asks allowed := ⟨hrequest, fun _ ↦ trivial⟩

theorem Asks.bind {op : Operation α} {f : α → Operation β} (hop : op.Asks allowed)
    (hnext : ∀ a, (f a).Asks allowed) : (op >>= f).Asks allowed := by
  unfold Asks
  rw [ExceptT.run_bind]
  refine Program.Asks.bind hop fun result ↦ ?_
  cases result with
  | ok a => exact hnext a
  | error e => exact trivial

theorem Asks.tryCatch {op : Operation α} {f : Fault → Operation α} (hop : op.Asks allowed)
    (hcatch : ∀ e, (f e).Asks allowed) : (tryCatch op f).Asks allowed := by
  unfold Asks
  rw [ExceptT.run_tryCatch]
  refine Program.Asks.bind hop fun result ↦ ?_
  cases result with
  | ok a => exact trivial
  | error e => exact hcatch e

theorem Asks.counted {op : Operation α} (hop : op.Asks allowed) (handler : String) :
    (counted handler op).Asks allowed := Program.Asks.bind hop fun _ ↦ trivial

theorem asks_forM {l : List α} {f : α → Operation PUnit} (hf : ∀ a ∈ l, (f a).Asks allowed) :
    (l.forM f).Asks allowed := by
  induction l with
  | nil => exact asks_pure _
  | cons a l ih =>
    exact (hf a (List.mem_cons_self ..)).bind fun _ ↦
      ih fun b hb ↦ hf b (List.mem_cons_of_mem _ hb)

theorem Asks.mono {allowed' : Request → Prop} {op : Operation α} (hop : op.Asks allowed)
    (hallowed : ∀ request, allowed request → allowed' request) : op.Asks allowed' :=
  Program.Asks.mono hop hallowed

theorem Asks.on_snd {op : Operation α} (hop : op.Asks (fun request ↦ request.isRead = true))
    (s : Store) : (op.on s).2 = s := Program.Asks.run_snd hop s

theorem Asks.rests {op : Operation α} (hop : op.Asks (fun request ↦ request.isRead = true))
    (s : Store) : op.Rests s (op.on s).1 := Program.Asks.rests hop s

theorem Asks.on_agreeOff {op : Operation α} {kinds : Kind → Prop}
    (hop : op.Asks (fun request ↦ ¬ kinds request.kind)) {s t : Store}
    (hagree : Store.AgreeOff kinds s t) :
    (op.on s).1 = (op.on t).1 ∧ Store.AgreeOff kinds (op.on s).2 (op.on t).2 :=
  Program.Asks.agreeOff hop hagree

/-- A run without failing calls leaves the table of the kind alone. -/
def Spares (k : Kind) (op : Operation α) : Prop := ∀ s, (op.on s).2.table k = s.table k

theorem Asks.spares {op : Operation α} (hop : op.Asks (fun request ↦ k ≠ request.kind)) :
    op.Spares k := Program.Asks.table hop

theorem Spares.bind {op : Operation α} {f : α → Operation β} (hop : op.Spares k)
    (hnext : ∀ a, (f a).Spares k) : (op >>= f).Spares k := by
  intro s
  have hfirst := hop s
  rw [on_bind]
  generalize op.on s = first at hfirst
  obtain ⟨e | a, s'⟩ := first
  · exact hfirst
  · exact (hnext a s').trans hfirst

theorem Spares.counted {op : Operation α} (hop : op.Spares k) (handler : String) :
    (counted handler op).Spares k := fun s ↦ (congrArg (fun o ↦ o.2.table k)
  (on_counted handler op s)).trans (hop s)

theorem Spares.find? {op : Operation α} (hop : op.Spares k) (s : Store) (key : Key) :
    (op.on s).2.find? k key = s.find? k key := by
  rw [Store.find?, Store.find?, hop s]

/-- The operations cannot be told apart as long as no call fails. -/
structure Alike (op op' : Operation α) : Prop where
  on : ∀ s, op.on s = op'.on s
  rests : ∀ s r, op.Rests s r ↔ op'.Rests s r

theorem Alike.refl (op : Operation α) : Alike op op := ⟨fun _ ↦ rfl, fun _ _ ↦ Iff.rfl⟩

theorem Alike.bind {op op' : Operation α} {f f' : α → Operation β} (hop : Alike op op')
    (hnext : ∀ a, Alike (f a) (f' a)) : Alike (op >>= f) (op' >>= f') := by
  constructor
  · intro s
    rw [on_bind, on_bind, hop.on]
    generalize op'.on s = first
    obtain ⟨e | a, s'⟩ := first
    · rfl
    · exact (hnext a).on s'
  · intro s r
    rw [rests_bind, rests_bind]
    simp only [hop.rests, (hnext _).rests]

theorem Alike.counted {op op' : Operation α} (hop : Alike op op') (handler handler' : String) :
    Alike (counted handler op) (counted handler' op') := by
  constructor
  · intro s
    rw [on_counted, on_counted, hop.on]
  · intro s r
    rw [rests_counted, rests_counted, hop.rests]

theorem asks_require {key : Key} {missing : Cause} (hget : allowed (.get k key)) :
    (require k key missing).Asks allowed := by
  refine (asks_ask hget).bind fun found ↦ ?_
  cases found with
  | some o => exact asks_pure o
  | none => exact asks_fail missing

theorem asks_ensure {key : Key} {o : Object k} (hget : allowed (.get k key))
    (hcreate : allowed (.create k o)) : (ensure key o).Asks allowed := by
  refine (asks_ask hget).bind fun found ↦ ?_
  cases found with
  | some o => exact asks_pure _
  | none => exact asks_ask hcreate

theorem asks_secure {o : Object k} (hget : allowed (.get k o.key))
    (hcreate : allowed (.create k o)) : (secure o).Asks allowed :=
  (asks_ensure hget hcreate).bind fun _ ↦ asks_pure _

end Operation

end PipelineOperator
