import PipelineOperator.Cluster.Request
import PipelineOperator.Metrics.Basic

/-!
Work on the cluster, as data. A `Program` is its result, or a request together with what to do with
each reply, or an observation to be counted. An `Operation` is a program that may fail. Since the
requests lie open, the same program can be run against any cluster (`Program.run`), against one that
fails at will, or request by request beside other programs.
-/

set_option autoImplicit false
set_option relaxedAutoImplicit false

namespace PipelineOperator

inductive Program (α : Type) where
  | done (value : α)
  | ask (request : Request) (next : Except Fault request.Reply → Program α)
  | observe (observation : Observation) (next : Program α)

namespace Program

variable {α β γ σ : Type}

def bind (program : Program α) (f : α → Program β) : Program β :=
  match program with
  | done value => f value
  | ask request next => ask request (fun reply ↦ (next reply).bind f)
  | observe observation next => observe observation (next.bind f)

instance : Monad Program where
  pure := done
  bind := bind

theorem bind_done (program : Program α) : program.bind done = program := by
  induction program with
  | done value => rfl
  | ask request next ih => simp only [bind, ih]
  | observe observation next ih => simp only [bind, ih]

theorem bind_bind (program : Program α) (f : α → Program β) (g : β → Program γ) :
    (program.bind f).bind g = program.bind (fun a ↦ (f a).bind g) := by
  induction program with
  | done value => rfl
  | ask request next ih => simp only [bind, ih]
  | observe observation next ih => simp only [bind, ih]

instance : LawfulMonad Program :=
  LawfulMonad.mk' Program bind_done (fun _ _ ↦ rfl) bind_bind

end Program

/-- A cluster that answers requests and a counter of observations, on one state. -/
structure Backend (σ : Type) where
  answer : (request : Request) → σ → Except Fault request.Reply × σ
  record : Observation → σ → σ

namespace Program

variable {α β γ σ : Type}

/-- Runs a program to its end. -/
def run (backend : Backend σ) : Program α → σ → α × σ
  | done value, state => (value, state)
  | ask request next, state =>
    let (reply, state) := backend.answer request state
    (next reply).run backend state
  | observe observation next, state => next.run backend (backend.record observation state)

@[simp] theorem run_pure (backend : Backend σ) (value : α) (state : σ) :
    (pure value : Program α).run backend state = (value, state) := rfl

theorem run_bind (backend : Backend σ) (program : Program α) (f : α → Program β) (state : σ) :
    (program >>= f).run backend state =
      let (value, state) := program.run backend state
      (f value).run backend state := by
  show (program.bind f).run backend state = _
  induction program generalizing state with
  | done value => rfl
  | ask request next ih => exact ih _ _
  | observe observation next ih => exact ih _

end Program

/-- A program that may fail. -/
abbrev Operation (α : Type) : Type := ExceptT Fault Program α

namespace Operation

variable {α : Type}

/-- Puts a request to the cluster; its failure is the operation's. -/
def ask (request : Request) : Operation request.Reply := Program.ask request .done

def observe (observation : Observation) : Operation Unit :=
  Program.observe observation (.done (.ok ()))

def fail (cause : Cause) : Operation α := throw (Fault.ofCause cause)

/-- The operation, with its failure put into words by what was being done. -/
def during (attempt : Attempt) (operation : Operation α) : Operation α :=
  tryCatch operation (fun f ↦ throw (f.during attempt))

/-- The operation when only its effects count: a failure is passed over. -/
def bestEffort (operation : Operation α) : Operation Unit :=
  tryCatch (do let _ ← operation; pure ()) (fun _ ↦ pure ())

/-- Counts under a handler's name whether the operation succeeded. -/
def counted (handler : String) (operation : Operation α) : Operation α :=
  ExceptT.mk do
    let result ← operation.run
    Program.observe (.handled handler result.isOk) (.done result)

def get (kind : Kind) (key : Key) : Operation (Option (Object kind)) := ask (.get kind key)

def create {kind : Kind} (object : Object kind) : Operation Creation := ask (.create kind object)

def replace {kind : Kind} (object : Object kind) : Operation (Object kind) :=
  ask (.replace kind object)

def writeStatus {kind : Kind} (object : Object kind) : Operation (Object kind) :=
  ask (.writeStatus kind object)

def setJobConfig (key : Key) (config : String) : Operation Unit := ask (.setJobConfig key config)

def delete (kind : Kind) (key : Key) : Operation Unit := ask (.delete kind key)

def listStages (ns : String) (pipeline : Option String) : Operation (List Stage) :=
  ask (.listStages ns pipeline)

def jenkinsEnabled (ns : String) : Operation Bool := ask (.jenkinsEnabled ns)

/-- An object that has to be there. -/
def require (kind : Kind) (key : Key) (missing : Cause) : Operation (Object kind) := do
  match ← get kind key with
  | some object => pure object
  | none => fail missing

/-- Creates the object unless there is one of its kind under the key. -/
def ensure {kind : Kind} (key : Key) (object : Object kind) : Operation Creation := do
  match ← get kind key with
  | some _ => pure .alreadyExists
  | none => create object

end Operation

end PipelineOperator
