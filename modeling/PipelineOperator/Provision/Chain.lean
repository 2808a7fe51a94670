import PipelineOperator.Provision.Access
import PipelineOperator.Provision.EnvironmentLabel
import PipelineOperator.Provision.Job
import PipelineOperator.Provision.Target

/-!
Chains of handlers. A handler does one part of the provisioning of a stage; a chain runs its
handlers one after another and ends with the first that fails. Which handlers a chain has is settled
when it is built, from the trigger of the stage and the context.
-/

set_option autoImplicit false
set_option relaxedAutoImplicit false

namespace PipelineOperator

structure Handler where
  name : String
  serve : Stage → Operation Unit

/-- A handler and those after it. -/
inductive Chain where
  | last (handler : Handler)
  | link (handler : Handler) (rest : Chain)

namespace Chain

/-- The chain of a first handler and others in their order. -/
def ofHandlers (first : Handler) : List Handler → Chain
  | [] => last first
  | next :: rest => link first (ofHandlers next rest)

def handlers : Chain → List Handler
  | last handler => [handler]
  | link handler rest => handler :: rest.handlers

def names (chain : Chain) : List String := chain.handlers.map (·.name)

/-- Runs the handlers in order, each counted, up to the first that fails. -/
def serve (stage : Stage) : Chain → Operation Unit
  | last handler => Operation.counted handler.name (handler.serve stage)
  | link handler rest => do
    Operation.counted handler.name (handler.serve stage)
    rest.serve stage

theorem handlers_ofHandlers (first : Handler) (rest : List Handler) :
    (ofHandlers first rest).handlers = first :: rest := by
  induction rest generalizing first with
  | nil => rfl
  | cons next rest ih => rw [ofHandlers, handlers, ih]

end Chain

namespace Handler

def verifiedStreams : Handler := ⟨"put_codebase_image_stream", VerifiedStreams.serve⟩

/-- Provides a namespace, or a space for a tenant. -/
def target (context : Context) : Handler :=
  if context.kiosk then ⟨"put_tenant", Target.serveSpace context.now⟩
  else ⟨"put_namespace", Target.serveNamespace context.now⟩

def access (context : Context) : Handler := ⟨"configure_rbac", Access.serve context.platform⟩

def job : Handler := ⟨"put_ci_job", StageJob.serve⟩

def environmentLabel : Handler := ⟨"put_environment_label", EnvironmentLabel.serve⟩

def withdrawLabel : Handler := ⟨"delete_environment_label", EnvironmentLabel.withdraw⟩

def removeTarget (context : Context) : Handler :=
  if context.kiosk then ⟨"delete_space", Target.removeSpace⟩
  else ⟨"delete_namespace", Target.removeNamespace⟩

/-- All handlers of a context, whether or not it uses them. -/
def all (context : Context) : List Handler :=
  [verifiedStreams, target { context with kiosk := true }, target { context with kiosk := false },
    access context, job, environmentLabel, withdrawLabel,
    removeTarget { context with kiosk := true }, removeTarget { context with kiosk := false }]

def named? (context : Context) (name : String) : Option Handler :=
  (all context).find? (fun handler ↦ handler.name == name)

end Handler

namespace Chain

/-- Provisions a stage. Artifacts are labelled for a stage only if it deploys them by itself. -/
def creation (context : Context) (trigger : Trigger) : Chain :=
  ofHandlers Handler.verifiedStreams
    ([Handler.target context, Handler.access context, Handler.job] ++
      if trigger = .auto then [Handler.environmentLabel] else [])

/-- Takes a stage down. -/
def teardown (context : Context) : Chain :=
  ofHandlers Handler.withdrawLabel [Handler.removeTarget context]

end Chain

end PipelineOperator
