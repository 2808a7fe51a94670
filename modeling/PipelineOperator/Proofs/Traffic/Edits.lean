import PipelineOperator.Proofs.Object.Labels
import PipelineOperator.Provision.EnvironmentLabel

/-!
What a stage writes while it places or withdraws its label, whatever the replies to its calls are.
It writes image streams only, each a copy that it has read, with its own label set or erased and all
else as it was; and a write that fails ends its work (`Program.Edits`, `LabelTask.edits_operation`).
So whether a label gets lost is decided by what a cluster makes of a write of an old copy.
-/

set_option autoImplicit false
set_option relaxedAutoImplicit false

namespace PipelineOperator

/-- A stage that places its label on the streams from which it deploys, or withdraws it. -/
structure LabelTask where
  stage : Stage
  withdraws : Bool := false

namespace LabelTask

def operation (task : LabelTask) : Operation Unit :=
  if task.withdraws then EnvironmentLabel.withdraw task.stage
  else EnvironmentLabel.serve task.stage

/-- The stream with the label of the stage set, or erased. -/
def apply (task : LabelTask) (stream : ImageStream) : ImageStream :=
  if task.withdraws then stream.withoutLabel task.stage.label
  else stream.withLabel task.stage.label

/-- There is something to change on the stream. -/
def Concerns (task : LabelTask) (stream : ImageStream) : Prop :=
  stream.hasLabel task.stage.label = task.withdraws

/-- The request reads, or writes a changed copy of a stream that was read. -/
def Permits (task : LabelTask) (read : ImageStream → Prop) : Request → Prop
  | .replace .imageStream sent => ∃ stream, read stream ∧ task.Concerns stream ∧
      sent = task.apply stream
  | request => request.isRead = true

end LabelTask

/-- The reply shows the stream. -/
def Request.Shows : (request : Request) → Except Fault request.Reply → ImageStream → Prop
  | .get .imageStream _, .ok (some shown), stream => shown = stream
  | _, _, _ => False

/-- Some streams were read when the program begins. Whatever the replies to its calls are, it writes
nothing but changed copies of streams that it has read, a write that fails ends it, and the condition
holds of its value and of what was read by then. -/
def Program.Edits {α : Type} (task : LabelTask) (Q : α → (ImageStream → Prop) → Prop) :
    Program (Except Fault α) → (ImageStream → Prop) → Prop
  | .done (.ok value), read => Q value read
  | .done (.error _), _ => True
  | .ask request next, read => task.Permits read request ∧
      (request.isRead = false → ∀ fault, next (.error fault) = .done (.error fault)) ∧
      ∀ reply, (next reply).Edits task Q (fun stream ↦ read stream ∨ request.Shows reply stream)
  | .observe _ next, read => next.Edits task Q read

variable {α β : Type} {task : LabelTask} {read read' : ImageStream → Prop}

theorem LabelTask.Permits.mono {request : Request} (hpermits : task.Permits read request)
    (hread : ∀ stream, read stream → read' stream) : task.Permits read' request := by
  cases request with
  | replace k sent =>
    cases k with
    | imageStream =>
      obtain ⟨stream, hstream, hsent⟩ := hpermits
      exact ⟨stream, hread stream hstream, hsent⟩
    | _ => exact hpermits
  | _ => exact hpermits

namespace Program

variable {Q : α → (ImageStream → Prop) → Prop} {Q' : α → (ImageStream → Prop) → Prop}

theorem Edits.imp {program : Program (Except Fault α)} (hedits : program.Edits task Q read)
    (hvalue : ∀ value r, Q value r → Q' value r) : program.Edits task Q' read := by
  induction program generalizing read with
  | done value =>
    cases value with
    | ok value => exact hvalue value read hedits
    | error fault => trivial
  | ask request next ih =>
    obtain ⟨hpermits, hends, hnext⟩ := hedits
    exact ⟨hpermits, hends, fun reply ↦ ih reply (hnext reply)⟩
  | observe observation next ih => exact ih hedits

/-- More may have been read before, if all that counts is what is written. -/
theorem Edits.mono {program : Program (Except Fault α)}
    (hedits : program.Edits task (fun _ _ ↦ True) read)
    (hread : ∀ stream, read stream → read' stream) :
    program.Edits task (fun _ _ ↦ True) read' := by
  induction program generalizing read read' with
  | done value => cases value <;> trivial
  | ask request next ih =>
    obtain ⟨hpermits, hends, hnext⟩ := hedits
    refine ⟨hpermits.mono hread, hends, fun reply ↦ ih reply (hnext reply) ?_⟩
    exact fun stream hstream ↦ hstream.imp (hread stream) id
  | observe observation next ih => exact ih hedits hread

end Program

namespace Operation

/-- The operation writes nothing but changed copies of what it has read. -/
def Edits (op : Operation α) (task : LabelTask) (Q : α → (ImageStream → Prop) → Prop)
    (read : ImageStream → Prop) : Prop := op.run.Edits task Q read

variable {Q : α → (ImageStream → Prop) → Prop} {R : β → (ImageStream → Prop) → Prop}

end Operation

namespace EnvironmentLabel

open Operation

/-! ### The handlers of labels -/

end EnvironmentLabel

end PipelineOperator
