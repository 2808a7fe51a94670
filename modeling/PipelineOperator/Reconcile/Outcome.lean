import PipelineOperator.Object.Kind

/-!
What follows a reconciliation that succeeded: waiting for a change, or another one after a while.
Whether there is anything to do at all is told by comparing the generation of an object with the one
that was last worked off.
-/

set_option autoImplicit false
set_option relaxedAutoImplicit false

namespace PipelineOperator

inductive Outcome where
  | awaitChange
  | requeue (seconds : Nat)
deriving DecidableEq

/-- The specification has changed since it was last worked off. Without a generation no change can
be told. -/
def isAhead (current observed : Option Int64) : Bool :=
  match current, observed with
  | some current, some observed => current != observed
  | some _, none => true
  | none, _ => false

namespace Pipeline

def observedGeneration (p : Pipeline) : Option Int64 :=
  p.status.bind (fun s ↦ PipelineStatus.observedGeneration s)

/-- The pipeline has a specification that is still to be worked off. -/
def isAhead (p : Pipeline) : Bool :=
  PipelineOperator.isAhead p.metadata.generation p.observedGeneration

end Pipeline

end PipelineOperator
