import PipelineOperator.Reconcile.Outcome

/-!
Which stages are looked at again when a pipeline has changed: those of its namespace that carry its
name, if its specification is ahead of what was worked off, and only so many at a time.
-/

set_option autoImplicit false
set_option relaxedAutoImplicit false

namespace PipelineOperator

namespace Pipeline

/-- The most stages that one change of a pipeline enqueues. -/
def fanoutLimit : Nat := 1000

/-- The stage is in the pipeline's namespace and carries its name. -/
def claims (p : Pipeline) (s : Stage) : Bool :=
  s.metadata.ns == p.metadata.ns &&
    s.metadata.label? Naming.pipelineLabel == some p.metadata.anyName

/-- The stages to be reconciled after a change of the pipeline. -/
def stagesToEnqueue (p : Pipeline) (stages : List Stage) : List Stage :=
  if p.isAhead then (stages.filter p.claims).take fanoutLimit else []

end Pipeline

end PipelineOperator
