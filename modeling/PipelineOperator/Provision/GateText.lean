import PipelineOperator.Json.Text
import PipelineOperator.Object.Stage

/-!
The text in which a job receives the quality gates of its stage: the items of a JSON array without
the brackets. A manual gate is an item of its own; neighbouring autotests form one inner array.
-/

set_option autoImplicit false
set_option relaxedAutoImplicit false

namespace PipelineOperator

/-- A manual step, or autotest steps that run together. -/
inductive GateGroup where
  | manual (step : String)
  | autotests (steps : List String)
deriving DecidableEq

namespace GateGroup

/-- Puts a gate in front of groups. An autotest joins the autotests that follow it. -/
def prepend (gate : QualityGate) (groups : List GateGroup) : List GateGroup :=
  match gate.kind, groups with
  | .manual, groups => manual gate.stepName :: groups
  | .autotests, autotests steps :: rest => autotests (gate.stepName :: steps) :: rest
  | .autotests, groups => autotests [gate.stepName] :: groups

def ofGates (gates : List QualityGate) : List GateGroup := gates.foldr prepend []

/-- The kind and the name of each step, in their order. -/
def steps : GateGroup → List (GateKind × String)
  | manual step => [(.manual, step)]
  | autotests steps => steps.map (fun s ↦ (.autotests, s))

def encodeStep (kind : GateKind) (step : String) : Json :=
  .object [("name", .string kind.text), ("step_name", .string step)]

def encode : GateGroup → Json
  | manual step => encodeStep .manual step
  | autotests steps => .array (steps.map (encodeStep .autotests))

theorem steps_prepend (gate : QualityGate) (groups : List GateGroup) :
    (prepend gate groups).flatMap steps = (gate.kind, gate.stepName) :: groups.flatMap steps := by
  unfold prepend
  split
  · next h => simp [steps, h]
  · next h => simp [steps, h]
  · next h _ => simp [steps, h]

/-- Grouping neither drops nor reorders steps. -/
theorem steps_ofGates (gates : List QualityGate) :
    (ofGates gates).flatMap steps = gates.map (fun g ↦ (g.kind, g.stepName)) := by
  induction gates with
  | nil => rfl
  | cons gate rest ih => rw [ofGates, List.foldr_cons, steps_prepend, ← ofGates, ih, List.map_cons]

end GateGroup

/-- The gates as one text, empty if there are none. -/
def gateText (gates : List QualityGate) : String :=
  let array := Json.array ((GateGroup.ofGates gates).map GateGroup.encode)
  String.ofList ((Json.render Json.escapeHtml array).drop 1).dropLast

end PipelineOperator
