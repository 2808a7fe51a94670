import Mathlib.Data.List.Chain
import PipelineOperator.Proofs.Json.RoundTrip
import PipelineOperator.Provision.GateText

/-!
The text of quality gates tells their kinds and names, and nothing more. Between brackets it is read
as an array with an item for each group of gates (`ofText?_gateText`). Groups of autotests are as
long as they can be, and the items have the steps of the gates (`tellGates_ofGates`). So the order
of the steps settles the text, and gates with the same text have the same steps
(`gateText_tellsSteps`).
-/

set_option autoImplicit false
set_option relaxedAutoImplicit false

namespace PipelineOperator

namespace GateGroup

/-! ### Groups -/

def isAutotests : GateGroup → Bool
  | autotests _ => true
  | manual _ => false

/-- The groups are not both of autotests. -/
def Apart (first second : GateGroup) : Prop :=
  (first.isAutotests && second.isAutotests) = false

/-- No group of autotests is empty, and none stands beside another. -/
structure IsGrouped (groups : List GateGroup) : Prop where
  nonempty : autotests [] ∉ groups
  apart : groups.IsChain Apart

theorem IsGrouped.manual_cons (step : String) {groups : List GateGroup}
    (hgrouped : IsGrouped groups) : IsGrouped (manual step :: groups) := by
  refine ⟨by simpa using hgrouped.nonempty, ?_⟩
  cases groups with
  | nil => exact .singleton _
  | cons group groups => exact .cons_cons rfl hgrouped.apart

/-- A group of autotests does not tell its neighbours how long it is. -/
theorem IsGrouped.autotests_cons (step : String) {steps : List String} {rest : List GateGroup}
    (hgrouped : IsGrouped (autotests steps :: rest)) :
    IsGrouped (autotests (step :: steps) :: rest) := by
  refine ⟨fun hin ↦ hgrouped.nonempty (List.mem_cons_of_mem _ (by simpa using hin)), ?_⟩
  cases rest with
  | nil => exact .singleton _
  | cons group rest =>
    obtain ⟨hfirst, hrest⟩ := List.isChain_cons_cons.mp hgrouped.apart
    exact .cons_cons hfirst hrest

theorem isGrouped_prepend (gate : QualityGate) {groups : List GateGroup}
    (hgrouped : IsGrouped groups) : IsGrouped (prepend gate groups) := by
  unfold prepend
  cases gate.kind with
  | manual => exact hgrouped.manual_cons _
  | autotests =>
    match groups with
    | [] => exact ⟨by simp, .singleton _⟩
    | autotests steps :: rest => exact hgrouped.autotests_cons _
    | manual step :: rest =>
      exact ⟨by simpa using hgrouped.nonempty, .cons_cons rfl hgrouped.apart⟩

theorem isGrouped_ofGates (gates : List QualityGate) : IsGrouped (ofGates gates) := by
  induction gates with
  | nil => exact ⟨List.not_mem_nil, .nil⟩
  | cons gate gates ih => exact isGrouped_prepend gate ih

/-- What of a gate goes into its group. -/
def stepOf (gate : QualityGate) : GateKind × String := (gate.kind, gate.stepName)

theorem prepend_congr {gate other : QualityGate} (hstep : stepOf gate = stepOf other)
    (groups : List GateGroup) : prepend gate groups = prepend other groups := by
  obtain ⟨hkind, hname⟩ := Prod.mk.inj hstep
  unfold prepend
  rw [hkind, hname]

theorem ofGates_congr {gates others : List QualityGate}
    (hsteps : gates.map stepOf = others.map stepOf) : ofGates gates = ofGates others := by
  induction gates generalizing others with
  | nil => rw [List.map_eq_nil_iff.mp hsteps.symm]
  | cons gate gates ih =>
    obtain ⟨other, rest, rfl, hstep, hrest⟩ := List.map_eq_cons_iff.mp hsteps.symm
    show prepend gate (ofGates gates) = prepend other (ofGates rest)
    rw [ih hrest.symm, prepend_congr hstep.symm]

/-! ### Their text -/

/-- How a step is written. -/
def stepDocument : GateKind × String → Json
  | (.manual, step) => .object [("name", .string "manual"), ("step_name", .string step)]
  | (.autotests, step) => .object [("name", .string "autotests"), ("step_name", .string step)]

theorem encodeStep_eq (kind : GateKind) (step : String) :
    encodeStep kind step = stepDocument (kind, step) := by
  cases kind <;> rfl

theorem stepDocument_injective {step other : GateKind × String}
    (hsame : stepDocument step = stepDocument other) : step = other := by
  obtain ⟨kind, name⟩ := step
  obtain ⟨otherKind, otherName⟩ := other
  cases kind <;> cases otherKind <;> simp_all [stepDocument]

/-- The steps of an item: those of an array, or the item alone. -/
def itemSteps : Json → List Json
  | .array steps => steps
  | item => [item]

theorem itemSteps_encode (group : GateGroup) :
    itemSteps group.encode = group.steps.map stepDocument := by
  cases group with
  | manual step => exact congrArg (fun document ↦ [document]) (encodeStep_eq .manual step)
  | autotests steps =>
    show steps.map (encodeStep .autotests) = (steps.map _).map stepDocument
    rw [List.map_map]
    exact List.map_congr_left fun step _ ↦ encodeStep_eq .autotests step

theorem isExact_encode (group : GateGroup) : group.encode.isExact = true := by
  cases group with
  | manual step => rfl
  | autotests steps =>
    show Json.isExactItems (steps.map (encodeStep .autotests)) = true
    rw [Json.isExactItems_eq_all, List.all_map, List.all_eq_true]
    exact fun _ _ ↦ rfl

/-- The document between whose brackets the text of the gates stands. -/
def document (gates : List QualityGate) : Json := .array ((ofGates gates).map encode)

theorem isExact_document (gates : List QualityGate) : (document gates).isExact = true := by
  show Json.isExactItems _ = true
  rw [Json.isExactItems_eq_all, List.all_map, List.all_eq_true]
  exact fun group _ ↦ isExact_encode group

end GateGroup

open GateGroup

/-- Only the brackets were taken off. -/
theorem bracketed_gateText (gates : List QualityGate) :
    "[" ++ gateText gates ++ "]" = (document gates).htmlSafe := by
  obtain ⟨body, hbody⟩ :=
    Json.exists_renderItems Json.escapeHtml ((ofGates gates).map GateGroup.encode)
  have hrender : Json.render Json.escapeHtml (document gates) = '[' :: (body ++ [']']) :=
    congrArg ('[' :: ·) hbody
  have htext : gateText gates = String.ofList body := by
    show String.ofList ((Json.render Json.escapeHtml (document gates)).drop 1).dropLast = _
    rw [hrender, List.drop_one, List.tail_cons, List.dropLast_concat]
  rw [htext, Json.htmlSafe, hrender, ← String.toList_inj]
  simp

/-- Between brackets the text of gates is read as the array of their groups. -/
theorem ofText?_gateText (gates : List QualityGate) :
    Json.ofText? ("[" ++ gateText gates ++ "]") = some (document gates) := by
  rw [bracketed_gateText]
  exact Json.ofText?_render Json.Lexeme.faithful_escapeHtml (isExact_document gates)

theorem flatMap_itemSteps (gates : List QualityGate) :
    ((ofGates gates).map GateGroup.encode).flatMap itemSteps =
      (gates.map stepOf).map stepDocument := by
  rw [List.flatMap_map, funext itemSteps_encode, ← List.map_flatMap, steps_ofGates]
  rfl

theorem gateText_eq_iff {gates others : List QualityGate} :
    gateText gates = gateText others ↔ gates.map stepOf = others.map stepOf := by
  constructor
  · intro hsame
    have hdocument : some (document gates) = some (document others) := by
      rw [← ofText?_gateText, ← ofText?_gateText, hsame]
    have hitems : (ofGates gates).map GateGroup.encode = (ofGates others).map GateGroup.encode :=
      Json.array.inj (Option.some.inj hdocument)
    have hsteps : (gates.map stepOf).map stepDocument = (others.map stepOf).map stepDocument := by
      rw [← flatMap_itemSteps, ← flatMap_itemSteps, hitems]
    exact (List.map_inj_right fun _ _ ↦ stepDocument_injective).mp hsteps
  · intro hsteps
    unfold gateText
    rw [ofGates_congr hsteps]

theorem gateText_eq_empty_iff {gates : List QualityGate} : gateText gates = "" ↔ gates = [] := by
  rw [show "" = gateText [] from rfl, gateText_eq_iff, List.map_nil, List.map_eq_nil_iff]

/-! ### What the items tell -/

/-- A manual step, or autotest steps of which there is one at least. -/
def IsItem (item : Json) : Prop :=
  (∃ step, item = .object [("name", .string "manual"), ("step_name", .string step)]) ∨
    ∃ steps : List String, steps ≠ [] ∧ item = .array (steps.map fun step ↦
      .object [("name", .string "autotests"), ("step_name", .string step)])

theorem isItem_encode {group : GateGroup} (hnonempty : group ≠ .autotests []) :
    IsItem group.encode := by
  cases group with
  | manual step => exact .inl ⟨step, encodeStep_eq .manual step⟩
  | autotests steps =>
    refine .inr ⟨steps, fun hnil ↦ hnonempty (hnil ▸ rfl), congrArg Json.array ?_⟩
    exact List.map_congr_left fun step _ ↦ encodeStep_eq .autotests step

/-- The items have the steps of the gates in their order. Arrays of autotests are as long as they
can be, for none stands beside another. -/
structure TellGates (gates : List QualityGate) (items : List Json) : Prop where
  shaped : ∀ item ∈ items, IsItem item
  apart : items.IsChain fun item next ↦
    ∀ steps others, ¬ (item = .array steps ∧ next = .array others)
  steps : items.flatMap itemSteps =
    gates.map fun gate ↦ stepDocument (gate.kind, gate.stepName)

theorem GateGroup.Apart.encode {group next : GateGroup} (hapart : Apart group next)
    (steps others : List Json) : ¬ (group.encode = .array steps ∧ next.encode = .array others) := by
  rintro ⟨hgroup, hnext⟩
  cases group with
  | manual step => exact nomatch hgroup
  | autotests steps =>
    cases next with
    | manual step => exact nomatch hnext
    | autotests others => exact nomatch hapart

/-- The groups of gates tell the gates. -/
theorem tellGates_ofGates (gates : List QualityGate) :
    TellGates gates ((ofGates gates).map GateGroup.encode) := by
  obtain ⟨hnonempty, hapart⟩ := isGrouped_ofGates gates
  constructor
  case shaped =>
    intro item hitem
    obtain ⟨group, hgroup, rfl⟩ := List.mem_map.mp hitem
    exact isItem_encode fun hempty ↦ hnonempty (hempty ▸ hgroup)
  case apart =>
    rw [List.isChain_map]
    exact hapart.imp fun _ _ ↦ Apart.encode
  case steps =>
    rw [flatMap_itemSteps, List.map_map]
    rfl

/-- Between brackets the text of gates is read as an array of manual steps and of arrays of
autotests. These are as long as they can be, and flattened the array has the steps of the gates. So
the text is empty only without gates, and tells the kind and the name of every step. -/
theorem gateText_tellsSteps (gates : List QualityGate) :
    (∃ items, Json.ofText? ("[" ++ gateText gates ++ "]") = some (.array items) ∧
      TellGates gates items) ∧
      (gateText gates = "" ↔ gates = []) ∧
      ∀ others, gateText gates = gateText others ↔
        gates.map (fun gate ↦ (gate.kind, gate.stepName)) =
          others.map (fun gate ↦ (gate.kind, gate.stepName)) :=
  ⟨⟨_, ofText?_gateText gates, tellGates_ofGates gates⟩, gateText_eq_empty_iff,
    fun _ ↦ gateText_eq_iff⟩

/-- Neighbouring autotests run together. -/
example : ofGates [⟨.autotests, "unit", none, none⟩, ⟨.autotests, "api", none, none⟩,
    ⟨.manual, "approve", none, none⟩] = [.autotests ["unit", "api"], .manual "approve"] := rfl

end PipelineOperator
