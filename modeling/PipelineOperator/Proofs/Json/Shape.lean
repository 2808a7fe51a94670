import PipelineOperator.Proofs.Json.Record
import PipelineOperator.Proofs.Json.RoundTrip

/-!
What documents may leave out. A record leaves out members that have a default and members that are
optional; so do the records within it, and how they are nested is its shape (`Json.Shape`). A
missing member may be written out, at any depth, as its default or as null (`Shape.Fills`), and an
optional member is left out at a path of names and indices (`Shape.Omits`). A type whose values are
written and read without a loss, by a reader that heeds what is left out, round-trips
(`Json.RoundTrips`), and then so do its lists.
-/

set_option autoImplicit false
set_option relaxedAutoImplicit false

namespace PipelineOperator

namespace Json

variable {α : Type} {encode : α → Json} {decode : Json → Option α}

/-- The members that the records of a document may leave out: those with a default, each with the
document of that default, and the optional ones. A record has parts of a shape of their own. -/
inductive Shape where
  | list (item : Shape)
  | record (defaults : Members) (optionals : List String) (parts : List (String × Shape))

/-- The way from a document to one of its parts. -/
inductive Shape.Step where
  | member (name : String)
  | item (index : Nat)

namespace Shape

/-- The members that may be left out, with what stands for them: the default, or null. -/
def substitutes (defaults : Members) (optionals : List String) : Members :=
  defaults ++ optionals.map (fun name ↦ (name, null))

theorem mem_names_substitutes {defaults : Members} {optionals : List String} {name : String} :
    name ∈ (substitutes defaults optionals).map Prod.fst ↔
      name ∈ defaults.map Prod.fst ∨ name ∈ optionals := by
  rw [substitutes, List.map_append, List.mem_append, List.map_map, Function.comp_def, List.map_id']

/-- The names that a record may leave out. -/
def missable : Shape → List String
  | list _ => []
  | record defaults optionals _ => (substitutes defaults optionals).map Prod.fst

/-- The second document is the first one with one missing member written out, at any depth. -/
inductive Fills : Shape → Json → Json → Prop
  | member {defaults : Members} {optionals : List String} {parts : List (String × Shape)}
      {before after : Members} {name : String} {value : Json}
      (hvalue : (name, value) ∈ substitutes defaults optionals)
      (habsent : name ∉ (before ++ after).map Prod.fst) :
      Fills (record defaults optionals parts) (object (before ++ after))
        (object (before ++ (name, value) :: after))
  | part {defaults : Members} {optionals : List String} {parts : List (String × Shape)}
      {before after : Members} {name : String} {shape : Shape} {value value' : Json}
      (hpart : (name, shape) ∈ parts) (hfills : Fills shape value value') :
      Fills (record defaults optionals parts) (object (before ++ (name, value) :: after))
        (object (before ++ (name, value') :: after))
  | item {shape : Shape} {before after : List Json} {value value' : Json}
      (hfills : Fills shape value value') :
      Fills (list shape) (array (before ++ value :: after)) (array (before ++ value' :: after))

/-- The document leaves out the optional member to which the path leads. -/
inductive Omits : Shape → List Step → Json → Prop
  | member {defaults members : Members} {optionals : List String}
      {parts : List (String × Shape)} {name : String}
      (hname : name ∈ optionals) (habsent : name ∉ members.map Prod.fst) :
      Omits (record defaults optionals parts) [.member name] (object members)
  | part {defaults members : Members} {optionals : List String}
      {parts : List (String × Shape)} {name : String} {shape : Shape} {path : List Step}
      {value : Json} (hpart : (name, shape) ∈ parts) (hvalue : (name, value) ∈ members)
      (homits : Omits shape path value) :
      Omits (record defaults optionals parts) (.member name :: path) (object members)
  | item {shape : Shape} {path : List Step} {items : List Json} {i : Nat} {value : Json}
      (hvalue : items[i]? = some value) (homits : Omits shape path value) :
      Omits (list shape) (.item i :: path) (array items)

variable {shape : Shape}

/-- The reader takes a document for what it takes it for when missing members are written out. -/
def FillsAlike (shape : Shape) (decode : Json → Option α) : Prop :=
  ∀ ⦃document document' : Json⦄, shape.Fills document document' →
    decode document' = decode document

/-- What is left out of a document that is read is left out when the value is written. -/
def StaysOmitted (shape : Shape) (encode : α → Json) (decode : Json → Option α) : Prop :=
  ∀ ⦃document : Json⦄ ⦃value : α⦄ ⦃path : List Step⦄, decode document = some value →
    shape.Omits path document → shape.Omits path (encode value)

/-- No other members may be left out: what is written of a value that was read of an object is a
member of the object, or one that may be missing. -/
def IsExhaustive (shape : Shape) (encode : α → Json) (decode : Json → Option α) : Prop :=
  ∀ ⦃members written : Members⦄ ⦃value : α⦄, decode (object members) = some value →
    encode value = object written →
      ∀ name ∈ written.map Prod.fst, name ∈ members.map Prod.fst ∨ name ∈ shape.missable

theorem FillsAlike.list (h : shape.FillsAlike decode) :
    (Shape.list shape).FillsAlike (list? decode) := by
  rintro _ _ ⟨⟩
  next hfills => simp [list?, array?, List.mapM_append, h hfills]

/-- Null has no members that may be missing. -/
theorem FillsAlike.nullable (h : shape.FillsAlike decode) :
    shape.FillsAlike (Members.nullable decode) := by
  intro document document' hfills
  have hread := h hfills
  cases hfills <;> exact congrArg (Option.map some) hread

theorem StaysOmitted.list (h : shape.StaysOmitted encode decode) :
    (Shape.list shape).StaysOmitted (fun values ↦ array (values.map encode)) (list? decode) := by
  rintro _ values _ hread ⟨⟩
  next hitem homits =>
    obtain ⟨value, hvalue, hdecode⟩ := exists_of_list? hread hitem
    exact .item (by simp [hvalue]) (h hdecode homits)

/-- A value is read of a part in which a member is left out: the part is not null. -/
theorem StaysOmitted.nullable (h : shape.StaysOmitted encode decode) {document : Json}
    {found : Option α} {path : List Step} (hread : Members.nullable decode document = some found)
    (homits : shape.Omits path document) :
    ∃ value, found = some value ∧ shape.Omits path (encode value) := by
  have hvalue : Members.nullable decode document = (decode document).map some := by
    cases homits <;> rfl
  rw [hvalue] at hread
  obtain ⟨value, hdecode, rfl⟩ := Option.map_eq_some_iff.mp hread
  exact ⟨value, rfl, h hdecode homits⟩

end Shape

/-! ### Values that are written without a loss -/

/-- A value is read from what is written of it, which is exact and not null. -/
structure Lossless (encode : α → Json) (decode : Json → Option α) : Prop where
  decode_encode : ∀ value, decode (encode value) = some value
  isExact : ∀ value, (encode value).isExact = true
  isNull : ∀ value, (encode value).isNull = false

namespace Lossless

theorem nullable (h : Lossless encode decode) (value : α) :
    Members.nullable decode (encode value) = some (some value) := by
  have hsome : Members.nullable decode (encode value) = (decode (encode value)).map some := by
    have hnull := h.isNull value
    cases hwritten : encode value with
    | null =>
      rw [hwritten] at hnull
      cases hnull
    | _ => rfl
  rw [hsome, h.decode_encode, Option.map_some]

theorem isExact_member (h : Lossless encode decode) (name : String) (value : α) :
    isExactMembers [(name, encode value)] = true := by
  rw [isExactMembers, h.isExact]
  rfl

theorem string : Lossless string string? := ⟨fun _ ↦ rfl, fun _ ↦ rfl, fun _ ↦ rfl⟩

theorem bool : Lossless bool bool? := ⟨fun _ ↦ rfl, fun _ ↦ rfl, fun _ ↦ rfl⟩

theorem uint32 : Lossless (fun n : UInt32 ↦ integer n.toNat) uint32? :=
  ⟨uint32?_toNat, isWordSized_toNat, fun _ ↦ rfl⟩

theorem int64 : Lossless (fun n : Int64 ↦ integer n.toInt) int64? :=
  ⟨int64?_toInt, isWordSized_toInt, fun _ ↦ rfl⟩

theorem list (h : Lossless encode decode) :
    Lossless (fun values ↦ array (values.map encode)) (list? decode) where
  decode_encode := list?_map h.decode_encode
  isExact values := by
    change isExactItems (values.map encode) = true
    rw [isExactItems_eq_all, List.all_map, List.all_eq_true]
    exact fun value _ ↦ h.isExact value
  isNull _ := rfl

theorem strings : Lossless strings strings? := Lossless.string.list

end Lossless

/-- Values are written and read without a loss, as documents and as texts. A document that is read
is written as one that is read as the same value; it is read like those that it fills or that fill
it, and what it leaves out stays out. -/
structure RoundTrips (shape : Shape) (encode : α → Json) (decode : Json → Option α) : Prop
    extends Lossless encode decode where
  decode_text : ∀ value, (ofText? (encode value).text).bind decode = some value
  settles : ∀ {document : Json} {value : α}, decode document = some value →
    decode (encode value) = some value
  fillsAlike : shape.FillsAlike decode
  staysOmitted : shape.StaysOmitted encode decode
  isExhaustive : shape.IsExhaustive encode decode

namespace RoundTrips

variable {shape : Shape}

/-- What is written without a loss as a document is so as a text. -/
theorem of_lossless (h : Lossless encode decode) (hfills : shape.FillsAlike decode)
    (homitted : shape.StaysOmitted encode decode) (hexhaustive : shape.IsExhaustive encode decode) :
    RoundTrips shape encode decode where
  toLossless := h
  decode_text value := by
    rw [text, ofText?_render Lexeme.faithful_escape (h.isExact value)]
    exact h.decode_encode value
  settles _ := h.decode_encode _
  fillsAlike := hfills
  staysOmitted := homitted
  isExhaustive := hexhaustive

theorem list (h : RoundTrips shape encode decode) :
    RoundTrips (.list shape) (fun values ↦ array (values.map encode)) (list? decode) :=
  of_lossless h.toLossless.list h.fillsAlike.list h.staysOmitted.list
    (fun _ _ _ hread ↦ nomatch hread)

end RoundTrips

end Json

end PipelineOperator
