import PipelineOperator.Json.Record

/-!
Schemas of documents, as the cluster checks objects against them. A schema is built up from a form
by remarks: what it describes, what stands for it when it is absent, and whether it may be null. Of
the fields of a record those have to be there that neither have a default nor may be null.
-/

set_option autoImplicit false
set_option relaxedAutoImplicit false

namespace PipelineOperator

inductive Schema where
  | text
  | flag
  | integer (format : String)
  | choice (names : List String)
  | list (item : Schema)
  | record (fields : List (String × Schema))
  | described (description : String) (schema : Schema)
  | defaulted (value : Json) (schema : Schema)
  | nullable (schema : Schema)
  | titled (title : String) (schema : Schema)

namespace Schema

/-- The field may be absent. -/
def isOptional : Schema → Bool
  | defaulted .. => true
  | nullable _ => true
  | described _ schema => schema.isOptional
  | titled _ schema => schema.isOptional
  | _ => false

/-- The names of the fields that have to be there, in their order. -/
def requiredNames (fields : List (String × Schema)) : List String :=
  ((fields.filter (fun f ↦ !f.2.isOptional)).map (·.1)).mergeSort

/-- Integers without a sign have zero as their least. -/
def minimum (format : String) : List (String × Json) :=
  if format.startsWith "uint" then [("minimum", .real { digits := 0, exponent := 0 })] else []

def typed (name : String) : String × Json := ("type", .string name)

def requiredMember (names : List String) : List (String × Json) :=
  if names.isEmpty then [] else [("required", Json.strings names)]

mutual

def members : Schema → List (String × Json)
  | text => [typed "string"]
  | flag => [typed "boolean"]
  | integer format => [typed "integer", ("format", .string format)] ++ minimum format
  | choice names => [typed "string", ("enum", Json.strings names)]
  | list item => [typed "array", ("items", .object item.members)]
  | record fields =>
    [typed "object", ("properties", .object (properties fields))] ++
      requiredMember (requiredNames fields)
  | described description schema => ("description", .string description) :: schema.members
  | defaulted value schema => ("default", value) :: schema.members
  | nullable schema => ("nullable", .bool true) :: schema.members
  | titled title schema => ("title", .string title) :: schema.members

def properties : List (String × Schema) → List (String × Json)
  | [] => []
  | (name, schema) :: rest => (name, .object schema.members) :: properties rest

end

/-- The schema as a document. -/
def encode (schema : Schema) : Json := (Json.object schema.members).canonical

/-- A text that is empty when it is absent. -/
def blankText : Schema := defaulted (.string "") text

/-- A list that is empty when it is absent. -/
def emptyList (item : Schema) : Schema := defaulted (.array []) (list item)

end Schema

end PipelineOperator
