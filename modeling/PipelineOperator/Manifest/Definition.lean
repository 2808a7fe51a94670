import PipelineOperator.Manifest.Catalogue

/-!
Definitions of kinds: the documents by which a cluster learns a kind, with its names, the columns
that listings show, and the schema of its objects.
-/

set_option autoImplicit false
set_option relaxedAutoImplicit false

namespace PipelineOperator

/-- A column of a listing, and where its values are found. -/
structure Column where
  name : String
  type : String
  path : String
deriving DecidableEq

namespace Kind

/-- What the kind is for, in one sentence. -/
def summary : Kind → String
  | stage => "Stage is one deployment environment in a CDPipeline's ordered promotion path."
  | pipeline => "CDPipeline groups applications and the image streams they are delivered through across an ordered set of Stages."
  | k => "Auto-generated derived type for " ++ k.name ++ "Spec via `CustomResource`"

def shortNames : Kind → List String
  | pipeline => ["cdp"]
  | _ => []

def columns : Kind → List Column
  | stage => [⟨"Order", "integer", ".spec.order"⟩, ⟨"Status", "string", ".status.status"⟩]
  | pipeline => [⟨"Available", "boolean", ".status.available"⟩]
  | _ => []

/-- The schema of whole objects, where the content has one. -/
def schema? (k : Kind) : Option Schema := do
  let spec ← k.specSchema?
  let status := k.statusSchema?.toList.map (fun s ↦ ("status", Schema.nullable s))
  return .titled k.name (.described k.summary (.record (("spec", spec) :: status)))

end Kind

namespace Definition

def column (c : Column) : Json :=
  .object [("jsonPath", .string c.path), ("name", .string c.name), ("type", .string c.type)]

def names (k : Kind) : Json :=
  .object [("categories", .array []), ("kind", .string k.name), ("plural", .string k.plural),
    ("shortNames", Json.strings k.shortNames), ("singular", .string k.name.toLower)]

/-- The only version of a kind, which is both served and stored. -/
def version (k : Kind) (schema : Schema) : Json :=
  .object [("additionalPrinterColumns", .array (k.columns.map column)),
    ("name", .string k.version),
    ("schema", .object [("openAPIV3Schema", schema.encode)]),
    ("served", .bool true),
    ("storage", .bool true),
    ("subresources", .object
      (if k.statusSchema?.isSome then [("status", .object [])] else []))]

/-- The definition of a kind, unless the cluster defines it itself. -/
def ofKind? (k : Kind) : Option Json := do
  let schema ← k.schema?
  return .object [("apiVersion", .string "apiextensions.k8s.io/v1"),
    ("kind", .string "CustomResourceDefinition"),
    ("metadata", .object [("name", .string (k.plural ++ "." ++ k.group))]),
    ("spec", .object [
      ("group", .string k.group),
      ("names", names k),
      ("scope", .string (if k.isClusterScoped then "Cluster" else "Namespaced")),
      ("versions", .array [version k schema])])]

end Definition

end PipelineOperator
