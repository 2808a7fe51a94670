import PipelineOperator.Json.Yaml
import PipelineOperator.Manifest.Definition

/-!
The files that hold the definitions of the operator's own kinds, and what is said while they are
written. Each file opens with a notice on where it comes from.
-/

set_option autoImplicit false
set_option relaxedAutoImplicit false

namespace PipelineOperator

/-- The notice at the head of a file. -/
structure Notice where
  mark : String
  year : Nat
  holders : List String
  terms : String
  origin : String
  generator : String
deriving DecidableEq

namespace Notice

def lines (n : Notice) : List String :=
  ["# " ++ n.mark ++ " (c) " ++ toString n.year ++ " " ++ String.intercalate ", " n.holders,
    "# SPDX-License-Identifier: " ++ n.terms,
    "#",
    "# This file is AUTO-GENERATED from " ++ n.origin,
    "# DO NOT EDIT MANUALLY - Run `" ++ n.generator ++ "` to regenerate",
    "#"]

end Notice

/-- A file with the definition of one kind. -/
structure ManifestFile where
  name : String
  kind : Kind
deriving DecidableEq

namespace ManifestFile

def all : List ManifestFile := [⟨"cdpipelines.crd.yaml", .pipeline⟩, ⟨"stages.crd.yaml", .stage⟩]

def find? (name : String) : Option ManifestFile := all.find? (fun f ↦ f.name == name)

/-- Where the files are written. -/
def folder : String := "deploy/crds"

def notice : Notice where
  mark := "Copyright"
  year := 2025
  holders := ["Erick Bourgeois", "firestoned"]
  terms := "MIT"
  origin := "src/crd.rs"
  generator := "cargo run --bin crdgen"

def text (file : ManifestFile) : String :=
  String.join (notice.lines.map (· ++ "\n")) ++
    match Definition.ofKind? file.kind with
    | some definition => Yaml.text definition
    | none => ""

/-- What is said while the files are written. -/
def progress : List String :=
  ["Generating CRD YAML files from " ++ notice.origin ++ "..."] ++
    all.map (fun file ↦ "  ✓ Generated " ++ file.name) ++
    ["✓ Successfully generated CRD YAML files in " ++ folder ++ "/",
      "",
      "Next steps:",
      "  1. Review the generated files",
      "  2. Deploy with: kubectl apply -f " ++ folder ++ "/"]

end ManifestFile

end PipelineOperator
