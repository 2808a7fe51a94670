import PipelineOperator.Cluster.Store
import PipelineOperator.Json.Text

/-!
The objects of a store as documents, each under its kind and key, and what differs between two such
snapshots.
-/

set_option autoImplicit false
set_option relaxedAutoImplicit false

namespace PipelineOperator

/-- Documents by the kind and key of their object. -/
abbrev Snapshot := SortedMap String Json

namespace Snapshot

def nameOf {k : Kind} (o : Object k) : String := k.name ++ " " ++ o.key.text

def ofStore (s : Store) : Snapshot :=
  SortedMap.ofList (s.objects.map (fun ⟨_, o⟩ ↦ (nameOf o, o.encode)))

/-- The documents of the later snapshot that the earlier one does not have in the same form, and
null for those that only the earlier one has. -/
def changes (earlier later : Snapshot) : Snapshot :=
  let gone := earlier.toList.filterMap (fun e ↦
    if later.contains e.1 then none else some (e.1, Json.null))
  let changed := later.toList.filter (fun e ↦
    (earlier.get? e.1).map Json.text ≠ some e.2.text)
  SortedMap.ofList (gone ++ changed)

def encode (s : Snapshot) : Json := .object s.toList

end Snapshot

end PipelineOperator
