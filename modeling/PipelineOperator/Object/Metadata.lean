import PipelineOperator.Json.Record
import PipelineOperator.Naming
import PipelineOperator.SortedMap
import PipelineOperator.Time.Timestamp

/-!
What every object of the cluster carries beside its content: name and namespace, labels,
annotations, owners, and the finalizers that delay its deletion. Absent and empty are told apart,
as the cluster does.
-/

set_option autoImplicit false
set_option relaxedAutoImplicit false

namespace PipelineOperator

abbrev Labels := SortedMap String String

/-- Where an object is found among those of its kind. -/
structure Key where
  ns : String
  name : String
deriving DecidableEq

namespace Key

instance : Ord Key := ⟨compareLex (compareOn Key.ns) (compareOn Key.name)⟩

instance : Std.TransOrd Key :=
  inferInstanceAs (Std.TransCmp (compareLex (compareOn Key.ns) (compareOn Key.name)))

instance : Std.LawfulEqOrd Key where
  compare_self {a} := by
    have h (s : String) : compare s s = .eq := Std.ReflCmp.compare_self
    show (compare a.ns a.ns).then (compare a.name a.name) = .eq
    rw [h, h]
    rfl
  eq_of_compare {a b} h := by
    obtain ⟨ns, name⟩ := a
    obtain ⟨ns', name'⟩ := b
    have h : (compare ns ns').then (compare name name') = .eq := h
    rw [Ordering.then_eq_eq] at h
    rw [Std.LawfulEqOrd.eq_of_compare h.1, Std.LawfulEqOrd.eq_of_compare h.2]

/-- Namespace and name with a slash between them. -/
def text (k : Key) : String := k.ns ++ "/" ++ k.name

end Key

/-- A reference to an object whose deletion entails one's own. -/
structure OwnerReference where
  apiVersion : String
  controller : Option Bool := none
  blocksDeletion : Option Bool := none
  kind : String
  name : String
  uid : String
deriving DecidableEq

structure Metadata where
  name : Option String := none
  generateName : Option String := none
  ns : Option String := none
  uid : Option String := none
  generation : Option Int64 := none
  resourceVersion : Option String := none
  labels : Option Labels := none
  annotations : Option Labels := none
  finalizers : Option (List String) := none
  owners : Option (List OwnerReference) := none
  deletedAt : Option Instant := none
deriving DecidableEq

namespace Metadata

/-- The name, or the stem from which one would be made. -/
def anyName (m : Metadata) : String := (m.name.orElse (fun _ ↦ m.generateName)).getD ""

def namespaceOrEmpty (m : Metadata) : String := m.ns.getD ""

def labelMap (m : Metadata) : Labels := m.labels.getD ∅

def annotationMap (m : Metadata) : Labels := m.annotations.getD ∅

def finalizerList (m : Metadata) : List String := m.finalizers.getD []

def ownerList (m : Metadata) : List OwnerReference := m.owners.getD []

def label? (m : Metadata) (name : String) : Option String := m.labelMap.get? name

def annotation? (m : Metadata) (name : String) : Option String := m.annotationMap.get? name

def setLabel (m : Metadata) (name value : String) : Metadata :=
  { m with labels := some (m.labelMap.insert name value) }

def eraseLabel (m : Metadata) (name : String) : Metadata :=
  { m with labels := some (m.labelMap.erase name) }

def setAnnotation (m : Metadata) (name value : String) : Metadata :=
  { m with annotations := some (m.annotationMap.insert name value) }

def addOwner (m : Metadata) (owner : OwnerReference) : Metadata :=
  { m with owners := some (m.ownerList ++ [owner]) }

def isDeleting (m : Metadata) : Bool := m.deletedAt.isSome

def hasFinalizer (m : Metadata) (finalizer : String) : Bool := finalizer ∈ m.finalizerList

/-- The finalizers among some that the object lacks. -/
def missingFinalizers (m : Metadata) (finalizers : List String) : List String :=
  finalizers.filter (fun f ↦ !m.hasFinalizer f)

/-- Appends the missing ones among some finalizers, and tells whether there were any. -/
def ensureFinalizers (m : Metadata) (finalizers : List String) : Bool × Metadata :=
  let missing := m.missingFinalizers finalizers
  if missing.isEmpty then (false, m)
  else (true, { m with finalizers := some (m.finalizerList ++ missing) })

/-- Removes every occurrence of a finalizer, and tells whether there was one. -/
def removeFinalizer (m : Metadata) (finalizer : String) : Bool × Metadata :=
  if m.hasFinalizer finalizer then
    (true, { m with finalizers := m.finalizers.map (fun fs ↦ fs.filter (· != finalizer)) })
  else (false, m)

/-- Deletion is marked and nothing delays it any more. -/
def isReleased (m : Metadata) : Bool := m.isDeleting && m.finalizerList.isEmpty

end Metadata

namespace Instant

def decode (document : Json) : Option Instant := document.string?.bind ofText?

end Instant

namespace OwnerReference

open Json

def encode (o : OwnerReference) : Json :=
  .object ([("apiVersion", .string o.apiVersion)] ++
    member? "blockOwnerDeletion" .bool o.blocksDeletion ++
    member? "controller" .bool o.controller ++
    [("kind", .string o.kind), ("name", .string o.name), ("uid", .string o.uid)])

def decode (document : Json) : Option OwnerReference := do
  let r ← document.members?
  return {
    apiVersion := ← Members.lenient r "apiVersion" "" string?
    blocksDeletion := ← Members.optional r "blockOwnerDeletion" bool?
    controller := ← Members.optional r "controller" bool?
    kind := ← Members.lenient r "kind" "" string?
    name := ← Members.lenient r "name" "" string?
    uid := ← Members.lenient r "uid" "" string? }

end OwnerReference

namespace Metadata

open Json

def encodeLabels (labels : Labels) : Json :=
  .object (labels.toList.map (fun e ↦ (e.1, .string e.2)))

/-- Who manages fields is read and not kept. Which fields these are may be anything. -/
def decodeManager (document : Json) : Option Unit := do
  let r ← document.members?
  for name in ["apiVersion", "fieldsType", "manager", "operation", "subresource"] do
    let _ ← Members.optional r name string?
  let _ ← Members.optional r "time" Instant.decode

/-- The members that are read and not kept. -/
def decodeUnkept (r : Members) : Option Unit := do
  let _ ← Members.optional r "creationTimestamp" Instant.decode
  let _ ← Members.optional r "deletionGracePeriodSeconds" int64?
  let _ ← Members.optional r "managedFields" (list? decodeManager)
  let _ ← Members.optional r "selfLink" string?

/-- Label maps take the last of two members of one name. -/
def decodeLabels (document : Json) : Option Labels := do
  let entries ← (← document.members?).mapM (fun m ↦ (m.2.string?).map (fun v ↦ (m.1, v)))
  return SortedMap.ofList entries

def encode (m : Metadata) : Json :=
  .object (
    member? "annotations" encodeLabels m.annotations ++
    member? "deletionTimestamp" (fun t ↦ .string t.toSecond) m.deletedAt ++
    member? "finalizers" strings m.finalizers ++
    member? "generateName" .string m.generateName ++
    member? "generation" (fun g ↦ .integer g.toInt) m.generation ++
    member? "labels" encodeLabels m.labels ++
    member? "name" .string m.name ++
    member? "namespace" .string m.ns ++
    member? "ownerReferences" (fun os ↦ .array (os.map OwnerReference.encode)) m.owners ++
    member? "resourceVersion" .string m.resourceVersion ++
    member? "uid" .string m.uid)

def decode (document : Json) : Option Metadata := do
  let r ← document.members?
  decodeUnkept r
  return {
    annotations := ← Members.optional r "annotations" decodeLabels
    deletedAt := ← Members.optional r "deletionTimestamp" Instant.decode
    finalizers := ← Members.optional r "finalizers" strings?
    generateName := ← Members.optional r "generateName" string?
    generation := ← Members.optional r "generation" int64?
    labels := ← Members.optional r "labels" decodeLabels
    name := ← Members.optional r "name" string?
    ns := ← Members.optional r "namespace" string?
    owners := ← Members.optional r "ownerReferences" (list? OwnerReference.decode)
    resourceVersion := ← Members.optional r "resourceVersion" string?
    uid := ← Members.optional r "uid" string? }

end Metadata

end PipelineOperator
