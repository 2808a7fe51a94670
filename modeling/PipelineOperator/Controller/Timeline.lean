import PipelineOperator.Cluster.Memory
import PipelineOperator.Controller.Agenda
import PipelineOperator.Controller.Basic

/-!
A controller over a stretch of time, on a cluster in memory that others change meanwhile. Time
passes in half seconds: what others do happens in the middle of a second, and what falls due at the
same moment happens after it, once for each object. The controller knows of an object what it was
last told; what it writes itself it is not told.
-/

set_option autoImplicit false
set_option relaxedAutoImplicit false

namespace PipelineOperator

/-- What others did to an object. -/
inductive Deed where
  | stored
  | removed
deriving DecidableEq

/-- What others do in the course of time, and in which second. -/
structure Incident where
  second : Nat
  deed : Deed
  object : Sigma Object
  /-- The version that the object gets. -/
  version : String

/-- The course of a controller for the objects of a kind. -/
structure Timeline (k : Kind) where
  cluster : Memory
  known : Table k := ∅
  agenda : Agenda := ∅
  /-- The reconciliations so far, each with its second. -/
  attended : List (Nat × Key) := []
  /-- The controller's writes so far, each with its second. -/
  written : List (Nat × Write) := []

namespace Timeline

/-- Two moments make a second. -/
def secondOf (moment : Nat) : Nat := moment / 2

/-- The moment at which an incident of a second happens. -/
def momentOf (second : Nat) : Nat := 2 * second + 1

variable (c : Controller) (context : Context) (ns : String)

/-- The controller has come to know the objects of its namespace, and is to look at all of them. -/
def start (cluster : Memory) : Timeline c.kind :=
  let listed := (cluster.store.table c.kind).filter (fun key _ ↦ key.ns == ns)
  { cluster, known := listed
    agenda := listed.keys.foldl (fun a key ↦ a.request key 0) ∅ }

/-- The controller looks at its own objects on account of any object. -/
def follow (moment : Nat) (k : Kind) (o : Object k) (t : Timeline c.kind) : Timeline c.kind :=
  { t with agenda := (c.related k o t.known.values).foldl (fun a related ↦
      a.request related.key moment) t.agenda }

/-- What the controller comes to know of an object of its own kind. -/
def learn (moment : Nat) (deed : Deed) (o : Object c.kind) (t : Timeline c.kind) :
    Timeline c.kind :=
  match deed with
  | .stored => { t with known := t.known.insert o.key o, agenda := t.agenda.request o.key moment }
  | .removed => { t with known := t.known.erase o.key }

/-- The controller is told what happened to an object of any namespace. -/
def tell (moment : Nat) (deed : Deed) (k : Kind) (o : Object k) (t : Timeline c.kind) :
    Timeline c.kind :=
  if h : k = c.kind then follow c moment k o (learn c moment deed (h ▸ o) t)
  else follow c moment k o t

/-- Others do something to the cluster. -/
def happen (t : Timeline c.kind) (incident : Incident) : Timeline c.kind :=
  let ⟨k, o⟩ := incident.object
  let o := { o with metadata := { o.metadata with resourceVersion := some incident.version } }
  let store := match incident.deed with
    | .stored => t.cluster.store.put o
    | .removed => t.cluster.store.remove k o.key
  tell c (momentOf incident.second) incident.deed k o { t with cluster := { t.cluster with store } }

/-- Reconciles an object that is due. One that is no longer known is passed over. -/
def attend (moment : Nat) (t : Timeline c.kind) (key : Key) : Timeline c.kind :=
  let t := { t with agenda := t.agenda.erase key }
  if !t.known.contains key then t
  else
    let second := secondOf moment
    let (delay, cluster) :=
      (c.attend context key).run Memory.backend { t.cluster with journal := [] }
    { t with
      cluster
      agenda := match delay with
        | some seconds => t.agenda.request key (moment + 2 * seconds)
        | none => t.agenda
      attended := t.attended ++ [(second, key)]
      written := t.written ++ cluster.journal.map (fun w ↦ (second, w)) }

/-- All that happens at a moment. -/
def pass (incidents : List Incident) (t : Timeline c.kind) (moment : Nat) : Timeline c.kind :=
  let now := incidents.filter (fun i ↦ momentOf i.second = moment)
  let t := now.foldl (happen c) t
  (t.agenda.due moment).foldl (attend c context moment) t

/-- The course of a controller up to the end of a second. -/
def run (incidents : List Incident) (seconds : Nat) (cluster : Memory) : Timeline c.kind :=
  (List.range (momentOf seconds + 1)).foldl (pass c context incidents)
    (start c ns cluster)

end Timeline

end PipelineOperator
