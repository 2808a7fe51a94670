import PipelineOperator.Cluster.Journal
import PipelineOperator.Cluster.Program

/-!
A bench on which the operator is tried out: a cluster in memory with switches that make creations or
status writes fail. Its journal is that of a client, who knows what was sent and not what came of
it: a status or a job's configuration counts as written when it was sent, even for an object that is
not there.
-/

set_option autoImplicit false
set_option relaxedAutoImplicit false

namespace PipelineOperator

structure Bench where
  store : Store := {}
  namespacesForbidden : Bool := false
  spacesForbidden : Bool := false
  /-- The cluster does not know the status as a part to be written on its own. -/
  statusUnknown : Bool := false
  journal : List Write := []
  metrics : Metrics := {}
deriving DecidableEq

namespace Bench

/-- Why a switch keeps the cluster from serving a request. -/
def refusal? (b : Bench) : Request → Option Cause
  | .create .ns _ =>
    if b.namespacesForbidden then some (.other "namespaces is forbidden") else none
  | .create .space _ =>
    if b.spacesForbidden then some (.other "spaces.tenancy.kiosk.sh is forbidden") else none
  | .writeStatus _ _ =>
    if b.statusUnknown then some (.other "the server could not find the requested resource")
    else none
  | _ => none

/-- Creations, replacements and deletions are in the journal if they take effect; the writes of a
part of an object are there in any case. -/
def journals (s : Store) (w : Write) : Bool :=
  match w.action with
  | .status => true
  | .patch => true
  | _ => s.admits w

/-- A stage that does not state its namespace is in no list. -/
def shown (request : Request) (found : Except Fault request.Reply) : Except Fault request.Reply :=
  match request, found with
  | .listStages .., .ok stages => .ok (stages.filter (fun s ↦ s.metadata.ns.isSome))
  | _, found => found

def answer (request : Request) (b : Bench) : Except Fault request.Reply × Bench :=
  match b.refusal? request with
  | some cause => (.error (.ofCause cause), b)
  | none =>
    let (found, store) := Store.answer request b.store
    let written := request.write?.filter (journals b.store)
    (shown request found, { b with store, journal := b.journal ++ written.toList })

def backend : Backend Bench where
  answer := answer
  record observation b := { b with metrics := b.metrics.observe observation }

/-- A write as the journal of the bench shows it: objects outside of namespaces by name alone. -/
def entry (w : Write) : String :=
  if w.kind.isClusterScoped then w.action.text ++ " " ++ w.kind.name ++ " " ++ w.key.name
  else w.text

def put {k : Kind} (b : Bench) (o : Object k) : Bench := { b with store := b.store.put o }

end Bench

end PipelineOperator
