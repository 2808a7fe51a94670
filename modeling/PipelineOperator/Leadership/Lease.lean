import PipelineOperator.Net.Exchange
import PipelineOperator.Naming

/-!
The lease for which replicas compete, and the server that keeps it. A lease names its holder and how
long the hold lasts from its last renewal; once that ran out, the lease is open to anyone. Each
write changes some parts of the lease and leaves the others.
-/

set_option autoImplicit false
set_option relaxedAutoImplicit false

namespace PipelineOperator

/-- Times are seconds of the wall clock. -/
structure Lease where
  holder : Option String := none
  duration : Option Int := none
  acquired : Option Int := none
  renewed : Option Int := none
  /-- How often the lease was taken. -/
  transitions : Option Int := none
deriving DecidableEq

namespace Lease

/-- Seconds for which a hold lasts. -/
def holdSeconds : Int := 15

/-- When the hold runs out. -/
def expiry (l : Lease) : Int := l.renewed.getD 0 + l.duration.getD 0

def isExpired (l : Lease) (now : Int) : Bool := l.expiry ≤ now

/-- The numbers of the lease fit into their words. -/
def isReadable (l : Lease) : Bool :=
  (l.duration.toList ++ l.transitions.toList).all (fun n ↦
    Int32.minValue.toInt ≤ n && n ≤ Int32.maxValue.toInt)

/-- A hold does not last for less than no time. -/
def isSound (l : Lease) : Bool := l.duration.all (0 ≤ ·)

/-- The lease in the hands of a new holder. -/
def take (l : Lease) (identity : String) (now : Int) : Lease :=
  { l with
    holder := some identity
    duration := some holdSeconds
    acquired := some now
    renewed := some now }

def countTransition (l : Lease) : Lease := { l with transitions := some (l.transitions.getD 0 + 1) }

/-- Whoever holds the lease holds it on. If nobody does, nobody can take it for that time. -/
def renew (l : Lease) (now : Int) : Lease :=
  { l with duration := some holdSeconds, renewed := some now }

/-- Nobody holds the lease any more. -/
def free (l : Lease) : Lease :=
  { l with holder := none, duration := none, acquired := none, renewed := none }

/-- The path of the leases of a namespace. -/
def collectionPath (ns : String) : String :=
  "/apis/coordination.k8s.io/v1/namespaces/" ++ ns ++ "/leases"

def path (ns : String) : String := collectionPath ns ++ "/" ++ Naming.leaderLease

end Lease

/-- Requests of a method are refused with a code, a number of times or always. -/
structure Outage where
  method : HttpMethod
  code : Nat
  remaining : Option Nat := none
deriving DecidableEq

namespace Outage

/-- The code with which a request of the method is refused if it is, and the outages after it. -/
def strike (method : HttpMethod) : List Outage → Option Nat × List Outage
  | [] => (none, [])
  | outage :: rest =>
    if outage.method = method ∧ outage.remaining ≠ some 0 then
      (some outage.code, { outage with remaining := outage.remaining.map (· - 1) } :: rest)
    else
      let (struck, rest) := strike method rest
      (struck, outage :: rest)

end Outage

/-- Why a request about the lease came to nothing. -/
inductive LeaseFault where
  | refused (code : Nat)
  /-- There is a lease already. -/
  | occupied
  | unreadable
  /-- The lease was taken as often as can be counted. -/
  | uncountable
deriving DecidableEq

namespace LeaseFault

def absent : LeaseFault := refused 404

end LeaseFault

/-- The server that keeps the lease, with the requests that it got. -/
structure LeaseServer where
  lease : Option Lease := none
  outages : List Outage := []
  requests : List (HttpMethod × String) := []
deriving DecidableEq

namespace LeaseServer

/-- Takes in a request to a target, and tells how it fails if it does. -/
def receive (s : LeaseServer) (method : HttpMethod) (target : String) :
    Option LeaseFault × LeaseServer :=
  let (code, outages) := Outage.strike method s.outages
  let path := ((Target.ofText? target).map Target.path).getD target
  (code.map .refused, { s with outages, requests := s.requests ++ [(method, path)] })

/-- What a request finds out: nothing if it fails, or if there is no lease, or none to be read. -/
def found (s : LeaseServer) (failure : Option LeaseFault) : Except LeaseFault Lease :=
  match failure, s.lease with
  | some fault, _ => .error fault
  | none, none => .error .absent
  | none, some lease => if lease.isReadable then .ok lease else .error .unreadable

def read (ns : String) (s : LeaseServer) : Except LeaseFault Lease × LeaseServer :=
  let (failure, s) := s.receive .get (Lease.path ns)
  (s.found failure, s)

/-- Creates the lease with nothing in it, unless there is one. -/
def create (ns : String) (s : LeaseServer) : Except LeaseFault Lease × LeaseServer :=
  let (failure, s) := s.receive .post (Lease.collectionPath ns)
  if failure.isSome then (s.found failure, s)
  else if s.lease.isSome then (.error .occupied, s)
  else (.ok {}, { s with lease := some {} })

/-- Changes the lease if there is one, and shows what has become of it. -/
def change (ns : String) (f : Lease → Lease) (s : LeaseServer) :
    Except LeaseFault Lease × LeaseServer :=
  let (failure, s) := s.receive .patch (Lease.path ns)
  let s := if failure.isSome then s else { s with lease := s.lease.map f }
  (s.found failure, s)

end LeaseServer

end PipelineOperator
