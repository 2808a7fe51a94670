import PipelineOperator.Leadership.Lease
import PipelineOperator.Metrics.Basic

/-!
A replica that competes for the lease. It reads the lease, creating it where there is none, takes it
when it is open, and waits while another one's hold lasts. As the holder it renews the hold before
it runs out and then looks whether it still is the holder. What fails is tried again after a pause.
Waiting takes virtual milliseconds, in which the wall clock does not move.
-/

set_option autoImplicit false
set_option relaxedAutoImplicit false

namespace PipelineOperator

/-- Who competes, where, and the time on the wall clock. -/
structure Candidate where
  identity : String
  ns : String
  now : Int := 0
deriving DecidableEq

/-- How an attempt to become or to stay the holder stands. One that has failed is given up. -/
inductive Standing where
  | waiting
  | holding
  | beaten
  | failed
deriving DecidableEq

/-- How an attempt stands, with the lease as it was last seen. -/
abbrev Progress := Standing × Lease × LeaseServer

namespace Candidate

/-- Seconds before its end at which a hold is renewed. -/
def grace : Int := 5

/-- The pause after a fault, in milliseconds, which doubles with every fault before it. -/
def pause (before : Nat) : Nat := min 30000 (1000 <<< min before 6)

/-- Milliseconds from now to a time of the wall clock. -/
def millisUntil (c : Candidate) (time : Int) : Nat := 1000 * (time - c.now).toNat

def holds (c : Candidate) (lease : Lease) : Bool := lease.holder == some c.identity

/-- Makes sure that there is a lease, and tells whether that could be done. If the lease has come to
be between the look at it and its creation, it is looked at again. -/
def prepare (c : Candidate) (s : LeaseServer) : Bool × LeaseServer :=
  if (Target.ofText? (Lease.path c.ns)).isNone then (false, s)
  else match s.read c.ns with
    | (.ok _, s) => (true, s)
    | (.error (.refused 404), s) =>
      match s.create c.ns with
      | (.ok _, s) => (true, s)
      | (.error .occupied, s) =>
        let (seen, s) := s.read c.ns
        (seen.toOption.isSome, s)
      | (.error _, s) => (false, s)
    | (.error _, s) => (false, s)

/-- Takes a lease that is open, from its last holder if it has one, and counts that. -/
def seize (c : Candidate) (lease : Lease) (s : LeaseServer) :
    Except LeaseFault Lease × LeaseServer :=
  let (freed, s) :=
    if lease.holder.isSome then s.change c.ns Lease.free else (.ok lease, s)
  match freed with
  | .error fault => (.error fault, s)
  | .ok _ =>
    match s.change c.ns (fun l ↦ l.take c.identity c.now) with
    | (.error fault, s) => (.error fault, s)
    | (.ok taken, s) =>
      if taken.countTransition.isReadable then s.change c.ns Lease.countTransition
      else (.error .uncountable, s)

/-- Competes for the lease as long as the time lasts; the time is in milliseconds, and the lease is
looked at no more often than the steps allow. -/
def compete (c : Candidate) (time : Nat) (faults : Nat) (s : LeaseServer) :
    (steps : Nat) → Progress
  | 0 => (.waiting, {}, s)
  | steps + 1 =>
    let rest (pause : Nat) (faults : Nat) (s : LeaseServer) : Progress :=
      if pause < time then compete c (time - pause) faults s steps else (.waiting, {}, s)
    match s.read c.ns with
    | (.error _, s) => rest (pause faults) (faults + 1) s
    | (.ok lease, s) =>
      if !lease.isSound then (.failed, lease, s)
      else if c.holds lease then (.holding, lease, s)
      else if lease.isExpired c.now then
        match c.seize lease s with
        | (.ok lease, s) => (.holding, lease, s)
        | (.error .uncountable, s) => (.failed, lease, s)
        | (.error _, s) => rest (pause faults) (faults + 1) s
      else rest (c.millisUntil lease.expiry) 0 s

/-- What a holder makes of a lease that it finds in other hands. If nobody holds it, it leaves it
open to anyone. -/
def concede (c : Candidate) (lease : Lease) (s : LeaseServer) : Progress :=
  (.beaten, lease, if lease.holder.isNone then (s.change c.ns Lease.free).2 else s)

/-- The lease as a holder knows it after it could not be read: not at all if there is none. -/
def viewAfter (fault : LeaseFault) (view : Lease) : Lease := if fault = .absent then {} else view

/-- Holds the lease as long as the time lasts and nobody else has taken it. A hold that lasts is
renewed in time and then looked at; one that ran out is looked at before it is renewed, and may then
turn out to be open, or lost. After a fault there is a pause, and then the time until the hold has
to be renewed passes once more. Who finds the lease open after a pause has one attempt to take it.
-/
def hold (c : Candidate) (view : Lease) (time : Nat) (delay faults : Nat) (s : LeaseServer) :
    (steps : Nat) → Progress
  | 0 => (.holding, view, s)
  | steps + 1 =>
    let wait := delay + c.millisUntil (view.expiry - grace)
    if time ≤ wait then (.holding, view, s)
    else
      let again (view : Lease) (s : LeaseServer) : Progress :=
        hold c view (time - wait) (pause faults) (faults + 1) s steps
      let keep (lease : Lease) (s : LeaseServer) : Progress :=
        hold c lease (time - wait) 0 0 s steps
      let renew (view : Lease) (s : LeaseServer) : Progress :=
        match s.change c.ns (fun l ↦ l.renew c.now) with
        | (.error _, s) => again view s
        | (.ok _, s) =>
          match s.read c.ns with
          | (.error fault, s) => again (viewAfter fault view) s
          | (.ok lease, s) =>
            if !lease.isSound then (.failed, lease, s)
            else if c.holds lease then keep lease s
            else c.concede lease s
      if !view.isExpired c.now then renew view s
      else match s.read c.ns with
        | (.error fault, s) => again (viewAfter fault view) s
        | (.ok lease, s) =>
          if !lease.isSound then (.failed, lease, s)
          else if c.holds lease then renew lease s
          else if lease.isExpired c.now then
            match c.seize lease s with
            | (.ok lease, s) => keep lease s
            | (.error .uncountable, s) => (.failed, lease, s)
            | (.error _, s) => if delay = 0 then again lease s else (.beaten, lease, s)
          else c.concede lease s

/-- Steps that a stretch of time can take at most: every one but the last few takes a second. -/
def stepsIn (time : Nat) : Nat := time / 1000 + 8

/-- Competes for the lease for some milliseconds. Without a lease to compete for nothing is counted.
-/
def acquire (c : Candidate) (time : Nat) (s : LeaseServer) :
    Standing × Lease × List Observation × LeaseServer :=
  let (ready, s) := c.prepare s
  if !ready then (.failed, {}, [], s)
  else
    let (standing, view, s) := c.compete time 0 s (stepsIn time)
    let won := if standing = .holding then [Observation.leading c.identity true] else []
    (standing, view, .leading c.identity false :: won, s)

/-- Leads for some milliseconds, or until the lease is lost. -/
def lead (c : Candidate) (view : Lease) (time : Nat) (s : LeaseServer) :
    Standing × Lease × List Observation × LeaseServer :=
  let (standing, view, s) := c.hold view time 0 0 s (stepsIn time)
  let lost := if standing = .holding then [] else [Observation.leading c.identity false]
  (standing, view, lost, s)

/-- Gives the lease up if this replica holds it as far as it knows, or as a look at the lease tells
if it knows of no hold that lasts. -/
def giveUp (c : Candidate) (view : Lease) (s : LeaseServer) : LeaseServer :=
  let (held, s) :=
    if view.isExpired c.now then
      let (seen, s) := s.read c.ns
      (seen.toOption.any c.holds, s)
    else (c.holds view, s)
  if held then (s.change c.ns Lease.free).2 else s

/-- Ends the attempt. Whether or not the lease can be given up, the replica leads no more. -/
def release (c : Candidate) (standing : Standing) (view : Lease) (s : LeaseServer) :
    List Observation × LeaseServer :=
  ([.leading c.identity false], if standing = .failed then s else c.giveUp view s)

end Candidate

end PipelineOperator
