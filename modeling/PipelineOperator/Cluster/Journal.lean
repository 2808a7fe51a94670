import PipelineOperator.Cluster.Store

/-!
The journal of a cluster: which objects were written, how, and in which order. `Store.writeOf` tells
which write a request amounts to; reads, and requests that change nothing, amount to none.
-/

set_option autoImplicit false
set_option relaxedAutoImplicit false

namespace PipelineOperator

inductive WriteAction where
  | create
  | update
  | status
  | patch
  | delete
deriving DecidableEq

namespace WriteAction

def text : WriteAction → String
  | create => "create"
  | update => "update"
  | status => "status"
  | patch => "patch"
  | delete => "delete"

end WriteAction

structure Write where
  action : WriteAction
  kind : Kind
  key : Key
deriving DecidableEq

namespace Write

def text (w : Write) : String := w.action.text ++ " " ++ w.kind.name ++ " " ++ w.key.text

end Write

namespace Request

/-- The write that a request asks for. -/
def write? : Request → Option Write
  | create k o => some ⟨.create, k, o.key⟩
  | replace k o => some ⟨.update, k, o.key⟩
  | writeStatus k o => some ⟨.status, k, o.key⟩
  | setJobConfig key _ => some ⟨.patch, .jenkinsJob, key⟩
  | delete k key => some ⟨.delete, k, key⟩
  | _ => none

end Request

namespace Store

/-- A write takes effect: creations on absent objects, all others on present ones. -/
def admits (s : Store) (w : Write) : Bool :=
  match w.action with
  | .create => (s.find? w.kind w.key).isNone
  | _ => (s.find? w.kind w.key).isSome

/-- The write that a request amounts to in a store. -/
def writeOf (s : Store) (request : Request) : Option Write :=
  request.write?.filter s.admits

/-- A request that amounts to no write leaves the store as it is. -/
theorem answer_of_writeOf_eq_none {s : Store} {request : Request}
    (h : s.writeOf request = none) : (answer request s).2 = s := by
  cases request with
  | get k key => rfl
  | listStages ns p => rfl
  | jenkinsEnabled ns => rfl
  | create k o =>
    cases ho : s.find? k o.key <;>
      simp_all [writeOf, Request.write?, admits, answer, create]
  | replace k o =>
    cases ho : s.find? k o.key <;>
      simp_all [writeOf, Request.write?, admits, answer, replace]
  | writeStatus k o =>
    cases ho : s.find? k o.key <;>
      simp_all [writeOf, Request.write?, admits, answer, writeStatus]
  | setJobConfig key config =>
    cases ho : s.find? .jenkinsJob key <;>
      simp_all [writeOf, Request.write?, admits, answer, setJobConfig]
  | delete k key =>
    have habsent : s.find? k key = none := by
      cases ho : s.find? k key <;> simp_all [writeOf, Request.write?, admits]
    refine ext_find fun k' key' ↦ ?_
    by_cases hk : k' = k
    · subst hk
      by_cases hkey : key' = key
      · subst hkey; simp [answer, habsent]
      · simp [answer, find?_remove_of_key_ne s k' hkey]
    · simp [answer, find?_remove_of_kind_ne s hk]

end Store

end PipelineOperator
