import PipelineOperator.Cluster.Journal
import PipelineOperator.Cluster.Program

/-!
A cluster held in memory whose calls can be interfered with. A rule names a call, and the object it
is about if only that one is meant, and makes the call fail or hides what it would find. Rules are
looked at before a call acts, so a call that fails has no effect.
-/

set_option autoImplicit false
set_option relaxedAutoImplicit false

namespace PipelineOperator

namespace Kind

/-- The kind in the names of calls. -/
def callStem : Kind → String
  | stage => "stage"
  | pipeline => "pipeline"
  | imageStream => "image_stream"
  | component => "edp_component"
  | codebase => "codebase"
  | gitServer => "git_server"
  | jenkinsJob => "jenkins_job"
  | jenkinsFolder => "jenkins_folder"
  | jenkins => "jenkins"
  | space => "space"
  | ns => "namespace"
  | role => "role"
  | roleBinding => "role_binding"

end Kind

namespace Request

/-- The name of the call that makes a request. -/
def callName : Request → String
  | get k _ => "get_" ++ k.callStem
  | create k _ => "create_" ++ k.callStem
  | replace k _ => "update_" ++ k.callStem
  | writeStatus k _ => "update_" ++ k.callStem ++ "_status"
  | setJobConfig .. => "patch_jenkins_job_config"
  | delete k _ => "delete_" ++ k.callStem
  | listStages .. => "list_stages"
  | jenkinsEnabled _ => "jenkins_enabled"

/-- What a request is about: an object's name, the pipeline whose stages are listed, or the
namespace in which Jenkins is looked for. -/
def subject : Request → String
  | get _ key => key.name
  | create _ o => o.key.name
  | replace _ o => o.key.name
  | writeStatus _ o => o.key.name
  | setJobConfig key _ => key.name
  | delete _ key => key.name
  | listStages _ pipeline => pipeline.getD ""
  | jenkinsEnabled ns => ns

/-- The reply to a read that finds nothing. -/
def emptyReply? : (request : Request) → Option request.Reply
  | get .. => some none
  | listStages .. => some []
  | jenkinsEnabled _ => some false
  | create .. => none
  | replace .. => none
  | writeStatus .. => none
  | setJobConfig .. => none
  | delete .. => none

end Request

inductive Interference where
  | fail (cause : Cause)
  | hide
deriving DecidableEq

structure Rule where
  call : String
  subject : Option String := none
  interference : Interference
  /-- How often the rule still applies; without a number, always. -/
  remaining : Option Nat := none
deriving DecidableEq

namespace Rule

def applies (rule : Rule) (request : Request) : Bool :=
  rule.remaining != some 0 && rule.call == request.callName &&
    rule.subject.all (· == request.subject)

/-- The rule after it was applied. -/
def spent (rule : Rule) : Rule := { rule with remaining := rule.remaining.map (· - 1) }

/-- The first rule that applies to a request, and the rules after it was applied. -/
def consult (request : Request) : List Rule → Option Interference × List Rule
  | [] => (none, [])
  | rule :: rest =>
    if rule.applies request then (some rule.interference, rule.spent :: rest)
    else
      let (found, rest) := consult request rest
      (found, rule :: rest)

end Rule

structure Memory where
  store : Store := {}
  rules : List Rule := []
  journal : List Write := []
  metrics : Metrics := {}
deriving DecidableEq

namespace Memory

/-- Lets the store answer, and writes down the write that this was. -/
def perform (m : Memory) (request : Request) : Except Fault request.Reply × Memory :=
  let (reply, store) := Store.answer request m.store
  (reply, { m with store, journal := m.journal ++ (m.store.writeOf request).toList })

def answer (request : Request) (m : Memory) : Except Fault request.Reply × Memory :=
  let (interference, rules) := Rule.consult request m.rules
  let m := { m with rules }
  match interference with
  | none => m.perform request
  | some (.fail cause) => (.error (.ofCause cause), m)
  | some .hide =>
    match request.emptyReply? with
    | some reply => (.ok reply, m)
    | none => m.perform request

def backend : Backend Memory where
  answer := answer
  record observation m := { m with metrics := m.metrics.observe observation }

end Memory

end PipelineOperator
