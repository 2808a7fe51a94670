import PipelineOperator.Fault

/-!
What the operator can ask of the cluster. Every read and write it does is one of these requests;
`Request.Reply` is what comes back when the request does not fail. Reading an absent object,
creating one that is there and deleting one that is not are no failures.
-/

set_option autoImplicit false
set_option relaxedAutoImplicit false

namespace PipelineOperator

/-- What creating an object came to. -/
inductive Creation where
  | created
  | alreadyExists
deriving DecidableEq

namespace Creation

def text : Creation → String
  | created => "created"
  | alreadyExists => "already_exists"

end Creation

inductive Request where
  | get (kind : Kind) (key : Key)
  | create (kind : Kind) (object : Object kind)
  /-- Writes the whole object over the stored one. -/
  | replace (kind : Kind) (object : Object kind)
  /-- Writes the status of the object, and nothing else of it. -/
  | writeStatus (kind : Kind) (object : Object kind)
  | setJobConfig (key : Key) (config : String)
  | delete (kind : Kind) (key : Key)
  /-- The stages of a namespace, or those among them that carry the label of a pipeline. -/
  | listStages (ns : String) (pipeline : Option String)
  | jenkinsEnabled (ns : String)

namespace Request

@[reducible] def Reply : Request → Type
  | get kind _ => Option (Object kind)
  | create .. => Creation
  | replace kind _ => Object kind
  | writeStatus kind _ => Object kind
  | setJobConfig .. => Unit
  | delete .. => Unit
  | listStages .. => List Stage
  | jenkinsEnabled _ => Bool

/-- The request leaves the cluster as it is, whatever the reply. -/
def isRead : Request → Bool
  | get .. => true
  | listStages .. => true
  | jenkinsEnabled _ => true
  | _ => false

end Request

end PipelineOperator
