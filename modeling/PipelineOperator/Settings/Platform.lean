import PipelineOperator.Text.Blank
import PipelineOperator.Time.Instant

/-!
The flavour of the cluster, on which the access rights of an environment depend, and the
surroundings in which a reconciliation takes place.
-/

set_option autoImplicit false
set_option relaxedAutoImplicit false

namespace PipelineOperator

inductive Platform where
  | openShift
  | kubernetes
deriving DecidableEq

namespace Platform

/-- Every text but one names the default platform. -/
def ofText (text : String) : Platform :=
  if Text.lowerAscii (Text.trim text) = "kubernetes" then kubernetes else openShift

def text : Platform → String
  | openShift => "openshift"
  | kubernetes => "kubernetes"

def isOpenShift (p : Platform) : Bool := p == openShift

end Platform

/-- The platform, whether environments are spaces of tenants instead of namespaces, and the present
time. -/
structure Context where
  platform : Platform := .openShift
  kiosk : Bool := false
  now : Instant
deriving DecidableEq

end PipelineOperator
