import PipelineOperator.Naming
import PipelineOperator.Settings.Platform

/-!
What the operator takes from the variables of its process: the namespace it watches, the platform,
whether environments are spaces, and how it logs. Only the namespace has to be given.
-/

set_option autoImplicit false
set_option relaxedAutoImplicit false

namespace PipelineOperator

/-- The variables that are set. -/
abbrev Variables := String → Option String

inductive SettingsError where
  | namespaceUnset
  | badAddress (address : String)
deriving DecidableEq

namespace SettingsError

/-- What went wrong, without the reason. -/
def headline : SettingsError → String
  | namespaceUnset => "WATCH_NAMESPACE must be set"
  | badAddress address => "invalid bind address '" ++ address ++ "'"

def message : SettingsError → String
  | namespaceUnset => "WATCH_NAMESPACE must be set"
  | badAddress address =>
    "invalid bind address '" ++ address ++ "': invalid socket address syntax"

end SettingsError

/-- The accepted spellings of truth and falsehood. -/
def parseBool (text : String) : Option Bool :=
  if text ∈ ["1", "t", "T", "TRUE", "true", "True"] then some true
  else if text ∈ ["0", "f", "F", "FALSE", "false", "False"] then some false
  else none

structure Environment where
  watchNamespace : String
  debug : Bool
  platform : Platform
  kiosk : Bool
deriving DecidableEq

namespace Environment

/-- A switch that is off unless its variable spells truth. -/
def switch (env : Variables) (name : String) : Bool :=
  ((env name).bind parseBool).getD false

def ofVariables (env : Variables) : Except SettingsError Environment :=
  let watched := Text.trim ((env "WATCH_NAMESPACE").getD "")
  if watched = "" then .error .namespaceUnset
  else .ok {
    watchNamespace := watched
    debug := switch env "DEBUG_MODE"
    platform := ((env "PLATFORM_TYPE").map Platform.ofText).getD .openShift
    kiosk := switch env "KIOSK_ENABLED" }

end Environment

/-- The name under which a replica competes for leadership: that of its pod, else that of its host,
else one made from its process. A pod name that is set but empty is passed over together with the
host name. -/
def replicaIdentity (env : Variables) (process : String) : String :=
  match ((env "POD_NAME").orElse (fun _ ↦ env "HOSTNAME")).filter (· ≠ "") with
  | some name => name
  | none => Naming.operator ++ "-" ++ process

end PipelineOperator
