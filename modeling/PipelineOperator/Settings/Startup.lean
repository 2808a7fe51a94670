import PipelineOperator.Net.SocketAddress
import PipelineOperator.Settings.Flags
import PipelineOperator.Settings.Logging

/-!
How the operator starts: the command line is read, then the environment, then the addresses of its
two servers, and only with all of these does it turn to the cluster. What it logs on the way goes
through the filter that the environment asks for.
-/

set_option autoImplicit false
set_option relaxedAutoImplicit false

namespace PipelineOperator

namespace Flags

def bindAddress (address : String) : Except SettingsError SocketAddress :=
  match SocketAddress.ofBind? address with
  | some a => .ok a
  | none => .error (.badAddress address)

def metricsSocket (f : Flags) : Except SettingsError SocketAddress := bindAddress f.metricsAddress

def probeSocket (f : Flags) : Except SettingsError SocketAddress := bindAddress f.probeAddress

end Flags

namespace Startup

def version : String := "0.1.0"

def versionLine : String := Naming.operator ++ " " ++ version

/-- All that the operator has settled before it turns to the cluster. -/
structure Launch where
  environment : Environment
  leaderElect : Bool
  metrics : SocketAddress
  probe : SocketAddress
deriving DecidableEq

/-- The way to the cluster: what was logged, and whether it was reached. -/
structure Start where
  format : LogFormat
  records : List LogRecord
  launch : Except SettingsError Launch

def startRecord (environment : Environment) (leaderElect : Bool) : LogRecord where
  level := .info
  message := "Starting EDP CD pipeline operator"
  fields := [("namespace", .string environment.watchNamespace),
    ("platform", .string environment.platform.text), ("kiosk_enabled", .bool environment.kiosk),
    ("leader_elect", .bool leaderElect)]

def clientRecord : LogRecord := { level := .debug, message := "Initializing Kubernetes client" }

/-- The records on the way and what ends it. -/
def attempt (flags : Flags) (env : Variables) :
    List LogRecord × Except SettingsError Launch :=
  match Environment.ofVariables env with
  | .error e => ([], .error e)
  | .ok environment =>
    let started := startRecord environment flags.leaderElect
    match flags.metricsSocket, flags.probeSocket with
    | .error e, _ => ([started], .error e)
    | .ok _, .error e => ([started], .error e)
    | .ok metrics, .ok probe =>
      ([started, clientRecord],
        .ok { environment, leaderElect := flags.leaderElect, metrics, probe })

def filter (env : Variables) (debug : Bool) : LogFilter :=
  ((env "RUST_LOG").bind LogFilter.ofText?).getD (.everything (.ofDebug debug))

/-- Starts with a command line and the variables of the process. -/
def start (args : List String) (env : Variables) : Except Refusal Start := do
  let flags ← Flags.parse args env
  let debug := Environment.switch env "DEBUG_MODE"
  let (records, launch) := attempt flags env
  return {
    format := LogFormat.choose debug (env "RUST_LOG_FORMAT")
    records := records.filter (fun r ↦ (filter env debug).admits r)
    launch }

end Startup

end PipelineOperator
