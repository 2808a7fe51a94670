import PipelineOperator.Json.Text
import PipelineOperator.Settings.Startup

/-!
What the operator prints: how it is called, why it refuses a command line, and the lines of its log.
-/

set_option autoImplicit false
set_option relaxedAutoImplicit false

namespace PipelineOperator

namespace Usage

def call : String := "Usage: " ++ Naming.operator ++ " [OPTIONS]"

/-- The answer to a request for help. -/
def help : List String :=
  ["EDP CD pipeline operator",
    "",
    call,
    "",
    "Options:",
    "      --metrics-bind-address <METRICS_BIND_ADDRESS>",
    "          The address the metric endpoint binds to",
    "      --health-probe-bind-address <HEALTH_PROBE_BIND_ADDRESS>",
    "          The address the probe endpoint binds to",
    "      --leader-elect",
    "          Enable leader election, ensuring only one active controller manager",
    "  -h, --help",
    "          Print help",
    "  -V, --version",
    "          Print version"]

end Usage

namespace Refusal

/-- What is printed instead of carrying out a command line. -/
def lines : Refusal → List String
  | help => Usage.help
  | version => [Startup.versionLine]
  | unknownArgument => mistake "unexpected argument found"
  | tooManyValues => mistake "unexpected value for a flag found"
  | argumentConflict => mistake "an argument cannot be used multiple times"
  | invalidValue => mistake "invalid or missing value for an argument"
where
  mistake (text : String) : List String :=
    ["error: " ++ text, "", Usage.call, "", "For more information, try '--help'."]

/-- Help and version are answers; everything else is a complaint. -/
def isAnswer (r : Refusal) : Bool := r.exitCode == 0

end Refusal

namespace LogRecord

/-- A record as a line of the log. -/
def line (format : LogFormat) (r : LogRecord) : String :=
  match format with
  | .json => (Json.object [("level", .string r.level.tag),
      ("fields", .object (("message", .string r.message) :: r.fields))]).text
  | .text =>
    let fields := r.fields.map (fun (name, value) ↦ " " ++ name ++ "=" ++ value.text)
    r.level.tag ++ " " ++ r.message ++ String.join fields

end LogRecord

namespace Startup

/-- Why the start ends. Without a cluster it ends also when everything is settled. -/
def ending : Except SettingsError Launch → String
  | .error e => "Error: " ++ e.message
  | .ok _ => "Error: no cluster"

end Startup

end PipelineOperator
