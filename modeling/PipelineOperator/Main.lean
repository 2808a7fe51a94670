import PipelineOperator.Manifest.Files
import PipelineOperator.Settings.Usage

/-!
The two commands: the operator, and the generator of the manifests, which is the same program under
another name.
-/

set_option autoImplicit false
set_option relaxedAutoImplicit false

namespace PipelineOperator

namespace Command

/-- The name under which the program generates manifests. -/
def generator : String := "crdgen"

/-- Reads the variables that the operator asks for. -/
def readVariables : IO Variables := do
  let names := ["WATCH_NAMESPACE", "DEBUG_MODE", "PLATFORM_TYPE", "KIOSK_ENABLED", "RUST_LOG",
    "RUST_LOG_FORMAT", "METRICS_BIND_ADDRESS", "HEALTH_PROBE_BIND_ADDRESS", "LEADER_ELECT",
    "POD_NAME", "HOSTNAME"]
  let values ← names.mapM (fun name ↦ do return (name, ← IO.getEnv name))
  return fun name ↦ (values.lookup name).join

def operate (args : List String) : IO UInt32 := do
  match Startup.start args (← readVariables) with
  | .error refusal =>
    for line in refusal.lines do
      if refusal.isAnswer then IO.println line else IO.eprintln line
    return UInt32.ofNat refusal.exitCode
  | .ok start =>
    for record in start.records do
      IO.println (record.line start.format)
    IO.eprintln (Startup.ending start.launch)
    return 1

def generate : IO UInt32 := do
  IO.FS.createDirAll ManifestFile.folder
  for file in ManifestFile.all do
    IO.FS.writeFile (ManifestFile.folder ++ "/" ++ file.name) file.text
  for line in ManifestFile.progress do
    IO.println line
  return 0

def run (args : List String) : IO UInt32 := do
  let program := toString (← IO.appPath)
  if program.endsWith generator then generate else operate args

end Command

end PipelineOperator

def main (args : List String) : IO UInt32 := PipelineOperator.Command.run args
