import PipelineOperator.Settings.Environment

/-!
The command line of the operator. Two options take an address and one flag asks for leader election;
each may also come from a variable, which the command line overrides. Arguments are worked off in
their order: an option settles its value when the next argument is understood, so that an argument
that is not known is reported before the option that lacks a value.
-/

set_option autoImplicit false
set_option relaxedAutoImplicit false

namespace PipelineOperator

/-- Why a command line is not carried out. -/
inductive Refusal where
  | help
  | version
  | unknownArgument
  | tooManyValues
  | argumentConflict
  | invalidValue
deriving DecidableEq

namespace Refusal

/-- Asking for help or for the version is no mistake. -/
def exitCode : Refusal → Nat
  | help => 0
  | version => 0
  | _ => 2

end Refusal

structure Flags where
  metricsAddress : String
  probeAddress : String
  leaderElect : Bool
deriving DecidableEq

namespace Flags

inductive AddressOption where
  | metrics
  | probe
deriving DecidableEq

/-- What the arguments so far have set, and the option that is still to be settled. -/
structure Parsed where
  metrics : Option String := none
  probe : Option String := none
  leaderElect : Bool := false
  pending : Option (AddressOption × Option String) := none
deriving DecidableEq

namespace Parsed

/-- An option may be given once. -/
def assign (p : Parsed) (option : AddressOption) (value : String) : Except Refusal Parsed :=
  match option with
  | .metrics =>
    if p.metrics.isSome then .error .argumentConflict else .ok { p with metrics := some value }
  | .probe =>
    if p.probe.isSome then .error .argumentConflict else .ok { p with probe := some value }

/-- Gives the pending option its value, which has to be there. -/
def settle (p : Parsed) : Except Refusal Parsed :=
  match p.pending with
  | none => .ok p
  | some (_, none) => .error .invalidValue
  | some (option, some value) => assign { p with pending := none } option value

def raiseFlag (p : Parsed) : Except Refusal Parsed :=
  if p.leaderElect then .error .argumentConflict else .ok { p with leaderElect := true }

/-- An argument of two dashes, with the value attached to it. -/
def long (p : Parsed) (name : String) (value : Option String) : Except Refusal Parsed :=
  match name, value with
  | "metrics-bind-address", some v => do (← p.settle).assign .metrics v
  | "metrics-bind-address", none => do return { ← p.settle with pending := some (.metrics, none) }
  | "health-probe-bind-address", some v => do (← p.settle).assign .probe v
  | "health-probe-bind-address", none =>
    do return { ← p.settle with pending := some (.probe, none) }
  | "leader-elect", none => do (← p.settle).raiseFlag
  | "help", none => do
    let _ ← p.settle
    .error .help
  | "version", none => do
    let _ ← p.settle
    .error .version
  | "leader-elect", some _ => .error .tooManyValues
  | "help", some _ => .error .tooManyValues
  | "version", some _ => .error .tooManyValues
  | _, _ => .error .unknownArgument

/-- The first letter after one dash decides. -/
def short (p : Parsed) (letter : Char) : Except Refusal Parsed :=
  if letter = 'h' then do
    let _ ← p.settle
    .error .help
  else if letter = 'V' then do
    let _ ← p.settle
    .error .version
  else .error .unknownArgument

/-- An argument without dashes is the value of the pending option. -/
def plain (p : Parsed) (argument : String) : Except Refusal Parsed :=
  match p.pending with
  | some (option, none) => .ok { p with pending := some (option, some argument) }
  | _ => .error .unknownArgument

/-- Two dashes alone end the options; nothing may follow them. -/
def arguments (p : Parsed) : List String → Except Refusal Parsed
  | [] => p.settle
  | argument :: rest =>
    match argument.toList with
    | ['-', '-'] => if rest.isEmpty then p.settle else .error .unknownArgument
    | '-' :: '-' :: chars => do
      let name := String.ofList (chars.takeWhile (· != '='))
      let value := match chars.dropWhile (· != '=') with
        | _ :: tail => some (String.ofList tail)
        | [] => none
      (← p.long name value).arguments rest
    | '-' :: letter :: _ => do (← p.short letter).arguments rest
    | _ => do (← p.plain argument).arguments rest

end Parsed

/-- The flag from its variable, which has to spell it out. -/
def leaderElectOf (env : Variables) : Except Refusal Bool :=
  match env "LEADER_ELECT" with
  | none => .ok false
  | some "true" => .ok true
  | some "false" => .ok false
  | some _ => .error .invalidValue

/-- Reads the command line, then the variables of what it left open. -/
def parse (args : List String) (env : Variables) : Except Refusal Flags := do
  let parsed ← Parsed.arguments {} args
  let address (given : Option String) (name fallback : String) : String :=
    (given.orElse (fun _ ↦ env name)).getD fallback
  return {
    metricsAddress := address parsed.metrics "METRICS_BIND_ADDRESS" ":8080"
    probeAddress := address parsed.probe "HEALTH_PROBE_BIND_ADDRESS" ":8081"
    leaderElect := ← if parsed.leaderElect then .ok true else leaderElectOf env }

end Flags

end PipelineOperator
