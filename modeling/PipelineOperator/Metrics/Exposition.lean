import PipelineOperator.Decimal.Shortest
import PipelineOperator.Metrics.Basic

/-!
The text in which metrics are collected: families in the order of their names, each with its help
and type, then one line for each series in the order of its label values. Durations are a histogram
whose buckets count the observations up to a bound.
-/

set_option autoImplicit false
set_option relaxedAutoImplicit false

namespace PipelineOperator

namespace Exposition

/-- What stands before the name of every family. -/
def stem : String := "edp_cd_pipeline_operator_"

def escapeValue (value : String) : String :=
  String.ofList (value.toList.flatMap (fun c ↦
    match c with
    | '\\' => ['\\', '\\']
    | '"' => ['\\', '"']
    | '\n' => ['\\', 'n']
    | c => [c]))

/-- A series as it is written: the family's name and the labels in braces. -/
def seriesText (name : String) (labels : List (String × String)) : String :=
  let pairs := labels.map (fun (label, value) ↦ label ++ "=\"" ++ escapeValue value ++ "\"")
  name ++ "\x7b" ++ String.intercalate "," pairs ++ "\x7d"

def sampleLine (name : String) (labels : List (String × String)) (value : String) : String :=
  stem ++ seriesText name labels ++ " " ++ value ++ "\n"

/-- Help, type and samples of a family. A family without samples is left out. -/
def family (name help type : String) (samples : List String) : String :=
  if samples.isEmpty then ""
  else "# HELP " ++ stem ++ name ++ " " ++ help ++ "\n# TYPE " ++ stem ++ name ++ " " ++ type ++
    "\n" ++ String.join samples

/-- The label pairs of a series. -/
def pairs (s : Series) : List (String × String) := s.family.labels.zip s.values

/-- The series without the common stem. -/
def shortName (s : Series) : String := seriesText s.family.name (pairs s)

def counterFamily (m : Metrics) (f : CounterFamily) : String :=
  family f.name f.help "counter"
    ((m.counts.toList.filter (fun e ↦ e.1.family = f)).map (fun e ↦
      sampleLine f.name (pairs e.1) (toString e.2)))

/-- Upper bounds of the buckets, in milliseconds, and how they are written. -/
def buckets : List (Nat × String) :=
  [(10, "0.01"), (50, "0.05"), (100, "0.1"), (500, "0.5"), (1000, "1"), (2000, "2"), (5000, "5"),
    (10000, "10"), (30000, "30")]

/-- A duration in seconds: the whole seconds and the fraction are converted each on its own. -/
def seconds (millis : Nat) : Float :=
  Float.ofNat (millis / 1000) + Float.ofNat (millis % 1000 * 1000000) / 1000000000.0

def floatText (x : Float) : String :=
  match Decimal.ofFloat? x with
  | some d => String.ofList d.positional
  | none => ""

def durationSamples (resource : String) (millis : List Nat) : List String :=
  let name := "reconciliation_duration_seconds"
  let labels := [("resource_type", resource)]
  let total := toString millis.length
  buckets.map (fun (bound, text) ↦
      sampleLine (name ++ "_bucket") (labels ++ [("le", text)])
        (toString (millis.filter (· ≤ bound)).length)) ++
    [sampleLine (name ++ "_bucket") (labels ++ [("le", "+Inf")]) total,
      sampleLine (name ++ "_sum") labels
        (floatText (millis.foldl (fun sum ms ↦ sum + seconds ms) 0.0)),
      sampleLine (name ++ "_count") labels total]

def durationFamily (m : Metrics) : String :=
  family "reconciliation_duration_seconds"
    "Duration of reconciliations in seconds by resource type" "histogram"
    (m.durations.toList.flatMap (fun e ↦ durationSamples e.1 e.2))

def leaderFamily (m : Metrics) : String :=
  family "leader_status" "Current leader election status (1 = leader, 0 = follower)" "gauge"
    (m.leaders.toList.map (fun e ↦
      sampleLine "leader_status" [("pod_name", e.1)] (if e.2 then "1" else "0")))

/-- The value of every counter and of every leader, under the short name of its series. -/
def samples (m : Metrics) : List (String × Nat) :=
  m.counts.toList.map (fun e ↦ (shortName e.1, e.2)) ++
    m.leaders.toList.map (fun e ↦
      (seriesText "leader_status" [("pod_name", e.1)], if e.2 then 1 else 0))

/-- The whole text. -/
def text (m : Metrics) : String :=
  counterFamily m .errors ++ counterFamily m .handlers ++ leaderFamily m ++ durationFamily m ++
    counterFamily m .reconciliations ++ counterFamily m .requeues ++ counterFamily m .created ++
    counterFamily m .deleted ++ counterFamily m .updated

end Exposition

end PipelineOperator
