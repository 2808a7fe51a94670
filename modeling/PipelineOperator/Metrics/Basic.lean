import PipelineOperator.SortedMap

/-!
What the operator counts about its own work. An `Observation` is one thing worth counting; the
`Metrics` are what a sequence of observations adds up to: a counter for each series, the durations
of reconciliations, and who leads.
-/

set_option autoImplicit false
set_option relaxedAutoImplicit false

namespace PipelineOperator

inductive Observation where
  | succeeded (resource : String) (millis : Nat)
  | failed (resource category : String) (millis : Nat)
  | requeued (resource reason : String)
  | handled (handler : String) (succeeded : Bool)
  | created (resource : String)
  | updated (resource : String)
  | deleted (resource : String)
  | leading (pod : String) (leads : Bool)
deriving DecidableEq

/-- The counters that share a meaning and differ in their labels. -/
inductive CounterFamily where
  | errors
  | handlers
  | reconciliations
  | requeues
  | created
  | deleted
  | updated
deriving DecidableEq

namespace CounterFamily

def name : CounterFamily → String
  | errors => "errors_total"
  | handlers => "handler_invocations_total"
  | reconciliations => "reconciliations_total"
  | requeues => "requeues_total"
  | created => "resources_created_total"
  | deleted => "resources_deleted_total"
  | updated => "resources_updated_total"

def help : CounterFamily → String
  | errors => "Total number of errors by resource type and error category"
  | handlers => "Stage handler invocations by handler and result"
  | reconciliations => "Total number of reconciliations by resource type and status"
  | requeues => "Total number of requeue operations by resource type and reason"
  | created => "Total number of resources created by type"
  | deleted => "Total number of resources deleted by type"
  | updated => "Total number of resources updated by type"

/-- The names of the labels, in their order. -/
def labels : CounterFamily → List String
  | errors => ["error_type", "resource_type"]
  | handlers => ["handler", "result"]
  | reconciliations => ["resource_type", "status"]
  | requeues => ["reason", "resource_type"]
  | created => ["resource_type"]
  | deleted => ["resource_type"]
  | updated => ["resource_type"]

/-- What tells the series of a family apart: their values written one after the other, that of the
resource first. Where one value ends and the next begins is not seen. -/
def signature (family : CounterFamily) (values : List String) : String :=
  match family with
  | errors | requeues => String.join values.reverse
  | _ => String.join values

theorem name_injective {a b : CounterFamily} (h : a.name = b.name) : a = b := by
  cases a <;> cases b <;> first | rfl | exact absurd h (by decide)

end CounterFamily

/-- One counter: its family and the values of the family's labels. -/
structure Series where
  family : CounterFamily
  values : List String
deriving DecidableEq

namespace Series

/-- The family's name and the values, in whose order series are listed. -/
def path (s : Series) : List String := s.family.name :: s.values

theorem path_injective {a b : Series} (h : a.path = b.path) : a = b := by
  obtain ⟨f, v⟩ := a
  obtain ⟨g, w⟩ := b
  simp only [path, List.cons.injEq] at h
  rw [CounterFamily.name_injective h.1, h.2]

instance : Ord Series := ⟨compareOn path⟩

instance : Std.TransOrd Series := inferInstanceAs (Std.TransCmp (compareOn path))

instance : Std.LawfulEqOrd Series where
  compare_self {a} := (Std.ReflCmp.compare_self : compare a.path a.path = .eq)
  eq_of_compare {a b} h :=
    have h : compare a.path b.path = .eq := h
    path_injective (Std.LawfulEqOrd.eq_of_compare h)

end Series

structure Metrics where
  counts : SortedMap Series Nat := ∅
  /-- Milliseconds that the reconciliations of each resource took, in their order. -/
  durations : SortedMap String (List Nat) := ∅
  leaders : SortedMap String Bool := ∅
deriving DecidableEq

namespace Metrics

def count (m : Metrics) (s : Series) : Nat := (m.counts.get? s).getD 0

/-- The series that counts what has these values: the one that is there with their signature, else
a new one of their own. -/
def series (m : Metrics) (family : CounterFamily) (values : List String) : Series :=
  (m.counts.keys.find? (fun s ↦
    decide (s.family = family) && family.signature s.values == family.signature values)).getD
      ⟨family, values⟩

def increment (m : Metrics) (family : CounterFamily) (values : List String) : Metrics :=
  let s := m.series family values
  { m with counts := m.counts.insert s (m.count s + 1) }

def addDuration (m : Metrics) (resource : String) (millis : Nat) : Metrics :=
  let before := (m.durations.get? resource).getD []
  { m with durations := m.durations.insert resource (before ++ [millis]) }

def observe (m : Metrics) : Observation → Metrics
  | .succeeded resource millis =>
    (m.increment .reconciliations [resource, "success"]).addDuration resource millis
  | .failed resource category millis =>
    ((m.increment .reconciliations [resource, "error"]).increment .errors
      [category, resource]).addDuration resource millis
  | .requeued resource reason =>
    (m.increment .reconciliations [resource, "requeue"]).increment .requeues [reason, resource]
  | .handled handler succeeded =>
    m.increment .handlers [handler, if succeeded then "success" else "error"]
  | .created resource => m.increment .created [resource]
  | .updated resource => m.increment .updated [resource]
  | .deleted resource => m.increment .deleted [resource]
  | .leading pod leads => { m with leaders := m.leaders.insert pod leads }

theorem family_series (m : Metrics) (family : CounterFamily) (values : List String) :
    (m.series family values).family = family := by
  unfold series
  cases h : m.counts.keys.find? _ with
  | none => rfl
  | some s =>
    have found := List.find?_some h
    simp only [Bool.and_eq_true, decide_eq_true_eq] at found
    exact found.1

theorem signature_series (m : Metrics) (family : CounterFamily) (values : List String) :
    family.signature (m.series family values).values = family.signature values := by
  unfold series
  cases h : m.counts.keys.find? _ with
  | none => rfl
  | some s =>
    have found := List.find?_some h
    simp only [Bool.and_eq_true, beq_iff_eq] at found
    exact found.2

theorem count_increment (m : Metrics) (family : CounterFamily) (values : List String)
    (s : Series) : (m.increment family values).count s =
      if s = m.series family values then m.count s + 1 else m.count s := by
  by_cases h : s = m.series family values
  · subst h
    simp [count, increment]
  · simp [count, increment, SortedMap.get?_insert, h]

@[simp] theorem count_addDuration (m : Metrics) (resource : String) (millis : Nat) (s : Series) :
    (m.addDuration resource millis).count s = m.count s := rfl

end Metrics

end PipelineOperator
