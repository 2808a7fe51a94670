import PipelineOperator.Cluster.Bench

/-!
Counters as they are shown. The counter for some label values is the series that is there with their
signature (`Metrics.total`). An observation raises the counters that it names, each by one, and no
other (`Metrics.total_observe`), so what a sequence of observations adds to a counter is how often
they name it. A cluster on whose state the counters are found is metered
(`Backend.Meters`); a program that is run there adds what it observes (`Backend.Meters.total_run`).
-/

set_option autoImplicit false
set_option relaxedAutoImplicit false

namespace PipelineOperator

/-- The first key that passes a test is still the first after an entry was placed that passes it
too, if it is the placed one. -/
theorem SortedMap.find?_insertList_self {α β : Type} [Ord α] [Std.LawfulEqOrd α] {p : α → Bool}
    {k : α} (hp : p k = true) (v : β) {entries : List (α × β)}
    (hfirst : ∀ k', (entries.map (·.1)).find? p = some k' → k' = k) :
    ((insertList k v entries).map (·.1)).find? p = some k := by
  induction entries with
  | nil => simp [insertList, hp]
  | cons head rest ih =>
    obtain ⟨k', v'⟩ := head
    rw [insertList]
    by_cases hhead : p k' = true
    · obtain rfl := hfirst k' (by simp [hhead])
      simp [hp]
    · have hrest := ih fun found hfound ↦ hfirst found (by simpa [hhead] using hfound)
      split
      · simp [hp]
      · simp [hp]
      · simpa [hhead] using hrest

/-- Placing an entry has no bearing on a test that it does not pass. -/
theorem SortedMap.find?_insertList_of_not {α β : Type} [Ord α] [Std.LawfulEqOrd α] {p : α → Bool}
    {k : α} (hp : p k = false) (v : β) (entries : List (α × β)) :
    ((insertList k v entries).map (·.1)).find? p = (entries.map (·.1)).find? p := by
  induction entries with
  | nil => simp [insertList, hp]
  | cons head rest ih =>
    obtain ⟨k', v'⟩ := head
    rw [insertList]
    split
    · simp [hp]
    · next heq =>
      obtain rfl := Std.LawfulEqCmp.eq_of_compare heq
      simp [hp]
    · simp [List.find?_cons, ih]

namespace Metrics

/-- The counter for some label values, as it is shown. -/
def total (m : Metrics) (family : CounterFamily) (values : List String) : Nat :=
  m.count (m.series family values)

variable {m : Metrics} {family family' : CounterFamily} {values values' : List String}

/-- The series counts what has such values. -/
def counts? (family : CounterFamily) (values : List String) (s : Series) : Bool :=
  decide (s.family = family) && family.signature s.values == family.signature values

theorem series_eq : m.series family values =
    (m.counts.keys.find? (counts? family values)).getD ⟨family, values⟩ := rfl

theorem counts?_series : counts? family values (m.series family values) = true := by
  simp [counts?, family_series, signature_series]

theorem counts?_series_of_ne (hne : family = family' → family.signature values ≠ family.signature
    values') : counts? family' values' (m.series family values) = false := by
  rw [counts?, family_series]
  by_cases hfamily : family = family'
  · subst hfamily
    simp [signature_series, hne rfl]
  · simp [hfamily]

theorem series_increment_self :
    (m.increment family values).series family values = m.series family values := by
  have hfirst : ∀ s, (m.counts.entries.map (·.1)).find? (counts? family values) = some s →
      s = m.series family values := by
    intro s hs
    rw [series_eq, SortedMap.keys, hs, Option.getD_some]
  rw [series_eq, increment, SortedMap.keys, SortedMap.insert,
    SortedMap.find?_insertList_self counts?_series _ hfirst, Option.getD_some]

theorem series_increment_of_ne (hne : family = family' → family.signature values ≠
    family.signature values') :
    (m.increment family values).series family' values' = m.series family' values' := by
  rw [series_eq, series_eq, increment, SortedMap.keys, SortedMap.insert,
    SortedMap.find?_insertList_of_not (counts?_series_of_ne hne), SortedMap.keys]

theorem total_increment_self :
    (m.increment family values).total family values = m.total family values + 1 := by
  rw [total, series_increment_self, count_increment, if_pos rfl, total]

theorem total_increment_of_ne (hne : family = family' → family.signature values ≠
    family.signature values') :
    (m.increment family values).total family' values' = m.total family' values' := by
  have hother : m.series family' values' ≠ m.series family values := by
    intro hsame
    have hcounts : counts? family' values' (m.series family' values') = true := counts?_series
    rw [hsame, counts?_series_of_ne hne] at hcounts
    exact Bool.noConfusion hcounts
  rw [total, series_increment_of_ne hne, count_increment, if_neg hother, total]

end Metrics

/-! ### What observations add -/

namespace Observation

/-- The word that says in a counter of handlers how one ended. -/
def outcome (well : Bool) : String := if well then "success" else "error"

/-- The counters that an observation raises, by one each. -/
def raises : Observation → List (CounterFamily × List String)
  | succeeded resource _ => [(.reconciliations, [resource, "success"])]
  | failed resource category _ =>
    [(.reconciliations, [resource, "error"]), (.errors, [category, resource])]
  | requeued resource reason =>
    [(.reconciliations, [resource, "requeue"]), (.requeues, [reason, resource])]
  | handled handler well => [(.handlers, [handler, outcome well])]
  | created resource => [(.created, [resource])]
  | updated resource => [(.updated, [resource])]
  | deleted resource => [(.deleted, [resource])]
  | leading .. => []

/-- How a handler ended is read off the end of the two words, and its name is what is before. -/
theorem outcome_injective {name name' : String} {well well' : Bool}
    (hsame : name ++ outcome well = name' ++ outcome well') : name = name' ∧ well = well' := by
  have hchars := congrArg String.toList hsame
  rw [String.toList_append, String.toList_append] at hchars
  have hlast := congrArg List.getLast? hchars
  obtain rfl : well = well' := by
    cases well <;> cases well' <;> simp [outcome] at hlast ⊢
  exact ⟨String.toList_inj.mp (List.append_cancel_right hchars), rfl⟩

/-- An observation gives a value for each label of a family. -/
theorem length_of_mem_raises {o : Observation} {raised : CounterFamily × List String}
    (hraised : raised ∈ o.raises) : raised.2.length = raised.1.labels.length := by
  cases o <;> grind [raises, CounterFamily.labels]

end Observation

namespace CounterFamily

/-- The counter for these values is not confused with another that an observation raises, though
counters are told apart by their signatures only. -/
def Tells (family : CounterFamily) (values : List String) : Prop :=
  ∀ o : Observation, ∀ raised ∈ o.raises, raised.1 = family →
    family.signature raised.2 = family.signature values → raised.2 = values

theorem tells_handlers (name : String) (well : Bool) :
    handlers.Tells [name, Observation.outcome well] := by
  intro o raised hraised hfamily hsignature
  obtain ⟨name', well', hvalues⟩ :
      ∃ name' well', raised.2 = [name', Observation.outcome well'] := by
    cases o <;> grind [Observation.raises]
  rw [hvalues] at hsignature ⊢
  have hjoined : name' ++ Observation.outcome well' = name ++ Observation.outcome well := by
    simpa [signature, String.join] using hsignature
  obtain ⟨rfl, rfl⟩ := Observation.outcome_injective hjoined
  rfl

/-- A family with a single label has a counter for each value of it. -/
theorem tells_single {family : CounterFamily} (hsingle : family.labels.length = 1)
    (resource : String) : family.Tells [resource] := by
  intro o raised hraised hfamily hsignature
  have hvalues : raised.2.length = 1 := by
    rw [Observation.length_of_mem_raises hraised, hfamily, hsingle]
  obtain ⟨name, hname⟩ := List.length_eq_one_iff.mp hvalues
  rw [hname] at hsignature ⊢
  have hsame : name = resource := by
    cases family <;> simp_all [labels, signature, String.join]
  rw [hsame]

end CounterFamily

namespace Metrics

variable {m : Metrics} {family : CounterFamily} {values : List String}

theorem total_increment {raised : CounterFamily × List String} (htells : raised.1 = family →
      family.signature raised.2 = family.signature values → raised.2 = values) :
    (m.increment raised.1 raised.2).total family values =
      m.total family values + if raised = (family, values) then 1 else 0 := by
  by_cases hsame : raised = (family, values)
  · rw [if_pos hsame, hsame, total_increment_self]
  · rw [if_neg hsame, total_increment_of_ne, Nat.add_zero]
    intro hfamily hsignature
    subst hfamily
    exact hsame (Prod.ext rfl (htells rfl hsignature))

theorem counts_observe (m : Metrics) (o : Observation) :
    (m.observe o).counts =
      (o.raises.foldl (fun m raised ↦ m.increment raised.1 raised.2) m).counts := by
  cases o <;> rfl

/-- An observation adds to a counter as often as it names it. -/
theorem total_observe (htells : family.Tells values) (m : Metrics) (o : Observation) :
    (m.observe o).total family values =
      m.total family values + o.raises.count (family, values) := by
  have hfold : ∀ raised : List (CounterFamily × List String),
      (∀ r ∈ raised, r.1 = family → family.signature r.2 = family.signature values →
        r.2 = values) → ∀ m : Metrics,
      (raised.foldl (fun m r ↦ m.increment r.1 r.2) m).total family values =
        m.total family values + raised.count (family, values) := by
    intro raised hraised
    induction raised with
    | nil => simp
    | cons r rest ih =>
      intro m
      rw [List.forall_mem_cons] at hraised
      rw [List.foldl_cons, ih hraised.2, total_increment hraised.1, List.count_cons,
        Nat.add_assoc, Nat.add_comm (rest.count _)]
      simp only [beq_iff_eq]
  have hcounts : (m.observe o).total family values =
      (o.raises.foldl (fun m r ↦ m.increment r.1 r.2) m).total family values := by
    rw [total, total, count, count, series_eq, series_eq, counts_observe]
  rw [hcounts, hfold o.raises (htells o)]

end Metrics

/-- How often observations raise the counter for handlers of a name that ended in one way is how
often one such is observed. -/
theorem Observation.count_raises_handled (name : String) (well : Bool)
    (observations : List Observation) :
    (observations.flatMap raises).count (.handlers, [name, outcome well]) =
      observations.count (.handled name well) := by
  have hone (o : Observation) : o.raises.count (.handlers, [name, outcome well]) =
      if o = .handled name well then 1 else 0 := by
    cases o with
    | handled name' well' =>
      by_cases hsame : Observation.handled name' well' = .handled name well
      · rw [if_pos hsame, hsame]
        simp [raises]
      · rw [if_neg hsame, List.count_eq_zero]
        intro hraised
        have hwords : name = name' ∧ outcome well = outcome well' := by
          simpa [raises] using hraised
        have hends := outcome_injective (congrArg ("" ++ ·) hwords.2)
        exact hsame (by rw [hwords.1, hends.2])
    | _ => simp [raises]
  induction observations with
  | nil => rfl
  | cons o rest ih =>
    rw [List.flatMap_cons, List.count_append, ih, hone, List.count_cons, Nat.add_comm]
    simp only [beq_iff_eq]

theorem Metrics.total_observe_handlers (o : Observation) (m : Metrics) (name : String)
    (well : Bool) :
    (m.observe o).total .handlers [name, Observation.outcome well] =
      m.total .handlers [name, Observation.outcome well] +
        if o = .handled name well then 1 else 0 := by
  have hcount := Observation.count_raises_handled name well [o]
  rw [List.flatMap_singleton, List.count_singleton] at hcount
  rw [total_observe (CounterFamily.tells_handlers name well), hcount]
  simp only [beq_iff_eq]

/-! ### Metered clusters -/

/-- What a program observes when it is run against a cluster. -/
def Program.observed {σ α : Type} (backend : Backend σ) : Program α → σ → List Observation
  | done _, _ => []
  | ask request next, s =>
    let (reply, s) := backend.answer request s
    (next reply).observed backend s
  | observe observation next, s =>
    observation :: next.observed backend (backend.record observation s)

/-- The counters are found on the state of the cluster. An answer may count what was done about
objects, but no handler. -/
structure Backend.Meters {σ : Type} (backend : Backend σ) (metrics : σ → Metrics) : Prop where
  record : ∀ o s, metrics (backend.record o s) = (metrics s).observe o
  answer : ∀ request s (name : String) (well : Bool),
    (metrics (backend.answer request s).2).total .handlers [name, Observation.outcome well] =
      (metrics s).total .handlers [name, Observation.outcome well]

theorem Bench.meters_backend : Bench.backend.Meters Bench.metrics where
  record _ _ := rfl
  answer request b name well := by
    have hsame : (Bench.answer request b).2.metrics = b.metrics := by
      unfold Bench.answer
      split <;> rfl
    exact congrArg (fun m : Metrics ↦ m.total .handlers [name, Observation.outcome well]) hsame

namespace Backend.Meters

variable {σ α : Type} {backend : Backend σ} {metrics : σ → Metrics}

theorem total_record (hmeters : backend.Meters metrics) (o : Observation) (s : σ) (name : String)
    (well : Bool) :
    (metrics (backend.record o s)).total .handlers [name, Observation.outcome well] =
      (metrics s).total .handlers [name, Observation.outcome well] +
        if o = .handled name well then 1 else 0 := by
  rw [hmeters.record, Metrics.total_observe_handlers]

/-- A run adds to the counters of handlers what is observed on its way. -/
theorem total_run (hmeters : backend.Meters metrics) (program : Program α) (s : σ)
    (name : String) (well : Bool) :
    (metrics (program.run backend s).2).total .handlers [name, Observation.outcome well] =
      (metrics s).total .handlers [name, Observation.outcome well] +
        (program.observed backend s).count (.handled name well) := by
  induction program generalizing s with
  | done value => rfl
  | ask request next ih => exact (ih _ _).trans (congrArg (· + _) (hmeters.answer request s _ _))
  | observe o next ih =>
    rw [Program.run, ih, hmeters.total_record, Program.observed, List.count_cons, Nat.add_assoc,
      Nat.add_comm (ite ..)]
    simp only [beq_iff_eq]

end Backend.Meters

end PipelineOperator
