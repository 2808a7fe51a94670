import PipelineOperator.Object.Metadata

/-!
When which object is to be looked at next. An object is in the agenda at most once: of two requests
for it the one that is due first stays, or the last one if they are due at one moment. Objects that
are due at one moment have their turns in the order in which they were asked for.
-/

set_option autoImplicit false
set_option relaxedAutoImplicit false

namespace PipelineOperator

/-- The waiting objects, in the order of the requests for them, and the moment at which each is
due. -/
structure Agenda where
  entries : List (Key × Nat) := []
deriving DecidableEq

namespace Agenda

instance : EmptyCollection Agenda := ⟨{}⟩

/-- The moment at which an object is due, if it waits. -/
def moment? (a : Agenda) (key : Key) : Option Nat := a.entries.lookup key

def erase (a : Agenda) (key : Key) : Agenda := ⟨a.entries.filter (fun e ↦ e.1 ≠ key)⟩

/-- The object is to be looked at by a moment. It keeps its turn if it is due before that. -/
def request (a : Agenda) (key : Key) (moment : Nat) : Agenda :=
  if (a.moment? key).any (· < moment) then a
  else ⟨(a.erase key).entries ++ [(key, moment)]⟩

/-- The objects that are due by a moment, in the order of their turns. -/
def due (a : Agenda) (moment : Nat) : List Key :=
  (a.entries.filter (fun e ↦ e.2 ≤ moment)).map (·.1)

theorem lookup_filter_ne {key other : Key} (h : other ≠ key) (entries : List (Key × Nat)) :
    (entries.filter (fun e ↦ e.1 ≠ key)).lookup other = entries.lookup other := by
  induction entries with
  | nil => rfl
  | cons e rest ih =>
    obtain ⟨k, m⟩ := e
    by_cases hk : k = key
    · subst hk
      simpa [List.lookup_cons, beq_false_of_ne h] using ih
    · simp only [ne_eq, decide_not] at ih
      by_cases ho : other = k <;> simp [hk, List.lookup_cons, ho, ih]

theorem lookup_filter_self (key : Key) (entries : List (Key × Nat)) :
    (entries.filter (fun e ↦ e.1 ≠ key)).lookup key = none := by
  rw [List.lookup_eq_none_iff]
  intro e he
  have := (List.mem_filter.1 he).2
  simp at this
  simpa using fun h ↦ this h.symm

@[simp] theorem moment?_erase_self (a : Agenda) (key : Key) : (a.erase key).moment? key = none :=
  lookup_filter_self key a.entries

theorem moment?_erase_of_ne (a : Agenda) {key other : Key} (h : other ≠ key) :
    (a.erase key).moment? other = a.moment? other :=
  lookup_filter_ne h a.entries

theorem moment?_request_self (a : Agenda) (key : Key) (moment : Nat) :
    (a.request key moment).moment? key =
      some (match a.moment? key with
        | some earlier => min earlier moment
        | none => moment) := by
  have hself : (a.erase key).entries.lookup key = none := moment?_erase_self a key
  unfold request
  cases h : a.moment? key with
  | none => simp [moment?, List.lookup_append, hself]
  | some earlier =>
    by_cases hlt : earlier < moment
    · simp [hlt, h]
      omega
    · simp [hlt, moment?, List.lookup_append, hself]
      omega

theorem moment?_request_of_ne (a : Agenda) {key other : Key} (h : other ≠ key) (moment : Nat) :
    (a.request key moment).moment? other = a.moment? other := by
  have hother : (a.erase key).entries.lookup other = a.entries.lookup other :=
    moment?_erase_of_ne a h
  unfold request
  split
  · rfl
  · simp [moment?, List.lookup_append, hother, List.lookup_cons, beq_false_of_ne h]

end Agenda

end PipelineOperator
