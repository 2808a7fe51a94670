import PipelineOperator.Proofs.Operation.Keeping

/-!
What an operation needs. Its requirements are a list in the order in which it comes upon them, each
with the cause of the failure that it is without it. `Operation.Needs` says that without failing
calls the operation comes to the verdict on its requirements: the failure of the first that is not
met (`Operation.Needs.error_iff`), or success if all are (`Operation.Needs.ok_iff`). The rules
follow the constructs of operations, and one operation after another needs what both need
(`Operation.Needs.bind`).
-/

set_option autoImplicit false
set_option relaxedAutoImplicit false

namespace PipelineOperator

/-- Something that has to be the case, and the cause of the failure that it is otherwise. -/
structure Requirement where
  isMet : Bool
  cause : Cause

namespace Requirement

variable {requirements rest : List Requirement} {fault : Fault}

/-- What comes of requirements in their order. -/
def verdict (requirements : List Requirement) : Except Fault Unit :=
  match requirements.find? fun requirement ↦ !requirement.isMet with
  | none => .ok ()
  | some unmet => .error (.ofCause unmet.cause)

/-- The fault is that of the first requirement that is not met. -/
def FailWith (requirements : List Requirement) (fault : Fault) : Prop :=
  ∃ before unmet after, requirements = before ++ unmet :: after ∧
    (∀ earlier ∈ before, earlier.isMet = true) ∧ unmet.isMet = false ∧
    fault = .ofCause unmet.cause

theorem verdict_cons (first : Requirement) (rest : List Requirement) :
    verdict (first :: rest) =
      if first.isMet then verdict rest else .error (.ofCause first.cause) := by
  unfold verdict
  rw [List.find?_cons]
  cases first.isMet <;> rfl

theorem verdict_append (requirements rest : List Requirement) :
    verdict (requirements ++ rest) = verdict requirements >>= fun _ ↦ verdict rest := by
  unfold verdict
  rw [List.find?_append]
  cases requirements.find? fun requirement ↦ !requirement.isMet <;> rfl

theorem verdict_eq_ok :
    verdict requirements = .ok () ↔ ∀ requirement ∈ requirements, requirement.isMet = true := by
  have hall : (∀ requirement ∈ requirements, requirement.isMet = true) ↔
      requirements.find? (fun requirement ↦ !requirement.isMet) = none := by
    simp [List.find?_eq_none]
  rw [hall]
  unfold verdict
  cases requirements.find? fun requirement ↦ !requirement.isMet <;> simp

theorem failWith_iff : FailWith requirements fault ↔ ∃ unmet,
    requirements.find? (fun requirement ↦ !requirement.isMet) = some unmet ∧
      fault = .ofCause unmet.cause := by
  simp only [List.find?_eq_some_iff_append]
  constructor
  · rintro ⟨before, unmet, after, hsplit, hbefore, hunmet, hfault⟩
    exact ⟨unmet, ⟨by simpa using hunmet, before, after, hsplit, by simpa using hbefore⟩, hfault⟩
  · rintro ⟨unmet, ⟨hunmet, before, after, hsplit, hbefore⟩, hfault⟩
    exact ⟨before, unmet, after, hsplit, by simpa using hbefore, by simpa using hunmet, hfault⟩

theorem verdict_eq_error : verdict requirements = .error fault ↔ FailWith requirements fault := by
  rw [failWith_iff]
  unfold verdict
  cases requirements.find? fun requirement ↦ !requirement.isMet with
  | none => simp
  | some unmet => simp [eq_comm]

end Requirement

namespace Operation

variable {α β : Type} {k : Kind} {s : Store} {requirements rest : List Requirement}
  {Q Q' : α → Store → Prop}

/-- Without failing calls the operation comes to the verdict on the requirements, and if they are
met its result and the store that it leaves meet the condition. -/
def Needs (op : Operation α) (s : Store) (requirements : List Requirement)
    (Q : α → Store → Prop) : Prop :=
  match Requirement.verdict requirements with
  | .ok _ => ∃ a t, op.on s = (.ok a, t) ∧ Q a t
  | .error fault => ∃ t, op.on s = (.error fault, t)

theorem needs_of_on {op : Operation α} {a : α} {t : Store} (hon : op.on s = (.ok a, t))
    (hleft : Q a t) : op.Needs s [] Q := ⟨a, t, hon, hleft⟩

theorem Needs.of_met {op : Operation α} {first : Requirement}
    (hmet : first.isMet = true → op.Needs s rest Q)
    (hunmet : first.isMet = false → ∃ t, op.on s = (.error (.ofCause first.cause), t)) :
    op.Needs s (first :: rest) Q := by
  unfold Needs
  rw [Requirement.verdict_cons]
  cases hfirst : first.isMet with
  | true => exact hmet hfirst
  | false => exact hunmet hfirst

theorem Needs.congr {op op' : Operation α} (hneeds : op'.Needs s requirements Q)
    (hsame : op.on s = op'.on s) : op.Needs s requirements Q := by
  unfold Needs at hneeds ⊢
  rwa [hsame]

theorem Needs.mono {op : Operation α} (hneeds : op.Needs s requirements Q)
    (hweaker : ∀ a t, Q a t → Q' a t) : op.Needs s requirements Q' := by
  unfold Needs at hneeds ⊢
  cases hverdict : Requirement.verdict requirements with
  | error fault => rwa [hverdict] at hneeds
  | ok _ =>
    rw [hverdict] at hneeds
    obtain ⟨a, t, hon, hleft⟩ := hneeds
    exact ⟨a, t, hon, hweaker a t hleft⟩

/-- One operation after another needs what both need. -/
theorem Needs.bind {op : Operation α} {f : α → Operation β} {Q' : β → Store → Prop}
    (hop : op.Needs s requirements Q) (hnext : ∀ a t, Q a t → (f a).Needs t rest Q') :
    (op >>= f).Needs s (requirements ++ rest) Q' := by
  unfold Needs at hop ⊢
  rw [Requirement.verdict_append]
  cases hverdict : Requirement.verdict requirements with
  | error fault =>
    rw [hverdict] at hop
    obtain ⟨t, hon⟩ := hop
    exact ⟨t, on_bind_of_error hon f⟩
  | ok _ =>
    rw [hverdict] at hop
    obtain ⟨a, t, hon, hleft⟩ := hop
    rw [on_bind_of_ok hon]
    exact hnext a t hleft

/-- An operation that needs nothing adds nothing to what one before it needs. -/
theorem Needs.bind_needless {op : Operation α} {f : α → Operation β} {Q' : β → Store → Prop}
    (hop : op.Needs s requirements Q) (hnext : ∀ a t, Q a t → (f a).Needs t [] Q') :
    (op >>= f).Needs s requirements Q' := by
  have hboth := hop.bind hnext
  rwa [List.append_nil] at hboth

/-- What the operation keeps in any case is there as well. -/
theorem Needs.keeps {op : Operation α} {I : Store → Prop} (hneeds : op.Needs s requirements Q)
    (hkeeps : op.Keeps I) (hbefore : I s) : op.Needs s requirements (fun a t ↦ Q a t ∧ I t) := by
  have hafter := hkeeps s hbefore
  unfold Needs at hneeds ⊢
  cases hverdict : Requirement.verdict requirements with
  | error fault => rwa [hverdict] at hneeds
  | ok _ =>
    rw [hverdict] at hneeds
    obtain ⟨a, t, hon, hleft⟩ := hneeds
    rw [hon] at hafter
    exact ⟨a, t, hon, hleft, hafter⟩

theorem Needs.counted {op : Operation α} (hop : op.Needs s requirements Q) (handler : String) :
    (counted handler op).Needs s requirements Q := by
  unfold Needs
  rw [on_counted]
  exact hop

/-- Where it is an object that has to be there. -/
theorem Needs.of_found {op : Operation α} {u : Store} {key : Key} {missing : Cause}
    (hthere : ∀ o, u.find? k key = some o → op.Needs s rest Q)
    (habsent : u.find? k key = none → op.on s = (.error (.ofCause missing), s)) :
    op.Needs s (⟨(u.find? k key).isSome, missing⟩ :: rest) Q := by
  refine .of_met (fun hmet ↦ ?_) fun hunmet ↦ ⟨s, habsent ?_⟩
  · obtain ⟨o, hfound⟩ := Option.isSome_iff_exists.mp hmet
    exact hthere o hfound
  · exact Option.isNone_iff_eq_none.mp (Option.isSome_eq_false_iff.mp hunmet)

theorem needs_require_bind {key : Key} {missing : Cause} {f : Object k → Operation α}
    (hnext : ∀ o, s.find? k key = some o → (f o).Needs s rest Q) :
    (require k key missing >>= f).Needs s (⟨(s.find? k key).isSome, missing⟩ :: rest) Q := by
  refine .of_found (fun o hfound ↦ (hnext o hfound).congr ?_) fun habsent ↦ ?_
  · rw [on_require_bind, hfound]
  · rw [on_require_bind, habsent]

theorem needs_secure (o : Object k) (s : Store) : (secure o).Needs s [] (fun _ _ ↦ True) :=
  needs_of_on (on_secure o s) trivial

theorem needs_forM {l : List α} {f : α → Operation PUnit}
    (hf : ∀ a ∈ l, ∀ s, (f a).Needs s [] (fun _ _ ↦ True)) (s : Store) :
    (l.forM f).Needs s [] (fun _ _ ↦ True) := by
  induction l generalizing s with
  | nil => exact needs_of_on rfl trivial
  | cons a l ih =>
    exact (hf a (List.mem_cons_self ..) s).bind fun _ t _ ↦
      ih (fun b hb ↦ hf b (List.mem_cons_of_mem _ hb)) t

/-! ### The verdict -/

theorem Needs.ok_iff {op : Operation α} {a : α}
    (hneeds : op.Needs s requirements fun result _ ↦ result = a) :
    (op.on s).1 = .ok a ↔ ∀ requirement ∈ requirements, requirement.isMet = true := by
  rw [← Requirement.verdict_eq_ok]
  unfold Needs at hneeds
  cases hverdict : Requirement.verdict requirements with
  | ok _ =>
    rw [hverdict] at hneeds
    obtain ⟨_, t, hon, rfl⟩ := hneeds
    simp [hon]
  | error fault =>
    rw [hverdict] at hneeds
    obtain ⟨t, hon⟩ := hneeds
    simp [hon]

theorem Needs.error_iff {op : Operation α} (hneeds : op.Needs s requirements Q) {fault : Fault} :
    (op.on s).1 = .error fault ↔ Requirement.FailWith requirements fault := by
  rw [← Requirement.verdict_eq_error]
  unfold Needs at hneeds
  cases hverdict : Requirement.verdict requirements with
  | ok _ =>
    rw [hverdict] at hneeds
    obtain ⟨a, t, hon, -⟩ := hneeds
    simp [hon]
  | error fault' =>
    rw [hverdict] at hneeds
    obtain ⟨t, hon⟩ := hneeds
    simp [hon]

end Operation

end PipelineOperator
