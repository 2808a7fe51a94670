import PipelineOperator.Json.MergePatch
import PipelineOperator.Proofs.Json.Record

/-!
What merge patches leave of a record. A record is read by looking up its members, each written at
most once, so a patched record is known from its look-ups: a member that the patch gives is merged
with what was there, and every other member stays (`Json.lookup_mergeMembers`). What a patch leaves
out is not taken away; a patch takes a member away by giving null for it.
-/

set_option autoImplicit false
set_option relaxedAutoImplicit false

namespace PipelineOperator

namespace Json

variable {α : Type}

/-! ### One member set or erased -/

theorem occurrences_setMember_self_le {name : String} {members : Members} (value : Json)
    (h : occurrences name members ≤ 1) : occurrences name (setMember name value members) ≤ 1 := by
  induction members with
  | nil => simp [setMember, occurrences]
  | cons m rest ih =>
    rw [occurrences_cons] at h
    by_cases hname : m.1 = name
    · simpa [setMember, occurrences_cons, hname] using h
    · simp only [hname, if_false, Nat.zero_add] at h
      simpa [setMember, occurrences_cons, hname] using ih h

theorem occurrences_setMember_of_ne {name other : String} (h : other ≠ name) (value : Json)
    (members : Members) :
    occurrences other (setMember name value members) = occurrences other members := by
  induction members with
  | nil => simp [setMember, occurrences, h.symm]
  | cons m rest ih =>
    by_cases hname : m.1 = name
    · simp [setMember, occurrences_cons, hname]
    · simp [setMember, occurrences_cons, hname, ih]

theorem lookup_setMember_self {name : String} {members : Members} (value : Json)
    (h : occurrences name members ≤ 1) :
    lookup name (setMember name value members) = some value := by
  induction members with
  | nil => simp [setMember, lookup]
  | cons m rest ih =>
    rw [occurrences_cons] at h
    by_cases hname : m.1 = name
    · have hrest : occurrences name rest = 0 := by
        rw [if_pos hname] at h
        omega
      simp [setMember, lookup, hname, lookup_eq_none_of_occurrences hrest]
    · simp only [hname, if_false, Nat.zero_add] at h
      simp [setMember, lookup, hname, ih h]

theorem lookup_setMember_of_ne {name other : String} (h : other ≠ name) (value : Json)
    (members : Members) : lookup other (setMember name value members) = lookup other members := by
  induction members with
  | nil => simp [setMember, lookup, h.symm]
  | cons m rest ih =>
    by_cases hname : m.1 = name
    · simp [setMember, lookup, hname, h.symm]
    · simp [setMember, lookup, hname, ih]

theorem occurrences_eraseMember_le (name other : String) (members : Members) :
    occurrences other (eraseMember name members) ≤ occurrences other members :=
  (List.filter_sublist.filter _).length_le

theorem lookup_eraseMember_self (name : String) (members : Members) :
    lookup name (eraseMember name members) = none := by
  refine lookup_eq_none_of_occurrences ?_
  simp [occurrences, eraseMember, List.filter_filter]

theorem lookup_eraseMember_of_ne {name other : String} (h : other ≠ name) (members : Members) :
    lookup other (eraseMember name members) = lookup other members := by
  induction members with
  | nil => rfl
  | cons m rest ih =>
    unfold eraseMember at ih ⊢
    by_cases hname : m.1 = name
    · cases hfound : lookup other rest <;> simp [lookup, hname, ih, hfound, h.symm]
    · simp [lookup, hname, ih]

/-! ### Records under a patch -/

/-- What a change makes of the member that was there, if any: null takes it away. -/
def merged (change : Json) (old : Option Json) : Option Json :=
  if change.isNull then none else some ((old.getD null).mergePatch change)

/-- A document that is no object is patched as if it had no members. -/
theorem mergePatch_object_of_members?_eq_none {document : Json} (h : document.members? = none)
    (changes : Members) :
    document.mergePatch (.object changes) = (object []).mergePatch (.object changes) := by
  rw [mergePatch, mergePatch, h, members?]
  rfl

/-- One change of a patch, and then the others. -/
theorem mergeMembers_cons (members : Members) (name : String) (change : Json) (changes : Members) :
    mergeMembers members ((name, change) :: changes) =
      mergeMembers (match merged change (lookup name members) with
        | none => eraseMember name members
        | some value => setMember name value members) changes := by
  cases hnull : change.isNull <;> simp [mergeMembers, merged, hnull]

theorem occurrences_mergeMembers_le {name : String} {members : Members} (changes : Members)
    (h : occurrences name members ≤ 1) : occurrences name (mergeMembers members changes) ≤ 1 := by
  induction changes generalizing members with
  | nil => simpa [mergeMembers] using h
  | cons m rest ih =>
    rw [mergeMembers_cons]
    refine ih ?_
    cases merged m.2 (lookup m.1 members) with
    | none => exact Nat.le_trans (occurrences_eraseMember_le _ _ _) h
    | some value =>
      by_cases hname : name = m.1
      · subst hname
        exact occurrences_setMember_self_le value h
      · exact Nat.le_trans (Nat.le_of_eq (occurrences_setMember_of_ne hname value members)) h

/-- A patched record has what the changes make of its members, and as they were those for which
there is no change. -/
theorem lookup_mergeMembers {name : String} {members changes : Members}
    (hchanges : (changes.map Prod.fst).Nodup) (h : occurrences name members ≤ 1) :
    lookup name (mergeMembers members changes) =
      ((lookup name changes).map (fun change ↦ merged change (lookup name members))).getD
        (lookup name members) := by
  induction changes generalizing members with
  | nil => simp [mergeMembers, lookup]
  | cons m rest ih =>
    obtain ⟨n, change⟩ := m
    obtain ⟨hn, hrest⟩ := List.nodup_cons.mp hchanges
    have hfirst := occurrences_mergeMembers_le [(n, change)] h
    rw [mergeMembers_cons, mergeMembers] at hfirst
    rw [mergeMembers_cons, ih hrest hfirst]
    by_cases hname : n = name
    · subst hname
      have hnone : lookup n rest = none := lookup_eq_none_of_notMem hn
      cases hmerged : merged change (lookup n members) with
      | none => simp [hnone, lookup, lookup_eraseMember_self, hmerged]
      | some value => simp [hnone, lookup, lookup_setMember_self value h, hmerged]
    · have hkept : lookup name (match merged change (lookup n members) with
          | none => eraseMember n members
          | some value => setMember n value members) = lookup name members := by
        cases merged change (lookup n members) with
        | none => exact lookup_eraseMember_of_ne (Ne.symm hname) members
        | some value => exact lookup_setMember_of_ne (Ne.symm hname) value members
      cases hfound : lookup name rest <;> simp [hkept, lookup, hfound, hname]

/-- A member with a default, of a record under a patch. -/
theorem Members.defaulted_mergeMembers {name : String} {members changes : Members}
    (hchanges : (changes.map Prod.fst).Nodup) (h : occurrences name members ≤ 1)
    (fallback : α) (decode : Json → Option α) :
    Members.defaulted (mergeMembers members changes) name fallback decode =
      ((lookup name changes).map (fun change ↦
          ((merged change (lookup name members)).map decode).getD (some fallback))).getD
        (members.defaulted name fallback decode) := by
  unfold Members.defaulted
  rw [lookup_mergeMembers hchanges h]
  cases lookup name changes with
  | none => rfl
  | some change => cases hmerged : merged change (lookup name members) <;> simp [hmerged]

/-- An optional member of a record under a patch. -/
theorem Members.optional_mergeMembers {name : String} {members changes : Members}
    (hchanges : (changes.map Prod.fst).Nodup) (h : occurrences name members ≤ 1)
    (decode : Json → Option α) :
    Members.optional (mergeMembers members changes) name decode =
      ((lookup name changes).map (fun change ↦
          ((merged change (lookup name members)).map (nullable decode)).getD (some none))).getD
        (members.optional name decode) := by
  rw [optional_eq_lookup (occurrences_mergeMembers_le changes h), optional_eq_lookup h,
    lookup_mergeMembers hchanges h]
  cases lookup name changes <;> rfl

/-- An object that is a record still is one under a patch. -/
theorem objectRecord?_mergeMembers {names : List String} {members : Members} (changes : Members)
    (h : ∀ name ∈ names, occurrences name members ≤ 1) :
    objectRecord? names (.object (mergeMembers members changes)) =
      some (mergeMembers members changes) := by
  simp only [objectRecord?, Option.ite_none_right_eq_some, List.all_eq_true, decide_eq_true_eq,
    and_true]
  exact fun name hname ↦ occurrences_mergeMembers_le changes (h name hname)

end Json

end PipelineOperator
