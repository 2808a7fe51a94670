import PipelineOperator.Json.Record

/-!
Reading records. A record is read by looking up its members, each written at most once. A member
that stands among others is read on its own: what is read of every other name is what is read
without it (`Json.lookup_insert_of_ne`). So a missing member is read like a written one if its
default is read like the value (`Json.bind_record?_insert`), and a member is read like another if
its values are (`Json.bind_record?_replace`).
-/

set_option autoImplicit false
set_option relaxedAutoImplicit false

namespace PipelineOperator

namespace Json

variable {α : Type}

/-! ### Members written at most once -/

theorem occurrences_cons (name : String) (m : String × Json) (members : Members) :
    occurrences name (m :: members) =
      (if m.1 = name then 1 else 0) + occurrences name members := by
  by_cases h : m.1 = name
  · simp [occurrences, h, Nat.add_comm]
  · simp [occurrences, h]

theorem lookup_eq_none_of_occurrences {name : String} {members : Members}
    (h : occurrences name members = 0) : lookup name members = none := by
  induction members with
  | nil => rfl
  | cons m rest ih =>
    rw [occurrences_cons] at h
    have hname : m.1 ≠ name := fun hname ↦ by simp [hname] at h
    have hrest : occurrences name rest = 0 := by omega
    simp [lookup, ih hrest, hname]

theorem occurrences_eq_zero {name : String} {members : Members} :
    occurrences name members = 0 ↔ name ∉ members.map Prod.fst := by
  rw [occurrences, List.length_eq_zero_iff, List.filter_eq_nil_iff, List.mem_map]
  exact ⟨fun h ⟨m, hm, hname⟩ ↦ h m hm (by simpa using hname),
    fun h m hm hname ↦ h ⟨m, hm, by simpa using hname⟩⟩

theorem lookup_eq_none_of_notMem {name : String} {members : Members}
    (h : name ∉ members.map Prod.fst) : lookup name members = none :=
  lookup_eq_none_of_occurrences (occurrences_eq_zero.mpr h)

theorem occurrences_le_one {members : Members} (h : (members.map Prod.fst).Nodup)
    (name : String) : occurrences name members ≤ 1 := by
  induction members with
  | nil => exact Nat.zero_le 1
  | cons m rest ih =>
    obtain ⟨hfirst, hrest⟩ := List.nodup_cons.mp h
    rw [occurrences_cons]
    split
    · next hname =>
      have hnone : occurrences name rest = 0 := occurrences_eq_zero.mpr (hname ▸ hfirst)
      omega
    · rw [Nat.zero_add]
      exact ih hrest

/-- The values of a name that is written at most once are the one that is looked up. -/
theorem filter_eq_lookup {name : String} {members : Members}
    (h : occurrences name members ≤ 1) :
    members.filter (fun m ↦ m.1 == name) =
      (lookup name members).toList.map (fun value ↦ (name, value)) := by
  induction members with
  | nil => rfl
  | cons m rest ih =>
    obtain ⟨n, value⟩ := m
    rw [occurrences_cons] at h
    by_cases hname : n = name
    · have hrest : occurrences name rest = 0 := by
        rw [if_pos hname] at h
        omega
      have hnone : rest.filter (fun m ↦ m.1 == name) = [] := List.length_eq_zero_iff.mp hrest
      simp [lookup, lookup_eq_none_of_occurrences hrest, hname, hnone]
    · have hrest : occurrences name rest ≤ 1 := by simpa [hname] using h
      have hlookup : lookup name ((n, value) :: rest) = lookup name rest := by
        cases hfound : lookup name rest <;> simp [lookup, hfound, hname]
      simp [hname, hlookup, ih hrest]

/-- A member whose name is written at most once is the one that is looked up. -/
theorem lookup_of_mem {name : String} {value : Json} {members : Members}
    (h : occurrences name members ≤ 1) (hmem : (name, value) ∈ members) :
    lookup name members = some value := by
  have hvalue : (name, value) ∈ members.filter (fun m ↦ m.1 == name) :=
    List.mem_filter.mpr ⟨hmem, by simp⟩
  rw [filter_eq_lookup h] at hvalue
  cases hfound : lookup name members <;> simp_all

/-- An optional member that is written at most once is read from what is looked up. -/
theorem Members.optional_eq_lookup {members : Members} {name : String}
    (h : occurrences name members ≤ 1) (decode : Json → Option α) :
    members.optional name decode =
      ((lookup name members).map (nullable decode)).getD (some none) := by
  unfold Members.optional
  rw [filter_eq_lookup h]
  cases lookup name members with
  | none => rfl
  | some value => cases hvalue : nullable decode value <;> simp [hvalue]

theorem record?_object (names : List String) (members : Members) :
    record? names (.object members) = objectRecord? names (.object members) := rfl

/-- An object is a record if its known members are single, and then it is its members. -/
theorem objectRecord?_object {names : List String} {members r : Members}
    (h : objectRecord? names (.object members) = some r) :
    r = members ∧ ∀ name ∈ names, occurrences name members ≤ 1 := by
  simp only [objectRecord?, Option.ite_none_right_eq_some, List.all_eq_true, decide_eq_true_eq,
    Option.some.injEq] at h
  exact ⟨h.2.symm, h.1⟩

theorem Members.mem_names_of_required {members : Members} {name : String}
    {decode : Json → Option α} {found : α} (h : members.required name decode = some found) :
    name ∈ members.map Prod.fst := by
  obtain ⟨value, hlookup, -⟩ := Option.bind_eq_some_iff.mp h
  refine Decidable.byContradiction fun habsent ↦ ?_
  rw [lookup_eq_none_of_notMem habsent] at hlookup
  cases hlookup

theorem record?_of_nodup {members : Members} (h : (members.map Prod.fst).Nodup)
    (names : List String) : record? names (.object members) = some members := by
  rw [record?_object, objectRecord?, if_pos]
  exact List.all_eq_true.mpr fun name _ ↦ decide_eq_true (occurrences_le_one h name)

/-! ### One member among others -/

variable {before after : Members} {name other : String} {value : Json}

theorem lookup_append (name : String) (before after : Members) :
    lookup name (before ++ after) = (lookup name after).or (lookup name before) := by
  induction before with
  | nil => simp [lookup]
  | cons m rest ih =>
    rw [List.cons_append, lookup, lookup, ih]
    cases lookup name after <;> simp

theorem lookup_insert_of_ne (h : other ≠ name) :
    lookup other (before ++ (name, value) :: after) = lookup other (before ++ after) := by
  rw [lookup_append, lookup_append, lookup]
  cases lookup other after <;> simp [h.symm]

theorem lookup_insert_self (h : name ∉ (before ++ after).map Prod.fst) :
    lookup name (before ++ (name, value) :: after) = some value := by
  rw [List.map_append, List.mem_append, not_or] at h
  rw [lookup_append, lookup, lookup_eq_none_of_notMem h.2]
  simp

theorem occurrences_insert (name other : String) (value : Json) (before after : Members) :
    occurrences other (before ++ (name, value) :: after) =
      (if name = other then 1 else 0) + occurrences other (before ++ after) := by
  have happend (members : Members) : occurrences other (before ++ members) =
      occurrences other before + occurrences other members := by simp [occurrences]
  rw [happend, happend, occurrences_cons, Nat.add_left_comm]

namespace Members

variable {fallback : α} {decode : Json → Option α}

theorem required_insert_of_ne (h : other ≠ name) :
    required (before ++ (name, value) :: after) other decode =
      required (before ++ after) other decode := by
  rw [required, required, lookup_insert_of_ne h]

theorem defaulted_insert_of_ne (h : other ≠ name) :
    defaulted (before ++ (name, value) :: after) other fallback decode =
      defaulted (before ++ after) other fallback decode := by
  rw [defaulted, defaulted, lookup_insert_of_ne h]

theorem defaulted_of_lookup {members : Members} (h : lookup name members = some value) :
    defaulted members name fallback decode = decode value := by
  rw [defaulted, h]

theorem defaulted_insert_self (h : name ∉ (before ++ after).map Prod.fst) :
    defaulted (before ++ (name, value) :: after) name fallback decode = decode value := by
  rw [defaulted_of_lookup (lookup_insert_self h)]

theorem defaulted_of_notMem {members : Members} (h : name ∉ members.map Prod.fst) :
    defaulted members name fallback decode = some fallback := by
  rw [defaulted, lookup_eq_none_of_notMem h]

theorem optional_insert_of_ne (h : other ≠ name) :
    optional (before ++ (name, value) :: after) other decode =
      optional (before ++ after) other decode := by
  simp [optional, h.symm]

theorem optional_of_lookup {members : Members} (honce : occurrences name members ≤ 1)
    (h : lookup name members = some value) :
    optional members name decode = nullable decode value := by
  rw [optional_eq_lookup honce, h]
  rfl

theorem optional_insert_self (h : name ∉ (before ++ after).map Prod.fst) :
    optional (before ++ (name, value) :: after) name decode = nullable decode value := by
  have honce : occurrences name (before ++ (name, value) :: after) = 1 := by
    rw [occurrences_insert, if_pos rfl, occurrences_eq_zero.mpr h]
  rw [optional_of_lookup (Nat.le_of_eq honce) (lookup_insert_self h)]

theorem optional_of_notMem {members : Members} (h : name ∉ members.map Prod.fst) :
    optional members name decode = some none := by
  have hnone : occurrences name members = 0 := occurrences_eq_zero.mpr h
  rw [optional_eq_lookup (by omega), lookup_eq_none_of_notMem h]
  rfl

end Members

/-! ### Records with a member more or another value -/

variable {names : List String} {read : Members → Option α}

/-- A missing member is read like a written one if the parts are. -/
theorem bind_record?_insert (habsent : name ∉ (before ++ after).map Prod.fst)
    (hread : read (before ++ (name, value) :: after) = read (before ++ after)) :
    (record? names (.object (before ++ (name, value) :: after))).bind read =
      (record? names (.object (before ++ after))).bind read := by
  have hsingle (n : String) : occurrences n (before ++ (name, value) :: after) ≤ 1 ↔
      occurrences n (before ++ after) ≤ 1 := by
    rw [occurrences_insert]
    split
    · next hname => rw [← hname, occurrences_eq_zero.mpr habsent]; decide
    · rw [Nat.zero_add]
  simp only [record?_object, objectRecord?, hsingle]
  split
  · simpa using hread
  · rfl

/-- A member is read like another one of its name if the parts are. -/
theorem bind_record?_replace {value' : Json} (hname : name ∈ names)
    (hread : name ∉ (before ++ after).map Prod.fst →
      read (before ++ (name, value') :: after) = read (before ++ (name, value) :: after)) :
    (record? names (.object (before ++ (name, value') :: after))).bind read =
      (record? names (.object (before ++ (name, value) :: after))).bind read := by
  simp only [record?_object, objectRecord?, occurrences_insert]
  split
  · next hsingle =>
    have honce := of_decide_eq_true (List.all_eq_true.mp hsingle name hname)
    rw [if_pos rfl] at honce
    exact hread (occurrences_eq_zero.mp (by omega))
  · rfl

/-! ### Values in members -/

/-- Items that are read as they were written are so in a list. -/
theorem list?_map {encode : α → Json} {decode : Json → Option α}
    (h : ∀ value, decode (encode value) = some value) (values : List α) :
    list? decode (.array (values.map encode)) = some values := by
  rw [list?, array?, Option.bind_some]
  induction values with
  | nil => rfl
  | cons value rest ih => simp [h, ih]

/-- Each item of a list is read as the value in its place. -/
theorem exists_of_list? {decode : Json → Option α} {items : List Json} {values : List α}
    (h : list? decode (.array items) = some values) {i : Nat} {item : Json}
    (hitem : items[i]? = some item) :
    ∃ value, values[i]? = some value ∧ decode item = some value := by
  rw [list?, array?, Option.bind_some] at h
  induction items generalizing values i with
  | nil => simp at hitem
  | cons first rest ih =>
    simp only [List.mapM_cons, Option.bind_eq_bind, Option.bind_eq_some_iff, Option.pure_def,
      Option.some.injEq] at h
    obtain ⟨value, hvalue, tail, htail, rfl⟩ := h
    cases i with
    | zero =>
      obtain rfl : first = item := by simpa using hitem
      exact ⟨value, rfl, hvalue⟩
    | succ i => exact ih htail hitem

/-- A whole number of 32 bits without a sign is read as it was written. -/
theorem uint32?_toNat (n : UInt32) : uint32? (.integer n.toNat) = some n := by
  have hhigh : (n.toNat : Int) ≤ (UInt32.size : Int) - 1 := by
    have := n.toNat_lt
    simp only [UInt32.size]
    omega
  rw [uint32?, integerIn?, integer?, Option.bind_some,
    if_pos ⟨Int.natCast_nonneg n.toNat, hhigh⟩, Option.map_some, Int.toNat_natCast,
    UInt32.ofNat_toNat]

/-- A whole number of 64 bits is read as it was written. -/
theorem int64?_toInt (n : Int64) : int64? (.integer n.toInt) = some n := by
  have hlow : Int64.minValue.toInt ≤ n.toInt := Int64.minValue_le_toInt n
  have hhigh : n.toInt ≤ Int64.maxValue.toInt := Int64.toInt_le n
  rw [int64?, integerIn?, integer?, Option.bind_some, if_pos ⟨hlow, hhigh⟩, Option.map_some,
    Int64.ofInt_toInt]

end Json

end PipelineOperator
