/-!
Finite maps kept as association lists in strictly increasing key order. Labels, annotations and
the tables of a cluster are such maps: they are read back in key order, and two of them with the
same look-ups are the same value (`SortedMap.ext_get?`), so equality of clusters is equality of
their contents. `get?_insert` and `get?_erase` say what the two writes do to the look-up.
-/

set_option autoImplicit false
set_option relaxedAutoImplicit false

namespace PipelineOperator

/-- A finite map whose entries stand in strictly increasing key order. -/
structure SortedMap (α β : Type) [Ord α] where
  entries : List (α × β)
  ordered : entries.Pairwise (fun a b ↦ compare a.1 b.1 = .lt)

namespace SortedMap

variable {α β : Type} [Ord α]

instance [DecidableEq α] [DecidableEq β] : DecidableEq (SortedMap α β) := fun a b ↦
  if h : a.entries = b.entries then
    isTrue (by cases a; cases b; cases h; rfl)
  else
    isFalse (fun e ↦ h (e ▸ rfl))

theorem ext_entries {a b : SortedMap α β} (h : a.entries = b.entries) : a = b := by
  cases a; cases b; cases h; rfl

def empty : SortedMap α β := ⟨[], List.Pairwise.nil⟩

instance : EmptyCollection (SortedMap α β) := ⟨empty⟩
instance : Inhabited (SortedMap α β) := ⟨empty⟩

def toList (m : SortedMap α β) : List (α × β) := m.entries

def keys (m : SortedMap α β) : List α := m.entries.map (·.1)

def values (m : SortedMap α β) : List β := m.entries.map (·.2)

def isEmpty (m : SortedMap α β) : Bool := m.entries.isEmpty

def getList (k : α) : List (α × β) → Option β
  | [] => none
  | (k', v) :: rest => if compare k k' = .eq then some v else getList k rest

def get? (m : SortedMap α β) (k : α) : Option β := getList k m.entries

def contains (m : SortedMap α β) (k : α) : Bool := (m.get? k).isSome

/-- Places an entry before the first larger key, over an equal one. -/
def insertList (k : α) (v : β) : List (α × β) → List (α × β)
  | [] => [(k, v)]
  | (k', v') :: rest =>
    match compare k k' with
    | .lt => (k, v) :: (k', v') :: rest
    | .eq => (k, v) :: rest
    | .gt => (k', v') :: insertList k v rest

def eraseList (k : α) (entries : List (α × β)) : List (α × β) :=
  entries.filter (fun e ↦ compare k e.1 != .eq)

theorem key_mem_insertList {k : α} {v : β} {entries : List (α × β)} {e : α × β}
    (h : e ∈ insertList k v entries) : e = (k, v) ∨ e ∈ entries := by
  induction entries with
  | nil => simpa [insertList] using h
  | cons head rest ih =>
    obtain ⟨k', v'⟩ := head
    simp only [insertList] at h
    split at h
    · simpa using h
    · rcases List.mem_cons.mp h with rfl | h
      · exact .inl rfl
      · exact .inr (List.mem_cons_of_mem _ h)
    · rcases List.mem_cons.mp h with rfl | h
      · exact .inr (List.mem_cons_self ..)
      · exact (ih h).imp_right (List.mem_cons_of_mem _)

section Lawful

variable [Std.TransOrd α] [Std.LawfulEqOrd α]

theorem ordered_insertList (k : α) (v : β) {entries : List (α × β)}
    (h : entries.Pairwise (fun a b ↦ compare a.1 b.1 = .lt)) :
    (insertList k v entries).Pairwise (fun a b ↦ compare a.1 b.1 = .lt) := by
  induction entries with
  | nil => simp [insertList]
  | cons head rest ih =>
    obtain ⟨k', v'⟩ := head
    rw [List.pairwise_cons] at h
    simp only [insertList]
    split
    · next hlt =>
      refine List.pairwise_cons.mpr ⟨fun e he ↦ ?_, List.pairwise_cons.mpr h⟩
      rcases List.mem_cons.mp he with rfl | he
      · exact hlt
      · exact Std.TransCmp.lt_trans hlt (h.1 e he)
    · next heq =>
      obtain rfl := Std.LawfulEqCmp.eq_of_compare heq
      exact List.pairwise_cons.mpr h
    · next hgt =>
      refine List.pairwise_cons.mpr ⟨fun e he ↦ ?_, ih h.2⟩
      rcases key_mem_insertList he with rfl | he
      · exact Std.OrientedCmp.lt_of_gt hgt
      · exact h.1 e he

/-- Stores a value, over the one the key had. -/
def insert (m : SortedMap α β) (k : α) (v : β) : SortedMap α β :=
  ⟨insertList k v m.entries, ordered_insertList k v m.ordered⟩

/-- Later entries win over earlier ones of the same key. -/
def ofList (entries : List (α × β)) : SortedMap α β :=
  entries.foldl (fun m e ↦ m.insert e.1 e.2) empty

end Lawful

def erase (m : SortedMap α β) (k : α) : SortedMap α β :=
  ⟨eraseList k m.entries, m.ordered.filter _⟩

/-- Keeps the entries that satisfy a test. -/
def filter (m : SortedMap α β) (keep : α → β → Bool) : SortedMap α β :=
  ⟨m.entries.filter (fun e ↦ keep e.1 e.2), m.ordered.filter _⟩

@[simp] theorem get?_empty (k : α) : (empty : SortedMap α β).get? k = none := rfl

theorem getList_eraseList_self (k : α) (entries : List (α × β)) :
    getList k (eraseList k entries) = none := by
  induction entries with
  | nil => rfl
  | cons head rest ih =>
    obtain ⟨l, w⟩ := head
    rw [eraseList] at ih ⊢
    by_cases hl : compare k l = .eq <;> simp [getList, hl, ih]

@[simp] theorem get?_erase_self (m : SortedMap α β) (k : α) : (m.erase k).get? k = none :=
  getList_eraseList_self k m.entries

section Lookup

variable [Std.LawfulEqOrd α]

theorem getList_insertList_self (k : α) (v : β) (entries : List (α × β)) :
    getList k (insertList k v entries) = some v := by
  induction entries with
  | nil => simp [insertList, getList]
  | cons head rest ih =>
    obtain ⟨k', v'⟩ := head
    simp only [insertList]
    split
    · simp [getList]
    · simp [getList]
    · next hgt => simp [getList, hgt, ih]

theorem getList_insertList_of_ne {k k' : α} (h : k' ≠ k) (v : β) (entries : List (α × β)) :
    getList k' (insertList k v entries) = getList k' entries := by
  have hne : compare k' k ≠ .eq := fun e ↦ h (Std.LawfulEqCmp.eq_of_compare e)
  induction entries with
  | nil => simp [insertList, getList, hne]
  | cons head rest ih =>
    obtain ⟨l, w⟩ := head
    simp only [insertList]
    split
    · simp [getList, hne]
    · next heq =>
      obtain rfl := Std.LawfulEqCmp.eq_of_compare heq
      simp [getList, hne]
    · by_cases hl : compare k' l = .eq <;> simp [getList, hl, ih]

theorem getList_eraseList_of_ne {k k' : α} (h : k' ≠ k) (entries : List (α × β)) :
    getList k' (eraseList k entries) = getList k' entries := by
  induction entries with
  | nil => rfl
  | cons head rest ih =>
    obtain ⟨l, w⟩ := head
    rw [eraseList] at ih ⊢
    by_cases hl : compare k l = .eq
    · obtain rfl := Std.LawfulEqCmp.eq_of_compare hl
      have : compare k' k ≠ .eq := fun e ↦ h (Std.LawfulEqCmp.eq_of_compare e)
      simp [getList, this, ih]
    · by_cases hk : compare k' l = .eq <;> simp [getList, hl, hk, ih]

theorem get?_erase_of_ne (m : SortedMap α β) {k k' : α} (h : k' ≠ k) :
    (m.erase k).get? k' = m.get? k' := getList_eraseList_of_ne h m.entries

theorem get?_erase [DecidableEq α] (m : SortedMap α β) (k k' : α) :
    (m.erase k).get? k' = if k' = k then none else m.get? k' := by
  by_cases h : k' = k
  · simp [h, get?_erase_self]
  · simp [h, get?_erase_of_ne]

theorem getList_eq_some_iff {entries : List (α × β)}
    (h : entries.Pairwise (fun a b ↦ compare a.1 b.1 = .lt)) {k : α} {v : β} :
    getList k entries = some v ↔ (k, v) ∈ entries := by
  induction entries with
  | nil => simp [getList]
  | cons head rest ih =>
    obtain ⟨l, w⟩ := head
    rw [List.pairwise_cons] at h
    by_cases hl : compare k l = .eq
    · obtain rfl := Std.LawfulEqCmp.eq_of_compare hl
      have hrest : (k, v) ∉ rest := fun he ↦ by simpa using h.1 _ he
      simp [getList, hrest, eq_comm]
    · have hkl : k ≠ l := fun e ↦ hl (by simp [e])
      simp [getList, hl, ih h.2, hkl]

theorem get?_eq_some_iff (m : SortedMap α β) {k : α} {v : β} :
    m.get? k = some v ↔ (k, v) ∈ m.toList := getList_eq_some_iff m.ordered

variable [Std.TransOrd α]

@[simp] theorem get?_insert_self (m : SortedMap α β) (k : α) (v : β) :
    (m.insert k v).get? k = some v := getList_insertList_self k v m.entries

theorem get?_insert_of_ne (m : SortedMap α β) {k k' : α} (h : k' ≠ k) (v : β) :
    (m.insert k v).get? k' = m.get? k' := getList_insertList_of_ne h v m.entries

theorem get?_insert [DecidableEq α] (m : SortedMap α β) (k k' : α) (v : β) :
    (m.insert k v).get? k' = if k' = k then some v else m.get? k' := by
  by_cases h : k' = k
  · simp [h, get?_insert_self]
  · simp [h, get?_insert_of_ne]

theorem get?_ofList_pair {k k' : α} (h : k ≠ k') (v v' : β) :
    (ofList [(k, v), (k', v')]).get? k = some v := by
  show ((empty.insert k v).insert k' v').get? k = some v
  rw [get?_insert_of_ne _ h, get?_insert_self]

/-- Two maps with the same look-ups are the same map. -/
theorem ext_get? {a b : SortedMap α β} (h : ∀ k, a.get? k = b.get? k) : a = b := by
  have mem (e : α × β) : e ∈ a.entries ↔ e ∈ b.entries := by
    obtain ⟨k, v⟩ := e
    rw [← getList_eq_some_iff a.ordered, ← getList_eq_some_iff b.ordered]
    exact ⟨fun hk ↦ (h k).symm.trans hk, fun hk ↦ (h k).trans hk⟩
  obtain ⟨xs, hx⟩ := a
  obtain ⟨ys, hy⟩ := b
  simp only at mem
  refine ext_entries ?_
  clear h
  show xs = ys
  induction xs generalizing ys with
  | nil =>
    cases ys with
    | nil => rfl
    | cons y ys => exact absurd ((mem y).mpr (List.mem_cons_self ..)) (List.not_mem_nil)
  | cons x xs ih =>
    cases ys with
    | nil => exact absurd ((mem x).mp (List.mem_cons_self ..)) (List.not_mem_nil)
    | cons y ys =>
      rw [List.pairwise_cons] at hx hy
      have irrefl (e : α × β) : ¬ compare e.1 e.1 = .lt := by simp
      obtain rfl : x = y := by
        rcases List.mem_cons.mp ((mem x).mp (List.mem_cons_self ..)) with rfl | hxy
        · rfl
        rcases List.mem_cons.mp ((mem y).mpr (List.mem_cons_self ..)) with rfl | hyx
        · rfl
        exact absurd (Std.TransCmp.lt_trans (hx.1 y hyx) (hy.1 x hxy)) (irrefl x)
      refine congrArg _ (ih hx.2 ys hy.2 fun e ↦ ⟨fun he ↦ ?_, fun he ↦ ?_⟩)
      · rcases List.mem_cons.mp ((mem e).mp (List.mem_cons_of_mem _ he)) with rfl | h
        · exact absurd (hx.1 e he) (irrefl e)
        · exact h
      · rcases List.mem_cons.mp ((mem e).mpr (List.mem_cons_of_mem _ he)) with rfl | h
        · exact absurd (hy.1 e he) (irrefl e)
        · exact h

end Lookup

end SortedMap

end PipelineOperator
