import PipelineOperator.Cluster.Journal

/-!
Stores as a cluster keeps them: every object lies under its own key (`Store.Keyed`), and an object
that is marked for deletion still has a finalizer, since it vanishes with the last one
(`Store.Sound`; `Store.SoundAt` says this of one kind of objects). On a keyed store every write
comes down to `Store.put` or `Store.remove` (`Store.Keyed.answer_cases`), so that keys are kept by
every request, and soundness by every request that does not create an object which is already
released.
-/

set_option autoImplicit false
set_option relaxedAutoImplicit false

namespace PipelineOperator

namespace Store

variable {k k' : Kind} {s : Store}

/-- A store as the cluster keeps it. -/
structure Sound (s : Store) : Prop where
  /-- Every object lies under its own key. -/
  keyed : ∀ {k : Kind} {key : Key} {o : Object k}, s.find? k key = some o → o.key = key
  /-- What is marked for deletion and has no finalizer is gone. -/
  held : ∀ {k : Kind} {key : Key} {o : Object k}, s.find? k key = some o →
    o.metadata.isReleased = false

/-- The objects of a kind lie under their own keys. -/
def KeyedAt (k : Kind) (s : Store) : Prop :=
  ∀ ⦃key : Key⦄ ⦃o : Object k⦄, s.find? k key = some o → o.key = key

/-- Every object lies under its own key. -/
def Keyed (s : Store) : Prop := ∀ k, s.KeyedAt k

/-- The store is as the cluster keeps it as far as one kind of objects goes. -/
structure SoundAt (k : Kind) (s : Store) : Prop where
  keyed : s.KeyedAt k
  held : ∀ {key : Key} {o : Object k}, s.find? k key = some o → o.metadata.isReleased = false

theorem Sound.toKeyed (hsound : s.Sound) : s.Keyed := fun _ _ _ hfound ↦ hsound.keyed hfound

theorem Sound.soundAt (hsound : s.Sound) (k : Kind) : s.SoundAt k :=
  ⟨hsound.toKeyed k, hsound.held⟩

theorem sound_of_soundAt (hsound : ∀ k, s.SoundAt k) : s.Sound :=
  ⟨fun {k} _ _ hfound ↦ (hsound k).keyed hfound, fun {k} _ _ hfound ↦ (hsound k).held hfound⟩

/-! ### Writing one object -/

theorem find?_put_of_ne (s : Store) (o : Object k) {key : Key}
    (hne : ¬ (k' = k ∧ key = o.key)) : (s.put o).find? k' key = s.find? k' key := by
  by_cases hkind : k' = k
  · subst hkind
    exact find?_put_of_key_ne s o fun hkey ↦ hne ⟨rfl, hkey⟩
  · exact find?_put_of_kind_ne s o hkind key

theorem find?_put (s : Store) (o : Object k) (key : Key) :
    (s.put o).find? k key = if key = o.key then some o else s.find? k key := by
  by_cases hkey : key = o.key
  · rw [if_pos hkey, hkey, find?_put_self]
  · rw [if_neg hkey, find?_put_of_key_ne s o hkey]

theorem find?_remove_of_ne (s : Store) {key key' : Key} (hne : ¬ (k' = k ∧ key' = key)) :
    (s.remove k key).find? k' key' = s.find? k' key' := by
  by_cases hkind : k' = k
  · subst hkind
    exact find?_remove_of_key_ne s k' fun hkey ↦ hne ⟨rfl, hkey⟩
  · exact find?_remove_of_kind_ne s hkind key key'

theorem find?_remove (s : Store) (k : Kind) (key key' : Key) :
    (s.remove k key).find? k key' = if key' = key then none else s.find? k key' := by
  by_cases hkey : key' = key
  · rw [if_pos hkey, hkey, find?_remove_self]
  · rw [if_neg hkey, find?_remove_of_key_ne s k hkey]

/-- Storing what is stored changes nothing. -/
theorem put_of_find? {o : Object k} (hfound : s.find? k o.key = some o) : s.put o = s := by
  refine ext_find fun k' key' ↦ ?_
  by_cases hhere : k' = k ∧ key' = o.key
  · obtain ⟨rfl, rfl⟩ := hhere
    rw [find?_put_self, hfound]
  · rw [find?_put_of_ne s o hhere]

/-- Removing what is not there changes nothing. -/
theorem remove_of_absent {key : Key} (habsent : s.find? k key = none) : s.remove k key = s := by
  refine ext_find fun k' key' ↦ ?_
  by_cases hhere : k' = k ∧ key' = key
  · obtain ⟨rfl, rfl⟩ := hhere
    rw [find?_remove_self, habsent]
  · rw [find?_remove_of_ne s hhere]

theorem KeyedAt.put (hkeyed : s.KeyedAt k') (o : Object k) : (s.put o).KeyedAt k' := by
  intro key o' hfound
  by_cases hhere : k' = k ∧ key = o.key
  · obtain ⟨rfl, rfl⟩ := hhere
    rw [find?_put_self, Option.some.injEq] at hfound
    rw [hfound]
  · exact hkeyed (find?_put_of_ne s o hhere ▸ hfound)

theorem SoundAt.put (hsound : s.SoundAt k') {o : Object k} (hheld : o.metadata.isReleased = false) :
    (s.put o).SoundAt k' := by
  refine ⟨hsound.keyed.put o, fun {key o'} hfound ↦ ?_⟩
  by_cases hhere : k' = k ∧ key = o.key
  · obtain ⟨rfl, rfl⟩ := hhere
    rw [find?_put_self, Option.some.injEq] at hfound
    exact hfound ▸ hheld
  · exact hsound.held (find?_put_of_ne s o hhere ▸ hfound)

theorem SoundAt.put_of_ne (hsound : s.SoundAt k') (hkind : k' ≠ k) (o : Object k) :
    (s.put o).SoundAt k' := by
  refine ⟨hsound.keyed.put o, fun {key o'} hfound ↦ ?_⟩
  have hbefore : s.find? k' key = some o' :=
    (find?_put_of_kind_ne s o hkind key).symm.trans hfound
  exact hsound.held hbefore

theorem Sound.put (hsound : s.Sound) {o : Object k} (hheld : o.metadata.isReleased = false) :
    (s.put o).Sound := sound_of_soundAt fun k' ↦ (hsound.soundAt k').put hheld

theorem sound_empty : Store.Sound {} := by
  constructor <;> intro k key o hfound <;> cases k <;> exact nomatch hfound

/-- What is left after a removal was there before. -/
theorem found_of_find?_remove {key key' : Key} {o : Object k'}
    (hfound : (s.remove k key).find? k' key' = some o) : s.find? k' key' = some o := by
  by_cases hhere : k' = k ∧ key' = key
  · obtain ⟨rfl, rfl⟩ := hhere
    rw [find?_remove_self] at hfound
    contradiction
  · exact find?_remove_of_ne s hhere ▸ hfound

theorem KeyedAt.remove (hkeyed : s.KeyedAt k') (k : Kind) (key : Key) :
    (s.remove k key).KeyedAt k' := fun _ _ hfound ↦ hkeyed (found_of_find?_remove hfound)

theorem SoundAt.remove (hsound : s.SoundAt k') (k : Kind) (key : Key) :
    (s.remove k key).SoundAt k' :=
  ⟨hsound.keyed.remove k key, fun hfound ↦ hsound.held (found_of_find?_remove hfound)⟩

theorem Sound.remove (hsound : s.Sound) (k : Kind) (key : Key) : (s.remove k key).Sound :=
  sound_of_soundAt fun k' ↦ (hsound.soundAt k').remove k key

/-! ### The writes of a store -/

theorem create_of_found {o stored : Object k} (hfound : s.find? k o.key = some stored) :
    s.create o = (.alreadyExists, s) := by
  rw [create, hfound]
  rfl

theorem create_of_absent {o : Object k} (habsent : s.find? k o.key = none) :
    s.create o = (.created, s.put o) := by
  rw [create, habsent]
  rfl

theorem Sound.create (hsound : s.Sound) {o : Object k} (hheld : o.metadata.isReleased = false) :
    (s.create o).2.Sound := by
  cases hfound : s.find? k o.key with
  | some stored => rw [create_of_found hfound]; exact hsound
  | none => rw [create_of_absent hfound]; exact hsound.put hheld

theorem find?_create_self (s : Store) (o : Object k) :
    ∃ stored, (s.create o).2.find? k o.key = some stored := by
  cases hfound : s.find? k o.key with
  | some stored => exact ⟨stored, by rw [create_of_found hfound, hfound]⟩
  | none => exact ⟨o, by rw [create_of_absent hfound, find?_put_self]⟩

/-- Creating an object does not touch what is found elsewhere. -/
theorem find?_create_of_found (s : Store) (o : Object k) {key : Key} {stored : Object k'}
    (hfound : s.find? k' key = some stored) : (s.create o).2.find? k' key = some stored := by
  cases hthere : s.find? k o.key with
  | some present => rw [create_of_found hthere, hfound]
  | none =>
    rw [create_of_absent hthere, find?_put_of_ne, hfound]
    rintro ⟨rfl, rfl⟩
    exact nomatch hthere.symm.trans hfound

theorem find?_create_of_ne (s : Store) (o : Object k) {key : Key}
    (hne : ¬ (k' = k ∧ key = o.key)) : (s.create o).2.find? k' key = s.find? k' key := by
  cases hfound : s.find? k o.key with
  | some stored => rw [create_of_found hfound]
  | none => rw [create_of_absent hfound, find?_put_of_ne s o hne]

theorem replace_of_found {o stored : Object k} (hfound : s.find? k o.key = some stored)
    (hheld : o.metadata.isReleased = false) : s.replace o = (.ok o, s.put o) := by
  rw [replace, hfound, hheld]
  rfl

theorem replace_of_released {o stored : Object k} (hfound : s.find? k o.key = some stored)
    (hreleased : o.metadata.isReleased = true) :
    s.replace o = (.ok o, s.remove k o.key) := by
  rw [replace, hfound, hreleased]
  rfl

/-! ### Letting go of an object -/

/-- A stored object that was taken off a finalizer: it is replaced, or gone with the last one. -/
def letGo (s : Store) (o : Object k) : Store :=
  if o.metadata.isReleased then s.remove k o.key else s.put o

theorem replace_eq_letGo {o stored : Object k} (hfound : s.find? k o.key = some stored) :
    s.replace o = (.ok o, s.letGo o) := by
  unfold letGo
  cases hreleased : o.metadata.isReleased with
  | true =>
    rw [replace_of_released hfound hreleased]
    rfl
  | false =>
    rw [replace_of_found hfound hreleased]
    rfl

theorem find?_letGo (s : Store) (o : Object k) :
    (s.letGo o).find? k o.key = none ∨ (s.letGo o).find? k o.key = some o := by
  unfold letGo
  split
  · exact .inl (find?_remove_self ..)
  · exact .inr (find?_put_self ..)

theorem find?_letGo_of_ne (s : Store) (o : Object k) {key : Key}
    (hne : ¬ (k' = k ∧ key = o.key)) : (s.letGo o).find? k' key = s.find? k' key := by
  unfold letGo
  split
  · exact find?_remove_of_ne s hne
  · exact find?_put_of_ne s o hne

theorem table_letGo_of_ne (s : Store) (o : Object k) (hkind : k' ≠ k) :
    (s.letGo o).table k' = s.table k' := by
  unfold letGo
  split
  · exact table_setTable_of_ne s hkind _
  · exact table_setTable_of_ne s hkind _

/-! ### Writing a part of an object -/

/-- Also where keys are not kept, the object under the key has the status afterwards. -/
theorem writeStatus_of_found {o stored : Object k} (hfound : s.find? k o.key = some stored) :
    ∃ s', s.writeStatus o = (.ok { stored with status := o.status }, s') ∧
      s'.find? k o.key = some { stored with status := o.status } := by
  rw [Store.writeStatus, hfound]
  refine ⟨_, rfl, ?_⟩
  rw [find?, table_setTable_self, SortedMap.get?_insert_self]

theorem KeyedAt.writeStatus (hkeyed : s.KeyedAt k) {o stored : Object k}
    (hfound : s.find? k o.key = some stored) :
    s.writeStatus o =
      (.ok { stored with status := o.status }, s.put { stored with status := o.status }) := by
  have hstored : stored.key = o.key := hkeyed hfound
  have hkey : ({ stored with status := o.status } : Object k).key = o.key := hstored
  rw [Store.writeStatus, hfound]
  simp only [Store.put, hkey]

end Store

/-- The job with another configuration. -/
def Object.withConfig (job : JenkinsJob) (config : String) : JenkinsJob :=
  { job with spec := { job.spec with job := { job.spec.job with config := config } } }

namespace Store

variable {k : Kind} {s : Store}

theorem KeyedAt.setJobConfig (hkeyed : s.KeyedAt .jenkinsJob) {key : Key} {job : JenkinsJob}
    (hfound : s.find? .jenkinsJob key = some job) (config : String) :
    s.setJobConfig key config = (.ok (), s.put (job.withConfig config)) := by
  have hstored : job.key = key := hkeyed hfound
  have hkey : (job.withConfig config).key = key := hstored
  simp only [Store.setJobConfig, hfound, Store.put, hkey]
  rfl

/-- What a request does to a keyed store: it leaves it, removes an object, or stores one that it
creates, that is not released, or that is released only if what it replaces was. -/
theorem Keyed.answer_cases (hkeyed : s.Keyed) (request : Request) :
    (answer request s).2 = s ∨ (∃ k key, (answer request s).2 = s.remove k key) ∨
      ∃ k, ∃ o : Object k, (answer request s).2 = s.put o ∧
        (request = .create k o ∨ o.metadata.isReleased = false ∨ ∃ stored,
          s.find? k o.key = some stored ∧ stored.metadata.isReleased = o.metadata.isReleased) := by
  cases request with
  | get k key => exact .inl rfl
  | listStages ns pipeline => exact .inl rfl
  | jenkinsEnabled ns => exact .inl rfl
  | delete k key => exact .inr (.inl ⟨k, key, rfl⟩)
  | create k o =>
    cases hfound : s.find? k o.key with
    | some stored => exact .inl (congrArg Prod.snd (create_of_found hfound))
    | none => exact .inr (.inr ⟨k, o, congrArg Prod.snd (create_of_absent hfound), .inl rfl⟩)
  | replace k o =>
    cases hfound : s.find? k o.key with
    | none =>
      refine .inl ?_
      show (s.replace o).2 = s
      rw [replace, hfound]
      rfl
    | some stored =>
      cases hreleased : o.metadata.isReleased with
      | false =>
        exact .inr (.inr ⟨k, o, congrArg Prod.snd (replace_of_found hfound hreleased),
          .inr (.inl hreleased)⟩)
      | true =>
        exact .inr (.inl ⟨k, o.key, congrArg Prod.snd (replace_of_released hfound hreleased)⟩)
  | writeStatus k o =>
    cases hfound : s.find? k o.key with
    | none =>
      refine .inl ?_
      show (s.writeStatus o).2 = s
      rw [Store.writeStatus, hfound]
    | some stored =>
      have hstored : stored.key = o.key := hkeyed k hfound
      have hkey : ({ stored with status := o.status } : Object k).key = o.key := hstored
      exact .inr (.inr ⟨k, _, congrArg Prod.snd ((hkeyed k).writeStatus hfound),
        .inr (.inr ⟨stored, hkey ▸ hfound, rfl⟩)⟩)
  | setJobConfig key config =>
    cases hfound : s.find? .jenkinsJob key with
    | none =>
      refine .inl ?_
      show (s.setJobConfig key config).2 = s
      rw [Store.setJobConfig, hfound]
    | some job =>
      have hstored : job.key = key := hkeyed .jenkinsJob hfound
      have hkey : (job.withConfig config).key = key := hstored
      exact .inr (.inr ⟨.jenkinsJob, _,
        congrArg Prod.snd ((hkeyed .jenkinsJob).setJobConfig hfound config),
        .inr (.inr ⟨job, hkey ▸ hfound, rfl⟩)⟩)

/-- Every request keeps the objects under their keys. -/
theorem Keyed.answer (hkeyed : s.Keyed) (request : Request) : (Store.answer request s).2.Keyed := by
  rcases hkeyed.answer_cases request with hsame | ⟨k, key, hremoved⟩ | ⟨k, o, hput, -⟩
  · rw [hsame]
    exact hkeyed
  · rw [hremoved]
    exact fun k' ↦ (hkeyed k').remove k key
  · rw [hput]
    exact fun k' ↦ (hkeyed k').put o

/-- A request keeps a kind of objects sound, unless it creates one that is already released. -/
theorem SoundAt.answer (hsound : s.SoundAt k) (hkeyed : s.Keyed) {request : Request}
    (hcreates : ∀ o : Object k, request = .create k o → o.metadata.isReleased = false) :
    (Store.answer request s).2.SoundAt k := by
  rcases hkeyed.answer_cases request with hsame | ⟨k', key, hremoved⟩ | ⟨k', o, hput, hwhy⟩
  · rw [hsame]
    exact hsound
  · rw [hremoved]
    exact hsound.remove k' key
  · rw [hput]
    by_cases hkind : k' = k
    · subst hkind
      refine hsound.put ?_
      rcases hwhy with hcreated | hheld | ⟨stored, hfound, hheld⟩
      · exact hcreates o hcreated
      · exact hheld
      · exact hheld ▸ hsound.held hfound
    · exact hsound.put_of_ne (Ne.symm hkind) o

/-- A request keeps a store sound, unless it creates an object that is already released. -/
theorem Sound.answer (hsound : s.Sound) {request : Request}
    (hcreates : ∀ k (o : Object k), request = .create k o → o.metadata.isReleased = false) :
    (Store.answer request s).2.Sound :=
  sound_of_soundAt fun k ↦ (hsound.soundAt k).answer hsound.toKeyed (hcreates k)

end Store

end PipelineOperator
