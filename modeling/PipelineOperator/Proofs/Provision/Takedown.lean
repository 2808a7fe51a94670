import PipelineOperator.Proofs.Object.Labels
import PipelineOperator.Proofs.Operation.Settling
import PipelineOperator.Provision.Chain

/-!
How a cluster develops while a stage is taken down: image streams lose the label of the stage, and
its target vanishes (`Takedown.Leads`). Withdrawing the labels settles and absorbs failures, though
one step of it may write two streams, the second from a copy that was read before the first write:
a label that is erased twice is erased.
-/

set_option autoImplicit false
set_option relaxedAutoImplicit false

namespace PipelineOperator

/-- A stage that is taken down, and the store from which that starts. -/
structure Takedown where
  stage : Stage
  base : Store
  sound : base.Sound

namespace Takedown

variable (z : Takedown)

/-- What may become of an object that stays. -/
def Alters : (k : Kind) → Object k → Object k → Prop
  | .imageStream, o, o' => o' = o ∨ o' = o.withoutLabel z.stage.label
  | _, o, o' => o' = o

/-- What may be found where this was found before. -/
def Changes (k : Kind) (key : Key) : Option (Object k) → Option (Object k) → Prop
  | none, none => True
  | none, some _ => False
  | some _, none => (k = .ns ∨ k = .space) ∧ key = ⟨"", z.stage.target⟩
  | some o, some o' => z.Alters k o o'

/-- The store may develop into the other one while the stage is taken down. -/
structure Leads (s t : Store) : Prop where
  sound : t.Sound
  changes : ∀ k key, z.Changes k key (s.find? k key) (t.find? k key)

variable {z} {k : Kind} {s t u : Store}

theorem Alters.refl (o : Object k) : z.Alters k o o := by
  cases k <;> first | exact .inl rfl | exact rfl

theorem Alters.trans {o o' o'' : Object k} (hfirst : z.Alters k o o')
    (hsecond : z.Alters k o' o'') : z.Alters k o o'' := by
  cases k
  case imageStream =>
    rcases hfirst with rfl | rfl
    · exact hsecond
    rcases hsecond with rfl | rfl
    · exact .inr rfl
    · exact .inr Object.withoutLabel_withoutLabel
  all_goals exact hsecond.trans hfirst

theorem Leads.refl (hsound : s.Sound) : z.Leads s s := by
  refine ⟨hsound, fun k key ↦ ?_⟩
  cases s.find? k key with
  | none => trivial
  | some o => exact .refl o

theorem Leads.trans (hfirst : z.Leads s t) (hsecond : z.Leads t u) : z.Leads s u := by
  refine ⟨hsecond.sound, fun k key ↦ ?_⟩
  have hchanges := hfirst.changes k key
  have hchanges' := hsecond.changes k key
  cases hs : s.find? k key <;> cases ht : t.find? k key <;> cases hu : u.find? k key <;>
    rw [hs, ht] at hchanges <;> rw [ht, hu] at hchanges'
  case none.some.none => exact hchanges.elim
  case some.some.some => exact hchanges.trans hchanges'
  all_goals trivial

variable (z) in
/-- The developments from the store in which the work starts. -/
def development : Development where
  dom s := z.Leads z.base s
  leads := z.Leads
  refl hdom := .refl hdom.sound
  trans := .trans
  stays := .trans

/-! ### What stays -/

/-- Kinds of objects that taking a stage down only reads. -/
def isGiven : Kind → Bool
  | .imageStream => false
  | .ns => false
  | .space => false
  | _ => true

theorem Leads.given (hleads : z.Leads s t) (hgiven : isGiven k = true) (key : Key) :
    t.find? k key = s.find? k key := by
  have hchanges := hleads.changes k key
  cases hs : s.find? k key <;> cases ht : t.find? k key <;> rw [hs, ht] at hchanges
  case none.some => exact hchanges.elim
  case some.none =>
    obtain ⟨rfl | rfl, -⟩ := hchanges
    · exact nomatch hgiven
    · exact nomatch hgiven
  case some.some => cases k <;> first | exact congrArg some hchanges | exact (nomatch hgiven)

theorem Leads.stream (hleads : z.Leads s t) {key : Key} {stream : ImageStream}
    (hfound : s.find? .imageStream key = some stream) : ∃ stream',
      t.find? .imageStream key = some stream' ∧
        (stream' = stream ∨ stream' = stream.withoutLabel z.stage.label) := by
  have hchanges := hleads.changes .imageStream key
  rw [hfound] at hchanges
  cases hlater : t.find? .imageStream key with
  | none =>
    rw [hlater] at hchanges
    obtain ⟨hcontra | hcontra, -⟩ := hchanges
    · exact nomatch hcontra
    · exact nomatch hcontra
  | some stream' =>
    rw [hlater] at hchanges
    exact ⟨stream', rfl, hchanges⟩

theorem Leads.stream_none (hleads : z.Leads s t) {key : Key}
    (habsent : s.find? .imageStream key = none) : t.find? .imageStream key = none := by
  have hchanges := hleads.changes .imageStream key
  rw [habsent] at hchanges
  cases hlater : t.find? .imageStream key with
  | none => rfl
  | some stream' =>
    rw [hlater] at hchanges
    exact hchanges.elim

end Takedown

/-! ### Erasing a label -/

namespace Store

variable {s : Store} {label : String} {key key' : Key}

/-- Erases the label of the stream under a key, if there is one. -/
def unlabel (label : String) (s : Store) (key : Key) : Store :=
  match s.find? .imageStream key with
  | none => s
  | some stream => s.put (stream.withoutLabel label)

theorem unlabel_of_found {stream : ImageStream} (hfound : s.find? .imageStream key = some stream) :
    unlabel label s key = s.put (stream.withoutLabel label) := by
  rw [unlabel, hfound]

theorem SoundAt.unlabel {k : Kind} (hsound : s.SoundAt k) (hstreams : s.SoundAt .imageStream) :
    (Store.unlabel label s key).SoundAt k := by
  unfold Store.unlabel
  cases hfound : s.find? .imageStream key with
  | none => exact hsound
  | some stream =>
    exact hsound.put (Object.isReleased_withoutLabel.trans (hstreams.held hfound))

theorem find?_unlabel (hstreams : s.SoundAt .imageStream) (key key' : Key) :
    (unlabel label s key).find? .imageStream key' =
      if key' = key then (s.find? .imageStream key').map (Object.withoutLabel · label)
      else s.find? .imageStream key' := by
  unfold unlabel
  cases hfound : s.find? .imageStream key with
  | none =>
    show s.find? .imageStream key' = _
    by_cases hkey : key' = key
    · rw [if_pos hkey, hkey, hfound, Option.map_none]
    · rw [if_neg hkey]
  | some stream =>
    have hkey : (stream.withoutLabel label).key = key := by
      rw [Object.key_withoutLabel, hstreams.keyed hfound]
    simp only [find?_put, hkey]
    by_cases hsame : key' = key
    · rw [if_pos hsame, if_pos hsame, hsame, hfound, Option.map_some]
    · rw [if_neg hsame, if_neg hsame]

/-- A label that is erased twice is erased. -/
theorem map_withoutLabel_twice (found : Option ImageStream) (label : String) :
    (found.map (Object.withoutLabel · label)).map (Object.withoutLabel · label) =
      found.map (Object.withoutLabel · label) := by
  cases found with
  | none => rfl
  | some stream => exact congrArg some Object.withoutLabel_withoutLabel

theorem find?_unlabel_of_ne {k : Kind} (hkind : k ≠ .imageStream) (s : Store) (key key' : Key) :
    (unlabel label s key).find? k key' = s.find? k key' := by
  unfold unlabel
  cases s.find? .imageStream key with
  | none => rfl
  | some stream => exact find?_put_of_kind_ne s _ hkind key'

/-- Erases the label of the streams under several keys. -/
def unlabelAll (label : String) (s : Store) (keys : List Key) : Store :=
  keys.foldl (unlabel label) s

theorem SoundAt.unlabelAll {k : Kind} (hsound : s.SoundAt k) (hstreams : s.SoundAt .imageStream)
    (keys : List Key) : (Store.unlabelAll label s keys).SoundAt k := by
  unfold Store.unlabelAll
  induction keys generalizing s with
  | nil => exact hsound
  | cons key keys ih => exact ih (hsound.unlabel hstreams) (hstreams.unlabel hstreams)

theorem Sound.unlabelAll (hsound : s.Sound) (keys : List Key) :
    (Store.unlabelAll label s keys).Sound :=
  sound_of_soundAt fun k ↦ (hsound.soundAt k).unlabelAll (hsound.soundAt _) keys

theorem find?_unlabelAll (hstreams : s.SoundAt .imageStream) (keys : List Key) (key : Key) :
    (unlabelAll label s keys).find? .imageStream key =
      if key ∈ keys then (s.find? .imageStream key).map (Object.withoutLabel · label)
      else s.find? .imageStream key := by
  unfold unlabelAll
  induction keys generalizing s with
  | nil => rfl
  | cons first keys ih =>
    rw [List.foldl_cons, ih (hstreams.unlabel hstreams), find?_unlabel hstreams]
    by_cases hfirst : key = first
    · simp only [hfirst, List.mem_cons, true_or, if_true, map_withoutLabel_twice]
      split <;> rfl
    · simp only [hfirst, List.mem_cons, false_or, if_false]

theorem find?_unlabelAll_of_ne {k : Kind} (hkind : k ≠ .imageStream) (s : Store)
    (keys : List Key) (key : Key) : (unlabelAll label s keys).find? k key = s.find? k key := by
  unfold unlabelAll
  induction keys generalizing s with
  | nil => rfl
  | cons first keys ih => rw [List.foldl_cons, ih, find?_unlabel_of_ne hkind]

/-- Where a part of the work was done before, the whole comes to the same. -/
theorem unlabelAll_unlabelAll (hstreams : s.SoundAt .imageStream) {begun keys : List Key}
    (hbegun : begun ⊆ keys) :
    unlabelAll label (unlabelAll label s begun) keys = unlabelAll label s keys := by
  refine ext_find fun k key ↦ ?_
  by_cases hkind : k = .imageStream
  · subst hkind
    rw [find?_unlabelAll (hstreams.unlabelAll hstreams begun), find?_unlabelAll hstreams,
      find?_unlabelAll hstreams]
    by_cases hkey : key ∈ keys
    · simp only [if_pos hkey]
      split
      · exact map_withoutLabel_twice ..
      · rfl
    · have hout : key ∉ begun := fun h ↦ hkey (hbegun h)
      simp only [if_neg hkey, if_neg hout]
  · rw [find?_unlabelAll_of_ne hkind, find?_unlabelAll_of_ne hkind, find?_unlabelAll_of_ne hkind]

end Store

end PipelineOperator
