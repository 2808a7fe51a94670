import PipelineOperator.Proofs.Operation.Hindered

/-!
Operations that need to be done only once. A `Development` says how stores may change while an
operator works on them. An operation settles when a second run right after the first only reads and
comes to the same result, and still succeeds so after any further development
(`Operation.Settles`). It absorbs failures when, after a run in which some calls failed, a run
without failures does what it would have done in the first place (`Operation.Absorbs`). Both
properties pass from the steps of an operation to the whole.
-/

set_option autoImplicit false
set_option relaxedAutoImplicit false

namespace PipelineOperator

/-- A way in which stores of a domain may develop within it. -/
structure Development where
  dom : Store → Prop
  leads : Store → Store → Prop
  refl : ∀ {s}, dom s → leads s s
  trans : ∀ {s t u}, leads s t → leads t u → leads s u
  stays : ∀ {s t}, dom s → leads s t → dom t

/-- The same result, and stores that only differ in some kinds. -/
def SameOff {α : Type} (hidden : Kind → Prop) (o o' : Except Fault α × Store) : Prop :=
  o.1 = o'.1 ∧ Store.AgreeOff hidden o.2 o'.2

namespace SameOff

variable {α : Type} {hidden : Kind → Prop} {o o' o'' : Except Fault α × Store}

theorem refl (o : Except Fault α × Store) : SameOff hidden o o := ⟨rfl, .refl _⟩

theorem symm (hsame : SameOff hidden o o') : SameOff hidden o' o := ⟨hsame.1.symm, hsame.2.symm⟩

theorem trans (hfirst : SameOff hidden o o') (hsecond : SameOff hidden o' o'') :
    SameOff hidden o o'' := ⟨hfirst.1.trans hsecond.1, hfirst.2.trans hsecond.2⟩

/-- With nothing hidden there is no difference. -/
theorem eq (hsame : SameOff (fun _ ↦ False) o o') : o = o' :=
  Prod.ext hsame.1 (Store.ext_table fun k ↦ hsame.2 k id)

theorem of_agreeOff {s t : Store} (hagree : Store.AgreeOff hidden s t) (r : Except Fault α) :
    SameOff hidden (r, s) (r, t) := ⟨rfl, hagree⟩

end SameOff

namespace Operation

variable {α : Type} {k : Kind} {s t : Store} {D : Development} {hidden : Kind → Prop}
  {op op' : Operation Unit}

/-! ### Settling -/

/-- A second run only reads, and so does a run after further development once one has succeeded. -/
structure Settles (D : Development) (op : Operation Unit) : Prop where
  develops : ∀ {s}, D.dom s → D.leads s (op.on s).2
  rests : ∀ {s}, D.dom s → op.Rests (op.on s).2 (op.on s).1
  lasts : ∀ {s t}, D.dom s → op.Rests s (.ok ()) → D.leads s t → op.Rests t (.ok ())

theorem settles_pure : (pure () : Operation Unit).Settles D :=
  ⟨D.refl, fun _ ↦ rfl, fun _ _ _ ↦ rfl⟩

theorem settles_fail (cause : Cause) : (fail cause : Operation Unit).Settles D :=
  ⟨D.refl, fun _ ↦ rfl, fun _ hrests _ ↦ nomatch rests_fail.mp hrests⟩

/-- Where two operations cannot be told apart, one settles if the other does. -/
theorem Settles.congr (hop : op.Settles D) (hon : ∀ {s}, D.dom s → op'.on s = op.on s)
    (hrests : ∀ {s r}, D.dom s → (op'.Rests s r ↔ op.Rests s r)) : op'.Settles D := by
  constructor
  · intro s hdom
    rw [hon hdom]
    exact hop.develops hdom
  · intro s hdom
    rw [hon hdom, hrests (D.stays hdom (hop.develops hdom))]
    exact hop.rests hdom
  · intro s t hdom hrest hleads
    rw [hrests (D.stays hdom hleads)]
    exact hop.lasts hdom ((hrests hdom).mp hrest) hleads

theorem Settles.seq (hop : op.Settles D) (hop' : op'.Settles D) :
    (op >>= fun _ ↦ op').Settles D := by
  constructor
  · intro s hdom
    rw [on_bind]
    have hfirst := hop.develops hdom
    generalize op.on s = first at hfirst
    obtain ⟨e | a, s'⟩ := first
    · exact hfirst
    · exact D.trans hfirst (hop'.develops (D.stays hdom hfirst))
  · intro s hdom
    have hfirst := hop.develops hdom
    have hagain := hop.rests hdom
    rw [on_bind]
    generalize op.on s = first at hfirst hagain
    obtain ⟨e | a, s'⟩ := first
    · exact rests_bind.mpr (.inr ⟨e, hagain, rfl⟩)
    · have hdom' : D.dom s' := D.stays hdom hfirst
      -- what the second operation does is a development in which the first one still rests
      exact rests_bind.mpr (.inl ⟨(), hop.lasts hdom' hagain (hop'.develops hdom'),
        hop'.rests hdom'⟩)
  · intro s t hdom hrests hleads
    rw [rests_bind] at hrests ⊢
    rcases hrests with ⟨a, hfirst, hsecond⟩ | ⟨e, -, hcontra⟩
    · exact .inl ⟨(), hop.lasts hdom hfirst hleads, hop'.lasts hdom hsecond hleads⟩
    · exact nomatch hcontra

theorem settles_forM {l : List α} {f : α → Operation PUnit} (hf : ∀ a ∈ l, (f a).Settles D) :
    (l.forM f).Settles D := by
  induction l with
  | nil => exact settles_pure
  | cons a l ih =>
    exact (hf a (List.mem_cons_self ..)).seq (ih fun b hb ↦ hf b (List.mem_cons_of_mem _ hb))

theorem Settles.counted (hop : op.Settles D) (handler : String) :
    (counted handler op).Settles D :=
  hop.congr (fun _ ↦ on_counted ..) (fun _ ↦ rests_counted)

/-- What is read is the same throughout. -/
theorem settles_get_bind {key : Key} (found : Option (Object k))
    {f : Option (Object k) → Operation Unit} (hfound : ∀ {s}, D.dom s → s.find? k key = found)
    (hf : (f found).Settles D) : (get k key >>= f).Settles D := by
  refine hf.congr (fun hdom ↦ ?_) (fun hdom ↦ ?_)
  · rw [on_bind_of_ok (on_get ..), hfound hdom]
  · rw [rests_get_bind, hfound hdom]

theorem settles_require_bind {key : Key} {missing : Cause} {found : Option (Object k)}
    {f : Object k → Operation Unit} (hfound : ∀ {s}, D.dom s → s.find? k key = found)
    (hf : ∀ o, found = some o → (f o).Settles D) : (require k key missing >>= f).Settles D := by
  unfold require
  rw [bind_assoc]
  refine settles_get_bind found hfound ?_
  cases found with
  | none => exact settles_fail missing
  | some o => exact hf o rfl

/-! ### Absorbing failures -/

/-- The operation has succeeded on the store: it would succeed again and change nothing, now and
after further development. -/
def IsDoneOn (D : Development) (hidden : Kind → Prop) (op : Operation Unit) (s : Store) : Prop :=
  ∀ t, D.leads s t → SameOff hidden (op.on t) (.ok (), t)

/-- Whichever calls fail, a run without failures then does what it would have done in the first
place. Objects of the hidden kinds are left out of the account. -/
structure Absorbs (D : Development) (hidden : Kind → Prop) (op : Operation Unit) : Prop where
  hindered : ∀ {s}, D.dom s → op.Surely s (fun r s' ↦
    D.leads s s' ∧ SameOff hidden (op.on s') (op.on s) ∧
      (r = .ok () → SameOff hidden (op.on s) (.ok (), s') ∧ op.IsDoneOn D hidden s'))
  oblivious : ∀ {s t}, D.dom s → D.dom t → Store.AgreeOff hidden s t →
    SameOff hidden (op.on s) (op.on t)

theorem Absorbs.develops (hop : op.Absorbs D hidden) (hdom : D.dom s) :
    D.leads s (op.on s).2 := (hop.hindered hdom).on.1

/-- The second step takes up what it gets from the first. -/
theorem Absorbs.sameOff_seq (hop : op.Absorbs D hidden) (hop' : op'.Absorbs D hidden)
    (hs : D.dom s) (ht : D.dom t) (hsame : SameOff hidden (op.on s) (op.on t)) :
    SameOff hidden ((op >>= fun _ ↦ op').on s) ((op >>= fun _ ↦ op').on t) := by
  have hs' := D.stays hs (hop.develops hs)
  have ht' := D.stays ht (hop.develops ht)
  rw [on_bind, on_bind]
  generalize op.on s = first at hsame hs' ⊢
  generalize op.on t = second at hsame ht' ⊢
  obtain ⟨r, s'⟩ := first
  obtain ⟨r', t'⟩ := second
  obtain ⟨hresult, hstores⟩ := hsame
  obtain rfl : r = r' := hresult
  cases r with
  | error e => exact ⟨rfl, hstores⟩
  | ok a => exact hop'.oblivious hs' ht' hstores

/-- Once the first step has succeeded, only the second one counts. -/
theorem Absorbs.sameOff_of_done (hop : op.Absorbs D hidden) (hop' : op'.Absorbs D hidden)
    (hs : D.dom s) (ht : D.dom t) (hdone : SameOff hidden (op.on s) (.ok (), t)) :
    SameOff hidden ((op >>= fun _ ↦ op').on s) (op'.on t) := by
  have hs' := D.stays hs (hop.develops hs)
  rw [on_bind]
  generalize op.on s = first at hdone hs' ⊢
  obtain ⟨r, s'⟩ := first
  obtain ⟨hresult, hstores⟩ := hdone
  obtain rfl : r = .ok () := hresult
  exact hop'.oblivious hs' ht hstores

theorem Absorbs.seq (hop : op.Absorbs D hidden) (hop' : op'.Absorbs D hidden) :
    (op >>= fun _ ↦ op').Absorbs D hidden := by
  constructor
  · intro s hdom
    rw [surely_bind]
    refine (hop.hindered hdom).mono fun r s₁ ⟨hleads₁, hagain, hdone⟩ ↦ ?_
    have hdom₁ : D.dom s₁ := D.stays hdom hleads₁
    cases r with
    | error e => exact ⟨hleads₁, hop.sameOff_seq hop' hdom₁ hdom hagain, nofun⟩
    | ok a =>
      obtain ⟨hfirst, hlasts⟩ := hdone rfl
      have hwhole := hop.sameOff_of_done hop' hdom hdom₁ hfirst
      refine (hop'.hindered hdom₁).mono fun r s₂ ⟨hleads₂, hagain', hdone'⟩ ↦ ?_
      have hdom₂ : D.dom s₂ := D.stays hdom₁ hleads₂
      have hrest := hop.sameOff_of_done hop' hdom₂ hdom₂ (hlasts s₂ hleads₂)
      refine ⟨D.trans hleads₁ hleads₂, hrest.trans (hagain'.trans hwhole.symm), fun hok ↦ ?_⟩
      obtain ⟨hsecond, hlasts'⟩ := hdone' hok
      refine ⟨hwhole.trans hsecond, fun t ht ↦ ?_⟩
      have hdomt : D.dom t := D.stays hdom₂ ht
      exact (hop.sameOff_of_done hop' hdomt hdomt (hlasts t (D.trans hleads₂ ht))).trans
        (hlasts' t ht)
  · intro s t hs ht hagree
    exact hop.sameOff_seq hop' hs ht (hop.oblivious hs ht hagree)

theorem absorbs_pure : (pure () : Operation Unit).Absorbs D hidden :=
  ⟨fun hdom ↦ ⟨D.refl hdom, .refl _, fun _ ↦ ⟨.refl _, fun _ _ ↦ .refl _⟩⟩,
    fun _ _ hagree ↦ ⟨rfl, hagree⟩⟩

theorem absorbs_fail (cause : Cause) : (fail cause : Operation Unit).Absorbs D hidden :=
  ⟨fun hdom ↦ ⟨D.refl hdom, .refl _, nofun⟩, fun _ _ hagree ↦ ⟨rfl, hagree⟩⟩

theorem absorbs_forM {l : List α} {f : α → Operation PUnit}
    (hf : ∀ a ∈ l, (f a).Absorbs D hidden) : (l.forM f).Absorbs D hidden := by
  induction l with
  | nil => exact absorbs_pure
  | cons a l ih =>
    exact (hf a (List.mem_cons_self ..)).seq (ih fun b hb ↦ hf b (List.mem_cons_of_mem _ hb))

theorem Absorbs.counted (hop : op.Absorbs D hidden) (handler : String) :
    (counted handler op).Absorbs D hidden := by
  constructor
  · intro s hdom
    simp only [surely_counted, on_counted, IsDoneOn]
    exact hop.hindered hdom
  · intro s t hs ht hagree
    simp only [on_counted]
    exact hop.oblivious hs ht hagree

/-- What is read is the same throughout, if it is read at all. -/
theorem absorbs_get_bind {key : Key} (found : Option (Object k))
    {f : Option (Object k) → Operation Unit} (hfound : ∀ {s}, D.dom s → s.find? k key = found)
    (hf : (f found).Absorbs D hidden) : (get k key >>= f).Absorbs D hidden := by
  have hon {s : Store} (hdom : D.dom s) : (get k key >>= f).on s = (f found).on s := by
    rw [on_bind_of_ok (on_get ..), hfound hdom]
  constructor
  · intro s hdom
    rw [surely_bind, surely_get]
    refine ⟨fun fault ↦ ⟨D.refl hdom, .refl _, nofun⟩, ?_⟩
    simp only [hfound hdom]
    refine (hf.hindered hdom).mono fun r s' ⟨hleads, hagain, hdone⟩ ↦ ?_
    have hdom' : D.dom s' := D.stays hdom hleads
    rw [hon hdom, hon hdom']
    refine ⟨hleads, hagain, fun hok ↦ ⟨(hdone hok).1, fun t ht ↦ ?_⟩⟩
    rw [hon (D.stays hdom' ht)]
    exact (hdone hok).2 t ht
  · intro s t hs ht hagree
    rw [hon hs, hon ht]
    exact hf.oblivious hs ht hagree

theorem absorbs_require_bind {key : Key} {missing : Cause} {found : Option (Object k)}
    {f : Object k → Operation Unit} (hfound : ∀ {s}, D.dom s → s.find? k key = found)
    (hf : ∀ o, found = some o → (f o).Absorbs D hidden) :
    (require k key missing >>= f).Absorbs D hidden := by
  unfold require
  rw [bind_assoc]
  refine absorbs_get_bind found hfound ?_
  cases found with
  | none => exact absorbs_fail missing
  | some o => exact hf o rfl

/-- An atomic operation that does the same again when it is repeated. -/
theorem Atomic.absorbs (hatomic : op.Atomic)
    (hasks : op.Asks (fun request ↦ ¬ hidden request.kind))
    (hdevelops : ∀ {s}, D.dom s → D.leads s (op.on s).2)
    (hagain : ∀ {s}, D.dom s → op.on (op.on s).2 = op.on s)
    (hlasts : ∀ {s s' t}, D.dom s → op.on s = (.ok (), s') → D.leads s' t →
      op.on t = (.ok (), t)) :
    op.Absorbs D hidden := by
  refine ⟨fun {s} hdom ↦ (hatomic s).mono ?_, fun _ _ hagree ↦ hasks.on_agreeOff hagree⟩
  rintro r s' (⟨e, rfl, rfl⟩ | hon)
  · exact ⟨D.refl hdom, .refl _, nofun⟩
  · have hleads := hdevelops hdom
    have hrepeated := hagain hdom
    rw [hon] at hleads hrepeated
    refine ⟨hleads, ?_, ?_⟩
    · rw [hrepeated, hon]
      exact .refl _
    · rintro rfl
      refine ⟨hon ▸ .refl _, fun t ht ↦ ?_⟩
      rw [hlasts hdom hon ht]
      exact .refl _

theorem Settles.absorbs (hop : op.Settles D) (hatomic : op.Atomic)
    (hasks : op.Asks (fun request ↦ ¬ hidden request.kind)) : op.Absorbs D hidden := by
  refine hatomic.absorbs hasks hop.develops (fun hdom ↦ (hop.rests hdom).on) ?_
  intro s s' t hdom hon hleads
  have hleads' := hop.develops hdom
  have hrests := hop.rests hdom
  rw [hon] at hleads' hrests
  exact (hop.lasts (D.stays hdom hleads') hrests hleads).on

end Operation

end PipelineOperator
