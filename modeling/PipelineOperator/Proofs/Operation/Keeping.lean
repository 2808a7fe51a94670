import PipelineOperator.Proofs.Operation.Clean

/-!
Properties of the store that an operation keeps when no call fails (`Operation.Keeps`), whatever its
result is: one rule for each construct of operations. A property that depends on some tables only
(`Store.DependsOn`) is kept by an operation that just reads these (`Operation.Asks.keeps_of_reads`).
-/

set_option autoImplicit false
set_option relaxedAutoImplicit false

namespace PipelineOperator

variable {α β : Type} {k : Kind} {kinds : Kind → Prop} {I : Store → Prop}
  {allowed : Request → Prop}

/-- Whether the property holds is a matter of the tables of some kinds. -/
def Store.DependsOn (kinds : Kind → Prop) (I : Store → Prop) : Prop :=
  ∀ s t : Store, (∀ k, kinds k → t.table k = s.table k) → I s → I t

theorem Store.dependsOn_find? (key : Key) (P : Option (Object k) → Prop) :
    DependsOn (· = k) (fun s ↦ P (s.find? k key)) := by
  intro s t htables hs
  have hsame : t.find? k key = s.find? k key := by
    rw [find?, htables k rfl]
    rfl
  show P (t.find? k key)
  rw [hsame]
  exact hs

theorem Program.Asks.run_keeps {program : Program α} (hprogram : program.Asks allowed)
    (hserve : ∀ request, allowed request → ∀ s, I s → I (Store.serve request s).2) {s : Store}
    (hbefore : I s) : I (program.run Store.backend s).2 := by
  induction program generalizing s with
  | done value => exact hbefore
  | ask request next ih => exact ih _ (hprogram.2 _) (hserve request hprogram.1 s hbefore)
  | observe observation next ih => exact ih hprogram hbefore

namespace Operation

/-- A run without failing calls keeps the property of the store. -/
def Keeps (I : Store → Prop) (op : Operation α) : Prop := ∀ s, I s → I (op.on s).2

theorem Asks.keeps {op : Operation α} (hop : op.Asks allowed)
    (hserve : ∀ request, allowed request → ∀ s, I s → I (Store.serve request s).2) :
    op.Keeps I := fun _ hbefore ↦ Program.Asks.run_keeps hop hserve hbefore

theorem Asks.keeps_of_reads {op : Operation α} (hI : Store.DependsOn kinds I)
    (hop : op.Asks (fun request ↦ kinds request.kind → request.isRead = true)) : op.Keeps I := by
  refine hop.keeps fun request hreads s hbefore ↦ hI s _ (fun k hk ↦ ?_) hbefore
  by_cases hkind : k = request.kind
  · rw [Store.serve_of_isRead (hreads (hkind ▸ hk))]
  · exact Store.table_serve_of_ne s hkind

theorem keeps_pure (a : α) : (pure a : Operation α).Keeps I := fun _ hbefore ↦ hbefore

theorem Keeps.bind {op : Operation α} {f : α → Operation β} (hop : op.Keeps I)
    (hnext : ∀ a, (f a).Keeps I) : (op >>= f).Keeps I := by
  intro s hbefore
  have hfirst := hop s hbefore
  rw [on_bind]
  generalize op.on s = first at hfirst
  obtain ⟨e | a, s'⟩ := first
  · exact hfirst
  · exact hnext a s' hfirst

theorem Keeps.counted {op : Operation α} (hop : op.Keeps I) (handler : String) :
    (counted handler op).Keeps I := fun s hbefore ↦ by
  rw [on_counted]
  exact hop s hbefore

theorem keeps_get_bind {key : Key} {f : Option (Object k) → Operation β}
    (hnext : ∀ s, I s → I ((f (s.find? k key)).on s).2) : (get k key >>= f).Keeps I := by
  intro s hbefore
  rw [on_bind_of_ok (on_get ..)]
  exact hnext s hbefore

theorem keeps_require_bind {key : Key} {missing : Cause} {f : Object k → Operation β}
    (hnext : ∀ s o, I s → s.find? k key = some o → I ((f o).on s).2) :
    (require k key missing >>= f).Keeps I := by
  intro s hbefore
  rw [on_require_bind]
  cases hfound : s.find? k key with
  | none => exact hbefore
  | some o => exact hnext s o hbefore hfound

theorem keeps_forM {l : List α} {f : α → Operation PUnit} (hf : ∀ a ∈ l, (f a).Keeps I) :
    (l.forM f).Keeps I := by
  induction l with
  | nil => exact keeps_pure _
  | cons a l ih =>
    exact (hf a (List.mem_cons_self ..)).bind fun _ ↦
      ih fun b hb ↦ hf b (List.mem_cons_of_mem _ hb)

/-- Every operation keeps the objects under their keys. -/
theorem keeps_keyed (op : Operation α) : op.Keeps Store.Keyed := by
  have hany (program : Program (Except Fault α)) : program.Asks (fun _ ↦ True) := by
    induction program with
    | done value => trivial
    | ask request next ih => exact ⟨trivial, ih⟩
    | observe observation next ih => exact ih
  have hop : op.Asks (fun _ ↦ True) := hany op.run
  exact hop.keeps fun request _ s hkeyed ↦ hkeyed.answer request

/-- Where every step of a loop succeeded, each left what it comes to, if the later steps keep it. -/
theorem forM_establishes {l : List α} {f : α → Operation PUnit} {P : α → Store → Prop}
    (hf : ∀ a ∈ l, (f a).Keeps I)
    (hdone : ∀ a ∈ l, ∀ s t, I s → (f a).on s = (.ok (), t) → P a t)
    (hlasts : ∀ a ∈ l, ∀ b ∈ l, (f b).Keeps (fun s ↦ I s ∧ P a s)) {s t : Store} (hbefore : I s)
    (hok : (l.forM f).on s = (.ok (), t)) : ∀ a ∈ l, P a t := by
  induction l generalizing s with
  | nil => exact fun _ hmem ↦ nomatch hmem
  | cons first l ih =>
    obtain ⟨_, s', hfirst, (hrest : (l.forM f).on s' = (.ok (), t))⟩ := exists_of_on_bind hok
    have hthere : I s' := by
      have hkept := hf first (List.mem_cons_self ..) s hbefore
      rwa [hfirst] at hkept
    intro a hmem
    rcases List.mem_cons.mp hmem with rfl | hmem
    · have hafter : I s' ∧ P a s' := ⟨hthere, hdone a (List.mem_cons_self ..) s s' hbefore hfirst⟩
      have hkept := keeps_forM (fun b hb ↦
        hlasts a (List.mem_cons_self ..) b (List.mem_cons_of_mem _ hb)) s' hafter
      rw [hrest] at hkept
      exact hkept.2
    · exact ih (fun b hb ↦ hf b (List.mem_cons_of_mem _ hb))
        (fun b hb ↦ hdone b (List.mem_cons_of_mem _ hb))
        (fun b hb c hc ↦ hlasts b (List.mem_cons_of_mem _ hb) c (List.mem_cons_of_mem _ hc))
        hthere hrest a hmem

end Operation

end PipelineOperator
