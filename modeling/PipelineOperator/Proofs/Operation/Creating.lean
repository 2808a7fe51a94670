import PipelineOperator.Proofs.Operation.Trial

/-!
Objects that are secured one after the other. Each is created where it is missing; when a call
fails, those before it have been created and nothing else was done. As long as no two of them are
stored in the same place, which ones are created can be told before
(`Operation.amid_forM_secure`).
-/

set_option autoImplicit false
set_option relaxedAutoImplicit false

namespace PipelineOperator

variable {k : Kind} {key : Key} {s : Store}

/-- The kind and the key under which an object is stored. -/
def Object.place (o : Sigma Object) : Kind × Key := (o.1, o.2.key)

namespace Store

/-- Objects stored one after the other. -/
def putAll (s : Store) (os : List (Sigma Object)) : Store :=
  os.foldl (fun t o ↦ t.put o.2) s

/-- The objects under whose keys there is nothing. -/
def missing (s : Store) (os : List (Sigma Object)) : List (Sigma Object) :=
  os.filter (fun o ↦ (s.find? o.1 o.2.key).isNone)

theorem mem_missing {os : List (Sigma Object)} {o : Sigma Object} :
    o ∈ s.missing os ↔ o ∈ os ∧ s.find? o.1 o.2.key = none := by
  simp [missing]

theorem find?_putAll_of_ne {os : List (Sigma Object)}
    (hne : ∀ o ∈ os, ¬ (k = o.1 ∧ key = o.2.key)) :
    (s.putAll os).find? k key = s.find? k key := by
  induction os generalizing s with
  | nil => rfl
  | cons o os ih =>
    have hrest := ih (s := s.put o.2) fun other hother ↦ hne other (List.mem_cons_of_mem _ hother)
    exact hrest.trans (find?_put_of_ne s o.2 (hne o (List.mem_cons_self ..)))

/-- What is found afterwards was there before, or it is one of the objects. -/
theorem found_or_mem_of_find?_putAll {os : List (Sigma Object)} {o : Object k}
    (hfound : (s.putAll os).find? k key = some o) :
    s.find? k key = some o ∨ o.key = key ∧ ⟨k, o⟩ ∈ os := by
  induction os generalizing s with
  | nil => exact .inl hfound
  | cons first os ih =>
    rcases ih hfound with hbefore | ⟨hkey, hmem⟩
    · by_cases hhere : k = first.1 ∧ key = first.2.key
      · obtain ⟨k', first⟩ := first
        obtain ⟨rfl, rfl⟩ := hhere
        obtain rfl := Option.some.inj ((find?_put_self s first).symm.trans hbefore)
        exact .inr ⟨rfl, List.mem_cons_self ..⟩
      · exact .inl ((find?_put_of_ne s first.2 hhere).symm.trans hbefore)
    · exact .inr ⟨hkey, List.mem_cons_of_mem _ hmem⟩

/-- What is found is not lost. -/
theorem exists_find?_putAll_of_found {os : List (Sigma Object)}
    (hfound : ∃ o, s.find? k key = some o) : ∃ o, (s.putAll os).find? k key = some o := by
  induction os generalizing s with
  | nil => exact hfound
  | cons first os ih =>
    refine ih ?_
    by_cases hhere : k = first.1 ∧ key = first.2.key
    · obtain ⟨rfl, rfl⟩ := hhere
      exact ⟨first.2, find?_put_self s first.2⟩
    · rwa [find?_put_of_ne s first.2 hhere]

theorem exists_find?_putAll_of_mem {os : List (Sigma Object)} {o : Sigma Object} (hmem : o ∈ os) :
    ∃ stored, (s.putAll os).find? o.1 o.2.key = some stored := by
  induction os generalizing s with
  | nil => exact nomatch hmem
  | cons first os ih =>
    rcases List.mem_cons.mp hmem with rfl | hrest
    · exact exists_find?_putAll_of_found (s := s.put o.2) ⟨o.2, find?_put_self s o.2⟩
    · exact ih hrest

theorem missing_of_found {o stored : Object k} (hfound : s.find? k o.key = some stored) :
    s.missing [⟨k, o⟩] = [] := by simp [missing, hfound]

theorem missing_of_absent {o : Object k} (habsent : s.find? k o.key = none) :
    s.missing [⟨k, o⟩] = [⟨k, o⟩] := by simp [missing, habsent]

theorem missing_append (s : Store) (os os' : List (Sigma Object)) :
    s.missing (os ++ os') = s.missing os ++ s.missing os' := List.filter_append ..

/-- Which objects are missing does not depend on what is stored in other places. -/
theorem missing_putAll {os created : List (Sigma Object)}
    (hne : ∀ o ∈ os, ∀ o' ∈ created, Object.place o ≠ Object.place o') :
    (s.putAll created).missing os = s.missing os := by
  refine List.filter_congr fun o ho ↦ ?_
  have hsame : (s.putAll created).find? o.1 o.2.key = s.find? o.1 o.2.key :=
    find?_putAll_of_ne fun o' ho' hplace ↦ hne o ho o' ho' (Prod.ext hplace.1 hplace.2)
  rw [hsame]

end Store

namespace Bench

variable {b b' b'' : Bench} {created more : List (Sigma Object)}

/-- The second bench is the first one with the objects created on it, one after the other, and
nothing else written. -/
structure Creates (b : Bench) (created : List (Sigma Object)) (b' : Bench) : Prop where
  store : b'.store = b.store.putAll created
  journal : b'.journal = b.journal ++ created.map (fun o ↦ ⟨.create, o.1, o.2.key⟩)

theorem Creates.refl (b : Bench) : b.Creates [] b := ⟨rfl, (List.append_nil _).symm⟩

theorem Creates.trans (hfirst : b.Creates created b') (hsecond : b'.Creates more b'') :
    b.Creates (created ++ more) b'' := by
  constructor
  · rw [hsecond.store, hfirst.store, Store.putAll, Store.putAll, Store.putAll, List.foldl_append]
  · rw [hsecond.journal, hfirst.journal, List.map_append, List.append_assoc]

end Bench

namespace Operation

variable {faults : Nat → Option Fault} {t : Trial Bench}

/-- A call fails and does nothing to the bench, or it is served and its write is in the journal. -/
theorem amid_ask_cases (request : Request) (faults : Nat → Option Fault) (t : Trial Bench) :
    ∃ (reply : Except Fault request.Reply) (t' : Trial Bench),
      (ask request).amid faults t = (reply, t') ∧
        ((∃ e, reply = .error e) ∧ t'.state = t.state ∨
          reply = (Store.serve request t.state.store).1 ∧ t'.state = { t.state with
            store := (Store.serve request t.state.store).2
            journal := t.state.journal ++
              (request.write?.filter (Bench.journals t.state.store)).toList }) := by
  have hanswer : (ask request).amid faults t = (Bench.backend.hindered faults).answer request t :=
    rfl
  rw [hanswer]
  cases hfault : faults t.calls.length with
  | some fault =>
    simp only [Backend.hindered, hfault]
    exact ⟨_, _, rfl, .inl ⟨⟨fault, rfl⟩, rfl⟩⟩
  | none =>
    simp only [Backend.hindered, hfault]
    refine ⟨_, _, rfl, ?_⟩
    show (∃ e, (Bench.answer request t.state).1 = .error e) ∧
        (Bench.answer request t.state).2 = t.state ∨
      (Bench.answer request t.state).1 = _ ∧ (Bench.answer request t.state).2 = _
    rcases Bench.answer_cases request t.state with ⟨fault, hrefused⟩ | hserved
    · rw [hrefused]
      exact .inl ⟨⟨fault, rfl⟩, rfl⟩
    · rw [hserved]
      exact .inr ⟨rfl, rfl⟩

/-- An object under whose key there is nothing is created, unless the call fails. -/
theorem amid_create {o : Object k} (habsent : t.state.store.find? k o.key = none)
    (faults : Nat → Option Fault) : ∃ (reply : Except Fault Creation) (t' : Trial Bench),
      (create o).amid faults t = (reply, t') ∧
        ((∃ e, reply = .error e) ∧ t'.state = t.state ∨
          reply = .ok .created ∧ t.state.Creates [⟨k, o⟩] t'.state) := by
  obtain ⟨reply, t', hcreate, hcases⟩ := amid_ask_cases (.create k o) faults t
  refine ⟨reply, t', hcreate, hcases.imp_right fun ⟨hreply, hserved⟩ ↦ ?_⟩
  have hcreated : Store.serve (.create k o) t.state.store =
      (.ok .created, t.state.store.put o) := by
    show (Except.ok (t.state.store.create o).1, (t.state.store.create o).2) = _
    rw [Store.create_of_absent habsent]
  have hadmitted : Bench.journals t.state.store ⟨.create, k, o.key⟩ = true := by
    show (t.state.store.find? k o.key).isNone = true
    rw [habsent]
    rfl
  rw [hcreated] at hreply hserved
  rw [hserved]
  exact ⟨hreply, rfl,
    congrArg (t.state.journal ++ Option.toList ·) (Option.filter_some_pos hadmitted)⟩

/-- An object is created if it is missing. -/
theorem amid_secure (o : Object k) (faults : Nat → Option Fault) (t : Trial Bench) :
    ∃ (r : Except Fault Unit) (t' : Trial Bench), (secure o).amid faults t = (r, t') ∧
      ((∃ e, r = .error e) ∧ t'.state = t.state ∨
        r = .ok () ∧ t.state.Creates (t.state.store.missing [⟨k, o⟩]) t'.state) := by
  obtain ⟨reply, t', hget, hcases⟩ := amid_ask_cases (.get k o.key) faults t
  unfold secure ensure get
  rw [bind_assoc, amid_bind, hget]
  rcases hcases with ⟨⟨e, rfl⟩, hsame⟩ | ⟨rfl, hserved⟩
  · exact ⟨_, t', rfl, .inl ⟨⟨e, rfl⟩, hsame⟩⟩
  have hsame : t'.state = t.state := by
    rw [hserved]
    exact congrArg (fun journal ↦ { t.state with journal }) (List.append_nil _)
  have hfound : (Store.serve (.get k o.key) t.state.store).1 =
      .ok (t.state.store.find? k o.key) := rfl
  rw [hfound]
  cases hstored : t.state.store.find? k o.key with
  | some stored =>
    refine ⟨.ok (), t', rfl, .inr ⟨rfl, ?_⟩⟩
    rw [Store.missing_of_found (o := o) hstored, hsame]
    exact .refl _
  | none =>
    rw [← hsame] at hstored ⊢
    obtain ⟨reply, t'', hcreate, hcases⟩ := amid_create hstored faults
    show ∃ r t'', (create o >>= fun _ ↦ pure ()).amid faults t' = (r, t'') ∧ _
    rw [amid_bind, hcreate, Store.missing_of_absent hstored]
    rcases hcases with ⟨⟨e, rfl⟩, hsame'⟩ | ⟨rfl, hcreates⟩
    · exact ⟨_, t'', rfl, .inl ⟨⟨e, rfl⟩, hsame'⟩⟩
    · exact ⟨.ok (), t'', rfl, .inr ⟨rfl, hcreates⟩⟩

/-- Objects of different places are created in their order where they are missing, until a call
fails. -/
theorem amid_forM_secure {os : List (Sigma Object)} (hdistinct : (os.map Object.place).Nodup)
    (faults : Nat → Option Fault) (t : Trial Bench) :
    ∃ (r : Except Fault Unit) (t' : Trial Bench) (created : List (Sigma Object)),
      (os.forM (fun o ↦ secure o.2)).amid faults t = (r, t') ∧
        created <+: t.state.store.missing os ∧ t.state.Creates created t'.state ∧
        (r = .ok () → created = t.state.store.missing os) := by
  induction os generalizing t with
  | nil => exact ⟨.ok (), t, [], rfl, List.prefix_refl _, .refl _, fun _ ↦ rfl⟩
  | cons o os ih =>
    obtain ⟨hfirst, hrest⟩ := List.nodup_cons.mp hdistinct
    obtain ⟨r, t', hsecure, hcases⟩ := amid_secure o.2 faults t
    have hstep : ((o :: os).forM (fun o ↦ secure o.2)).amid faults t =
        (secure o.2 >>= fun _ ↦ os.forM (fun o ↦ secure o.2)).amid faults t := rfl
    rw [hstep, amid_bind, hsecure]
    rcases hcases with ⟨⟨e, rfl⟩, hsame⟩ | ⟨rfl, hcreates⟩
    · exact ⟨_, t', [], rfl, List.nil_prefix, hsame ▸ .refl _, nofun⟩
    · obtain ⟨r', t'', created, hon, hbegins, hcreates', hall⟩ := ih hrest t'
      have hmissing : t'.state.store.missing os = t.state.store.missing os := by
        rw [hcreates.store]
        refine Store.missing_putAll fun other hother o' ho' hsame ↦ hfirst ?_
        have ho : o' = o := List.mem_singleton.mp (Store.mem_missing.mp ho').1
        exact List.mem_map.mpr ⟨other, hother, ho ▸ hsame⟩
      have hsplit : t.state.store.missing (o :: os) =
          t.state.store.missing [o] ++ t.state.store.missing os :=
        Store.missing_append _ [o] os
      rw [hmissing] at hbegins hall
      refine ⟨r', t'', t.state.store.missing [o] ++ created, hon, ?_, hcreates.trans hcreates',
        fun hok ↦ ?_⟩
      · rw [hsplit]
        exact (List.prefix_append_right_inj _).mpr hbegins
      · rw [hsplit, hall hok]

theorem on_forM_secure (os : List (Sigma Object)) (s : Store) :
    ((os.forM (fun o ↦ secure o.2)).on s).1 = .ok () := by
  induction os generalizing s with
  | nil => rfl
  | cons o os ih =>
    have hstep : ((o :: os).forM (fun o ↦ secure o.2)).on s =
        (secure o.2 >>= fun _ ↦ os.forM (fun o ↦ secure o.2)).on s := rfl
    rw [hstep, on_bind_of_ok (on_secure o.2 s)]
    exact ih _

end Operation

end PipelineOperator
