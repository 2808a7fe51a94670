import PipelineOperator.Proofs.Provision.Takedown

/-!
Withdrawing environment labels. For an input stream the streams to be cleaned are told by its
codebase (`EnvironmentLabel.Cleans`); without failing calls all of them lose the label, and when a
call fails some of them have. Either way the next run does what is left.
-/

set_option autoImplicit false
set_option relaxedAutoImplicit false

namespace PipelineOperator

namespace EnvironmentLabel

open Operation

variable {z : Takedown} {stage : Stage} {pipeline : Pipeline} {inputName label : String}
  {s t : Store} {keys : List Key}

/-! ### One stream -/

/-- The copy that is written may have been read before the label was erased. -/
theorem on_remove_of_held {stream stored : ImageStream}
    (hfound : s.find? .imageStream stream.key = some stored)
    (hheld : stored.metadata.isReleased = false)
    (hcopy : stored = stream ∨ stored = stream.withoutLabel label) :
    (remove label stream).on s = (.ok (), Store.unlabel label s stream.key) := by
  have hstored : stored.withoutLabel label = stream.withoutLabel label := by
    rcases hcopy with rfl | rfl
    · rfl
    · exact Object.withoutLabel_withoutLabel
  have hheld' : stream.metadata.isReleased = false := by
    rcases hcopy with rfl | rfl
    · exact hheld
    · exact Object.isReleased_withoutLabel.symm.trans hheld
  rw [Store.unlabel_of_found hfound, hstored]
  unfold remove
  cases hlabel : stream.metadata.labelMap.contains label with
  | true =>
    have hreplaced : (replace { stream with metadata := stream.metadata.eraseLabel label }).on s =
        _ := Store.replace_of_found (o := { stream with
          metadata := stream.metadata.eraseLabel label }) hfound hheld'
    rw [Object.withoutLabel_of_hasLabel hlabel]
    exact on_bind_of_ok hreplaced _
  | false =>
    have hlacks : stream.withoutLabel label = stream := Object.withoutLabel_of_lacks hlabel
    have hsame : stored = stream := hcopy.elim id fun h ↦ h.trans hlacks
    rw [hlacks, Store.put_of_find? (hsame ▸ hfound)]
    rfl

theorem on_remove (hstreams : s.SoundAt .imageStream) {stream stored : ImageStream}
    (hfound : s.find? .imageStream stream.key = some stored)
    (hcopy : stored = stream ∨ stored = stream.withoutLabel label) :
    (remove label stream).on s = (.ok (), Store.unlabel label s stream.key) :=
  on_remove_of_held hfound (hstreams.held hfound) hcopy

theorem rests_remove {stream : ImageStream} {result : Except Fault Unit} :
    (remove label stream).Rests s result ↔ stream.hasLabel label = false ∧ result = .ok () := by
  unfold remove
  cases hlabel : stream.metadata.labelMap.contains label with
  | true =>
    constructor
    · intro hrests
      exact nomatch hrests.1
    · rintro ⟨hcontra, -⟩
      exact nomatch hlabel.symm.trans hcontra
  | false => exact ⟨fun hrests ↦ ⟨hlabel, hrests⟩, fun h ↦ h.2⟩

theorem atomic_remove (label : String) (stream : ImageStream) : (remove label stream).Atomic := by
  unfold remove
  split
  · exact (atomic_ask _).map _
  · exact atomic_pure ()

/-! ### The streams to be cleaned -/

/-- The streams that can carry the label on account of an input stream, where they can be told. -/
def cleaned? (stage : Stage) (pipeline : Pipeline) (inputName codebase : String) :
    Option (List Key) :=
  let input : Key := ⟨stage.metadata.namespaceOrEmpty, inputName⟩
  if stage.isFirst then some [input]
  else stage.previousName?.map (fun previous ↦
    ⟨stage.metadata.namespaceOrEmpty,
        Naming.verifiedStream stage.spec.pipeline previous codebase⟩ ::
      if pipeline.spec.promotes codebase then [] else [input])

/-- The streams to be cleaned are known, and all there. -/
def Cleans (stage : Stage) (pipeline : Pipeline) (inputName : String) (s : Store)
    (keys : List Key) : Prop :=
  match s.find? .imageStream ⟨stage.metadata.namespaceOrEmpty, inputName⟩ with
  | none => keys = []
  | some input => cleaned? stage pipeline inputName input.spec.codebase = some keys ∧
      ∀ key ∈ keys, ∃ stream, s.find? .imageStream key = some stream

theorem Cleans.unique {keys' : List Key} (hcleans : Cleans stage pipeline inputName s keys)
    (hcleans' : Cleans stage pipeline inputName s keys') : keys = keys' := by
  unfold Cleans at hcleans hcleans'
  cases hinput : s.find? .imageStream ⟨stage.metadata.namespaceOrEmpty, inputName⟩ with
  | none =>
    rw [hinput] at hcleans hcleans'
    exact hcleans.trans hcleans'.symm
  | some input =>
    rw [hinput] at hcleans hcleans'
    exact Option.some.inj (hcleans.1.symm.trans hcleans'.1)

theorem Cleans.of_leads (hleads : z.Leads s t)
    (hcleans : Cleans stage pipeline inputName s keys) :
    Cleans stage pipeline inputName t keys := by
  unfold Cleans at hcleans ⊢
  cases hinput : s.find? .imageStream ⟨stage.metadata.namespaceOrEmpty, inputName⟩ with
  | none =>
    rw [hinput] at hcleans
    rw [hleads.stream_none hinput]
    exact hcleans
  | some input =>
    rw [hinput] at hcleans
    obtain ⟨hkeys, hpresent⟩ := hcleans
    obtain ⟨input', hinput', hsame⟩ := hleads.stream hinput
    have hspec : input'.spec = input.spec := by
      rcases hsame with rfl | rfl
      · rfl
      · exact Object.spec_withoutLabel
    rw [hinput']
    refine ⟨by simp only [hspec, hkeys], fun key hkey ↦ ?_⟩
    obtain ⟨stream, hstream⟩ := hpresent key hkey
    obtain ⟨stream', hstream', -⟩ := hleads.stream hstream
    exact ⟨stream', hstream'⟩

/-- None of the streams carries the label. -/
def IsClean (s : Store) (label : String) (keys : List Key) : Prop :=
  ∀ key ∈ keys, ∀ stream, s.find? .imageStream key = some stream → stream.hasLabel label = false

theorem isClean_unlabelAll (hstreams : s.SoundAt .imageStream) (label : String)
    (keys : List Key) :
    IsClean (Store.unlabelAll label s keys) label keys := by
  intro key hkey stream hfound
  rw [Store.find?_unlabelAll hstreams, if_pos hkey] at hfound
  obtain ⟨stream, -, rfl⟩ := Option.map_eq_some_iff.mp hfound
  exact Object.hasLabel_withoutLabel

theorem IsClean.of_leads (hleads : z.Leads s t) (hclean : IsClean s z.stage.label keys)
    (hpresent : ∀ key ∈ keys, ∃ stream, s.find? .imageStream key = some stream) :
    IsClean t z.stage.label keys := by
  intro key hkey stream hfound
  obtain ⟨before, hbefore⟩ := hpresent key hkey
  obtain ⟨after, hafter, hsame⟩ := hleads.stream hbefore
  obtain rfl := Option.some.inj (hfound.symm.trans hafter)
  rcases hsame with rfl | rfl
  · exact hclean key hkey _ hbefore
  · exact Object.hasLabel_withoutLabel

/-! ### One input stream -/

/-- The label is erased from a copy that was read before another stream was cleaned. -/
theorem on_remove_unlabel (hstreams : s.SoundAt .imageStream) {input : ImageStream}
    (hinput : s.find? .imageStream input.key = some input) (key : Key) :
    (remove label input).on (Store.unlabel label s key) =
      (.ok (), Store.unlabel label (Store.unlabel label s key) input.key) := by
  by_cases hkey : input.key = key
  · have hstored : (Store.unlabel label s key).find? .imageStream input.key =
        some (input.withoutLabel label) := by
      rw [Store.find?_unlabel hstreams, if_pos hkey, hinput]
      rfl
    exact on_remove (hstreams.unlabel hstreams) hstored (.inr rfl)
  · have hstored : (Store.unlabel label s key).find? .imageStream input.key = some input := by
      rw [Store.find?_unlabel hstreams, if_neg hkey, hinput]
    exact on_remove (hstreams.unlabel hstreams) hstored (.inl rfl)

theorem on_cleanFrom (hstreams : s.SoundAt .imageStream)
    (hcleans : Cleans stage pipeline inputName s keys) :
    (cleanFrom stage pipeline inputName).on s =
      (.ok (), Store.unlabelAll stage.label s keys) := by
  unfold cleanFrom
  unfold Cleans at hcleans
  rw [on_bind_of_ok (on_get ..)]
  cases hinput : s.find? .imageStream ⟨stage.metadata.namespaceOrEmpty, inputName⟩ with
  | none =>
    rw [hinput] at hcleans
    obtain rfl : keys = [] := hcleans
    rfl
  | some input =>
    rw [hinput] at hcleans
    obtain ⟨hkeys, hpresent⟩ := hcleans
    have hkey : input.key = ⟨stage.metadata.namespaceOrEmpty, inputName⟩ := hstreams.keyed hinput
    have hstored : s.find? .imageStream input.key = some input := by rw [hkey, hinput]
    show (clean stage pipeline input).on s = _
    unfold cleaned? at hkeys
    unfold clean
    cases hfirst : stage.isFirst with
    | true =>
      rw [hfirst, if_pos rfl, Option.some.injEq] at hkeys
      subst hkeys
      rw [if_pos rfl, on_remove hstreams hstored (.inl rfl), hkey]
      rfl
    | false =>
      simp only [hfirst, Bool.false_eq_true, if_false] at hkeys ⊢
      obtain ⟨previous, hprevious, rfl⟩ := Option.map_eq_some_iff.mp hkeys
      obtain ⟨verified, hverified⟩ := hpresent _ (List.mem_cons_self ..)
      have hkey' : verified.key = _ := hstreams.keyed hverified
      unfold previousStream Stage.previousName
      simp only [hprevious, pure_bind, on_require_bind, hverified]
      rw [on_bind_of_ok (on_remove hstreams (hkey' ▸ hverified) (.inl rfl)), hkey']
      cases hpromotes : pipeline.spec.promotes input.spec.codebase with
      | true => rfl
      | false =>
        simp only [Bool.false_eq_true, if_false]
        rw [on_remove_unlabel hstreams hstored, hkey]
        rfl

/-- What is left to do once both streams were read. -/
theorem surely_clean_rest (hstreams : s.SoundAt .imageStream) {input verified : ImageStream}
    {verifiedKey : Key}
    (hkeys : keys = verifiedKey :: if pipeline.spec.promotes input.spec.codebase then []
      else [input.key])
    (hinput : s.find? .imageStream input.key = some input)
    (hverified : s.find? .imageStream verifiedKey = some verified) :
    (remove stage.label verified >>= fun _ ↦
      if pipeline.spec.promotes input.spec.codebase then pure ()
      else remove stage.label input : Operation Unit).Surely s (fun r s' ↦
      ((∃ e, r = .error e) ∧ s' = s) ∨ ∃ begun, begun ⊆ keys ∧
        s' = Store.unlabelAll stage.label s begun ∧
        (r = .ok () → s' = Store.unlabelAll stage.label s keys)) := by
  have hkey : verified.key = verifiedKey := hstreams.keyed hverified
  rw [surely_bind]
  refine (atomic_remove stage.label verified s).mono fun r s₁ hr ↦ ?_
  rcases hr with ⟨e, rfl, rfl⟩ | hon
  · exact .inl ⟨⟨e, rfl⟩, rfl⟩
  rw [on_remove hstreams (hkey ▸ hverified) (.inl rfl), hkey] at hon
  obtain ⟨rfl, rfl⟩ := Prod.mk.inj hon
  cases hpromotes : pipeline.spec.promotes input.spec.codebase with
  | true =>
    rw [hpromotes] at hkeys
    exact .inr ⟨[verifiedKey], by simp [hkeys], rfl, fun _ ↦ by rw [hkeys]; rfl⟩
  | false =>
    rw [hpromotes] at hkeys
    refine (atomic_remove stage.label input _).mono fun r s₂ hr ↦ ?_
    rcases hr with ⟨e, rfl, rfl⟩ | hon
    · exact .inr ⟨[verifiedKey], by simp [hkeys], rfl, nofun⟩
    · rw [on_remove_unlabel hstreams hinput] at hon
      obtain ⟨rfl, rfl⟩ := Prod.mk.inj hon
      exact .inr ⟨keys, List.Subset.refl _, by rw [hkeys]; rfl, fun _ ↦ by rw [hkeys]; rfl⟩

/-- Whichever calls fail, some of the streams have been cleaned, and after a success all. -/
theorem surely_cleanFrom (hstreams : s.SoundAt .imageStream) :
    (cleanFrom stage pipeline inputName).Surely s (fun r s' ↦
      ((∃ e, r = .error e) ∧ s' = s) ∨ ∃ keys begun, Cleans stage pipeline inputName s keys ∧
        begun ⊆ keys ∧ s' = Store.unlabelAll stage.label s begun ∧
        (r = .ok () → s' = Store.unlabelAll stage.label s keys)) := by
  unfold cleanFrom
  rw [surely_bind, surely_get]
  refine ⟨fun fault ↦ .inl ⟨⟨fault, rfl⟩, rfl⟩, ?_⟩
  unfold Cleans
  cases hinput : s.find? .imageStream ⟨stage.metadata.namespaceOrEmpty, inputName⟩ with
  | none => exact .inr ⟨[], [], rfl, List.Subset.refl _, rfl, fun _ ↦ rfl⟩
  | some input =>
    have hkey : input.key = ⟨stage.metadata.namespaceOrEmpty, inputName⟩ := hstreams.keyed hinput
    have hstored : s.find? .imageStream input.key = some input := by rw [hkey, hinput]
    show (clean stage pipeline input).Surely s _
    unfold clean
    cases hfirst : stage.isFirst with
    | true =>
      rw [if_pos rfl]
      refine (atomic_remove stage.label input s).mono fun r s' hr ↦ ?_
      rcases hr with ⟨e, rfl, rfl⟩ | hon
      · exact .inl ⟨⟨e, rfl⟩, rfl⟩
      · rw [on_remove hstreams hstored (.inl rfl), hkey] at hon
        obtain ⟨rfl, rfl⟩ := Prod.mk.inj hon
        refine .inr ⟨[_], [_], ⟨?_, fun key hmem ↦ ⟨input, ?_⟩⟩, List.Subset.refl _, rfl,
          fun _ ↦ rfl⟩
        · rw [cleaned?, hfirst]
          rfl
        · rw [List.mem_singleton.mp hmem, hinput]
    | false =>
      simp only [Bool.false_eq_true, if_false]
      unfold previousStream Stage.previousName
      cases hprevious : stage.previousName? with
      | none => exact surely_bind.mpr (.inl ⟨⟨_, rfl⟩, rfl⟩)
      | some previous =>
        simp only [pure_bind]
        rw [surely_bind]
        refine (atomic_require _ _ s).mono fun r s' hr ↦ ?_
        rw [on_require] at hr
        rcases hr with ⟨e, rfl, rfl⟩ | hon
        · exact .inl ⟨⟨e, rfl⟩, rfl⟩
        cases hverified : s.find? .imageStream ⟨stage.metadata.namespaceOrEmpty,
            Naming.verifiedStream stage.spec.pipeline previous input.spec.codebase⟩ with
        | none =>
          rw [hverified] at hon
          obtain ⟨rfl, rfl⟩ := Prod.mk.inj hon
          exact .inl ⟨⟨_, rfl⟩, rfl⟩
        | some verified =>
          rw [hverified] at hon
          obtain ⟨rfl, rfl⟩ := Prod.mk.inj hon
          refine (surely_clean_rest hstreams rfl hstored hverified).mono fun r s' hr ↦
            hr.imp_right fun ⟨begun, hbegun⟩ ↦ ⟨_, begun, ⟨?_, fun key hmem ↦ ?_⟩, hbegun⟩
          · rw [cleaned?, hfirst, hprevious, hkey]
            rfl
          · rw [List.mem_cons] at hmem
            rcases hmem with rfl | hmem
            · exact ⟨verified, hverified⟩
            · split at hmem
              · exact nomatch hmem
              · exact ⟨input, by rw [List.mem_singleton.mp hmem, hstored]⟩

/-- Clean streams are not written. -/
theorem rests_cleanFrom (hcleans : Cleans stage pipeline inputName s keys)
    (hclean : IsClean s stage.label keys) :
    (cleanFrom stage pipeline inputName).Rests s (.ok ()) := by
  unfold cleanFrom
  unfold Cleans at hcleans
  rw [rests_get_bind]
  cases hinput : s.find? .imageStream ⟨stage.metadata.namespaceOrEmpty, inputName⟩ with
  | none => rfl
  | some input =>
    rw [hinput] at hcleans
    obtain ⟨hkeys, hpresent⟩ := hcleans
    show (clean stage pipeline input).Rests s _
    unfold cleaned? at hkeys
    unfold clean
    cases hfirst : stage.isFirst with
    | true =>
      rw [hfirst, if_pos rfl, Option.some.injEq] at hkeys
      subst hkeys
      exact rests_remove.mpr ⟨hclean _ (List.mem_singleton_self _) input hinput, rfl⟩
    | false =>
      simp only [hfirst, Bool.false_eq_true, if_false] at hkeys ⊢
      obtain ⟨previous, hprevious, rfl⟩ := Option.map_eq_some_iff.mp hkeys
      obtain ⟨verified, hverified⟩ := hpresent _ (List.mem_cons_self ..)
      unfold previousStream Stage.previousName
      simp only [hprevious, pure_bind, rests_require_bind, hverified]
      refine rests_bind.mpr (.inl ⟨(), rests_remove.mpr
        ⟨hclean _ (List.mem_cons_self ..) verified hverified, rfl⟩, ?_⟩)
      cases hpromotes : pipeline.spec.promotes input.spec.codebase with
      | true => rfl
      | false =>
        refine rests_remove.mpr ⟨hclean _ (List.mem_cons_of_mem _ ?_) input hinput, rfl⟩
        rw [hpromotes]
        exact List.mem_singleton_self _

/-- What is wrong where it cannot be told which streams carry the label of a stage: it has no record
of the stage before, or that stage has no verified stream of a codebase. -/
def IsUnknown (stage : Stage) (cause : Cause) : Prop :=
  cause = .previousStageNotFound stage.spec.name stage.spec.pipeline stage.spec.order ∨
    ∃ name, cause = .verifiedStreamNotFound stage.metadata.namespaceOrEmpty name

/-- Without knowing the streams the step fails before it writes. -/
theorem rests_cleanFrom_of_not_cleans
    (hnone : ∀ keys, ¬ Cleans stage pipeline inputName s keys) :
    ∃ cause, IsUnknown stage cause ∧
      (cleanFrom stage pipeline inputName).Rests s (.error (.ofCause cause)) := by
  unfold cleanFrom
  unfold Cleans at hnone
  simp only [rests_get_bind]
  cases hinput : s.find? .imageStream ⟨stage.metadata.namespaceOrEmpty, inputName⟩ with
  | none =>
    rw [hinput] at hnone
    exact absurd rfl (hnone [])
  | some input =>
    rw [hinput] at hnone
    show ∃ cause, _ ∧ (clean stage pipeline input).Rests s _
    unfold clean
    cases hfirst : stage.isFirst with
    | true =>
      refine absurd ⟨by rw [cleaned?, hfirst]; rfl, fun key hmem ↦ ⟨input, ?_⟩⟩ (hnone [_])
      rw [List.mem_singleton.mp hmem, hinput]
    | false =>
      simp only [Bool.false_eq_true, if_false]
      unfold previousStream Stage.previousName
      cases hprevious : stage.previousName? with
      | none => exact ⟨_, .inl rfl, rests_bind.mpr (.inr ⟨_, rfl, rfl⟩)⟩
      | some previous =>
        simp only [pure_bind, rests_require_bind]
        cases hverified : s.find? .imageStream ⟨stage.metadata.namespaceOrEmpty,
            Naming.verifiedStream stage.spec.pipeline previous input.spec.codebase⟩ with
        | none => exact ⟨_, .inr ⟨_, rfl⟩, rfl⟩
        | some verified =>
          refine absurd ⟨by rw [cleaned?, hfirst, hprevious]; rfl, fun key hmem ↦ ?_⟩ (hnone _)
          rw [List.mem_cons] at hmem
          rcases hmem with rfl | hmem
          · exact ⟨verified, hverified⟩
          · split at hmem
            · exact nomatch hmem
            · exact ⟨input, by rw [List.mem_singleton.mp hmem, hinput]⟩

theorem asks_cleanFrom {allowed : Request → Prop} (hget : ∀ key, allowed (.get .imageStream key))
    (hreplace : ∀ o : ImageStream, allowed (.replace .imageStream o)) :
    (cleanFrom stage pipeline inputName).Asks allowed := by
  have hremove (stream : ImageStream) : (remove stage.label stream).Asks allowed := by
    unfold remove
    split
    · exact (asks_ask (hreplace _)).bind fun _ ↦ asks_pure ()
    · exact asks_pure ()
  refine (asks_ask (hget _)).bind fun found ↦ ?_
  cases found with
  | none => exact asks_pure ()
  | some input =>
    show (clean stage pipeline input).Asks allowed
    unfold clean
    split
    · exact hremove input
    · refine Asks.bind ?_ fun verified ↦ (hremove verified).bind fun _ ↦ ?_
      · unfold previousStream Stage.previousName
        cases stage.previousName? with
        | none => exact asks_fail _
        | some previous => exact asks_require (hget _)
      · split
        · exact asks_pure ()
        · exact hremove input

theorem asks_withdraw {allowed : Request → Prop} (hpipeline : ∀ key, allowed (.get .pipeline key))
    (hget : ∀ key, allowed (.get .imageStream key))
    (hreplace : ∀ o : ImageStream, allowed (.replace .imageStream o)) :
    (withdraw stage).Asks allowed := by
  refine (asks_ask (hpipeline _)).bind fun found ↦ ?_
  cases found with
  | none => exact asks_pure ()
  | some pipeline => exact asks_forM fun _ _ ↦ asks_cleanFrom hget hreplace

/-! ### All input streams -/

/-- Which streams are to be cleaned does not depend on labels. -/
theorem cleans_unlabelAll (hstreams : s.SoundAt .imageStream) (begun : List Key) :
    Cleans stage pipeline inputName (Store.unlabelAll label s begun) keys ↔
      Cleans stage pipeline inputName s keys := by
  have hfind (key : Key) : ∃ alter : ImageStream → ImageStream,
      (∀ stream, (alter stream).spec = stream.spec) ∧
        (Store.unlabelAll label s begun).find? .imageStream key =
          (s.find? .imageStream key).map alter := by
    rw [Store.find?_unlabelAll hstreams]
    split
    · exact ⟨_, fun _ ↦ Object.spec_withoutLabel, rfl⟩
    · exact ⟨id, fun _ ↦ rfl, by simp⟩
  have hpresent (key : Key) :
      (∃ stream, (Store.unlabelAll label s begun).find? .imageStream key = some stream) ↔
        ∃ stream, s.find? .imageStream key = some stream := by
    obtain ⟨alter, -, halter⟩ := hfind key
    rw [halter]
    cases s.find? .imageStream key <;> simp
  obtain ⟨alter, hspec, halter⟩ := hfind ⟨stage.metadata.namespaceOrEmpty, inputName⟩
  unfold Cleans
  rw [halter]
  cases s.find? .imageStream ⟨stage.metadata.namespaceOrEmpty, inputName⟩ with
  | none => exact Iff.rfl
  | some input => simp only [Option.map_some, hspec, hpresent]

/-- Where the streams of every input stream are known, they all are cleaned. -/
theorem on_forM_cleanFrom (hstreams : s.SoundAt .imageStream) {names : List String}
    (hcleans : ∀ name ∈ names, ∃ keys, Cleans stage pipeline name s keys) :
    ∃ keys, (names.forM (cleanFrom stage pipeline)).on s =
        (.ok (), Store.unlabelAll stage.label s keys) ∧
      ∀ key, key ∈ keys ↔
        ∃ name ∈ names, ∃ keys', Cleans stage pipeline name s keys' ∧ key ∈ keys' := by
  induction names generalizing s with
  | nil => exact ⟨[], rfl, by simp⟩
  | cons name names ih =>
    obtain ⟨first, hfirst⟩ := hcleans name (List.mem_cons_self ..)
    have hrest : ∀ next ∈ names, ∃ keys,
        Cleans stage pipeline next (Store.unlabelAll stage.label s first) keys := by
      intro next hnext
      obtain ⟨keys, hkeys⟩ := hcleans next (List.mem_cons_of_mem _ hnext)
      exact ⟨keys, (cleans_unlabelAll hstreams first).mpr hkeys⟩
    obtain ⟨rest, hon, hmem⟩ := ih (hstreams.unlabelAll hstreams first) hrest
    refine ⟨first ++ rest, ?_, fun key ↦ ?_⟩
    · refine (on_bind_of_ok (on_cleanFrom hstreams hfirst) _).trans (hon.trans ?_)
      rw [Store.unlabelAll, Store.unlabelAll, Store.unlabelAll, List.foldl_append]
    · simp only [List.mem_append, hmem, cleans_unlabelAll hstreams, List.mem_cons, exists_eq_or_imp]
      refine or_congr_left ⟨fun hkey ↦ ⟨first, hfirst, hkey⟩, ?_⟩
      rintro ⟨keys', hkeys', hkey⟩
      exact hfirst.unique hkeys' ▸ hkey

/-- Where all streams were cleaned, those of every input stream were known. -/
theorem cleans_of_on_forM (hstreams : s.SoundAt .imageStream) {names : List String}
    (hok : (names.forM (cleanFrom stage pipeline)).on s = (.ok (), t)) :
    ∀ name ∈ names, ∃ keys, Cleans stage pipeline name s keys := by
  induction names generalizing s with
  | nil => exact fun _ hmem ↦ nomatch hmem
  | cons name names ih =>
    by_cases hcleans : ∃ keys, Cleans stage pipeline name s keys
    · obtain ⟨first, hfirst⟩ := hcleans
      have hok := (on_bind_of_ok (on_cleanFrom hstreams hfirst) _).symm.trans hok
      intro next hnext
      rcases List.mem_cons.mp hnext with rfl | hnext
      · exact ⟨first, hfirst⟩
      · obtain ⟨keys, hkeys⟩ := ih (hstreams.unlabelAll hstreams first) hok next hnext
        exact ⟨keys, (cleans_unlabelAll hstreams first).mp hkeys⟩
    · obtain ⟨cause, -, herror⟩ := rests_cleanFrom_of_not_cleans fun keys h ↦ hcleans ⟨keys, h⟩
      exact nomatch congrArg Prod.fst ((on_bind_of_error herror.on _).symm.trans hok)

/-- Where the streams of some input stream are not known, the cleaning ends with what is wrong. -/
theorem on_forM_cleanFrom_of_not_cleans (hstreams : s.SoundAt .imageStream) {names : List String}
    {name : String} (hname : name ∈ names)
    (hnone : ∀ keys, ¬ Cleans stage pipeline name s keys) :
    ∃ cause t, IsUnknown stage cause ∧
      (names.forM (cleanFrom stage pipeline)).on s = (.error (.ofCause cause), t) := by
  induction names generalizing s with
  | nil => exact nomatch hname
  | cons next names ih =>
    by_cases hcleans : ∃ keys, Cleans stage pipeline next s keys
    · obtain ⟨first, hfirst⟩ := hcleans
      have hrest : name ∈ names := (List.mem_cons.mp hname).resolve_left fun hsame ↦
        hnone first (hsame ▸ hfirst)
      obtain ⟨cause, t, hunknown, hon⟩ := ih (hstreams.unlabelAll hstreams first) hrest
        fun keys hkeys ↦ hnone keys ((cleans_unlabelAll hstreams first).mp hkeys)
      exact ⟨cause, t, hunknown, (on_bind_of_ok (on_cleanFrom hstreams hfirst) _).trans hon⟩
    · obtain ⟨cause, hunknown, herror⟩ :=
        rests_cleanFrom_of_not_cleans fun keys h ↦ hcleans ⟨keys, h⟩
      exact ⟨cause, s, hunknown, on_bind_of_error herror.on _⟩

/-! ### Settling -/

theorem leads_unlabelAll (hsound : s.Sound) (keys : List Key) :
    z.Leads s (Store.unlabelAll z.stage.label s keys) := by
  refine ⟨hsound.unlabelAll keys, fun k key ↦ ?_⟩
  by_cases hkind : k = .imageStream
  · subst hkind
    rw [Store.find?_unlabelAll (hsound.soundAt _)]
    cases s.find? .imageStream key with
    | none => split <;> trivial
    | some stream =>
      split
      · exact .inr rfl
      · exact .inl rfl
  · rw [Store.find?_unlabelAll_of_ne hkind]
    cases s.find? k key with
    | none => trivial
    | some o => exact .refl o

theorem Cleans.present (hcleans : Cleans stage pipeline inputName s keys) :
    ∀ key ∈ keys, ∃ stream, s.find? .imageStream key = some stream := by
  unfold Cleans at hcleans
  cases hinput : s.find? .imageStream ⟨stage.metadata.namespaceOrEmpty, inputName⟩ with
  | none =>
    rw [hinput] at hcleans
    obtain rfl : keys = [] := hcleans
    exact fun _ hmem ↦ nomatch hmem
  | some input =>
    rw [hinput] at hcleans
    exact hcleans.2

theorem settles_cleanFrom : (cleanFrom z.stage pipeline inputName).Settles z.development := by
  constructor
  · intro s hdom
    by_cases hcleans : ∃ keys, Cleans z.stage pipeline inputName s keys
    · obtain ⟨keys, hcleans⟩ := hcleans
      rw [on_cleanFrom (hdom.sound.soundAt _) hcleans]
      exact leads_unlabelAll hdom.sound keys
    · obtain ⟨cause, -, hrests⟩ := rests_cleanFrom_of_not_cleans fun keys h ↦ hcleans ⟨keys, h⟩
      rw [hrests.on]
      exact .refl hdom.sound
  · intro s hdom
    by_cases hcleans : ∃ keys, Cleans z.stage pipeline inputName s keys
    · obtain ⟨keys, hcleans⟩ := hcleans
      rw [on_cleanFrom (hdom.sound.soundAt _) hcleans]
      exact rests_cleanFrom (hcleans.of_leads (leads_unlabelAll hdom.sound keys))
        (isClean_unlabelAll (hdom.sound.soundAt _) _ keys)
    · obtain ⟨cause, -, hrests⟩ := rests_cleanFrom_of_not_cleans fun keys h ↦ hcleans ⟨keys, h⟩
      rw [hrests.on]
      exact hrests
  · intro s t hdom hrests hleads
    by_cases hcleans : ∃ keys, Cleans z.stage pipeline inputName s keys
    · obtain ⟨keys, hcleans⟩ := hcleans
      have hsame : Store.unlabelAll z.stage.label s keys = s :=
        congrArg Prod.snd ((on_cleanFrom (hdom.sound.soundAt _) hcleans).symm.trans hrests.on)
      have hclean := isClean_unlabelAll (hdom.sound.soundAt _) z.stage.label keys
      rw [hsame] at hclean
      exact rests_cleanFrom (hcleans.of_leads hleads) (hclean.of_leads hleads hcleans.present)
    · obtain ⟨cause, -, herror⟩ := rests_cleanFrom_of_not_cleans fun keys h ↦ hcleans ⟨keys, h⟩
      exact nomatch herror.unique hrests

theorem settles_withdraw : (withdraw z.stage).Settles z.development := by
  refine settles_get_bind (z.base.find? .pipeline z.stage.pipelineKey)
    (fun hdom ↦ Takedown.Leads.given hdom rfl _) ?_
  split
  · exact settles_pure
  · exact settles_forM fun _ _ ↦ settles_cleanFrom

/-- A failing call leaves some of the streams as they were; the next run cleans these too. -/
theorem absorbs_cleanFrom {hidden : Kind → Prop} (hshown : ¬ hidden .imageStream) :
    (cleanFrom z.stage pipeline inputName).Absorbs z.development hidden := by
  have hsettles : (cleanFrom z.stage pipeline inputName).Settles z.development := settles_cleanFrom
  constructor
  · intro s hdom
    have hsound : s.Sound := hdom.sound
    refine (surely_cleanFrom (hsound.soundAt _)).mono fun r s' hr ↦ ?_
    rcases hr with ⟨⟨e, rfl⟩, rfl⟩ | ⟨keys, begun, hcleans, hbegun, rfl, hall⟩
    · exact ⟨.refl hsound, .refl _, nofun⟩
    · have hleads : z.Leads s (Store.unlabelAll z.stage.label s begun) :=
        leads_unlabelAll hsound begun
      have hsame : (cleanFrom z.stage pipeline inputName).on
          (Store.unlabelAll z.stage.label s begun) =
          (cleanFrom z.stage pipeline inputName).on s := by
        rw [on_cleanFrom (hleads.sound.soundAt _) (hcleans.of_leads hleads),
          on_cleanFrom (hsound.soundAt _) hcleans,
          Store.unlabelAll_unlabelAll (hsound.soundAt _) hbegun]
      refine ⟨hleads, hsame ▸ .refl _, fun hok ↦ ?_⟩
      have hon := on_cleanFrom (hsound.soundAt _) hcleans
      rw [← hall hok] at hon
      refine ⟨hon ▸ .refl _, fun t ht ↦ ?_⟩
      have hrests := hsettles.rests hdom
      rw [hon] at hrests
      rw [(hsettles.lasts (z.development.stays hdom hleads) hrests ht).on]
      exact .refl _
  · intro s t hs ht hagree
    exact (asks_cleanFrom (fun _ ↦ hshown) fun _ ↦ hshown).on_agreeOff hagree

theorem absorbs_withdraw {hidden : Kind → Prop} (hshown : ¬ hidden .imageStream) :
    (withdraw z.stage).Absorbs z.development hidden := by
  refine absorbs_get_bind (z.base.find? .pipeline z.stage.pipelineKey)
    (fun hdom ↦ Takedown.Leads.given hdom rfl _) ?_
  split
  · exact absorbs_pure
  · exact absorbs_forM fun _ _ ↦ absorbs_cleanFrom hshown

end EnvironmentLabel

end PipelineOperator
