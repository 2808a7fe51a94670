import PipelineOperator.Proofs.Course.Basic

/-!
What the journal of a bench tells. A call of which nothing comes (`Request.IsIdle`) leaves the bench
as it was, and every other call that writes makes one entry, which names the one object that was
stored or removed (`Bench.Records`). There is one exception, on the side of too many entries: a
status or a configuration that is written to an object that is not there (`Bench.Overstates`) is
entered, although the call fails and nothing else changes. `Bench.answer_journalsEffect` says this
of every call on every bench that someone may have come to (`Bench.handled`).

From the calls it goes over to operations. The journal accounts for every object that an operation
leaves otherwise than it was (`Program.accounts_run`), so an operation without a new entry leaves the
store alone (`Operation.store_onBench_of_journal`).
-/

set_option autoImplicit false
set_option relaxedAutoImplicit false

namespace PipelineOperator

/-! ### The lines of a journal -/

theorem WriteAction.text_injective {a a' : WriteAction} (h : a.text = a'.text) : a = a' := by
  cases a <;> cases a' <;> simp [text] at h ⊢

theorem WriteAction.blank_notMem_text (a : WriteAction) : ' ' ∉ a.text.toList := by
  cases a <;> decide

theorem Kind.blank_notMem_name (k : Kind) : ' ' ∉ k.name.toList := by
  cases k <;> decide

/-- The key of a write as the journal shows it. -/
def Write.shownKey (w : Write) : String :=
  if w.kind.isClusterScoped then w.key.name else w.key.text

theorem Bench.entry_eq (w : Write) :
    entry w = w.action.text ++ " " ++ (w.kind.name ++ " " ++ w.shownKey) := by
  unfold entry Write.text Write.shownKey
  split <;> simp only [String.append_assoc]

/-- A word ends at the first blank. -/
theorem Text.word_inj {a a' r r' : String} (ha : ' ' ∉ a.toList) (ha' : ' ' ∉ a'.toList)
    (h : a ++ " " ++ r = a' ++ " " ++ r') : a = a' ∧ r = r' := by
  have hword {word rest : List Char} (hblank : ' ' ∉ word) :
      (word ++ ' ' :: rest).takeWhile (· != ' ') = word := by
    have hall : ∀ c ∈ word, (c != ' ') = true := by
      intro c hc
      refine bne_iff_ne.mpr ?_
      rintro rfl
      exact hblank hc
    rw [List.takeWhile_append_of_pos hall, List.takeWhile_cons_of_neg (by decide), List.append_nil]
  have hchars : a.toList ++ ' ' :: r.toList = a'.toList ++ ' ' :: r'.toList := by
    simpa using congrArg String.toList h
  have hfirst : a.toList = a'.toList := by
    rw [← hword ha, hchars, hword ha']
  rw [hfirst] at hchars
  have hrest : r.toList = r'.toList := (List.cons.inj (List.append_cancel_left hchars)).2
  exact ⟨String.toList_inj.mp hfirst, String.toList_inj.mp hrest⟩

/-- A line tells the action, the kind and the key that it shows. -/
theorem Bench.entry_inj {w w' : Write} : entry w = entry w' ↔
    w.action = w'.action ∧ w.kind = w'.kind ∧ w.shownKey = w'.shownKey := by
  rw [entry_eq, entry_eq]
  constructor
  · intro h
    obtain ⟨haction, hrest⟩ := Text.word_inj w.action.blank_notMem_text w'.action.blank_notMem_text h
    obtain ⟨hkind, hkey⟩ := Text.word_inj w.kind.blank_notMem_name w'.kind.blank_notMem_name hrest
    exact ⟨WriteAction.text_injective haction, Kind.name_injective hkind, hkey⟩
  · rintro ⟨haction, hkind, hkey⟩
    rw [haction, hkind, hkey]

/-! ### What comes of a request -/

namespace Request

/-- The request writes a part of an object: its status, or the configuration of a job. -/
def writesPart : Request → Bool
  | writeStatus .. => true
  | setJobConfig .. => true
  | _ => false

/-- Nothing came of the request: it failed, the object to be created was there, or the one to be
deleted was not. -/
def IsIdle (s : Store) : (request : Request) → Except Fault request.Reply → Prop
  | _, .error _ => True
  | .create .., .ok creation => creation = .alreadyExists
  | .delete k key, .ok _ => s.find? k key = none
  | _, .ok _ => False

theorem write?_of_writeOf {request : Request} {s : Store} {w : Write}
    (hwrite : s.writeOf request = some w) : request.write? = some w :=
  (Option.filter_eq_some_iff.mp hwrite).1

end Request

namespace Store

variable {s : Store} {request : Request} {w : Write}

/-- The store after one object was stored under the key, or the one there removed. -/
structure Rewrites (s : Store) (k : Kind) (key : Key) (t : Store) : Prop where
  here : (∃ o : Object k, o.key = key ∧ t.find? k key = some o) ∨
    ((s.find? k key).isSome = true ∧ t.find? k key = none)
  elsewhere : ∀ k' key', ¬ (k' = k ∧ key' = key) → t.find? k' key' = s.find? k' key'

theorem rewrites_put (s : Store) {k : Kind} (o : Object k) : s.Rewrites k o.key (s.put o) where
  here := .inl ⟨o, rfl, find?_put_self s o⟩
  elsewhere _ _ := find?_put_of_ne s o

theorem rewrites_remove {k : Kind} {key : Key} (hthere : (s.find? k key).isSome = true) :
    s.Rewrites k key (s.remove k key) where
  here := .inr ⟨hthere, find?_remove_self s k key⟩
  elsewhere _ _ := find?_remove_of_ne s

/-- Nothing comes of a request if it amounts to no write. -/
theorem isIdle_answer_iff (hwrites : request.isRead = false) (s : Store) :
    request.IsIdle s (answer request s).1 ↔ s.writeOf request = none := by
  cases request with
  | get | listStages | jenkinsEnabled => exact nomatch hwrites
  | create k o =>
    cases hfound : s.find? k o.key <;>
      simp [Request.IsIdle, answer, create, writeOf, Request.write?, admits, hfound]
  | replace k o =>
    cases hfound : s.find? k o.key with
    | none => simp [Request.IsIdle, answer, replace, writeOf, Request.write?, admits, hfound]
    | some stored =>
      simp [Request.IsIdle, answer, replace_eq_letGo hfound, writeOf, Request.write?, admits, hfound]
  | writeStatus k o =>
    cases hfound : s.find? k o.key <;>
      simp [Request.IsIdle, answer, writeStatus, writeOf, Request.write?, admits, hfound]
  | setJobConfig key config =>
    cases hfound : s.find? .jenkinsJob key <;>
      simp [Request.IsIdle, answer, setJobConfig, writeOf, Request.write?, admits, hfound]
  | delete k key =>
    cases hfound : s.find? k key <;>
      simp [Request.IsIdle, answer, writeOf, Request.write?, admits, hfound]

/-- The write that a request amounts to is about the one object that it stores or removes. -/
theorem Keyed.rewrites_answer (hkeyed : s.Keyed) (hwrite : s.writeOf request = some w) :
    s.Rewrites w.kind w.key (Store.answer request s).2 := by
  obtain ⟨hsent, hadmits⟩ := Option.filter_eq_some_iff.mp hwrite
  cases request with
  | get | listStages | jenkinsEnabled => exact nomatch hsent
  | create k o =>
    obtain rfl := Option.some.inj hsent
    have habsent : s.find? k o.key = none := Option.isNone_iff_eq_none.mp hadmits
    simp only [Store.answer, create_of_absent habsent]
    exact s.rewrites_put o
  | replace k o =>
    obtain rfl := Option.some.inj hsent
    have hthere : (s.find? k o.key).isSome = true := hadmits
    obtain ⟨stored, hfound⟩ := Option.isSome_iff_exists.mp hthere
    simp only [Store.answer, replace_eq_letGo hfound, letGo]
    split
    · exact rewrites_remove hthere
    · exact s.rewrites_put o
  | writeStatus k o =>
    obtain rfl := Option.some.inj hsent
    have hthere : (s.find? k o.key).isSome = true := hadmits
    obtain ⟨stored, hfound⟩ := Option.isSome_iff_exists.mp hthere
    -- What is stored is the old object with the new status, and that lies under its own key.
    have hstored : stored.key = o.key := hkeyed k hfound
    have hkey : ({ stored with status := o.status } : Object k).key = o.key := hstored
    have hput := s.rewrites_put { stored with status := o.status }
    rw [hkey] at hput
    simpa only [Store.answer, (hkeyed k).writeStatus hfound] using hput
  | setJobConfig key config =>
    obtain rfl := Option.some.inj hsent
    have hthere : (s.find? .jenkinsJob key).isSome = true := hadmits
    obtain ⟨job, hfound⟩ := Option.isSome_iff_exists.mp hthere
    have hstored : job.key = key := hkeyed .jenkinsJob hfound
    have hkey : (job.withConfig config).key = key := hstored
    have hput := s.rewrites_put (job.withConfig config)
    rw [hkey] at hput
    simpa only [Store.answer, (hkeyed .jenkinsJob).setJobConfig hfound] using hput
  | delete k key =>
    obtain rfl := Option.some.inj hsent
    exact rewrites_remove hadmits

end Store

/-! ### One call -/

namespace Bench

variable {b b' : Bench} {request : Request} {w : Write}

/-- One write is new in the journal, and one object was stored or removed, which is the one that the
write names. -/
structure Records (b b' : Bench) (w : Write) : Prop where
  journal : b'.journal = b.journal ++ [w]
  rewrites : b.store.Rewrites w.kind w.key b'.store
  rest : b' = { b with store := b'.store, journal := b'.journal }

/-- The request writes a part of an object that is not there, and no switch keeps it from being
tried. -/
def Overstates (b : Bench) (request : Request) : Prop :=
  b.refusal? request = none ∧ request.writesPart = true ∧ b.store.writeOf request = none

theorem shown_of_writes (hwrites : request.isRead = false)
    (found : Except Fault request.Reply) : shown request found = found := by
  cases request <;> first | rfl | exact nomatch hwrites

theorem filter_journals (s : Store) (request : Request) :
    request.write?.filter (journals s) =
      if request.writesPart then request.write? else s.writeOf request := by
  cases request <;> rfl

theorem answer_of_isRead (hread : request.isRead = true) : (answer request b).2 = b := by
  have hserved : b.refusal? request = none := by
    cases request <;> first | rfl | exact nomatch hread
  rw [answer_of_served hserved, Request.write?_of_isRead hread, Store.answer_of_isRead hread,
    Option.filter_none, Option.toList_none, List.append_nil]

/-- Without a write there is no entry, except for parts of objects. -/
theorem answer_of_writeOf_eq_none (hnone : b.store.writeOf request = none)
    (hover : ¬ b.Overstates request) : (answer request b).2 = b := by
  cases hserved : b.refusal? request with
  | some cause => rw [answer_of_refused hserved]
  | none =>
    have hwhole : ¬ request.writesPart = true := fun hpart ↦ hover ⟨hserved, hpart, hnone⟩
    rw [answer_of_served hserved, filter_journals, if_neg hwhole, hnone,
      Store.answer_of_writeOf_eq_none hnone, Option.toList_none, List.append_nil]

/-- A part of an object that is not there is entered, and nothing else. -/
theorem answer_of_overstates (hover : b.Overstates request) : ∃ w, request.write? = some w ∧
    (answer request b).1 = .error (.ofCause (.absent w.kind w.key.text)) ∧
    (answer request b).2 = { b with journal := b.journal ++ [w] } := by
  obtain ⟨hserved, hpart, hnone⟩ := hover
  rw [answer_of_served hserved, filter_journals, if_pos hpart,
    Store.answer_of_writeOf_eq_none hnone]
  cases request with
  | get | listStages | jenkinsEnabled | create | replace | delete => exact nomatch hpart
  | writeStatus k o =>
    have habsent : b.store.find? k o.key = none := by
      simpa [Store.writeOf, Request.write?, Store.admits] using hnone
    refine ⟨⟨.status, k, o.key⟩, rfl, ?_, rfl⟩
    simp only [shown, Store.answer, Store.writeStatus, habsent]
  | setJobConfig key config =>
    have habsent : b.store.find? .jenkinsJob key = none := by
      simpa [Store.writeOf, Request.write?, Store.admits] using hnone
    refine ⟨⟨.patch, .jenkinsJob, key⟩, rfl, ?_, rfl⟩
    simp only [shown, Store.answer, Store.setJobConfig, habsent]

/-- A request that amounts to a write is entered as that write. -/
theorem records_answer (hkeyed : b.store.Keyed) (hserved : b.refusal? request = none)
    (hwrite : b.store.writeOf request = some w) : b.Records (answer request b).2 w := by
  have hentered : (request.write?.filter (journals b.store)).toList = [w] := by
    rw [filter_journals, Request.write?_of_writeOf hwrite, hwrite, ite_self]
    rfl
  rw [answer_of_served hserved, hentered]
  exact ⟨rfl, hkeyed.rewrites_answer hwrite, rfl⟩

theorem isIdle_answer_iff (hwrites : request.isRead = false) :
    request.IsIdle b.store (answer request b).1 ↔
      (b.refusal? request).isSome = true ∨ b.store.writeOf request = none := by
  cases hserved : b.refusal? request with
  | some cause =>
    rw [answer_of_refused hserved]
    cases request <;> simp [Request.IsIdle]
  | none =>
    rw [answer_of_served hserved, shown_of_writes hwrites, Store.isIdle_answer_iff hwrites]
    simp

theorem keyed_answer (hkeyed : b.store.Keyed) (request : Request) :
    (answer request b).2.store.Keyed := by
  cases hserved : b.refusal? request with
  | some cause => rwa [answer_of_refused hserved]
  | none =>
    rw [answer_of_served hserved]
    exact hkeyed.answer request

/-- What the journal tells of a call. -/
structure JournalsEffect (b : Bench) (request : Request) : Prop where
  idle : request.IsIdle b.store (answer request b).1 → ¬ b.Overstates request →
    (answer request b).2 = b
  overstated : b.Overstates request → ∃ w, request.write? = some w ∧
    (answer request b).1 = .error (.ofCause (.absent w.kind w.key.text)) ∧
    (answer request b).2 = { b with journal := b.journal ++ [w] }
  read : request.isRead = true → (answer request b).2 = b
  effective : request.isRead = false → ¬ request.IsIdle b.store (answer request b).1 →
    ∃ w, request.write? = some w ∧ b.Records (answer request b).2 w ∧
      ∀ w', entry w' = entry w → w'.kind = w.kind ∧ w'.shownKey = w.shownKey

theorem journalsEffect (hkeyed : b.store.Keyed) (request : Request) :
    b.JournalsEffect request where
  idle hidle hover := by
    cases hread : request.isRead with
    | true => exact answer_of_isRead hread
    | false =>
      rcases (isIdle_answer_iff hread).mp hidle with hrefused | hnone
      · -- A switch comes before the journal.
        obtain ⟨cause, hcause⟩ := Option.isSome_iff_exists.mp hrefused
        rw [answer_of_refused hcause]
      · exact answer_of_writeOf_eq_none hnone hover
  overstated := answer_of_overstates
  read := answer_of_isRead
  effective hwrites hloud := by
    rw [isIdle_answer_iff hwrites, not_or, Option.not_isSome_iff_eq_none] at hloud
    obtain ⟨w, hwrite⟩ := Option.ne_none_iff_exists'.mp hloud.2
    refine ⟨w, Request.write?_of_writeOf hwrite, records_answer hkeyed hloud.1 hwrite, ?_⟩
    intro w' hline
    exact (entry_inj.mp hline).2

end Bench

/-! ### Benches that someone may have come to -/

/-- Something that is done with a bench. -/
inductive Handling where
  /-- An object is put there, in the place of what is under its key. -/
  | seeded {k : Kind} (o : Object k)
  | removed (k : Kind) (key : Key)
  | marked (k : Kind) (key : Key)
  | namespacesForbidden
  | spacesForbidden
  | statusHidden
  | journalCleared
  | called (request : Request)
  | counted (observation : Observation)

namespace Handling

def onBench : Handling → Bench → Bench
  | seeded o, b => b.put o
  | removed k key, b => { b with store := b.store.remove k key }
  | marked k key, b => { b with store := b.store.markDeleted k key }
  | namespacesForbidden, b => { b with namespacesForbidden := true }
  | spacesForbidden, b => { b with spacesForbidden := true }
  | statusHidden, b => { b with statusUnknown := true }
  | journalCleared, b => { b with journal := [] }
  | called request, b => (Bench.answer request b).2
  | counted observation, b => Bench.backend.record observation b

theorem keyed_onBench (handling : Handling) {b : Bench} (hkeyed : b.store.Keyed) :
    (handling.onBench b).store.Keyed := by
  cases handling with
  | seeded o => exact Bench.keyed_put hkeyed
  | removed k key => exact fun k' ↦ (hkeyed k').remove k key
  | marked k key => exact hkeyed.markDeleted k key
  | called request => exact Bench.keyed_answer hkeyed request
  | namespacesForbidden | spacesForbidden | statusHidden | journalCleared | counted => exact hkeyed

end Handling

namespace Bench

/-- A new bench after all that was done with it. -/
def handled (handlings : List Handling) : Bench :=
  handlings.foldl (fun b handling ↦ handling.onBench b) {}

theorem keyed_handled (handlings : List Handling) : (handled handlings).store.Keyed := by
  have hkeeps : ∀ b : Bench, b.store.Keyed →
      (handlings.foldl (fun b handling ↦ handling.onBench b) b).store.Keyed := by
    induction handlings with
    | nil => exact fun b hkeyed ↦ hkeyed
    | cons handling handlings ih =>
      exact fun b hkeyed ↦ ih _ (handling.keyed_onBench hkeyed)
  exact hkeeps {} Store.sound_empty.toKeyed

/-- Whatever was done with the bench before, a call of which nothing comes leaves it as it was, with
the exception of parts of objects that are not there; every other call that writes is one entry,
whose line names the one object that was stored or removed. -/
theorem answer_journalsEffect (handlings : List Handling) (request : Request) :
    (handled handlings).JournalsEffect request :=
  journalsEffect (keyed_handled handlings) request

/-- Deleting a namespace that is there is one entry, and creating one where that is forbidden leaves
no trace. -/
theorem answer_journalsEffect_withNamespace :
    (handled [.seeded (Fixture.namespaceOf "ci-dev")]).Records
        (answer (.delete .ns ⟨"", "ci-dev"⟩)
          (handled [.seeded (Fixture.namespaceOf "ci-dev")])).2 ⟨.delete, .ns, ⟨"", "ci-dev"⟩⟩ ∧
      (answer (.create .ns (Fixture.namespaceOf "ci-dev")) (handled [.namespacesForbidden])).2 =
        handled [.namespacesForbidden] := by
  constructor
  · have hjournals := answer_journalsEffect [.seeded (Fixture.namespaceOf "ci-dev")]
      (.delete .ns ⟨"", "ci-dev"⟩)
    obtain ⟨w, hsent, hrecords, -⟩ := hjournals.effective rfl fun hidle ↦ nomatch hidle
    obtain rfl := Option.some.inj hsent
    exact hrecords
  · have hjournals := answer_journalsEffect [.namespacesForbidden]
      (.create .ns (Fixture.namespaceOf "ci-dev"))
    exact hjournals.idle trivial fun hover ↦ nomatch hover.1

/-- On a new bench the journal is empty. Writing the status of a stage or of a pipeline, or the
configuration of a job, fails there and is entered nevertheless. -/
theorem answer_journalsEffect_of_absent :
    (handled []).journal = [] ∧
      answer (.writeStatus .stage (Fixture.stage "dev" "ci" "p" 0)) (handled []) =
        (.error (.ofCause (.absent .stage "ci/dev")),
          { handled [] with journal := [⟨.status, .stage, ⟨"ci", "dev"⟩⟩] }) ∧
      answer (.writeStatus .pipeline (Fixture.pipeline "p" "ci" [] [] [])) (handled []) =
        (.error (.ofCause (.absent .pipeline "ci/p")),
          { handled [] with journal := [⟨.status, .pipeline, ⟨"ci", "p"⟩⟩] }) ∧
      answer (.setJobConfig ⟨"ci", "dev"⟩ "") (handled []) =
        (.error (.ofCause (.absent .jenkinsJob "ci/dev")),
          { handled [] with journal := [⟨.patch, .jenkinsJob, ⟨"ci", "dev"⟩⟩] }) :=
  ⟨rfl, rfl, rfl, rfl⟩

end Bench

/-! ### Operations -/

namespace Bench

variable {b b' b'' : Bench}

/-- The journal goes on, and its new entries name every object that is not as it was. -/
def Accounts (b b' : Bench) : Prop :=
  ∃ news, b'.journal = b.journal ++ news ∧ ∀ k key, (∀ w ∈ news, ¬ (k = w.kind ∧ key = w.key)) →
    b'.store.find? k key = b.store.find? k key

theorem Accounts.refl (b : Bench) : b.Accounts b := ⟨[], (List.append_nil _).symm, fun _ _ _ ↦ rfl⟩

theorem Accounts.trans (hfirst : b.Accounts b') (hsecond : b'.Accounts b'') : b.Accounts b'' := by
  obtain ⟨news, hjournal, hsame⟩ := hfirst
  obtain ⟨news', hjournal', hsame'⟩ := hsecond
  refine ⟨news ++ news', by rw [hjournal', hjournal, List.append_assoc], fun k key hnone ↦ ?_⟩
  rw [List.forall_mem_append] at hnone
  exact (hsame' k key hnone.2).trans (hsame k key hnone.1)

theorem Records.accounts {w : Write} (hrecords : b.Records b' w) : b.Accounts b' :=
  ⟨[w], hrecords.journal, fun k key hnone ↦
    hrecords.rewrites.elsewhere k key (hnone w (List.mem_singleton_self w))⟩

theorem accounts_answer (hkeyed : b.store.Keyed) (request : Request) :
    b.Accounts (answer request b).2 := by
  have hjournals := journalsEffect hkeyed request
  by_cases hover : b.Overstates request
  · -- One entry too many names an object that is as it was.
    obtain ⟨w, -, -, hentered⟩ := hjournals.overstated hover
    rw [hentered]
    exact ⟨[w], rfl, fun _ _ _ ↦ rfl⟩
  cases hread : request.isRead with
  | true =>
    rw [hjournals.read hread]
    exact .refl b
  | false =>
    by_cases hidle : request.IsIdle b.store (answer request b).1
    · rw [hjournals.idle hidle hover]
      exact .refl b
    · obtain ⟨w, -, hrecords, -⟩ := hjournals.effective hread hidle
      exact hrecords.accounts

end Bench

variable {α : Type} {b : Bench}

/-- Whatever a program asks, its new entries name every object that it leaves otherwise than it
was. -/
theorem Program.accounts_run (program : Program α) (hkeyed : b.store.Keyed) :
    b.Accounts (program.run Bench.backend b).2 := by
  induction program generalizing b with
  | done value => exact .refl b
  | ask request next ih =>
    exact (Bench.accounts_answer hkeyed request).trans (ih _ (Bench.keyed_answer hkeyed request))
  | observe observation next ih => exact ih (b := Bench.backend.record observation b) hkeyed

/-- An operation that makes no entry leaves the store as it was. -/
theorem Operation.store_onBench_of_journal (op : Operation α) (hkeyed : b.store.Keyed)
    (hsilent : (op.onBench b).2.journal = b.journal) : (op.onBench b).2.store = b.store := by
  obtain ⟨news, hjournal, hsame⟩ := Program.accounts_run op.run hkeyed
  have hnone : news = [] := List.append_right_eq_self.mp (hjournal.symm.trans hsilent)
  refine Store.ext_find fun k key ↦ hsame k key ?_
  rw [hnone]
  exact fun w hw ↦ nomatch hw

end PipelineOperator
