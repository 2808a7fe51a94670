import Mathlib.Logic.Function.Basic
import PipelineOperator.Proofs.Operation.OnBench
import PipelineOperator.Proofs.Traffic.Edits

/-!
Any number of stages that place and withdraw their labels at the same time. Their calls take their
turns in any order, at a cluster that gives a stream a new version with every write, and refuses a
write whose version is not the stored one (`Store.update`). Calls may fail, and a reply may get lost
after the call took effect.

A label change is a read and a later write of the whole stream, so it might undo what happened in
between. It does not: a copy has the version with which it was read, and no two states of a stream
have one version (`Traffic.Invariant`). So every write that is accepted changes the writer's own
label on the stream as it is then, and the streams are at any time what the accepted writes, one
after the other, have made of them (`labels_in_traffic`).
-/

set_option autoImplicit false
set_option relaxedAutoImplicit false

namespace PipelineOperator

variable {ι : Type}

/-! ### A cluster that knows versions -/

/-- The object at a version. -/
def Object.withVersion {k : Kind} (o : Object k) (version : String) : Object k :=
  { o with metadata := { o.metadata with resourceVersion := some version } }

/-- Writes a stream as a new version, unless it was changed since the copy was read. -/
def Store.update (s : Store) (sent : ImageStream) (version : String) :
    Except Fault ImageStream × Store :=
  match s.find? .imageStream sent.key with
  | none => (.error (.ofCause (.absent .imageStream sent.key.text)), s)
  | some stored =>
    if stored.metadata.resourceVersion = sent.metadata.resourceVersion then
      (.ok (sent.withVersion version), s.letGo (sent.withVersion version))
    else (.error (.ofCause (.refused 409)), s)

/-- An update is refused without effect, or is made on a stream of its version. -/
theorem Store.update_cases (s : Store) (sent : ImageStream) (version : String) :
    (∃ fault, s.update sent version = (.error fault, s)) ∨
      ∃ stored, s.find? .imageStream sent.key = some stored ∧
        stored.metadata.resourceVersion = sent.metadata.resourceVersion ∧
        s.update sent version =
          (.ok (sent.withVersion version), s.letGo (sent.withVersion version)) := by
  unfold Store.update
  cases hfound : s.find? .imageStream sent.key with
  | none => exact .inl ⟨_, rfl⟩
  | some stored =>
    by_cases hversion : stored.metadata.resourceVersion = sent.metadata.resourceVersion
    · exact .inr ⟨stored, rfl, hversion, if_pos hversion⟩
    · exact .inl ⟨_, if_neg hversion⟩

/-- Letting go of an object stores it, unless it is released. -/
theorem Store.find?_letGo_eq {k : Kind} (s : Store) (o : Object k) (key : Key) :
    (s.letGo o).find? k key =
      if key = o.key then (some o).filter (fun o ↦ !o.metadata.isReleased)
      else s.find? k key := by
  unfold Store.letGo
  cases hreleased : o.metadata.isReleased with
  | true => simp [Store.find?_remove, Option.filter, hreleased]
  | false => simp [Store.find?_put, Option.filter, hreleased]

/-- Serves a request. The version is for the stream that it writes, if it writes one. -/
def Store.serveAs (version : String) : (request : Request) → Store →
    Except Fault request.Reply × Store
  | .replace .imageStream sent, s => s.update sent version
  | request, s => Store.serve request s

/-- A write of a stream that reached the cluster, and the version that it made, if it was
accepted. -/
structure Update (ι : Type) where
  author : ι
  sent : ImageStream
  version : Option String

/-- What a request that was served adds to the updates. -/
def Request.updates (author : ι) (version : String) (accepted : Bool) :
    Request → List (Update ι)
  | .replace .imageStream sent => [⟨author, sent, if accepted then some version else none⟩]
  | _ => []

theorem Request.not_shows_error {request : Request} {fault : Fault} {stream : ImageStream} :
    ¬ request.Shows (.error fault) stream := by
  cases request with
  | get k key => cases k <;> exact id
  | _ => exact id

/-- What a reply shows is stored. -/
theorem Request.exists_of_shows_serve {request : Request} {s : Store} {stream : ImageStream}
    (h : request.Shows (Store.serve request s).1 stream) :
    ∃ key, s.find? .imageStream key = some stream := by
  cases request with
  | get k key =>
    cases k with
    | imageStream =>
      cases hfound : s.find? .imageStream key with
      | none =>
        have hreply : (Store.serve (.get .imageStream key) s).1 = .ok none :=
          congrArg Except.ok hfound
        rw [hreply] at h
        exact h.elim
      | some stored =>
        have hreply : (Store.serve (.get .imageStream key) s).1 = .ok (some stored) :=
          congrArg Except.ok hfound
        rw [hreply] at h
        exact ⟨key, hfound.trans (congrArg some h)⟩
    | _ => exact h.elim
  | _ => exact h.elim

theorem Store.serveAs_of_isRead {request : Request} (hread : request.isRead = true)
    (version : String) (s : Store) : s.serveAs version request = Store.serve request s := by
  cases request with
  | replace k o => exact nomatch hread
  | _ => rfl

theorem Request.updates_of_isRead {request : Request} (hread : request.isRead = true) (author : ι)
    (version : String) (accepted : Bool) : request.updates author version accepted = [] := by
  cases request with
  | replace k o => exact nomatch hread
  | _ => rfl

/-- What a stage may write is an image stream. -/
theorem LabelTask.Permits.exists_of_isWrite {task : LabelTask} {read : ImageStream → Prop}
    {request : Request} (hpermits : task.Permits read request) (hwrites : ¬ request.isRead = true) :
    ∃ sent : ImageStream, request = .replace .imageStream sent := by
  cases request with
  | replace k sent =>
    cases k with
    | imageStream => exact ⟨sent, rfl⟩
    | _ => exact absurd hpermits hwrites
  | _ => exact absurd hpermits hwrites

/-! ### Stages at work -/

/-- A cluster, what the stages have still to do, and the updates that reached the cluster. -/
structure Traffic (ι : Type) where
  store : Store
  rest : ι → Program (Except Fault Unit)
  updates : List (Update ι) := []

/-- What becomes of a call. -/
inductive Fate where
  | served
  /-- It takes effect, and the reply gets lost. -/
  | unanswered (fault : Fault)
  /-- It does not reach the cluster. -/
  | unserved (fault : Fault)

namespace Traffic

/-- Every stage has all of its work to do. -/
def start (base : Store) (crew : ι → LabelTask) : Traffic ι where
  store := base
  rest i := (crew i).operation.run

variable [DecidableEq ι]

/-- The stage does its next call. -/
def turn (t : Traffic ι) (i : ι) (version : String) (fate : Fate) : Traffic ι :=
  match t.rest i with
  | .done _ => t
  | .observe _ next => { t with rest := Function.update t.rest i next }
  | .ask request next =>
    let served := t.store.serveAs version request
    let updates := t.updates ++ request.updates i version served.1.isOk
    match fate with
    | .served => ⟨served.2, Function.update t.rest i (next served.1), updates⟩
    | .unanswered fault => ⟨served.2, Function.update t.rest i (next (.error fault)), updates⟩
    | .unserved fault => { t with rest := Function.update t.rest i (next (.error fault)) }

/-- No stream of the first cluster, and none that was written since, has had the version. -/
structure IsFresh (base : Store) (t : Traffic ι) (version : String) : Prop where
  base : ∀ key stream, base.find? .imageStream key = some stream →
    stream.metadata.resourceVersion ≠ some version
  updates : ∀ u ∈ t.updates, u.version ≠ some version

/-- One turn of a stage, or something else that leaves the image streams alone. -/
inductive Step (base : Store) : Traffic ι → Traffic ι → Prop where
  | turn (t : Traffic ι) (i : ι) (version : String) (fate : Fate) (hfresh : t.IsFresh base version) :
      Step base t (t.turn i version fate)
  | elsewhere (t : Traffic ι) (store : Store)
      (hsame : store.imageStreams = t.store.imageStreams) : Step base t { t with store }

end Traffic

/-! ### What the accepted updates make of a stream -/

namespace LabelTask

variable {task : LabelTask} {stream : ImageStream}

@[simp] theorem key_apply : (task.apply stream).key = stream.key := by
  unfold apply
  split
  · exact Object.key_withoutLabel
  · exact Object.key_withLabel

@[simp] theorem resourceVersion_apply :
    (task.apply stream).metadata.resourceVersion = stream.metadata.resourceVersion := by
  unfold apply Object.withLabel Object.withoutLabel
  split <;> split <;> rfl

/-- What a task changes on a stream: its own label, and no other and nothing else. -/
structure Changes (task : LabelTask) (stream sent : ImageStream) : Prop where
  own : sent.hasLabel task.stage.label = !stream.hasLabel task.stage.label
  others : ∀ label, label ≠ task.stage.label →
    sent.metadata.label? label = stream.metadata.label? label
  rest : { sent with metadata := { sent.metadata with labels := stream.metadata.labels } } = stream

end LabelTask

/-- What an update makes of the stream under a key: if it was accepted, the label of its author is
set or erased, and the stream has a new version. A stream that was released is gone. -/
def Update.effect (crew : ι → LabelTask) (key : Key) (u : Update ι)
    (stream : Option ImageStream) : Option ImageStream :=
  match u.version with
  | none => stream
  | some version =>
    if u.sent.key = key then
      (stream.map (fun o ↦ ((crew u.author).apply o).withVersion version)).filter
        (fun o ↦ !o.metadata.isReleased)
    else stream

theorem Update.effect_accepted (crew : ι → LabelTask) (key : Key) (i : ι) (sent : ImageStream)
    (version : String) (stream : Option ImageStream) :
    Update.effect crew key ⟨i, sent, some version⟩ stream =
      if sent.key = key then
        (stream.map (fun o ↦ ((crew i).apply o).withVersion version)).filter
          (fun o ↦ !o.metadata.isReleased)
      else stream := rfl

/-- What updates make of the stream under a key, one after the other. -/
def replay (crew : ι → LabelTask) (key : Key) (first : Option ImageStream)
    (updates : List (Update ι)) : Option ImageStream :=
  updates.foldl (fun stream u ↦ u.effect crew key stream) first

theorem replay_concat (crew : ι → LabelTask) (key : Key) (first : Option ImageStream)
    (updates : List (Update ι)) (u : Update ι) :
    replay crew key first (updates ++ [u]) = u.effect crew key (replay crew key first updates) := by
  simp [replay]

/-- The stream was stored at some time: at first, or by an accepted update. -/
def WasStored (base : Store) (updates : List (Update ι)) (stream : ImageStream) : Prop :=
  base.find? .imageStream stream.key = some stream ∨
    ∃ u ∈ updates, ∃ version, u.version = some version ∧ stream = u.sent.withVersion version

section

variable {base : Store} {updates : List (Update ι)} {u : Update ι} {stream : ImageStream}

theorem WasStored.concat (h : WasStored base updates stream) (u : Update ι) :
    WasStored base (updates ++ [u]) stream :=
  h.imp id fun ⟨u', hu', hstored⟩ ↦ ⟨u', List.mem_append_left _ hu', hstored⟩

/-- A refused update stores nothing. -/
theorem wasStored_concat_refused (hrefused : u.version = none) :
    WasStored base (updates ++ [u]) stream ↔ WasStored base updates stream := by
  refine ⟨fun h ↦ h.imp id ?_, fun h ↦ h.concat u⟩
  rintro ⟨u', hu', version, hversion, hstream⟩
  rcases List.mem_append.mp hu' with hold | hnew
  · exact ⟨u', hold, version, hversion, hstream⟩
  · rw [List.mem_singleton.mp hnew, hrefused] at hversion
    exact nomatch hversion

/-- An accepted update stores the stream that was sent, at its new version. -/
theorem wasStored_concat_accepted {version : String} (haccepted : u.version = some version) :
    WasStored base (updates ++ [u]) stream ↔
      WasStored base updates stream ∨ stream = u.sent.withVersion version := by
  constructor
  · rintro (hbase | ⟨u', hu', version', hversion, hstream⟩)
    · exact .inl (.inl hbase)
    · rcases List.mem_append.mp hu' with hold | hnew
      · exact .inl (.inr ⟨u', hold, version', hversion, hstream⟩)
      · obtain rfl := List.mem_singleton.mp hnew
        obtain rfl := Option.some.inj (haccepted.symm.trans hversion)
        exact .inr hstream
  · rintro (hold | hnew)
    · exact hold.concat u
    · exact .inr ⟨u, List.mem_append_right _ (List.mem_singleton_self u), version, haccepted, hnew⟩

/-- What was stored does not have a fresh version. -/
theorem Traffic.IsFresh.ne {t : Traffic ι} {version : String} (hfresh : t.IsFresh base version)
    (h : WasStored base t.updates stream) :
    stream.metadata.resourceVersion ≠ some version := by
  rcases h with hbase | ⟨u, hu, version', hversion, rfl⟩
  · exact hfresh.base _ _ hbase
  · intro hsame
    have hsame' : some version' = some version := hsame
    exact hfresh.updates u hu (hversion.trans hsame')

end

/-! ### What is kept by every turn -/

namespace Traffic

variable {base : Store} {crew : ι → LabelTask} {t t' : Traffic ι}

structure Invariant (base : Store) (crew : ι → LabelTask) (t : Traffic ι) : Prop where
  keyed : t.store.KeyedAt .imageStream
  current : ∀ key stream, t.store.find? .imageStream key = some stream →
    WasStored base t.updates stream
  /-- No two states of a stream have one version. -/
  single : ∀ stream stream', WasStored base t.updates stream → WasStored base t.updates stream' →
    stream.key = stream'.key →
    stream.metadata.resourceVersion = stream'.metadata.resourceVersion → stream = stream'
  /-- What a stage has read was stored at some time. -/
  edits : ∀ i, (t.rest i).Edits (crew i) (fun _ _ ↦ True) (WasStored base t.updates)
  replays : ∀ key, t.store.find? .imageStream key =
    replay crew key (base.find? .imageStream key) t.updates
  /-- An accepted update was made on the stream as it was then. -/
  accepted : ∀ before u after version, t.updates = before ++ u :: after →
    u.version = some version → ∃ stream,
      replay crew u.sent.key (base.find? .imageStream u.sent.key) before = some stream ∧
        (crew u.author).Concerns stream ∧ u.sent = (crew u.author).apply stream
  /-- A refusal ends the work of the stage. -/
  refused : ∀ u ∈ t.updates, u.version = none → ∃ fault, t.rest u.author = .done (.error fault)

/-- Where something else happens, the streams are the same. -/
theorem Invariant.elsewhere (hinv : Invariant base crew t) {store : Store}
    (hsame : store.imageStreams = t.store.imageStreams) :
    Invariant base crew { t with store } := by
  have hfind (key : Key) :
      store.find? .imageStream key = t.store.find? .imageStream key := by
    show store.imageStreams.get? key = t.store.imageStreams.get? key
    rw [hsame]
  exact { hinv with
    keyed := fun key stream hstream ↦ hinv.keyed (hfind key ▸ hstream)
    current := fun key stream hstream ↦ hinv.current key stream (hfind key ▸ hstream)
    replays := fun key ↦ (hfind key).trans (hinv.replays key) }

/-- An update after which what is said of accepted ones holds of all. -/
theorem Invariant.accepted_concat (hinv : Invariant base crew t) {u : Update ι}
    (hnew : ∀ version, u.version = some version → ∃ stream,
      replay crew u.sent.key (base.find? .imageStream u.sent.key) t.updates = some stream ∧
        (crew u.author).Concerns stream ∧ u.sent = (crew u.author).apply stream) :
    ∀ before u' after version, t.updates ++ [u] = before ++ u' :: after →
      u'.version = some version → ∃ stream,
        replay crew u'.sent.key (base.find? .imageStream u'.sent.key) before = some stream ∧
          (crew u'.author).Concerns stream ∧ u'.sent = (crew u'.author).apply stream := by
  intro before u' after version hsplit hversion
  rcases List.eq_nil_or_concat after with rfl | ⟨earlier, last, rfl⟩
  · obtain ⟨rfl, hlast⟩ := List.append_inj' hsplit rfl
    obtain rfl := (List.cons.inj hlast).1
    exact hnew version hversion
  · rw [List.concat_eq_append, ← List.cons_append, ← List.append_assoc] at hsplit
    obtain ⟨hupdates, -⟩ := List.append_inj' hsplit rfl
    exact hinv.accepted before u' earlier version hupdates hversion

/-- A refusal is written down once its author has ended. -/
theorem Invariant.refuse (hinv : Invariant base crew t) {i : ι} {sent : ImageStream} {fault : Fault}
    (hended : t.rest i = .done (.error fault)) :
    Invariant base crew { t with updates := t.updates ++ [⟨i, sent, none⟩] } := by
  have hstored (stream : ImageStream) : WasStored base (t.updates ++ [⟨i, sent, none⟩]) stream ↔
      WasStored base t.updates stream := wasStored_concat_refused rfl
  constructor
  case keyed => exact hinv.keyed
  case current => exact fun key stream hstream ↦ (hstored stream).mpr (hinv.current key stream hstream)
  case single =>
    exact fun stream stream' h h' ↦
      hinv.single stream stream' ((hstored stream).mp h) ((hstored stream').mp h')
  case edits => exact fun j ↦ (hinv.edits j).mono fun stream ↦ (hstored stream).mpr
  case replays =>
    intro key
    rw [replay_concat]
    exact hinv.replays key
  case accepted => exact hinv.accepted_concat nofun
  case refused =>
    intro u hu hnone
    rcases List.mem_append.mp hu with hold | hnew
    · exact hinv.refused u hold hnone
    · obtain rfl := List.mem_singleton.mp hnew
      exact ⟨fault, hended⟩

/-- An update that is accepted was made on the stream as it is. -/
theorem Invariant.accept (hinv : Invariant base crew t) {i : ι} {version : String}
    (hfresh : ∀ stream, WasStored base t.updates stream →
      stream.metadata.resourceVersion ≠ some version)
    {stream stored : ImageStream} (hread : WasStored base t.updates stream)
    (hconcerns : (crew i).Concerns stream)
    (hfound : t.store.find? .imageStream ((crew i).apply stream).key = some stored)
    (hversion : stored.metadata.resourceVersion =
      ((crew i).apply stream).metadata.resourceVersion) :
    Invariant base crew { t with
      store := t.store.letGo (((crew i).apply stream).withVersion version)
      updates := t.updates ++ [⟨i, (crew i).apply stream, some version⟩] } := by
  rw [LabelTask.resourceVersion_apply] at hversion
  have hsent : ((crew i).apply stream).key = stream.key := LabelTask.key_apply
  generalize hwritten : ((crew i).apply stream).withVersion version = written
  have hkey : written.key = stream.key := by
    rw [← hwritten]
    exact hsent
  rw [hsent] at hfound
  -- the copy has the version of the stored stream, so it is the stored stream
  obtain rfl : stored = stream := hinv.single stored stream (hinv.current _ _ hfound) hread
    (hinv.keyed hfound) hversion
  have hstored (other : ImageStream) :
      WasStored base (t.updates ++ [⟨i, (crew i).apply stored, some version⟩]) other ↔
        WasStored base t.updates other ∨ other = written := by
    rw [← hwritten]
    exact wasStored_concat_accepted rfl
  have hnew : written.metadata.resourceVersion = some version := by
    rw [← hwritten]
    rfl
  have hfind (key : Key) := Store.find?_letGo_eq t.store written key
  rw [hkey] at hfind
  constructor
  case keyed =>
    unfold Store.letGo
    split
    · exact hinv.keyed.remove _ _
    · exact hinv.keyed.put _
  case current =>
    intro key other hother
    rw [hfind] at hother
    rw [hstored]
    split at hother
    · exact .inr (Option.some.inj (Option.filter_eq_some_iff.mp hother).1).symm
    · exact .inl (hinv.current key other hother)
  case single =>
    intro other other' h h' hsame hversions
    rcases (hstored other).mp h with hold | rfl <;> rcases (hstored other').mp h' with hold' | rfl
    · exact hinv.single other other' hold hold' hsame hversions
    · exact absurd (hversions.trans hnew) (hfresh other hold)
    · exact absurd (hversions.symm.trans hnew) (hfresh other' hold')
    · rfl
  case edits =>
    exact fun j ↦ (hinv.edits j).mono fun other hother ↦ (hstored other).mpr (.inl hother)
  case replays =>
    intro key
    rw [replay_concat, hfind, Update.effect_accepted, ← hinv.replays key]
    by_cases hhere : key = stored.key
    · rw [if_pos hhere, if_pos (hsent.trans hhere.symm), hhere, hfound, Option.map_some, hwritten]
    · rw [if_neg hhere, if_neg fun h ↦ hhere (h.symm.trans hsent)]
  case accepted =>
    refine hinv.accepted_concat fun _ _ ↦ ⟨stored, ?_, hconcerns, rfl⟩
    rw [hsent, ← hinv.replays, hfound]
  case refused =>
    intro u hu hnone
    rcases List.mem_append.mp hu with hold | hlast
    · exact hinv.refused u hold hnone
    · obtain rfl := List.mem_singleton.mp hlast
      exact nomatch hnone

variable [DecidableEq ι]

/-- A stage that is still at work goes on. -/
theorem Invariant.goOn (hinv : Invariant base crew t) {i : ι}
    (hworking : ∀ result, t.rest i ≠ .done result) {program : Program (Except Fault Unit)}
    (hedits : program.Edits (crew i) (fun _ _ ↦ True) (WasStored base t.updates)) :
    Invariant base crew { t with rest := Function.update t.rest i program } := by
  refine { hinv with edits := fun j ↦ ?_, refused := fun u hu hnone ↦ ?_ }
  · by_cases hj : j = i
    · subst hj
      simpa only [Function.update_self] using hedits
    · simpa only [Function.update_of_ne hj] using hinv.edits j
  · obtain ⟨fault, hfault⟩ := hinv.refused u hu hnone
    have hother : u.author ≠ i := by
      rintro rfl
      exact hworking _ hfault
    exact ⟨fault, by simpa only [Function.update_of_ne hother] using hfault⟩

/-- A call that reads shows what is stored, or fails. -/
theorem Invariant.read (hinv : Invariant base crew t) {i : ι} {request : Request}
    {next : Except Fault request.Reply → Program (Except Fault Unit)}
    (hrest : t.rest i = .ask request next) {reply : Except Fault request.Reply}
    (hreply : request.isRead = true ∧ reply = (Store.serve request t.store).1 ∨
      ∃ fault, reply = .error fault) :
    Invariant base crew { t with rest := Function.update t.rest i (next reply) } := by
  have hedits := hinv.edits i
  rw [hrest] at hedits
  refine hinv.goOn (fun result hdone ↦ nomatch hrest.symm.trans hdone)
    ((hedits.2.2 reply).mono fun stream hstream ↦ ?_)
  rcases hstream with hstream | hshown
  · exact hstream
  · rcases hreply with ⟨hread, rfl⟩ | ⟨fault, rfl⟩
    · obtain ⟨key, hkey⟩ := Request.exists_of_shows_serve hshown
      exact hinv.current key stream hkey
    · exact absurd hshown Request.not_shows_error

/-- A stream that is written is written as it is with the label changed, or refused. -/
theorem Invariant.write (hinv : Invariant base crew t) {i : ι} {version : String}
    (hfresh : t.IsFresh base version) {sent : ImageStream}
    {next : Except Fault ImageStream → Program (Except Fault Unit)}
    (hrest : t.rest i = .ask (.replace .imageStream sent) next)
    {reply : Except Fault ImageStream}
    (hreply : reply = (t.store.update sent version).1 ∨ ∃ fault, reply = .error fault) :
    Invariant base crew ⟨(t.store.update sent version).2, Function.update t.rest i (next reply),
      t.updates ++ [⟨i, sent, if (t.store.update sent version).1.isOk then some version
        else none⟩]⟩ := by
  have hedits := hinv.edits i
  rw [hrest] at hedits
  obtain ⟨⟨stream, hread, hconcerns, rfl⟩, hends, hnext⟩ := hedits
  have hworking (result : Except Fault Unit) : t.rest i ≠ .done result :=
    fun hdone ↦ nomatch hrest.symm.trans hdone
  have hgoesOn : (next reply).Edits (crew i) (fun _ _ ↦ True) (WasStored base t.updates) :=
    (hnext reply).mono fun other hother ↦ hother.resolve_right id
  rcases t.store.update_cases ((crew i).apply stream) version with
    ⟨fault, hupdate⟩ | ⟨stored, hfound, hversion, hupdate⟩
  · rw [hupdate] at hreply ⊢
    have hends' : ∃ fault, next reply = .done (.error fault) := by
      rcases hreply with rfl | ⟨fault', rfl⟩
      · exact ⟨fault, hends rfl fault⟩
      · exact ⟨fault', hends rfl fault'⟩
    obtain ⟨fault', hended⟩ := hends'
    exact (hinv.goOn hworking hgoesOn).refuse ((Function.update_self ..).trans hended)
  · rw [hupdate]
    have haccepted := hinv.accept (fun other hother ↦ hfresh.ne hother) hread hconcerns hfound
      hversion
    exact haccepted.goOn hworking (hgoesOn.mono fun other hother ↦ hother.concat _)

/-- Whatever a turn comes to, the invariant holds after it. -/
theorem Invariant.turn (hinv : Invariant base crew t) (i : ι) {version : String}
    (hfresh : t.IsFresh base version) (fate : Fate) :
    Invariant base crew (t.turn i version fate) := by
  unfold Traffic.turn
  cases hrest : t.rest i with
  | done result => exact hinv
  | observe observation next =>
    have hedits := hinv.edits i
    rw [hrest] at hedits
    exact hinv.goOn (fun result hdone ↦ nomatch hrest.symm.trans hdone) hedits
  | ask request next =>
    have hpermits := hinv.edits i
    rw [hrest] at hpermits
    have hunserved (fault : Fault) := hinv.read hrest (.inr ⟨fault, rfl⟩)
    by_cases hread : request.isRead = true
    · have hserved := Store.serveAs_of_isRead hread version t.store
      have hupdates (accepted : Bool) := Request.updates_of_isRead hread i version accepted
      have hstore : (Store.serve request t.store).2 = t.store :=
        Store.serve_of_isRead hread t.store
      simp only [hserved, hupdates, List.append_nil, hstore]
      cases fate with
      | served => exact hinv.read hrest (.inl ⟨hread, rfl⟩)
      | unanswered fault => exact hunserved fault
      | unserved fault => exact hunserved fault
    · obtain ⟨sent, rfl⟩ := hpermits.1.exists_of_isWrite hread
      cases fate with
      | served => exact hinv.write hfresh hrest (.inl rfl)
      | unanswered fault => exact hinv.write hfresh hrest (.inr ⟨fault, rfl⟩)
      | unserved fault => exact hunserved fault

end Traffic

/-- Two first stages that place their labels on the same input stream. -/
def Fixture.crew (i : Bool) : LabelTask where
  stage := if i then stage "dev" "ci" "p" 0 else stage "qa" "ci" "p" 0

/-- The stages take turns, each with the version for what it writes. -/
def Traffic.turns [DecidableEq ι] (t : Traffic ι) (plan : List (ι × String)) : Traffic ι :=
  plan.foldl (fun t (i, version) ↦ t.turn i version .served) t

end PipelineOperator
