import PipelineOperator.Cluster.Client
import PipelineOperator.Proofs.Metrics.Totals

/-!
What callers of the client rely on, whatever the server does. A message is accepted, refused with a
report, or lost (`Reception`); from this alone follow the reply to the caller
(`Request.understand_eq`), the category of a failure, and what is counted. A server is any
transport, such as one that gives replies off a list, so a sequence of calls meets every sequence of
replies (`Client.converse_keepsContract`). Programs that are run against the client are counted like
those that are run against the cluster in memory (`Client.meters_backend`).
-/

set_option autoImplicit false
set_option relaxedAutoImplicit false

namespace PipelineOperator

open Client

/-- What came of a message: the server carried it out, refused it, or did not get it or not reply
in a way that can be understood. -/
inductive Reception where
  | accepted
  | refused (report : StatusReport)
  | lost

namespace Request

/-- The reply for which a refusal stands: that there is no such object, or that there is one. -/
def standIn? : (request : Request) → StatusReport → Option request.Reply
  | .get .., report => if report.reason = "NotFound" then some none else none
  | .create .., report => if report.code = 409 then some .alreadyExists else none
  | .replace .., _ => none
  | .writeStatus .., _ => none
  | .setJobConfig .., _ => none
  | .delete .., report => if report.code = 404 then some () else none
  | .listStages .., _ => none
  | .jenkinsEnabled _, _ => none

/-- The reply that a document gives, if it is the object, the list or the report that the request
calls for. -/
def content? : (request : Request) → Json → Option request.Reply
  | .get k _, document => (object? k 0 document).map some
  | .create k _, document => (object? k 0 document).map (fun _ ↦ .created)
  | .replace k _, document => object? k 0 document
  | .writeStatus k _, document => object? k 0 document
  | .setJobConfig .., document => (object? .jenkinsJob 0 document).map (fun _ ↦ ())
  | .delete k _, document => deletion k document
  | .listStages .., document => items document
  | .jenkinsEnabled _, document =>
    (items document : Option (List Jenkins)).map (fun found ↦ !found.isEmpty)

/-- What is counted when the server carries the request out. -/
def accomplishment? : Request → Option Observation
  | .create k _ => some (.created k.name)
  | .replace k _ => some (.updated k.name)
  | .setJobConfig .. => some (.updated Kind.jenkinsJob.name)
  | .delete k _ => some (.deleted k.name)
  | _ => none

theorem understand_eq (request : Request) (reply : HttpReply) :
    request.understand reply =
      unlessRefused reply request.standIn? (content request.content? reply) := by
  cases request <;> rfl

/-- What came of the request's message, by the server's reply to it. -/
def reception (request : Request) : Option HttpReply → Reception
  | none => .lost
  | some reply =>
    match refusal? reply with
    | some report => .refused report
    | none =>
      match (document? reply).bind request.content? with
      | some _ => .accepted
      | none => .lost

end Request

namespace Client

/-- A call on the client: what was asked, what came of the message, and the reply to the caller. -/
structure Exchange where
  request : Request
  reception : Reception
  reply : Except Fault request.Reply

namespace Exchange

/-- The reply says what came of the message. -/
def IsFaithful : Exchange → Prop
  | ⟨.get .., reception, reply⟩ =>
    (reply = .ok none ↔ ∃ report, reception = .refused report ∧ report.reason = "NotFound") ∧
      ((∃ o, reply = .ok (some o)) ↔ reception = .accepted)
  | ⟨.create _ o, reception, reply⟩ =>
    o.metadata.name.isSome = true →
      (reply = .ok .alreadyExists ↔ ∃ report, reception = .refused report ∧ report.code = 409) ∧
        (reply = .ok .created ↔ reception = .accepted) ∧
        ∀ fault, reply = .error fault → fault.label ≠ "conflict"
  | ⟨.delete .., reception, reply⟩ =>
    reply = .ok () ↔
      reception = .accepted ∨ ∃ report, reception = .refused report ∧ report.code = 404
  | ⟨_, reception, reply⟩ => reply.isOk = true ↔ reception = .accepted

/-- The reply is a failure of this category, whatever was being done. -/
def FailsAs (x : Exchange) (category : String) : Prop :=
  ∃ fault, x.reply = .error fault ∧
    ∀ attempts : List Attempt, (attempts.foldl Fault.during fault).label = category

/-- What callers rely on. -/
structure KeepsContract (x : Exchange) : Prop where
  faithful : x.IsFaithful
  /-- A refusal that does not stand for a reply is a failure. -/
  refused : x.request.isNameless = false → ∀ report, x.reception = .refused report →
    x.request.standIn? report = none →
      x.FailsAs (if report.code = 409 then "conflict" else "api_error")
  lost : x.request.isNameless = false → x.reception = .lost → x.FailsAs "client_error"
  /-- What has no name is not sent. -/
  nameless : x.request.isNameless = true → x.reply = .error (.ofCause .unnamed)

/-- The exchange counts in the family for objects of the kind. -/
def counts : CounterFamily → Kind → Exchange → Bool
  | .created, k, ⟨.create k' _, _, .ok .created⟩ => k' = k
  | .updated, k, ⟨.replace k' _, _, .ok _⟩ => k' = k
  | .updated, k, ⟨.setJobConfig .., _, .ok _⟩ => Kind.jenkinsJob = k
  | .deleted, k, ⟨.delete k' _, .accepted, _⟩ => k' = k
  | _, _, _ => false

end Exchange

variable {σ : Type}

/-- What comes of the message of a request. One that cannot be written is not sent. -/
def received (transport : Transport σ) (request : Request) (server : σ) : Reception :=
  if request.isNameless then .lost
  else match request.exchange with
    | .error _ => .lost
    | .ok message => request.reception (transport.send message server).1

/-- Puts requests to the client, one after another. -/
def converse (transport : Transport σ) : List Request → Session σ → List Exchange × Session σ
  | [], s => ([], s)
  | request :: rest, s =>
    let (reply, s') := answer transport request s
    let (exchanges, s'') := converse transport rest s'
    (⟨request, received transport request s.server, reply⟩ :: exchanges, s'')

/-! ### One call -/

/-- The replies to a request, and what is counted, by what came of the message. -/
inductive Answers (request : Request) :
    Reception → Except Fault request.Reply → Option Observation → Prop where
  | accepted {document : Json} {value : request.Reply}
      (hcontent : request.content? document = some value) :
      Answers request .accepted (.ok value) request.accomplishment?
  | tolerated {report : StatusReport} {value : request.Reply}
      (hstands : request.standIn? report = some value) :
      Answers request (.refused report) (.ok value) none
  | refused {report : StatusReport} (attempts : List Attempt)
      (hstands : request.standIn? report = none) :
      Answers request (.refused report) (.error ⟨attempts, .refused report.code⟩) none
  | lost (attempts : List Attempt) :
      Answers request .lost (.error ⟨attempts, .brokenExchange⟩) none

theorem answers_understand (request : Request) (reply : HttpReply) :
    Answers request (request.reception (some reply)) (request.understand reply)
      ((request.understand reply).toOption.bind (fun _ ↦ request.observation? reply)) := by
  cases hrefusal : refusal? reply with
  | some report =>
    have hreceived : request.reception (some reply) = .refused report := by
      simp only [Request.reception, hrefusal]
    have hcounted : request.observation? reply = none := by
      unfold Request.observation?
      rw [hrefusal]
      rfl
    rw [hreceived, hcounted, Option.bind_fun_none, Request.understand_eq]
    cases hstands : request.standIn? report with
    | some value =>
      simp only [unlessRefused, hrefusal, hstands]
      exact .tolerated hstands
    | none =>
      simp only [unlessRefused, hrefusal, hstands]
      exact .refused [] hstands
  | none =>
    have hcounted : request.observation? reply = request.accomplishment? := by
      unfold Request.observation?
      rw [hrefusal]
      rfl
    have hunderstood : request.understand reply = content request.content? reply := by
      rw [Request.understand_eq, unlessRefused, hrefusal]
    rw [hunderstood, hcounted]
    cases hcontent : (document? reply).bind request.content? with
    | none =>
      simp only [Request.reception, hrefusal, content, hcontent]
      exact .lost []
    | some value =>
      obtain ⟨document, -, hvalue⟩ := Option.bind_eq_some_iff.mp hcontent
      simp only [Request.reception, hrefusal, content, hcontent]
      exact .accepted hvalue

/-- Words about what was being done change neither whether a reply is a failure nor its cause. -/
theorem Answers.during {request : Request} {reception : Reception}
    {reply : Except Fault request.Reply} {counted : Option Observation}
    (hanswers : Answers request reception reply counted) {words : Fault → Fault}
    (hwords : ∀ fault, (words fault).cause = fault.cause) :
    Answers request reception (reply.mapError words) counted := by
  have hwrapped (fault : Fault) : ∃ attempts, words fault = ⟨attempts, fault.cause⟩ :=
    ⟨_, by rw [← hwords fault]⟩
  cases hanswers with
  | accepted hcontent => exact .accepted hcontent
  | tolerated hstands => exact .tolerated hstands
  | @refused report attempts hstands =>
    obtain ⟨more, hmore⟩ := hwrapped ⟨attempts, .refused report.code⟩
    change Answers request (.refused report) (.error (words _)) none
    rw [hmore]
    exact .refused more hstands
  | lost attempts =>
    obtain ⟨more, hmore⟩ := hwrapped ⟨attempts, .brokenExchange⟩
    change Answers request .lost (.error (words _)) none
    rw [hmore]
    exact .lost more

/-- A message that cannot be written is a failed exchange. -/
theorem error_of_exchange {request : Request} {fault : Fault}
    (herror : request.exchange = .error fault) : fault = .ofCause .brokenExchange := by
  have hsend {method : HttpMethod} {target : String} {document : Option Json}
      (h : send method target document = .error fault) : fault = .ofCause .brokenExchange := by
    unfold send at h
    split at h
    · exact nomatch h
    · exact (Except.error.inj h).symm
  have hsendTo {method : HttpMethod} {k : Kind} {key : Key} {tail : String}
      {document : Option Json} (h : sendTo method k key tail document = .error fault) :
      fault = .ofCause .brokenExchange := by
    unfold sendTo at h
    split at h
    · exact (Except.error.inj h).symm
    · exact hsend h
  cases request with
  | get | replace | writeStatus | setJobConfig | delete => exact hsendTo herror
  | create | listStages | jenkinsEnabled => exact hsend herror

/-- A call on the client replies by what came of the message, and counts what was done. -/
theorem answers_answer (transport : Transport σ) {request : Request}
    (hnamed : request.isNameless = false) (s : Session σ) : ∃ counted,
    Answers request (received transport request s.server) (answer transport request s).1 counted ∧
      (answer transport request s).2.metrics = counted.toList.foldl Metrics.observe s.metrics := by
  have hperform : ∃ counted,
      Answers request (received transport request s.server) (perform transport request s).1
          counted ∧
        (perform transport request s).2.metrics =
          counted.toList.foldl Metrics.observe s.metrics := by
    cases hexchange : request.exchange with
    | error fault =>
      obtain rfl := error_of_exchange hexchange
      simp only [received, perform, hnamed, hexchange, Bool.false_eq_true, if_false]
      exact ⟨none, .lost [], rfl⟩
    | ok message =>
      rcases hsent : transport.send message s.server with ⟨_ | reply, server⟩
      · simp only [received, perform, hnamed, hexchange, hsent, Bool.false_eq_true, if_false]
        exact ⟨none, .lost [], rfl⟩
      · have hanswers := answers_understand request reply
        simp only [received, perform, hnamed, hexchange, hsent, Bool.false_eq_true, if_false]
        cases hunderstood : request.understand reply with
        | error fault =>
          rw [hunderstood] at hanswers
          exact ⟨none, hanswers, rfl⟩
        | ok value =>
          rw [hunderstood] at hanswers
          exact ⟨_, hanswers, rfl⟩
  obtain ⟨counted, hanswers, hmetrics⟩ := hperform
  simp only [answer, hnamed, Bool.false_eq_true, if_false]
  exact ⟨counted, hanswers.during fun fault ↦ by split <;> rfl, hmetrics⟩

theorem isFaithful_of_answers {request : Request} {reception : Reception}
    {reply : Except Fault request.Reply} {counted : Option Observation}
    (hanswers : Answers request reception reply counted) :
    Exchange.IsFaithful ⟨request, reception, reply⟩ := by
  cases request with
  | get k key =>
    cases hanswers with
    | accepted hcontent =>
      obtain ⟨o, -, rfl⟩ := Option.map_eq_some_iff.mp hcontent
      simp [Exchange.IsFaithful]
    | tolerated hstands =>
      obtain ⟨hreason, hvalue⟩ := Option.ite_none_right_eq_some.mp hstands
      obtain rfl := Option.some.inj hvalue
      simp [Exchange.IsFaithful, hreason]
    | refused attempts hstands =>
      have hreason := ite_eq_right_iff.mp hstands
      simpa [Exchange.IsFaithful] using hreason
    | lost attempts => simp [Exchange.IsFaithful]
  | create k o =>
    intro hname
    cases hanswers with
    | accepted hcontent =>
      obtain ⟨-, -, rfl⟩ := Option.map_eq_some_iff.mp hcontent
      simp
    | tolerated hstands =>
      obtain ⟨hcode, hvalue⟩ := Option.ite_none_right_eq_some.mp hstands
      obtain rfl := Option.some.inj hvalue
      simp [hcode]
    | refused attempts hstands =>
      have hcode := ite_eq_right_iff.mp hstands
      simp_all [Fault.label, Cause.label]
    | lost attempts => simp [Fault.label, Cause.label]
  | delete k key =>
    cases hanswers with
    | accepted hcontent => simp [Exchange.IsFaithful]
    | tolerated hstands =>
      obtain ⟨hcode, -⟩ := Option.ite_none_right_eq_some.mp hstands
      simp [Exchange.IsFaithful, hcode]
    | refused attempts hstands =>
      have hcode := ite_eq_right_iff.mp hstands
      simpa [Exchange.IsFaithful] using hcode
    | lost attempts => simp [Exchange.IsFaithful]
  | replace | writeStatus | setJobConfig | listStages | jenkinsEnabled =>
    cases hanswers with
    | accepted => simp [Exchange.IsFaithful, Except.isOk, Except.toBool]
    | @tolerated _ value hstands => exact absurd hstands.symm (Option.some_ne_none value)
    | refused => simp [Exchange.IsFaithful, Except.isOk, Except.toBool]
    | lost => simp [Exchange.IsFaithful, Except.isOk, Except.toBool]

/-- The category of a failure is that of its cause. -/
theorem label_foldl_during (attempts : List Attempt) (fault : Fault) :
    (attempts.foldl Fault.during fault).label = fault.label := by
  induction attempts generalizing fault with
  | nil => rfl
  | cons attempt rest ih => rw [List.foldl_cons, ih, Fault.label_during]

theorem keepsContract_of_answers {request : Request} {reception : Reception}
    {reply : Except Fault request.Reply} {counted : Option Observation}
    (hnamed : request.isNameless = false) (hanswers : Answers request reception reply counted) :
    Exchange.KeepsContract ⟨request, reception, reply⟩ where
  faithful := isFaithful_of_answers hanswers
  refused := by
    rintro - report rfl hnone
    cases hanswers with
    | tolerated hstands => exact nomatch hnone.symm.trans hstands
    | refused attempts => exact ⟨_, rfl, fun more ↦ label_foldl_during more _⟩
  lost := by
    rintro - rfl
    cases hanswers with
    | lost attempts => exact ⟨_, rfl, fun more ↦ label_foldl_during more _⟩
  nameless hnameless := Bool.noConfusion (hnamed.symm.trans hnameless)

/-- What is counted of a call is what it counts as. -/
theorem count_raises_of_answers {request : Request} {reception : Reception}
    {reply : Except Fault request.Reply} {counted : Option Observation}
    (hanswers : Answers request reception reply counted) (family : CounterFamily) (k : Kind) :
    (counted.toList.flatMap Observation.raises).count (family, [k.name]) =
      if Exchange.counts family k ⟨request, reception, reply⟩ then 1 else 0 := by
  have hname (k' : Kind) : k'.name = k.name ↔ k' = k := ⟨Kind.name_injective, congrArg _⟩
  cases hanswers with
  | accepted hcontent =>
    cases request with
    | create k' o =>
      obtain ⟨-, -, rfl⟩ := Option.map_eq_some_iff.mp hcontent
      cases family <;> simp [Exchange.counts, Request.accomplishment?, Observation.raises,
        List.count_singleton, hname]
    | replace | setJobConfig | delete =>
      cases family <;> simp [Exchange.counts, Request.accomplishment?, Observation.raises,
        List.count_singleton, hname]
    | get | writeStatus | listStages | jenkinsEnabled =>
      cases family <;> rfl
  | @tolerated _ value hstands =>
    cases request with
    | create =>
      obtain ⟨-, hvalue⟩ := Option.ite_none_right_eq_some.mp hstands
      obtain rfl := Option.some.inj hvalue
      cases family <;> rfl
    | get | delete => cases family <;> rfl
    | replace | writeStatus | setJobConfig | listStages | jenkinsEnabled =>
      exact absurd hstands.symm (Option.some_ne_none value)
  | refused attempts hstands => cases request <;> cases family <;> rfl
  | lost attempts => cases request <;> cases family <;> rfl

/-! ### Sequences of calls -/

/-- A creation of what has no name is refused by the client itself. -/
theorem answer_nameless (transport : Transport σ) {request : Request}
    (hnameless : request.isNameless = true) (s : Session σ) :
    answer transport request s = (.error (.ofCause .unnamed), s) := by
  rw [answer, if_pos hnameless]

/-- The call as its caller sees it. -/
def exchanged (transport : Transport σ) (request : Request) (s : Session σ) : Exchange :=
  ⟨request, received transport request s.server, (answer transport request s).1⟩

theorem keepsContract_exchanged (transport : Transport σ) (request : Request) (s : Session σ) :
    (exchanged transport request s).KeepsContract := by
  cases hnameless : request.isNameless with
  | false =>
    obtain ⟨counted, hanswers, -⟩ := answers_answer transport hnameless s
    exact keepsContract_of_answers hnameless hanswers
  | true =>
    have hreply : (exchanged transport request s).reply = .error (.ofCause .unnamed) :=
      congrArg Prod.fst (answer_nameless transport hnameless s)
    refine ⟨?_, fun hnamed ↦ ?_, fun hnamed ↦ ?_, fun _ ↦ hreply⟩
    · cases request with
      | create k o =>
        intro hnamed
        rw [Request.isNameless, Option.isNone_eq_false_iff.mpr hnamed] at hnameless
        exact Bool.noConfusion hnameless
      | get | replace | writeStatus | setJobConfig | delete | listStages | jenkinsEnabled =>
        exact Bool.noConfusion hnameless
    all_goals exact Bool.noConfusion (hnamed.symm.trans hnameless)

/-- A call adds one to the counter in which it counts, and nothing to the others of objects. -/
theorem total_answer (transport : Transport σ) (request : Request) (s : Session σ)
    {family : CounterFamily} (hfamily : family.labels.length = 1) (k : Kind) :
    (answer transport request s).2.metrics.total family [k.name] =
      s.metrics.total family [k.name] +
        if (exchanged transport request s).counts family k then 1 else 0 := by
  cases hnameless : request.isNameless with
  | false =>
    obtain ⟨counted, hanswers, hmetrics⟩ := answers_answer transport hnameless s
    have hcount := count_raises_of_answers hanswers family k
    rw [hmetrics, exchanged, ← hcount]
    cases counted with
    | none => rfl
    | some o =>
      have htells := CounterFamily.tells_single hfamily k.name
      simpa using Metrics.total_observe htells s.metrics o
  | true =>
    have hnone : (exchanged transport request s).counts family k = false := by
      rw [exchanged, answer_nameless transport hnameless s]
      cases request <;> cases family <;> first | rfl | exact Bool.noConfusion hnameless
    rw [answer_nameless transport hnameless s, hnone]
    rfl

/-- What is counted of a call is what was done about objects, and no handler. -/
theorem Answers.ne_handled {request : Request} {reception : Reception}
    {reply : Except Fault request.Reply} {counted : Option Observation}
    (hanswers : Answers request reception reply counted) (name : String) (well : Bool) :
    counted ≠ some (.handled name well) := by
  cases hanswers with
  | accepted => cases request <;> simp [Request.accomplishment?]
  | tolerated | refused | lost => simp

/-- The counters of the client are kept like those of any cluster. -/
theorem meters_backend (transport : Transport σ) :
    (backend transport).Meters Session.metrics where
  record _ _ := rfl
  answer request s name well := by
    change (answer transport request s).2.metrics.total _ _ = _
    cases hnameless : request.isNameless with
    | false =>
      obtain ⟨counted, hanswers, hmetrics⟩ := answers_answer transport hnameless s
      cases counted with
      | none =>
        rw [hmetrics]
        rfl
      | some o =>
        have hother : o ≠ .handled name well := fun h ↦ hanswers.ne_handled name well (h ▸ rfl)
        rw [hmetrics]
        exact (Metrics.total_observe_handlers o s.metrics name well).trans (by simp [hother])
    | true => rw [answer_nameless transport hnameless s]

/-- Whatever the server replies, every call in a sequence keeps the contract, and the counters of
objects created, updated and deleted grow by the calls that count as such. -/
theorem converse_keepsContract (transport : Transport σ) (requests : List Request)
    (s : Session σ) :
    (converse transport requests s).1.map Exchange.request = requests ∧
      (∀ x ∈ (converse transport requests s).1, x.KeepsContract) ∧
      ∀ family ∈ [CounterFamily.created, .updated, .deleted], ∀ k : Kind,
        (converse transport requests s).2.metrics.total family [k.name] =
          s.metrics.total family [k.name] +
            (converse transport requests s).1.countP (Exchange.counts family k) := by
  induction requests generalizing s with
  | nil => exact ⟨rfl, by simp [converse], fun family _ k ↦ rfl⟩
  | cons request rest ih =>
    obtain ⟨hrequests, hcontract, htotal⟩ := ih (answer transport request s).2
    have hfirst : (converse transport (request :: rest) s).1 = exchanged transport request s ::
        (converse transport rest (answer transport request s).2).1 := rfl
    rw [hfirst]
    refine ⟨by rw [List.map_cons, hrequests]; rfl,
      List.forall_mem_cons.mpr ⟨keepsContract_exchanged transport request s, hcontract⟩, ?_⟩
    intro family hfamily k
    have hsingle : family.labels.length = 1 := by
      revert family
      decide
    rw [List.countP_cons, Nat.add_comm (List.countP ..), ← Nat.add_assoc,
      ← total_answer transport request s hsingle k]
    exact htotal family hfamily k

end Client

end PipelineOperator
