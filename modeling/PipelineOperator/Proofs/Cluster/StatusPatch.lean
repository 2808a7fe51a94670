import PipelineOperator.Cluster.Client
import PipelineOperator.Cluster.Fixture
import PipelineOperator.Proofs.Json.MergePatch
import PipelineOperator.Provision.Report

/-!
What a server that applies merge patches holds after a status was written. The message carries the
new status alone, without the optional parts that it leaves out, so the patched document keeps these
from the status before (`StageStatus.onto`, `PipelineStatus.onto`). The written status is there as
it is if it gives every optional part that the one before gave, and then the server holds what the
cluster in memory holds (`patched_writeStatus`). A failure that was reported with a message leaves
the message on the status that follows (`patched_writeStatus_of_failed`).
-/

set_option autoImplicit false
set_option relaxedAutoImplicit false

namespace PipelineOperator

open Json

/-- The document that a server holds after the message, which it applies as a merge patch. -/
def HttpRequest.patched (message : HttpRequest) (document : Json) : Json :=
  message.document.elim document document.mergePatch

/-! ### Statuses over earlier ones -/

namespace StageStatus

/-- The status, with the optional parts that it leaves out taken from an earlier one. -/
def onto (s old : StageStatus) : StageStatus :=
  { s with
    lastTimeUpdated := s.lastTimeUpdated.or old.lastTimeUpdated
    detailedMessage := s.detailedMessage.or old.detailedMessage }

/-- The status gives every optional part that an earlier one gave. -/
def Covers (s old : StageStatus) : Prop :=
  (old.lastTimeUpdated.isSome → s.lastTimeUpdated.isSome) ∧
    (old.detailedMessage.isSome → s.detailedMessage.isSome)

theorem onto_eq_self_iff {s old : StageStatus} : s.onto old = s ↔ s.Covers old := by
  obtain ⟨_, time, _, _, _, _, message, _⟩ := s
  obtain ⟨_, oldTime, _, _, _, _, oldMessage, _⟩ := old
  cases time <;> cases message <;> simp [onto, Covers]

theorem nodup_of_encode {s : StageStatus} {changes : Members} (h : s.encode = .object changes) :
    (changes.map Prod.fst).Nodup := by
  obtain ⟨_, time, _, _, _, _, message, _⟩ := s
  obtain rfl := Json.object.inj h
  cases time <;> cases message <;> simp [member?]

/-- A status that is patched keeps the optional parts that the patch leaves out. -/
theorem decode_mergePatch {members : Members} {old : StageStatus} (s : StageStatus)
    (h : decode (.object members) = some old) :
    decode ((Json.object members).mergePatch s.encode) = some (s.onto old) := by
  obtain ⟨changes, hchanges⟩ : ∃ changes, s.encode = .object changes := ⟨_, rfl⟩
  have hnodup := nodup_of_encode hchanges
  simp only [decode, Option.bind_eq_bind, Option.bind_eq_some_iff, Option.pure_def,
    Option.some.injEq] at h
  obtain ⟨r, hr, _, -, time, htime, _, -, _, -, _, -, _, -, message, hmessage, _, -, rfl⟩ := h
  obtain ⟨rfl, hsingle⟩ := objectRecord?_object hr
  rw [hchanges, mergePatch, members?, Option.getD_some, decode, record?_object,
    objectRecord?_mergeMembers changes hsingle]
  simp only [List.forall_mem_cons, List.not_mem_nil] at hsingle
  obtain ⟨h₁, h₂, h₃, h₄, h₅, h₆, h₇, h₈, -⟩ := hsingle
  simp only [Option.bind_eq_bind, Option.bind_some,
    Members.defaulted_mergeMembers hnodup h₁, Members.optional_mergeMembers hnodup h₂,
    Members.defaulted_mergeMembers hnodup h₃, Members.defaulted_mergeMembers hnodup h₄,
    Members.defaulted_mergeMembers hnodup h₅, Members.defaulted_mergeMembers hnodup h₆,
    Members.optional_mergeMembers hnodup h₇, Members.defaulted_mergeMembers hnodup h₈,
    htime, hmessage]
  obtain ⟨_, newTime, _, _, _, _, newMessage, _⟩ := s
  obtain rfl := Json.object.inj hchanges
  -- which members the patch has depends on which optional parts the new status gives
  cases newTime <;> cases newMessage <;>
    simp [member?, lookup, merged, isNull, mergePatch, onto, bool?, string?, Members.nullable]

end StageStatus

namespace PipelineStatus

/-- The status, with the optional parts that it leaves out taken from an earlier one. -/
def onto (s old : PipelineStatus) : PipelineStatus :=
  { s with
    lastTimeUpdated := s.lastTimeUpdated.or old.lastTimeUpdated
    detailedMessage := s.detailedMessage.or old.detailedMessage
    observedGeneration := s.observedGeneration.or old.observedGeneration }

/-- The status gives every optional part that an earlier one gave. -/
def Covers (s old : PipelineStatus) : Prop :=
  (old.lastTimeUpdated.isSome → s.lastTimeUpdated.isSome) ∧
    (old.detailedMessage.isSome → s.detailedMessage.isSome) ∧
    (old.observedGeneration.isSome → s.observedGeneration.isSome)

theorem onto_eq_self_iff {s old : PipelineStatus} : s.onto old = s ↔ s.Covers old := by
  obtain ⟨_, time, _, _, _, _, message, _, generation⟩ := s
  obtain ⟨_, oldTime, _, _, _, _, oldMessage, _, oldGeneration⟩ := old
  cases time <;> cases message <;> cases generation <;> simp [onto, Covers]

theorem nodup_of_encode {s : PipelineStatus} {changes : Members}
    (h : s.encode = .object changes) : (changes.map Prod.fst).Nodup := by
  obtain ⟨_, time, _, _, _, _, message, _, generation⟩ := s
  obtain rfl := Json.object.inj h
  cases time <;> cases message <;> cases generation <;> simp [member?]

/-- A status that is patched keeps the optional parts that the patch leaves out. -/
theorem decode_mergePatch {members : Members} {old : PipelineStatus} (s : PipelineStatus)
    (h : decode (.object members) = some old) :
    decode ((Json.object members).mergePatch s.encode) = some (s.onto old) := by
  obtain ⟨changes, hchanges⟩ : ∃ changes, s.encode = .object changes := ⟨_, rfl⟩
  have hnodup := nodup_of_encode hchanges
  simp only [decode, Option.bind_eq_bind, Option.bind_eq_some_iff, Option.pure_def,
    Option.some.injEq] at h
  obtain ⟨r, hr, _, -, time, htime, _, -, _, -, _, -, _, -, message, hmessage, _, -,
    generation, hgeneration, rfl⟩ := h
  obtain ⟨rfl, hsingle⟩ := objectRecord?_object hr
  rw [hchanges, mergePatch, members?, Option.getD_some, decode, record?_object,
    objectRecord?_mergeMembers changes hsingle]
  simp only [List.forall_mem_cons, List.not_mem_nil] at hsingle
  obtain ⟨h₁, h₂, h₃, h₄, h₅, h₆, h₇, h₈, h₉, -⟩ := hsingle
  simp only [Option.bind_eq_bind, Option.bind_some,
    Members.defaulted_mergeMembers hnodup h₁, Members.optional_mergeMembers hnodup h₂,
    Members.defaulted_mergeMembers hnodup h₃, Members.defaulted_mergeMembers hnodup h₄,
    Members.defaulted_mergeMembers hnodup h₅, Members.defaulted_mergeMembers hnodup h₆,
    Members.optional_mergeMembers hnodup h₇, Members.defaulted_mergeMembers hnodup h₈,
    Members.optional_mergeMembers hnodup h₉, htime, hmessage, hgeneration]
  obtain ⟨_, newTime, _, _, _, _, newMessage, _, newGeneration⟩ := s
  obtain rfl := Json.object.inj hchanges
  cases newTime <;> cases newMessage <;> cases newGeneration <;>
    simp [member?, lookup, merged, isNull, mergePatch, onto, bool?, string?, Members.nullable,
      int64?_toInt]

end PipelineStatus

namespace Kind

/-- The new status of a stage or a pipeline gives every optional part that the old one gave. -/
def Covers : (k : Kind) → k.Status → k.Status → Prop
  | stage, s, old => StageStatus.Covers s old
  | pipeline, s, old => PipelineStatus.Covers s old
  | _, _, _ => True

/-- The new status of a stage or a pipeline over the old one. -/
def onto : (k : Kind) → k.Status → k.Status → k.Status
  | stage, s, old => StageStatus.onto s old
  | pipeline, s, old => PipelineStatus.onto s old
  | _, s, _ => s

/-- Content that is written under one name is read from what is looked up under it. -/
theorem decodeContent_congr {k : Kind} (hstandard : k.isStandard = false) {r r' : Members}
    (h : lookup "spec" r = lookup "spec" r') : k.decodeContent r = k.decodeContent r' := by
  cases k <;> first
    | exact absurd hstandard (by decide)
    | simp [decodeContent, Members.required, h]

end Kind

namespace Object

variable {k : Kind}

/-- The status with which the object is written gives every optional part that was stored. -/
def CoversStatus (o stored : Object k) : Prop :=
  ∀ s ∈ o.status, ∀ old ∈ stored.status, k.Covers s old

/-- The status with which the object is written, over the stored one. -/
def statusOver (o stored : Object k) : Option k.Status :=
  o.status.map (fun s ↦ stored.status.elim s (k.onto s))

/-- An object by names is read from its single members, each on its own. -/
theorem decode_object_eq_some_iff (hstandard : k.isStandard = false)
    (hstatus : k.hasStatus = true) {members : Members} {o : Object k} :
    decode k (.object members) = some o ↔
      (∀ name ∈ ["metadata", "spec", "status"], occurrences name members ≤ 1) ∧
        members.required "metadata" Metadata.decode = some o.metadata ∧
        k.decodeContent members = some o.spec ∧ k.decodeStatus members = some o.status := by
  have hrecord : record? k (.object members) =
      objectRecord? ["metadata", "spec", "status"] (.object members) := by
    simp [record?, hstandard, hstatus]
  have hfits : headerFits k members = true := by simp [headerFits, hstandard]
  have hmetadata : decodeMetadata k members = members.required "metadata" Metadata.decode := by
    simp [decodeMetadata, hstandard]
  rw [decode, hrecord]
  constructor
  · intro h
    obtain ⟨r, hr, hparts⟩ := Option.bind_eq_some_iff.mp h
    obtain ⟨rfl, hsingle⟩ := objectRecord?_object hr
    simp only [hfits, hmetadata, Bool.not_true, Bool.false_eq_true, if_false,
      Option.bind_eq_bind, Option.bind_eq_some_iff, Option.pure_def, Option.some.injEq] at hparts
    obtain ⟨metadata, hm, spec, hspec, status, hread, rfl⟩ := hparts
    exact ⟨hsingle, hm, hspec, hread⟩
  · rintro ⟨hsingle, hm, hspec, hread⟩
    have hmembers := objectRecord?_mergeMembers [] hsingle
    rw [mergeMembers] at hmembers
    simp [hmembers, hfits, hmetadata, hm, hspec, hread]

/-- Of an object by names, a patch of the status changes the status alone. -/
theorem decode_patchedStatus (hstandard : k.isStandard = false) (hstatus : k.hasStatus = true)
    {members : Members} {stored : Object k} (h : decode k (.object members) = some stored)
    (change : Json) {status : Option k.Status}
    (hread : k.decodeStatus (mergeMembers members [("status", change)]) = some status) :
    decode k ((Json.object members).mergePatch (.object [("status", change)])) =
      some { stored with status } := by
  obtain ⟨hsingle, hmetadata, hspec, -⟩ := (decode_object_eq_some_iff hstandard hstatus).mp h
  have hnodup : (([("status", change)] : Members).map Prod.fst).Nodup := by simp
  have hother (name : String) (hname : name ∈ ["metadata", "spec", "status"])
      (hne : name ≠ "status") :
      lookup name (mergeMembers members [("status", change)]) = lookup name members := by
    simp [lookup_mergeMembers hnodup (hsingle name hname), lookup, Ne.symm hne]
  rw [mergePatch, members?, Option.getD_some, decode_object_eq_some_iff hstandard hstatus]
  refine ⟨fun name hname ↦ occurrences_mergeMembers_le _ (hsingle name hname), ?_, ?_, hread⟩
  · rw [Members.required, hother "metadata" (by simp) (by simp)]
    exact hmetadata
  · rw [Kind.decodeContent_congr hstandard (hother "spec" (by simp) (by simp))]
    exact hspec

end Object

namespace Kind

/-- The kind has a status that is read as a record, and what patches make of it. -/
structure PatchesStatus (k : Kind) (read : Json → Option k.Status) : Prop where
  standard : k.isStandard = false
  hasStatus : k.hasStatus = true
  decodes : ∀ r : Members, k.decodeStatus r = r.optional "status" read
  /-- A status is written by names. -/
  named : ∀ s, ∃ changes, k.encodeStatus s = .object changes
  /-- A status by names keeps what the new one leaves out. -/
  patched : ∀ {members : Members} {old : k.Status} (s : k.Status),
    read (.object members) = some old →
      read ((Json.object members).mergePatch (k.encodeStatus s)) = some (k.onto s old)
  /-- The new status stays as it is if it covers the old one. -/
  covers : ∀ {s old : k.Status}, k.onto s old = s ↔ k.Covers s old
  /-- An object without members is a status that any other covers. -/
  blank : ∃ empty, read (.object []) = some empty ∧ ∀ s, k.Covers s empty

/-- Nothing is kept of a status that is no object: all of it is the new one. -/
theorem PatchesStatus.fresh {k : Kind} {read : Json → Option k.Status} (hk : k.PatchesStatus read)
    {document : Json} (s : k.Status) (h : document.members? = none) :
    read (document.mergePatch (k.encodeStatus s)) = some s := by
  obtain ⟨changes, hchanges⟩ := hk.named s
  obtain ⟨empty, hempty, hcovers⟩ := hk.blank
  rw [hchanges, mergePatch_object_of_members?_eq_none h, ← hchanges, hk.patched s hempty,
    hk.covers.mpr (hcovers s)]

theorem patchesStatus_stage : PatchesStatus .stage StageStatus.decode where
  standard := rfl
  hasStatus := rfl
  decodes _ := rfl
  named _ := ⟨_, rfl⟩
  patched := StageStatus.decode_mergePatch
  covers := StageStatus.onto_eq_self_iff
  blank := ⟨{}, rfl, fun _ ↦ ⟨nofun, nofun⟩⟩

theorem patchesStatus_pipeline : PatchesStatus .pipeline PipelineStatus.decode where
  standard := rfl
  hasStatus := rfl
  decodes _ := rfl
  named _ := ⟨_, rfl⟩
  patched := PipelineStatus.decode_mergePatch
  covers := PipelineStatus.onto_eq_self_iff
  blank := ⟨{}, rfl, fun _ ↦ ⟨nofun, nofun, nofun⟩⟩

end Kind

namespace Object

variable {k : Kind}

/-- The change that writes the status of an object: none is written as null. -/
def statusChange (o : Object k) : Json :=
  match o.status with
  | some s => k.encodeStatus s
  | none => .null

/-- The document gives a status, if any, by names. -/
def NamesStatus (members : Members) : Prop :=
  ∀ value, lookup "status" members = some value → value = .null ∨ value.members?.isSome

/-- What the written status is read over: the stored one, or none if it was not written by
names. -/
theorem decodeStatus_patched {read : Json → Option k.Status} (hk : k.PatchesStatus read)
    {members : Members} (hsingle : occurrences "status" members ≤ 1) {old : Option k.Status}
    (hold : k.decodeStatus members = some old) (o : Object k) :
    ∃ kept : Option k.Status, (kept = none ∨ kept = old) ∧ (NamesStatus members → kept = old) ∧
      k.decodeStatus (mergeMembers members [("status", o.statusChange)]) =
        some (o.status.map (fun s ↦ kept.elim s (k.onto s))) := by
  have hread : k.decodeStatus (mergeMembers members [("status", o.statusChange)]) =
      ((merged o.statusChange (lookup "status" members)).map (Members.nullable read)).getD
        (some none) := by
    rw [hk.decodes, Members.optional_mergeMembers (by simp) hsingle]
    simp [lookup]
  rw [hk.decodes, Members.optional_eq_lookup hsingle] at hold
  rw [hread]
  cases hstatus : o.status with
  | none =>
    refine ⟨old, .inr rfl, fun _ ↦ rfl, ?_⟩
    simp [statusChange, hstatus, merged, isNull]
  | some s =>
    obtain ⟨changes, hchanges⟩ := hk.named s
    have hmerged (value : Option Json) : merged o.statusChange value =
        some ((value.getD .null).mergePatch (k.encodeStatus s)) := by
      simp [merged, statusChange, hstatus, hchanges, isNull]
    have hobject (document : Json) : Members.nullable read
        (document.mergePatch (k.encodeStatus s)) =
          (read (document.mergePatch (k.encodeStatus s))).map some := by
      rw [hchanges, mergePatch]
      rfl
    rw [hmerged, Option.map_some, Option.getD_some, hobject]
    cases hvalue : lookup "status" members with
    | none =>
      obtain rfl : none = old := by simpa [hvalue] using hold
      exact ⟨none, .inr rfl, fun _ ↦ rfl, by simp [hk.fresh s (rfl : Json.null.members? = none)]⟩
    | some value =>
      have hvalue' : Members.nullable read value = some old := by simpa [hvalue] using hold
      rw [Option.getD_some]
      cases value with
      | null =>
        obtain rfl : none = old := by simpa [Members.nullable] using hvalue'
        exact ⟨none, .inr rfl, fun _ ↦ rfl, by simp [hk.fresh s (rfl : Json.null.members? = none)]⟩
      | object members =>
        obtain ⟨previous, hprevious, rfl⟩ : ∃ previous, read (.object members) = some previous ∧
            some previous = old := by simpa [Members.nullable] using hvalue'
        exact ⟨some previous, .inr rfl, fun _ ↦ rfl, by simp [hk.patched s hprevious]⟩
      | _ =>
        refine ⟨none, .inl rfl, fun hnamed ↦ ?_, ?_⟩
        · exact absurd (hnamed _ hvalue) (by simp [members?])
        · rw [hk.fresh s (by rfl)]
          rfl

/-- A written status stays as it is over the stored one if it covers it. -/
theorem statusOver_eq_iff {read : Json → Option k.Status} (hk : k.PatchesStatus read)
    (o stored : Object k) : o.statusOver stored = o.status ↔ o.CoversStatus stored := by
  unfold statusOver CoversStatus
  cases o.status <;> cases stored.status <;> simp [hk.covers]

/-- What a server holds of an object by names after its status was written. -/
theorem decode_patched {read : Json → Option k.Status} (hk : k.PatchesStatus read)
    {members : Members} {stored : Object k} (h : decode k (.object members) = some stored)
    (o : Object k) :
    ∃ kept : Option k.Status, (kept = none ∨ kept = stored.status) ∧
      (NamesStatus members → kept = stored.status) ∧
      decode k ((Json.object members).mergePatch (.object [("status", o.statusChange)])) =
        some { stored with status := o.status.map (fun s ↦ kept.elim s (k.onto s)) } := by
  obtain ⟨hsingle, -, -, hold⟩ := (decode_object_eq_some_iff hk.standard hk.hasStatus).mp h
  obtain ⟨kept, hkept, hnamed, hread⟩ :=
    decodeStatus_patched hk (hsingle "status" (by simp)) hold o
  exact ⟨kept, hkept, hnamed, decode_patchedStatus hk.standard hk.hasStatus h _ hread⟩

end Object

/-- A stage whose last reconciliation failed. -/
def Fixture.failedStage : Stage :=
  { Fixture.stage "dev" "ci" "p" 0 with
    status := some (StageStatus.failed "setup_initial_structure" "no registry" ⟨0, 0⟩) }

/-- The same stage after it was provisioned. -/
def Fixture.registeredStage : Stage :=
  { Fixture.failedStage with status := some (StageStatus.registered ⟨0, 0⟩) }

/-- A pipeline before its specification was changed, and after it was worked off. -/
def Fixture.readyPipeline (generation : Int64) : Pipeline :=
  { Fixture.pipeline "p" "ci" ["img-a"] ["cb-a"] [] with
    status := some (PipelineStatus.ready (some generation) ⟨0, 0⟩) }

/-- The message with which a status is written is a patch that gives the status alone. -/
theorem Request.document_of_exchange_writeStatus {k : Kind} {o : Object k} {message : HttpRequest}
    (h : (Request.writeStatus k o).exchange = .ok message) :
    message.document = some (.object [("status", o.statusChange)]) := by
  change Client.sendTo .patch k o.key "/status?" (some (.object [("status", o.statusChange)])) =
    .ok message at h
  unfold Client.sendTo Client.send at h
  split at h
  · cases h
  · split at h <;> cases h
    rfl

/-- A status that is written to a server which applies merge patches is stored as it is, and the
server then holds what the cluster in memory does, if the status gives every optional part that the
stored one gave. If the stored one is written by names, it is so only then: of each other optional
part the server keeps what was stored. -/
theorem patched_writeStatus {k : Kind} (hk : k = .stage ∨ k = .pipeline) {members : Members}
    {stored o : Object k} {store : Store} {message : HttpRequest}
    (hdocument : Object.decode k (.object members) = some stored)
    (hstored : store.find? k o.key = some stored)
    (hsent : (Request.writeStatus k o).exchange = .ok message) :
    (store.writeStatus o).2.find? k o.key = some { stored with status := o.status } ∧
      (o.CoversStatus stored →
        Object.decode k (message.patched (.object members)) =
          some { stored with status := o.status }) ∧
      (Object.NamesStatus members →
        Object.decode k (message.patched (.object members)) =
          some { stored with status := o.statusOver stored }) ∧
      (o.statusOver stored = o.status ↔ o.CoversStatus stored) := by
  obtain ⟨read, hreads⟩ : ∃ read, k.PatchesStatus read := by
    rcases hk with rfl | rfl
    · exact ⟨_, Kind.patchesStatus_stage⟩
    · exact ⟨_, Kind.patchesStatus_pipeline⟩
  obtain ⟨kept, hkept, hnamed, hpatched⟩ := Object.decode_patched hreads hdocument o
  have hcovers := Object.statusOver_eq_iff hreads o stored
  have hmemory : (store.writeStatus o).2.find? k o.key = some { stored with status := o.status } := by
    rw [Store.writeStatus, hstored, Store.find?, Store.table_setTable_self,
      SortedMap.get?_insert_self]
  rw [HttpRequest.patched, Request.document_of_exchange_writeStatus hsent, Option.elim_some]
  refine ⟨hmemory, fun hcovered ↦ ?_, fun hnames ↦ ?_, hcovers⟩
  · rw [hpatched]
    rcases hkept with rfl | rfl
    · simp
    · have hover : o.status.map (fun s ↦ stored.status.elim s (k.onto s)) = o.status :=
        hcovers.mpr hcovered
      rw [hover]
  · rw [hpatched, hnamed hnames]
    rfl

theorem patched_writeStatus_withStage :
    (∃ members message,
      Object.decode .stage (.object members) = some Fixture.registeredStage ∧
        (Request.writeStatus .stage Fixture.failedStage).exchange = .ok message ∧
        Object.decode .stage (message.patched (.object members)) = some Fixture.failedStage) ∧
      ∃ members message,
        Object.decode .pipeline (.object members) = some (Fixture.readyPipeline 1) ∧
          (Request.writeStatus .pipeline (Fixture.readyPipeline 2)).exchange = .ok message ∧
          Object.decode .pipeline (message.patched (.object members)) =
            some (Fixture.readyPipeline 2) := by
  have hfailed : Fixture.failedStage.CoversStatus Fixture.registeredStage := by
    simp [Object.CoversStatus, Fixture.failedStage, Fixture.registeredStage, Kind.Covers,
      StageStatus.Covers, StageStatus.failed, StageStatus.registered]
  have hready : (Fixture.readyPipeline 2).CoversStatus (Fixture.readyPipeline 1) := by
    simp [Object.CoversStatus, Fixture.readyPipeline, Kind.Covers, PipelineStatus.Covers,
      PipelineStatus.ready]
  constructor
  · have hstored : (({} : Store).put Fixture.registeredStage).find? .stage
        Fixture.failedStage.key = some Fixture.registeredStage := rfl
    have hread : Object.decode .stage Fixture.registeredStage.encode =
        some Fixture.registeredStage := rfl
    exact ⟨_, _, hread, rfl, (patched_writeStatus (.inl rfl) hread hstored rfl).2.1 hfailed⟩
  · have hstored : (({} : Store).put (Fixture.readyPipeline 1)).find? .pipeline
        (Fixture.readyPipeline 2).key = some (Fixture.readyPipeline 1) := rfl
    have hread : Object.decode .pipeline (Fixture.readyPipeline 1).encode =
        some (Fixture.readyPipeline 1) := rfl
    exact ⟨_, _, hread, rfl, (patched_writeStatus (.inr rfl) hread hstored rfl).2.1 hready⟩

/-- A stage that failed and is then registered keeps the message of its failure, which it does not
in memory. -/
theorem patched_writeStatus_of_failed :
    ((({} : Store).put Fixture.failedStage).writeStatus Fixture.registeredStage).1 =
        .ok Fixture.registeredStage ∧
      ∃ members message,
        Object.decode .stage (.object members) = some Fixture.failedStage ∧
          (Request.writeStatus .stage Fixture.registeredStage).exchange = .ok message ∧
          Object.decode .stage (message.patched (.object members)) =
            some { Fixture.registeredStage with
              status := some { StageStatus.registered ⟨0, 0⟩ with
                detailedMessage := some "no registry" } } ∧
          Object.decode .stage (message.patched (.object members)) ≠
            some Fixture.registeredStage := by
  refine ⟨rfl, _, _, (rfl : Object.decode .stage Fixture.failedStage.encode = _), rfl, rfl, ?_⟩
  intro h
  have hmessage : some "no registry" = (none : Option String) :=
    congrArg (fun o : Option Stage ↦ (o.bind (·.status)).bind (·.detailedMessage)) h
  cases hmessage

end PipelineOperator
