import PipelineOperator.Object.Pipeline
import PipelineOperator.Object.Stage
import PipelineOperator.Proofs.Json.Reading

/-!
Specifications and statuses round-trip (`Object.specs_and_statuses_roundTrip`). For each type there
is its shape, which says what may be missing and what stands for it, and one line for each of its
parts, in the order in which they are read: how it is written, and whether it has to be there, has a
default or is optional.
-/

set_option autoImplicit false
set_option relaxedAutoImplicit false

namespace PipelineOperator

open Json

theorem Trigger.lossless : Lossless encode decode where
  decode_encode trigger := by cases trigger <;> rfl
  isExact _ := rfl
  isNull _ := rfl

theorem GateKind.lossless : Lossless encode decode where
  decode_encode kind := by cases kind <;> rfl
  isExact _ := rfl
  isNull _ := rfl

theorem SourceKind.lossless : Lossless encode decode where
  decode_encode kind := by cases kind <;> rfl
  isExact _ := rfl
  isNull _ := rfl

namespace QualityGate

def shape : Shape := .record [] ["autotestName", "branchName"] []

theorem roundTrips : RoundTrips shape encode decode :=
  .record
    (.part (.required GateKind.lossless (by decide)) fun _ ↦
      .part (.required .string (by decide)) fun _ ↦
      .part (.optional .string (by decide)) fun _ ↦
      .part (.optional .string (by decide)) fun _ ↦
      .done rfl)
    (fun _ ↦ ⟨_, _, _, _, rfl⟩) (by decide) (by decide)

end QualityGate

namespace Library

def shape : Shape := .record [("branch", .string "")] [] []

theorem roundTrips : RoundTrips shape encode decode :=
  .record
    (.part (.required .string (by decide)) fun _ ↦
      .part (.defaulted .string (by decide)) fun _ ↦
      .done rfl)
    (fun _ ↦ ⟨_, _, rfl⟩) (by decide) (by decide)

end Library

namespace Source

def shape : Shape := .record [("type", .string "default")] ["library"] [("library", Library.shape)]

theorem roundTrips : RoundTrips shape encode decode :=
  .record
    (.part (.defaulted SourceKind.lossless (by decide)) fun _ ↦
      .part (.optionalShaped Library.roundTrips (by simp) (by decide)) fun _ ↦
      .done rfl)
    (fun _ ↦ ⟨_, _, rfl⟩) (by decide) (by decide)

end Source

namespace StageSpec

def shape : Shape :=
  .record [("description", .string ""), ("triggerType", .string "Manual"), ("order", .integer 0),
    ("qualityGates", .array []), ("source", .object [("type", .string "default")]),
    ("jobProvisioning", .string "")]
    [] [("qualityGates", .list QualityGate.shape), ("source", Source.shape)]

theorem roundTrips : RoundTrips shape encode decode :=
  .record
    (.part (.required .string (by decide)) fun _ ↦
      .part (.required .string (by decide)) fun _ ↦
      .part (.defaulted .string (by decide)) fun _ ↦
      .part (.defaulted Trigger.lossless (by decide)) fun _ ↦
      .part (.defaulted .uint32 (by decide)) fun _ ↦
      .part (.defaultedShaped QualityGate.roundTrips.list (by simp) (by decide)) fun _ ↦
      .part (.defaultedShaped Source.roundTrips (by simp) (by decide)) fun _ ↦
      .part (.defaulted .string (by decide)) fun _ ↦
      .done rfl)
    (fun _ ↦ ⟨_, _, _, _, _, _, _, _, rfl⟩) (by decide) (by decide)

end StageSpec

namespace StageStatus

def shape : Shape :=
  .record [("available", .bool false), ("status", .string ""), ("username", .string ""),
    ("action", .string ""), ("result", .string ""), ("value", .string "")]
    ["last_time_updated", "detailed_message"] []

theorem roundTrips : RoundTrips shape encode decode :=
  .record
    (.part (.defaulted .bool (by decide)) fun _ ↦
      .part (.optional .string (by decide)) fun _ ↦
      .part (.defaulted .string (by decide)) fun _ ↦
      .part (.defaulted .string (by decide)) fun _ ↦
      .part (.defaulted .string (by decide)) fun _ ↦
      .part (.defaulted .string (by decide)) fun _ ↦
      .part (.optional .string (by decide)) fun _ ↦
      .part (.defaulted .string (by decide)) fun _ ↦
      .done (by simp))
    (fun _ ↦ ⟨_, _, _, _, _, _, _, _, rfl⟩) (by decide) (by decide)

end StageStatus

namespace PipelineSpec

def shape : Shape :=
  .record [("deploymentType", .string "container"), ("inputDockerStreams", .array []),
    ("applications", .array [])] ["applicationsToPromote"] []

theorem roundTrips : RoundTrips shape encode decode :=
  .record
    (.part (.required .string (by decide)) fun _ ↦
      .part (.defaulted .string (by decide)) fun _ ↦
      .part (.defaulted .strings (by decide)) fun _ ↦
      .part (.defaulted .strings (by decide)) fun _ ↦
      .part (.optional .strings (by decide)) fun _ ↦
      .done rfl)
    (fun _ ↦ ⟨_, _, _, _, _, rfl⟩) (by decide) (by decide)

end PipelineSpec

namespace PipelineStatus

def shape : Shape :=
  .record [("available", .bool false), ("status", .string ""), ("username", .string ""),
    ("action", .string ""), ("result", .string ""), ("value", .string "")]
    ["last_time_updated", "detailed_message", "observed_generation"] []

theorem roundTrips : RoundTrips shape encode decode :=
  .record
    (.part (.defaulted .bool (by decide)) fun _ ↦
      .part (.optional .string (by decide)) fun _ ↦
      .part (.defaulted .string (by decide)) fun _ ↦
      .part (.defaulted .string (by decide)) fun _ ↦
      .part (.defaulted .string (by decide)) fun _ ↦
      .part (.defaulted .string (by decide)) fun _ ↦
      .part (.optional .string (by decide)) fun _ ↦
      .part (.defaulted .string (by decide)) fun _ ↦
      .part (.optional .int64 (by decide)) fun _ ↦
      .done (by simp))
    (fun _ ↦ ⟨_, _, _, _, _, _, _, _, _, rfl⟩) (by decide) (by decide)

end PipelineStatus

/-- Specifications and statuses are read from what is written of them as they were, and so are the
gates, the sources and the libraries within. A document that is read is written as one that is read
as the same value. A member with a default is read like that default when it is missing, wherever in
the document it is, an optional one like null, and an optional one that is missing is not written.
No other members may be missing. -/
theorem Object.specs_and_statuses_roundTrip :
    RoundTrips StageSpec.shape StageSpec.encode StageSpec.decode ∧
      RoundTrips StageStatus.shape StageStatus.encode StageStatus.decode ∧
      RoundTrips PipelineSpec.shape PipelineSpec.encode PipelineSpec.decode ∧
      RoundTrips PipelineStatus.shape PipelineStatus.encode PipelineStatus.decode ∧
      RoundTrips QualityGate.shape QualityGate.encode QualityGate.decode ∧
      RoundTrips Source.shape Source.encode Source.decode ∧
      RoundTrips Library.shape Library.encode Library.decode :=
  ⟨StageSpec.roundTrips, StageStatus.roundTrips, PipelineSpec.roundTrips,
    PipelineStatus.roundTrips, QualityGate.roundTrips, Source.roundTrips, Library.roundTrips⟩

end PipelineOperator
