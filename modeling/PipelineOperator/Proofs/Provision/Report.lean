import PipelineOperator.Proofs.Operation.Hindered
import PipelineOperator.Provision.Report

/-!
What a report does to a keyed store: the stored object gets the status, whether the status is
written on its own or with the whole object, and nothing else is touched. If both writes fail
nothing has happened.
-/

set_option autoImplicit false
set_option relaxedAutoImplicit false

namespace PipelineOperator

open Operation

variable {k : Kind} {s : Store} {o : Object k}

namespace StageStatus

/-- The status says that the stage is in place. -/
structure IsRegistration (told : StageStatus) : Prop where
  available : told.available = true
  status : told.status = "created"
  result : told.result = "success"
  action : told.action = "accept_cd_stage_registration"

theorem isRegistered_iff {told : StageStatus} :
    told.isRegistered = true ↔ told.IsRegistration := by
  unfold isRegistered
  simp only [Bool.and_eq_true, beq_iff_eq]
  exact ⟨fun ⟨⟨⟨havailable, hstatus⟩, hresult⟩, haction⟩ ↦ ⟨havailable, hstatus, hresult, haction⟩,
    fun h ↦ ⟨⟨⟨h.available, h.status⟩, h.result⟩, h.action⟩⟩

theorem isRegistration_registered (now : Instant) : (registered now).IsRegistration :=
  isRegistered_iff.mp (isRegistered_registered now)

end StageStatus

/-- Writing the status of an object that is stored but for its status. -/
theorem Store.writeStatus_of_own {old : Option k.Status}
    (hfound : s.find? k o.key = some { o with status := old }) :
    s.writeStatus o = (.ok o, s.put o) := by
  rw [Store.writeStatus, hfound]
  rfl

theorem on_report (hkeyed : s.KeyedAt k) {stored : Object k}
    (hfound : s.find? k o.key = some stored) (status : k.Status) :
    (report o status).on s =
      (.ok { stored with status := some status }, s.put { stored with status := some status }) := by
  unfold report
  have hwritten := hkeyed.writeStatus (o := { o with status := some status }) hfound
  rw [on_tryCatch, on_writeStatus, hwritten]

theorem on_report_of_own {old : Option k.Status}
    (hfound : s.find? k o.key = some { o with status := old }) (status : k.Status) :
    (report o status).on s =
      (.ok { o with status := some status }, s.put { o with status := some status }) := by
  unfold report
  rw [on_tryCatch, on_writeStatus,
    Store.writeStatus_of_own (o := { o with status := some status }) hfound]

/-- Whichever calls fail, the stored object has got the status or is as it was. -/
theorem surely_report_of_held (hheld : o.metadata.isReleased = false) {old : Option k.Status}
    (hfound : s.find? k o.key = some { o with status := old }) (status : k.Status) :
    (report o status).Surely s (fun r s' ↦
      ((∃ e, r = .error e) ∧ s' = s) ∨
        r = .ok { o with status := some status } ∧
          s' = s.put { o with status := some status }) := by
  have hwritten := Store.writeStatus_of_own (o := { o with status := some status }) hfound
  have hreplaced := Store.replace_of_found (o := { o with status := some status }) hfound hheld
  unfold report
  rw [surely_tryCatch, surely_writeStatus, hwritten]
  refine ⟨fun fault ↦ ?_, .inr ⟨rfl, rfl⟩⟩
  rw [surely_replace, hreplaced]
  exact ⟨fun fault ↦ .inl ⟨⟨fault, rfl⟩, rfl⟩, .inr ⟨rfl, rfl⟩⟩

theorem surely_report (hsound : s.Sound) {old : Option k.Status}
    (hfound : s.find? k o.key = some { o with status := old }) (status : k.Status) :
    (report o status).Surely s (fun r s' ↦
      ((∃ e, r = .error e) ∧ s' = s) ∨
        r = .ok { o with status := some status } ∧
          s' = s.put { o with status := some status }) := by
  have hheld : ({ o with status := old } : Object k).metadata.isReleased = false :=
    hsound.held hfound
  exact surely_report_of_held hheld hfound status

/-- The record of a failure never fails itself. -/
theorem surely_reportFailure {stage : Stage} (hsound : s.Sound) {old : Option StageStatus}
    (hfound : s.find? .stage stage.key = some { stage with status := old }) (now : Instant)
    (action : String) (fault : Fault) :
    (reportFailure now stage action fault).Surely s (fun r s' ↦
      r = .ok () ∧ (s' = s ∨ ∃ status, s' = s.put { stage with status := some status })) := by
  unfold reportFailure bestEffort
  rw [surely_tryCatch, surely_bind]
  refine (surely_report hsound hfound _).mono fun r s' hr ↦ ?_
  rcases hr with ⟨⟨e, rfl⟩, rfl⟩ | ⟨rfl, rfl⟩
  · exact ⟨rfl, .inl rfl⟩
  · exact ⟨rfl, .inr ⟨_, rfl⟩⟩

theorem asks_report {allowed : Request → Prop} (status : k.Status)
    (hstatus : allowed (.writeStatus k { o with status := some status }))
    (hreplace : allowed (.replace k { o with status := some status })) :
    (report o status).Asks allowed :=
  (asks_ask hstatus).tryCatch fun _ ↦ asks_ask hreplace

end PipelineOperator
