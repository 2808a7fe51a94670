import PipelineOperator.Proofs.Provision.Custody
import PipelineOperator.Proofs.Reconcile.Streams

/-!
Where the image streams come from that are found after a reconciliation. They were there before, or
a live stage built them for the input streams of its pipeline (`supplied_by_reconcileStage`). Only
labels change on them, and only a deleting stage frees one. Where a provisioning succeeds, every
input stream has its verified stream afterwards, and that is the one of its codebase at any time
(`Stage.supplied_of_on_provision`).
-/

set_option autoImplicit false
set_option relaxedAutoImplicit false

namespace PipelineOperator

open Operation

/-- The label is that of the stage under the key, and the stage is being deleted. -/
def Store.Frees (s : Store) (key : Key) (label : String) : Prop :=
  ∃ stage : Stage, s.find? .stage key = some stage ∧ stage.isDeleting = true ∧ stage.label = label

variable {S T : Store} {context : Context} {stage : Stage} {key : Key} {outcome : Outcome}

namespace Stage

theorem supplied_by_provision (context : Context) (hkeyed : S.KeyedAt .imageStream)
    (hfound : S.find? .stage stage.key = some stage) (hlive : stage.isDeleting = false)
    (free : String → Prop) :
    ((provision context stage).on S).2.Hosts (S.Supplies stage free) (fun _ ↦ False) := by
  have hI := S.dependsOn_supply (S.Supplies stage free) (fun _ ↦ False)
  refine (keeps_provision hI (by decide) hfound hlive (fun _ ↦ ?_)
    ⟨fun _ ↦ rfl, S.hosts_supplies hkeyed stage free⟩).2
  have hkinds (k : Kind) (hk : k = .pipeline ∨ k = .imageStream) : k.IsFollowed :=
    hk.elim (fun hk ↦ .inr (.inl hk)) .inl
  have hverified : (VerifiedStreams.serve (stage.withWiring (wiringIn S stage))).Keeps _ :=
    VerifiedStreams.keeps_serve_supplies S (stage.withWiring (wiringIn S stage)) free
  refine Chain.keeps_serve (Chain.keeps_creation hI hkinds hverified
    (Handler.keeps_target hI (by decide) (by decide)) fun _ t ht ↦ ⟨?_, ?_⟩)
  · exact (EnvironmentLabel.keeps_samePipelines S _).1 t ht.1
  · exact EnvironmentLabel.keeps_serve (S.isRetained_supplies stage free) t ht.2

theorem recalled_by_release (context : Context) (hkeyed : S.KeyedAt .imageStream)
    (stage : Stage) : ((release context stage).on S).2.Hosts (S.Recalls (· = stage.label))
      (fun _ ↦ False) := by
  have hretained : IsRetained (· = stage.label) (S.Recalls (· = stage.label)) (fun _ ↦ False) :=
    S.isRetained_recalls fun _ ↦ False.elim
  have hI := Store.dependsOn_hosts (S.Recalls (· = stage.label)) (fun _ ↦ False)
  exact keeps_release hI nofun
    (fun _ ↦ ⟨EnvironmentLabel.keeps_withdraw hretained rfl,
      Handler.keeps_removeTarget hI nofun nofun⟩) S
    (S.hosts_recalls hkeyed fun _ ↦ False.elim)

/-- Where a provisioning succeeded there is a verified stream for every input stream, under the key
of its codebase, unless that key was taken by a stream that was about to vanish. -/
theorem supplied_of_on_provision (hstages : S.KeyedAt .stage) (hkeyed : S.KeyedAt .imageStream)
    (hheld : ∀ codebase stream, S.find? .imageStream (VerifiedStreams.key stage codebase) =
      some stream → stream.metadata.isReleased = false)
    (hfound : S.find? .stage stage.key = some stage) (hlive : stage.isDeleting = false)
    (hok : (provision context stage).on S = (.ok outcome, T)) :
    VerifiedStreams.IsSupplied stage S T := by
  obtain ⟨-, U, status, hchain, rfl⟩ := chain_of_on_provision hstages hfound hlive hok
  have hbefore (key : Key) : (S.put (stage.withWiring (stage.wiringIn S))).find? .imageStream key =
      S.find? .imageStream key := Store.find?_put_of_kind_ne S _ (by decide) key
  have hheld' (codebase : String) (stream : ImageStream)
      (hstream : (S.put (stage.withWiring (stage.wiringIn S))).find? .imageStream
        (VerifiedStreams.key (stage.withWiring (stage.wiringIn S)) codebase) = some stream) :
      stream.metadata.isReleased = false := hheld codebase stream ((hbefore _).symm.trans hstream)
  obtain ⟨pipeline, hpipeline, hsupplied⟩ :=
    Chain.supplied_of_on_creation (hkeyed.put _) hheld' hchain
  refine ⟨pipeline, ?_, fun inputName hname ↦ ?_⟩
  · rw [← Store.find?_put_of_kind_ne S (stage.withWiring (stage.wiringIn S)) (by decide)]
    exact hpipeline
  obtain ⟨codebase, ⟨verified, hverified⟩, hinputs⟩ := hsupplied inputName hname
  refine ⟨codebase, ⟨verified, ?_⟩, fun input hinput ↦ hinputs input ?_⟩
  · rw [Store.find?_put_of_kind_ne U _ (by decide)]
    exact hverified
  · rw [Store.find?_put_of_kind_ne U _ (by decide)] at hinput
    exact hinput.imp_left (hbefore _).trans

end Stage

/-- All streams after a reconciliation are accounted for. -/
theorem supplied_by_reconcileStage (context : Context) (hstages : S.KeyedAt .stage)
    (hkeyed : S.KeyedAt .imageStream) {streamKey : Key} {stream : ImageStream}
    (hfound : ((reconcileStage context key).on S).2.find? .imageStream streamKey = some stream) :
    stream.key = streamKey ∧ (S.Recalls (S.Frees key) stream ∨
      ∃ stage codebase image, S.find? .stage key = some stage ∧ stage.isDeleting = false ∧
        S.Feeds stage codebase ∧
        (VerifiedStreams.build stage (VerifiedStreams.name stage codebase) codebase image).Retains
          (S.Frees key) stream) := by
  rcases on_reconcileStage_cases context key hstages with
    ⟨-, hon⟩ | ⟨stage, rfl, hstage, ⟨hlive, hon⟩ | ⟨hdeleting, hon⟩⟩
  · rw [hon] at hfound
    exact ⟨hkeyed hfound, .inl (S.recalls_self hkeyed hfound)⟩
  · rw [hon] at hfound
    have hhosts := Stage.supplied_by_provision context hkeyed hstage hlive (S.Frees stage.key)
    refine ⟨hhosts.keyed hfound, (hhosts.streams _ _ hfound).imp_right ?_⟩
    rintro ⟨codebase, image, hfeeds, hretains⟩
    exact ⟨stage, codebase, image, hstage, hlive, hfeeds, hretains⟩
  · rw [hon] at hfound
    have hhosts := Stage.recalled_by_release context hkeyed stage
    refine ⟨hhosts.keyed hfound, .inl ?_⟩
    obtain ⟨before, hbefore, hretains⟩ := hhosts.streams _ _ hfound
    exact ⟨before, hbefore,
      hretains.mono fun label hlabel ↦ ⟨stage, hstage, hdeleting, hlabel.symm⟩⟩

end PipelineOperator
